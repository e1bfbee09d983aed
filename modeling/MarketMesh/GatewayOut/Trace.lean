import MarketMesh.GatewayOut.Tables

/-!
# The histories of a gateway-out session

The counterpart of `GatewayIn/Trace.lean`.

* `Session.Ordered` says that nothing overtakes within a send queue.
* `Session.Queued` and `Session.Handled` tie the histories of the session to those of its
  conversations.  They need that no Open arrives for an identifier that had one already
  (`Session.freshOpen`); the peer's identifiers are fresh, so its Opens are.
-/

set_option autoImplicit false

namespace MarketMesh.GatewayOut

open Protocol Machine

/-- The frame the receive loop received and that no conversation has handled. -/
def Receiver.hand : Receiver → List ConnectResponse
  | .rejecting frame _ | .reserving frame _ | .data _ frame | .halfClose _ frame | .late frame =>
    [frame]
  | .stopped hand _ => hand.toList
  | _ => []

@[simp] theorem Receiver.hand_idle : Receiver.idle.hand = [] := rfl

@[simp] theorem Receiver.hand_late (frame : ConnectResponse) :
    (Receiver.late frame).hand = [frame] :=
  rfl

/-- The frame a move handles when it returns no error. -/
def Move.frame? : Move → Option ConnectResponse
  | .data frame _ | .halfClose frame | .credit frame | .cancel frame | .late frame => some frame
  | _ => none

namespace Conv

variable {p : Params} {env : Env} {x x' : Conv} {m : Move} {fs : List ConnectRequest}
  {err : Option Err}

theorem Step.queued_eq (h : Step p env x m x' fs err) : x'.queued = x.queued ++ fs := by
  cases h <;> simp

/-- The queued frames carry the class of their request. -/
def Classed (x : Conv) : Prop :=
  ∀ f ∈ x.queued, f.header.trafficClass = x.request.route.trafficClass

/-- The first frame a conversation handled is its Open. -/
def Opened (x : Conv) : Prop :=
  ∃ (f : ConnectResponse) (request : Open), x.handled.head? = some f ∧
    f.payload = .opened request ∧ f.header.sequence = 1

theorem Step.handled_eq (h : Step p env x m x' fs none) :
    x'.handled = x.handled ++ m.frame?.toList := by
  cases h with
  | claimed hs | unclaimed hs | goes hs => cases hs <;> simp [Move.frame?]
  | contextDone hm => obtain ⟨rfl, -⟩ | ⟨rfl, -⟩ := hm <;> simp [Move.frame?]
  | _ => simp [Move.frame?]

/-- A move that returns an error may have taken the bytes of a Data nevertheless. -/
theorem Step.handled_eq_of_error {e} (h : Step p env x m x' fs (some e)) :
    x'.handled = x.handled ++
      match m with
      | .data frame _ => if (x.request.takeData p frame.data).isSome then [frame] else []
      | _ => [] := by
  cases h with
  | violation hm hd =>
    cases m with
    | data frame choice => simp [hd frame choice rfl]
    | _ => simp
  | dataRefused htakes => simp [htakes.takeData_eq]
  | openRefused => simp

theorem Step.handled_of_none (h : Step p env x m x' fs err) (hm : m.frame? = none) :
    x'.handled = x.handled := by
  cases err with
  | none => simpa [hm] using h.handled_eq
  | some =>
    rw [h.handled_eq_of_error]
    cases m <;> first | exact List.append_nil _ | cases hm

theorem Step.handled_of_late {frame} (h : Step p env x (.late frame) x' fs err) :
    x'.handled = x.handled ++ [frame] := by
  cases h with
  | claimed hs | unclaimed hs | goes hs => cases hs
  | contextDone hm => simp at hm
  | violation hm => cases hm
  | late => rfl

theorem Step.prefix_of_handled (h : Step p env x m x' fs err) : x.handled <+: x'.handled := by
  cases err with
  | none => rw [h.handled_eq]; exact List.prefix_append _ _
  | some => rw [h.handled_eq_of_error]; exact List.prefix_append _ _

theorem Opened.step (hx : x.Opened) (h : Step p env x m x' fs err) : x'.Opened := by
  obtain ⟨f, request, hf, hk, hseq⟩ := hx
  obtain ⟨rest, hrest⟩ := h.prefix_of_handled
  refine ⟨f, request, ?_, hk, hseq⟩
  rw [← hrest, List.head?_append, hf]
  rfl

end Conv

namespace Session

variable {p : Params} {s s' : Session} {a : Action} {k : Ref} {m : Move}
  {ok : Session → Action → Prop}

theorem framed (h : Reach (step p) ok {} s) :
    ∀ x ∈ s.convs, x.Framed :=
  forall_convs (P := Conv.Framed)
    ⟨fun _ _ _ _ _ _ h ↦ (by cases h), fun _ _ _ _ _ _ h ↦ (by cases h)⟩ (fun h hx ↦ hx.step h) h

/-! ## The send queues -/

/-- Within a queue nothing overtakes. -/
def Ordered (s : Session) : Prop :=
  Fifo.Conserved (fun f : ConnectRequest ↦ queue f.header.trafficClass) s.outbound

theorem ordered (h : Reach (step p) ok {} s) : s.Ordered :=
  h.invariant (P := Ordered) (fun _ ↦ rfl) fun _ _ _ hreach hs _ hstep ↦
    Fifo.Conserved.step hs (step_queues (framed hreach) (tabled hreach).2 hstep)

theorem step_received (h : s.step p a = some s') :
    s'.received = s.received ∨
      ∃ frame now, a = .recv frame now ∧ s'.received = s.received ++ [frame] := by
  cases step_change h with
  | same _ _ _ hv | waited _ _ _ hv | tunnel _ _ _ _ hv | rejected _ _ _ _ _ hv
  | reserved _ _ _ _ hv | moved _ _ _ _ _ hv => exact .inl hv
  | looked _ _ _ _ hv | applied _ _ _ _ _ _ _ _ hv => exact .inr ⟨_, _, rfl, hv⟩

/-! ## The frames of one conversation -/

/-- No Open arrives for an identifier that had one already. -/
def freshOpen (s : Session) : Action → Bool
  | .recv frame _ =>
    match frame.payload with
    | .opened _ => s.convs.all fun x ↦ x.request.requestID ≠ frame.header.requestId
    | _ => true
  | _ => true

/-- The runs in which the peer opens no request twice. -/
abbrev Runs (p : Params) : Session → Prop :=
  Reach (step p) (fun s a ↦ s.freshOpen a = true) {}

/-- The Open in hand is of an identifier that has no conversation. -/
def Unused (s : Session) : Prop :=
  ∀ frame : ConnectResponse,
    ((∃ code, s.receiver = .rejecting frame code) ∨ ∃ route, s.receiver = .reserving frame route) →
    ∀ x ∈ s.convs, x.request.requestID ≠ frame.header.requestId

theorem Unused.init : Unused {} := by
  intro frame h x hx
  simp at hx

theorem Unused.step (hs : s.Unused) (hfresh : s.freshOpen a = true)
    (h : s.step p a = some s') : s'.Unused := by
  intro frame hreceiver
  -- an Open that stays in hand stays unused, since conversations keep their identifiers
  have hkeep : ∀ {env : Env} {k : Ref} {x x' : Conv} {m : Move} {fs : List ConnectRequest}
      {err : Option Err},
      s.convs[k]? = some x → Conv.Step p env x m x' fs err → s'.convs = s.convs.set k x' →
      s'.receiver = s.receiver → ∀ y ∈ s'.convs, y.request.requestID ≠ frame.header.requestId := by
    intro env k x x' m fs err hx hstep hi hr y hy
    rw [hr] at hreceiver
    rw [hi] at hy
    rcases List.mem_or_eq_of_mem_set hy with hy | rfl
    · exact hs frame hreceiver y hy
    · rw [hstep.request_eq.2.1]
      exact hs frame hreceiver x (List.mem_of_getElem? hx)
  cases step_change h with
  | same hi ha hr => rw [hi]; exact hs frame (hr ▸ hreceiver)
  | tunnel hadm hi ha hr =>
    obtain hr | ⟨-, hr⟩ := hr
    · rw [hi]; exact hs frame (hr ▸ hreceiver)
    · rw [hr] at hreceiver; simp at hreceiver
  | waited hi ha hr =>
    rw [hi]
    generalize s'.receiver = receiver at hr hreceiver
    cases hr with
    | full hres =>
      obtain ⟨code, hr⟩ | ⟨route, ⟨⟩⟩ := hreceiver
      obtain ⟨rfl, -⟩ := Receiver.rejecting.inj hr
      exact hs _ (.inr ⟨_, hres⟩)
    | _ => simp at hreceiver
  | @looked frame' now _ hi ha hidle hr =>
    -- the Open just arrived
    have hopen : ∀ request, frame'.payload = .opened request →
        ∀ x ∈ s.convs, x.request.requestID ≠ frame'.header.requestId := by
      intro request hk x hx
      simp only [freshOpen, hk] at hfresh
      simpa using List.all_eq_true.mp hfresh x hx
    rw [hi]
    generalize s'.receiver = receiver at hr hreceiver
    cases hr with
    | rejecting hadm hk | reserving hadm hk =>
      obtain ⟨code, hr⟩ | ⟨route, hr⟩ := hreceiver <;> cases hr
      exact hopen _ hk
    | _ => simp at hreceiver
  | applied hidle hadm hlookup hx hstep hi ha hr =>
    generalize s'.receiver = receiver at hr hreceiver
    cases hr <;> simp at hreceiver
  | rejected _ _ _ _ hr | reserved _ _ _ hr => rw [hr] at hreceiver; simp at hreceiver
  | @moved _ _ k x x' m fs err hx hstep hi ha hr =>
    generalize hr' : s'.receiver = receiver at hr
    cases hr with
    | worker | session | release | abort => exact hkeep hx hstep hi hr'
    | openAborted | completed =>
      rw [hr'] at hreceiver
      by_cases ht : x.request.terminal <;> simp [ht] at hreceiver
    | _ => rw [hr'] at hreceiver; simp at hreceiver

/-- The Credit of an Open is the one the receive loop holds. -/
theorem enqueueOpen_of {x x' err receiver} (hheld : Held p s)
    (hx : s.convs[k]? = some x) (hr : Advances p s k x x' a m err receiver) :
    ∀ f choice, m = .enqueueOpen f choice → Of x f.header := by
  intro f choice hm
  subst hm
  have hnum : s.receiver = .openNumbered k f := by
    cases hr with
    | worker hm => obtain hm | ⟨e, hm⟩ := hm <;> cases hm
    | openGranted hnum | openRefused hnum => exact hnum
  rw [Held, hnum] at hheld
  obtain ⟨y, hy, hof⟩ := hheld
  cases hy.symm.trans hx
  exact hof

/-- The accepted frames that name a conversation are those it queued. -/
abbrev Queued (s : Session) : Prop :=
  Demux.Attributed (fun f : ConnectRequest ↦ f.header.requestId)
    (fun x : Conv ↦ x.request.requestID) (·.queued) (· = []) s.convs s.accepted

/-- The received frames that name a conversation are those it handled, apart from the one the
receive loop holds. -/
def Handled (s : Session) : Prop :=
  ∃ log, s.received = log ++ s.receiver.hand ∧
    Demux.Attributed (fun f : ConnectResponse ↦ f.header.requestId)
      (fun x : Conv ↦ x.request.requestID) (·.handled) (· = []) s.convs log

theorem Queued.step (hs : s.Queued) (hframed : ∀ x ∈ s.convs, x.Framed) (hheld : Held p s)
    (hunused : s.Unused) (h : s.step p a = some s') : s'.Queued := by
  unfold Queued at hs ⊢
  cases step_change h with
  | same hi ha | waited hi ha | looked hi ha => rwa [hi, ha]
  | tunnel hadm hi ha =>
    rw [hi, ha]
    exact hs.skip fun f hf ↦ by rw [List.mem_singleton.mp hf]; rfl
  | applied hidle hadm hlookup hx hstep hi ha =>
    rw [hi, ha, ← List.append_nil s.accepted]
    exact hs.record hx hstep.request_eq.2.1 hstep.queued_eq (by simp)
  | @rejected frame code choice _ hrej hadm hi ha =>
    rw [Held, hrej] at hheld
    rw [hi, ha]
    refine hs.add (hunused frame (.inl ⟨code, hrej⟩)) hheld.1.requestId_ne_nil (fun f hf ↦ ?_) rfl
    simp only [rejection, List.mem_cons, List.not_mem_nil, or_false] at hf
    obtain rfl | rfl := hf <;> rfl
  | @reserved frame route _ hres hi ha =>
    rw [Held, hres] at hheld
    rw [hi, ha, ← List.append_nil s.accepted]
    exact hs.add (hunused frame (.inr ⟨route, hres⟩)) hheld.1.requestId_ne_nil (by simp) rfl
  | @moved _ _ k x x' m fs err hx hstep hi ha hr =>
    rw [hi, ha]
    refine hs.record hx hstep.request_eq.2.1 hstep.queued_eq fun f hf ↦ ?_
    refine (hstep.frame_of (hframed x (List.mem_of_getElem? hx)) (fun g choice hm ↦ ?_) f hf).1
    exact enqueueOpen_of hheld hx hr g choice hm

theorem Handled.step (hs : s.Handled) (htab : s.Tabled) (hheld : Held p s) (hunused : s.Unused)
    (h : s.step p a = some s') : s'.Handled := by
  obtain ⟨log, hlog, hs⟩ := hs
  cases step_change h with
  | same hi ha hr hv => exact ⟨log, by rw [hv, hr, hlog], by rwa [hi]⟩
  | tunnel hadm hi ha hr hv =>
    refine ⟨log, ?_, by rwa [hi]⟩
    obtain hr | ⟨⟨nonce, hp⟩, hr⟩ := hr
    · rw [hv, hr, hlog]
    · rw [hv, hr, hlog, hp]; rfl
  | waited hi ha hr hv =>
    refine ⟨log, ?_, by rwa [hi]⟩
    rw [hv, hlog]
    generalize s'.receiver = receiver at hr
    cases hr <;> rename_i hreceiver <;> rw [hreceiver] <;> rfl
  | @looked frame now _ hi ha hidle hr hv =>
    replace hlog : s.received = log := by rw [hlog, hidle]; exact List.append_nil _
    rw [Handled, hv, hlog]
    -- a frame of the tunnel is done with
    have hskip : frame.payload.ofRequest = false → admitsInbound p frame = true →
        Demux.Attributed (fun f : ConnectResponse ↦ f.header.requestId)
          (fun x : Conv ↦ x.request.requestID) (·.handled) (· = []) s'.convs (log ++ [frame]) := by
      intro hk hadm
      rw [hi]
      refine hs.skip fun f hf ↦ ?_
      rw [List.mem_singleton.mp hf]
      exact (valid_of_admitsInbound hadm).requestId_eq_nil hk
    generalize s'.receiver = receiver at hr
    cases hr with
    | stopped | rejecting | reserving | late => exact ⟨log, rfl, by rwa [hi]⟩
    | pong hadm hk =>
      exact ⟨log ++ [frame], (List.append_nil _).symm, hskip (by rw [hk]; rfl) hadm⟩
    | control hadm hk =>
      refine ⟨log ++ [frame], (List.append_nil _).symm, hskip ?_ hadm⟩
      obtain ⟨_, hk⟩ | ⟨_, hk⟩ := hk <;> rw [hk] <;> rfl
  | @applied frame now _ k x x' m hidle hadm hlookup hx hstep hi ha hr hv =>
    replace hlog : s.received = log := by rw [hlog, hidle]; exact List.append_nil _
    have hid : frame.payload.ofRequest = true → frame.header.requestId = x.request.requestID := by
      intro hk
      obtain ⟨y, hy, hid⟩ := htab.requests hlookup
      cases hy.symm.trans hx
      rw [hid, OpaqueID.toList_copy (requestId_length hadm hk)]
    have hhandled := hstep.handled_eq
    rw [Handled, hv, hlog, hi]
    generalize s'.receiver = receiver at hr
    cases hr with
    | data | halfClose =>
      refine ⟨log, rfl, ?_⟩
      rw [← List.append_nil log]
      exact hs.record hx hstep.request_eq.2.1 hhandled (by simp)
    | credit hk | cancel hk =>
      refine ⟨log ++ [frame], (List.append_nil _).symm, ?_⟩
      exact hs.record hx hstep.request_eq.2.1 hhandled
        (by simpa [Move.frame?] using hid (by rw [hk]; rfl))
  | @rejected frame _ _ _ hopen hadm hi ha hr hv | @reserved frame _ _ hopen hi ha hr hv =>
    rw [Held, hopen] at hheld
    refine ⟨log ++ [frame], ?_, ?_⟩
    · rw [hv, hr, hlog, hopen]
      simp [Receiver.hand]
    · rw [hi]
      exact hs.add (hunused frame (by simp [hopen])) hheld.1.requestId_ne_nil (by simp; rfl) rfl
  | @moved _ _ k x x' m fs err hx hstep hi ha hr hv =>
    -- the conversation takes what leaves the hand
    have hmove : ∀ new, x'.handled = x.handled ++ new →
        (∀ f ∈ new, f.header.requestId = x.request.requestID) →
        s.receiver.hand = new ++ s'.receiver.hand → s'.Handled := by
      intro new hnew hnames hhand
      refine ⟨log ++ new, by rw [hv, hlog, hhand, List.append_assoc], ?_⟩
      rw [hi]
      exact hs.record hx hstep.request_eq.2.1 hnew hnames
    have hkeep : m.frame? = none → s.receiver.hand = s'.receiver.hand → s'.Handled := by
      intro hm
      exact hmove [] (by rw [hstep.handled_of_none hm, List.append_nil]) (by simp)
    have hnames : ∀ {frame : ConnectResponse}, Names p s k frame →
        ∀ f ∈ [frame], f.header.requestId = x.request.requestID := by
      rintro frame ⟨_, y, hy, hid⟩ f hf
      cases hy.symm.trans hx
      rw [List.mem_singleton.mp hf, hid]
    generalize s'.receiver = receiver at hr hmove hkeep
    cases hr with
    | worker hm =>
      refine hkeep ?_ rfl
      obtain hm | ⟨e, rfl⟩ := hm
      · cases m <;> first | rfl | cases hm
      · rfl
    | session | release | abort => exact hkeep rfl rfl
    | numberOpen hreceiver | openGranted hreceiver | openRefused hreceiver | canceled hreceiver =>
      exact hkeep rfl (by rw [hreceiver]; rfl)
    | openAborted hreceiver | completed hreceiver =>
      refine hkeep rfl ?_
      rw [hreceiver]
      split <;> rfl
    | data hreceiver | halfClose hreceiver =>
      rw [Held, hreceiver] at hheld
      exact hmove _ hstep.handled_eq (hnames hheld.1) (by rw [hreceiver]; rfl)
    | @dataFailed frame choice e hreceiver =>
      rw [Held, hreceiver] at hheld
      have hh := hstep.handled_eq_of_error
      by_cases ht : (x.request.takeData p frame.data).isSome = true
      · exact hmove [frame] (by simpa [ht] using hh) (hnames hheld.1)
          (by simp [hreceiver, ht, Receiver.hand])
      · exact hmove [] (by simpa [ht] using hh) (by simp) (by simp [hreceiver, ht, Receiver.hand])
    | halfCloseFailed hreceiver =>
      exact hmove [] hstep.handled_eq_of_error (by simp) (by rw [hreceiver]; rfl)
    | @late frame err t t' hreceiver ht ht' hk =>
      rw [Held, hreceiver] at hheld
      refine hmove [frame] hstep.handled_of_late (fun f hf ↦ ?_) (by rw [hreceiver]; rfl)
      obtain ⟨y, hy, hid⟩ := htab.terminal ht
      rw [hk] at hy
      cases hy.symm.trans hx
      rw [List.mem_singleton.mp hf, hid, OpaqueID.toList_copy (requestId_length hheld.1 ?_)]
      obtain ⟨_, hp⟩ | ⟨_, hp⟩ := hheld.2 <;> rw [hp] <;> rfl

/-- A run in which every Open has a fresh identifier keeps the histories together. -/
theorem histories (h : Runs p s) :
    s.Queued ∧ s.Handled :=
  (h.invariant (P := fun s ↦ (s.Queued ∧ s.Handled) ∧ s.Unused)
    ⟨⟨.init .., [], rfl, .init ..⟩, Unused.init⟩
    fun _ _ _ hreach ⟨⟨hq, hh⟩, hu⟩ hok hstep ↦
      ⟨⟨hq.step (framed hreach) (tabled hreach).2 hu hstep,
        hh.step (tabled hreach).1 (tabled hreach).2 hu hstep⟩, hu.step hok hstep⟩).1

theorem opened (h : Reach (step p) ok {} s) :
    ∀ x ∈ s.convs, x.Opened :=
  forall_convs (P := Conv.Opened)
    ⟨fun frame _ ⟨_, ⟨request, hk⟩, hseq⟩ _ ↦ ⟨frame, request, rfl, hk, hseq⟩,
      fun frame _ ⟨_, ⟨request, hk⟩, hseq⟩ _ ↦ ⟨frame, request, rfl, hk, hseq⟩⟩
    (fun h hx ↦ hx.step h) h

/-- The frames of a conversation keep to its class. -/
theorem classed (h : Reach (step p) ok {} s) :
    ∀ x ∈ s.convs, x.Classed := by
  refine forall_convs_of
    (S := fun x m ↦ x.Framed ∧ ∀ f choice, m = .enqueueOpen f choice → Of x f.header)
    ⟨fun frame code _ _ f hf ↦ ?_, fun _ _ _ _ f hf ↦ absurd hf (by simp [reservedConv])⟩
    (fun hreach hx happ ↦ ⟨framed hreach _ (List.mem_of_getElem? hx), fun f choice hm ↦ ?_⟩)
    (fun hreach hx hadv ↦ ⟨framed hreach _ (List.mem_of_getElem? hx),
      enqueueOpen_of (tabled hreach).2 hx hadv⟩)
    (fun hm hs hx f hf ↦ ?_) h
  · simp only [rejectedConv, rejection, List.mem_cons, List.not_mem_nil, or_false] at hf
    obtain rfl | rfl := hf <;> rfl
  · subst hm
    cases happ
  -- a move queues frames of the class of its request
  · rw [hm.queued_eq, List.mem_append] at hf
    rw [hm.request_eq.2.2]
    rcases hf with hf | hf
    · exact hx f hf
    · exact (hm.frame_of hs.1 hs.2 f hf).2

variable {x : Conv}

/-- What was sent of a conversation is the beginning of what it queued. -/
theorem prefix_of_sent (h : Runs p s)
    (hx : s.convs[k]? = some x) :
    s.sent.filter (fun f ↦ f.header.requestId = x.request.requestID) <+: x.queued := by
  have hown := (histories h).1.own_eq hx
  rw [← hown]
  refine (ordered h).prefix_of_sent (i := queue x.request.route.trafficClass) fun f hf hid ↦ ?_
  have hmem : f ∈ x.queued := hown ▸ List.mem_filter.mpr ⟨hf, hid⟩
  rw [classed h x (List.mem_of_getElem? hx) f hmem]

/-- What was received of a conversation is what it handled, and the frame in hand. -/
theorem received_filter (h : Runs p s)
    (hx : s.convs[k]? = some x) :
    s.received.filter (fun f ↦ f.header.requestId = x.request.requestID) =
      x.handled ++ s.receiver.hand.filter (fun f ↦ f.header.requestId = x.request.requestID) := by
  obtain ⟨log, hlog, hs⟩ := (histories h).2
  rw [hlog, List.filter_append, hs.own_eq hx]

end Session

end MarketMesh.GatewayOut
