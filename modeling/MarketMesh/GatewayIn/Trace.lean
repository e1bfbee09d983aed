import MarketMesh.GatewayIn.Tables

/-!
# The histories of a gateway-in session

The histories of a session and the histories of its requests are tied together here.

* `Session.Ordered` says that nothing overtakes within a lane of the outbound queue.
* `Session.Queued` says that the frames of a request among the accepted ones are exactly those the
  request queued, and `Session.Handled` the same for the received frames: apart from the one frame
  the read loop holds, they are what the request handled.
* `Session.Counted` says that the number a request expects next counts the frames it handled.

`Queued` and `Handled` need that the identifiers `startRequest` draws are fresh
(`Session.freshDraws`).  The source compares a drawn identifier with the requests and tombstones it
still knows, and relies on its random source for the others.
-/

set_option autoImplicit false

namespace MarketMesh.GatewayIn

open Protocol Machine

/-- The frame the read loop received and has neither handed to a request nor answered. -/
def Reader.hand : Reader → List ConnectRequest
  | .deliver _ frame => [frame]
  | .failed hand => hand.toList
  | _ => []

@[simp] theorem Reader.hand_idle : Reader.idle.hand = [] := rfl

@[simp] theorem Reader.hand_deliver (r : Ref) (frame : ConnectRequest) :
    (Reader.deliver r frame).hand = [frame] := rfl

namespace Invocation

variable {p : Params} {lanes : Lanes} {x x' : Invocation} {m : Move} {f : Option ConnectResponse}

/-- A queued frame carries the identifier and the class of its request. -/
theorem Step.frame_header {frame} (h : Step p lanes x m x' (some frame)) :
    frame.header.requestId = x.request.id.toList ∧
      frame.header.trafficClass = x.request.policy.trafficClass := by
  obtain ⟨-, -, payload, view, rfl, -⟩ := h.accepted
  exact ⟨rfl, rfl⟩

theorem Step.queued_eq (h : Step p lanes x m x' f) : x'.queued = x.queued ++ f.toList := by
  cases f with
  | none => rw [h.not_accepted]; simp
  | some => exact h.accepted.2.1

/-- The queued frames carry the class of their request. -/
def Classed (x : Invocation) : Prop :=
  ∀ f ∈ x.queued, f.header.trafficClass = x.request.policy.trafficClass

theorem Classed.step (hx : x.Classed) (h : Step p lanes x m x' f) : x'.Classed := by
  intro g hg
  rw [h.queued_eq, List.mem_append] at hg
  rw [h.request_eq.2.1]
  rcases hg with hg | hg
  · exact hx g hg
  · rw [Option.mem_toList] at hg
    subst hg
    exact h.frame_header.2

/-- A frame is handled unless it is a violation. -/
theorem Step.handled_eq {frame} (h : Step p lanes x (.handleInbound frame) x' f) :
    x'.handled = x.handled ++
      if (x.request.handleInbound frame).2 = .violation then [] else [frame] := by
  cases h with
  | inbound hv => rw [if_neg hv]
  | violated hv => rw [if_pos hv, List.append_nil]
  | queued hs | refused hs | canceled hs | cancelRefused hs | aborted hs | failed hs => cases hs
  | goes hs =>
    -- a completed request looks at its frames, too
    cases hs with
    | waited hm => simp at hm
    | same hm => exact Bool.noConfusion hm

theorem Step.handled_eq_of_ne (h : Step p lanes x m x' f) (hm : ∀ frame, m ≠ .handleInbound frame) :
    x'.handled = x.handled := by
  cases h with
  | inbound => exact absurd rfl (hm _)
  | _ => rfl

end Invocation

namespace Session

variable {p : Params} {s s' s₁ : Session} {a : Action} {r : Ref} {m : Move} {view : View}
  {ok : Session → Action → Prop}

/-! ## The outbound queue -/

/-- Within a lane nothing overtakes. -/
def Ordered (s : Session) : Prop :=
  Fifo.Conserved (fun f : ConnectResponse ↦ queueLane f.header.trafficClass) s.outbound

theorem Ordered.init : Ordered {} := by
  intro lane
  cases lane <;> rfl

theorem ordered (h : Reach (step p) ok {} s) : s.Ordered :=
  h.invariant (P := Ordered) Ordered.init fun _ _ _ _ hs _ hstep ↦
    Fifo.Conserved.step hs (step_queues hstep)

theorem step_received (h : s.step p a = some s') :
    s'.received = s.received ∨
      ∃ frame now, a = .recv frame now ∧ s'.received = s.received ++ [frame] := by
  cases step_change h with
  | same _ _ _ hv | control _ _ _ _ hv | unanswered _ _ _ _ hv | started _ _ _ _ _ _ hv
  | moved _ _ _ _ _ hv => exact .inl hv
  | received hi ha hidle hr hv => exact .inr ⟨_, _, rfl, hv⟩

/-! ## The frames of one request -/

/-- No identifier `startRequest` draws is that of an earlier request. -/
def freshDraws (s : Session) : Action → Bool
  | .start _ _ draws => draws.all fun id ↦ s.invocations.all fun x ↦ x.request.id ≠ id
  | _ => true

theorem freshDraws_start {call deadline draws}
    (h : s.freshDraws (.start call deadline draws) = true) {id} (hid : id ∈ draws) :
    ∀ x ∈ s.invocations, x.request.id ≠ id := by
  intro x hx
  rw [freshDraws, List.all_eq_true] at h
  simpa using List.all_eq_true.mp (h id hid) x hx

/-- The accepted frames that name a request are those it queued. -/
abbrev Queued (s : Session) : Prop :=
  Demux.Attributed (fun f : ConnectResponse ↦ f.header.requestId)
    (fun x : Invocation ↦ x.request.id.toList) (·.queued) (· = []) s.invocations s.accepted

theorem Queued.step (hs : s.Queued) (hfresh : s.freshDraws a = true)
    (h : s.step p a = some s') : s'.Queued := by
  unfold Queued at hs ⊢
  cases step_change h with
  | same hi ha | unanswered hi ha | received hi ha => rwa [hi, ha]
  | control hq hi ha =>
    rw [hi, ha]
    exact hs.skip fun f hf ↦ by rw [List.mem_singleton.mp hf]; rfl
  | started hid hp hb hi ha =>
    rw [hi, ha, ← List.append_nil s.accepted]
    refine hs.add (fun x hx heq ↦ ?_) (OpaqueID.toList_ne_nil _) (by simp) rfl
    exact freshDraws_start hfresh hid x hx (OpaqueID.toList_injective heq)
  | moved hx hstep hi ha =>
    rw [hi, ha]
    refine hs.record hx (by rw [hstep.request_eq.1]) hstep.queued_eq fun f hf ↦ ?_
    rw [Option.mem_toList] at hf
    subst hf
    exact hstep.frame_header.1

/-- The frame the read loop is about to deliver names the request it is delivered to. -/
def Aimed (p : Params) (s : Session) : Prop :=
  ∀ (r : Ref) (frame : ConnectRequest), s.reader = .deliver r frame →
    validateInbound p frame = true ∧ frame.payload.ofRequest = true ∧
      ∃ x, s.invocations[r]? = some x ∧ frame.header.requestId = x.request.id.toList

theorem Aimed.init : Aimed p {} := fun _ _ h ↦ absurd h (by simp)

theorem Aimed.step (hs : s.Aimed p) (ht : s.Tabled) (h : s.step p a = some s') : s'.Aimed p := by
  -- a frame that is already held stays aimed, since invocations keep their identifiers
  have hkeep : ∀ (r : Ref) (frame : ConnectRequest), s.reader = .deliver r frame →
      validateInbound p frame = true ∧ frame.payload.ofRequest = true ∧
        ∃ x, s'.invocations[r]? = some x ∧ frame.header.requestId = x.request.id.toList := by
    intro r frame hr
    obtain ⟨hv, hk, x, hx, hid⟩ := hs r frame hr
    obtain ⟨x', hx', hid'⟩ := step_getElem? h hx
    exact ⟨hv, hk, x', hx', by rw [hid, hid']⟩
  intro r frame hreader
  cases step_change h with
  | same _ _ hr | started _ _ _ _ _ hr => exact hkeep r frame (hr ▸ hreader)
  | control hq hi ha hr =>
    obtain hr | ⟨-, hr⟩ := hr
    · exact hkeep r frame (hr ▸ hreader)
    · rw [hr] at hreader; exact absurd hreader (by simp)
  | unanswered hi ha hp hr => obtain hr | hr := hr <;> rw [hr] at hreader <;> cases hreader
  | received hi ha hidle hr =>
    rw [hreader] at hr
    cases hr with
    | deliver hvalid hk hfor =>
      obtain ⟨y, hy, hid⟩ := ht.requestFor hfor
      refine ⟨hvalid, hk, y, by rw [hi]; exact hy, ?_⟩
      rw [hid, OpaqueID.toList_copy ((validateInbound_eq_true hvalid).1.requestId_length hk)]
    | control hvalid hk hr => obtain hr | ⟨nonce, hr⟩ := hr <;> cases hr
  | @moved _ _ r' x x' m f hx hstep hi ha hr =>
    generalize s'.reader = reader at hr hreader
    cases hr with
    | invoke | absent | fail => exact hkeep r frame hreader
    | deliver => split at hreader <;> cases hreader
    | notify | granted | grantRefused | abort => cases hreader

theorem aimed (h : Reach (step p) ok {} s) : s.Aimed p :=
  h.invariant (P := Aimed p) Aimed.init fun _ _ _ hreach hs _ hstep ↦
    hs.step (tabled hreach) hstep

/-- The received frames that name a request are those it handled, apart from the one the read loop
holds. -/
def Handled (s : Session) : Prop :=
  ∃ log, s.received = log ++ s.reader.hand ∧
    Demux.Attributed (fun f : ConnectRequest ↦ f.header.requestId)
      (fun x : Invocation ↦ x.request.id.toList) (·.handled) (· = []) s.invocations log

theorem Handled.step (hs : s.Handled) (haim : s.Aimed p) (hfresh : s.freshDraws a = true)
    (h : s.step p a = some s') : s'.Handled := by
  obtain ⟨log, hlog, hs⟩ := hs
  cases step_change h with
  | same hi ha hr hv => exact ⟨log, by rw [hv, hr, hlog], by rwa [hi]⟩
  | control hq hi ha hr hv =>
    refine ⟨log, ?_, by rwa [hi]⟩
    obtain hr | ⟨⟨nonce, hp⟩, hr⟩ := hr
    · rw [hv, hr, hlog]
    · rw [hv, hr, hlog, hp]; rfl
  | unanswered hi ha hp hr hv =>
    refine ⟨log, ?_, by rwa [hi]⟩
    obtain hr | hr := hr <;> rw [hv, hr, hlog, hp] <;> rfl
  | @received frame now _ hi ha hidle hr hv =>
    replace hlog : s.received = log := by rw [hlog, hidle]; exact List.append_nil _
    rw [Handled, hv, hlog]
    generalize s'.reader = reader at hr
    cases hr with
    | deliver | failed => exact ⟨log, rfl, by rwa [hi]⟩
    | control hvalid hk hr =>
      refine ⟨log ++ [frame], ?_, ?_⟩
      · obtain rfl | ⟨nonce, rfl⟩ := hr <;> simp [Reader.hand]
      · rw [hi]
        refine hs.skip fun f hf ↦ ?_
        rw [List.mem_singleton.mp hf]
        exact (validateInbound_eq_true hvalid).1.requestId_eq_nil hk
  | started hid hp hb hi ha hr hv =>
    refine ⟨log, by rw [hv, hr, hlog], ?_⟩
    rw [hi, ← List.append_nil log]
    refine hs.add (fun x hx heq ↦ ?_) (OpaqueID.toList_ne_nil _) (by simp) rfl
    exact freshDraws_start hfresh hid x hx (OpaqueID.toList_injective heq)
  | @moved _ _ r x x' m f hx hstep hi ha hr hv =>
    -- the invocation takes what leaves the hand
    have hmove : ∀ new, x'.handled = x.handled ++ new →
        (∀ f ∈ new, f.header.requestId = x.request.id.toList) →
        s.reader.hand = new ++ s'.reader.hand → s'.Handled := by
      intro new hnew hnames hhand
      refine ⟨log ++ new, by rw [hv, hlog, hhand, List.append_assoc], ?_⟩
      rw [hi]
      exact hs.record hx (by rw [hstep.request_eq.1]) hnew hnames
    have hkeep : (∀ frame, m ≠ .handleInbound frame) → s.reader.hand = s'.reader.hand →
        s'.Handled :=
      fun hm ↦ hmove [] (by rw [hstep.handled_eq_of_ne hm, List.append_nil]) (by simp)
    generalize s'.reader = reader at hr hmove hkeep
    cases hr with
    | invoke hm => exact hkeep (fun frame hf ↦ by rw [hf] at hm; cases hm) rfl
    | absent | fail => exact hkeep (by simp) rfl
    | notify hreader | abort hreader | granted hreader | grantRefused hreader =>
      exact hkeep (by simp) (by rw [hreader]; rfl)
    | @deliver frame hreader =>
      obtain ⟨-, -, y, hy, hfid⟩ := haim r frame hreader
      obtain rfl : y = x := Option.some_inj.mp (hy.symm.trans hx)
      refine hmove _ hstep.handled_eq (fun f hf ↦ ?_) ?_
      · split at hf
        · cases hf
        · rw [List.mem_singleton.mp hf]; exact hfid
      · rw [hreader]
        cases (y.request.handleInbound frame).2 <;> simp [Reader.hand]

/-- A run in which every drawn identifier is fresh keeps the histories together. -/
theorem histories (h : Reach (step p) (fun s a ↦ s.freshDraws a = true) {} s) :
    s.Queued ∧ s.Handled :=
  h.invariant ⟨.init .., [], rfl, .init ..⟩
    fun _ _ _ hreach ⟨hq, hh⟩ hok hstep ↦
      ⟨hq.step hok hstep, hh.step (aimed hreach) hok hstep⟩

variable {x : Invocation}

/-- What was sent of a request is the beginning of what it queued. -/
theorem prefix_of_sent (h : Reach (step p) (fun s a ↦ s.freshDraws a = true) {} s)
    (hx : s.invocations[r]? = some x) :
    s.sent.filter (fun f ↦ f.header.requestId = x.request.id.toList) <+: x.queued := by
  have hclass : ∀ y ∈ s.invocations, y.Classed :=
    forall_invocations (P := Invocation.Classed) (fun _ _ _ _ f hf ↦ by cases hf)
      (fun h hy ↦ hy.step h) h
  have hown := (histories h).1.own_eq hx
  rw [← hown]
  refine (ordered h).prefix_of_sent (i := queueLane x.request.policy.trafficClass) fun f hf hid ↦ ?_
  have hmem : f ∈ x.queued := hown ▸ List.mem_filter.mpr ⟨hf, hid⟩
  rw [hclass x (List.mem_of_getElem? hx) f hmem]

/-- What was received of a request is what it handled, and the frame in hand. -/
theorem received_filter (h : Reach (step p) (fun s a ↦ s.freshDraws a = true) {} s)
    (hx : s.invocations[r]? = some x) :
    s.received.filter (fun f ↦ f.header.requestId = x.request.id.toList) =
      x.handled ++ s.reader.hand.filter (fun f ↦ f.header.requestId = x.request.id.toList) := by
  obtain ⟨log, hlog, hs⟩ := (histories h).2
  rw [hlog, List.filter_append, hs.own_eq hx]

end Session

/-! ## The Open of a request -/

/-- The frame is an Open. -/
def isOpen (f : ConnectResponse) : Bool :=
  match f.payload with
  | .opened _ => true
  | _ => false

/-- The Open of the request is not queued, and may never be. -/
def Pc.isUnopened : Pc → Bool
  | .opening | .openRefused _ | .openCompleted _ | .rolledBack _ => true
  | _ => false

namespace Invocation

variable {p : Params} {lanes : Lanes} {x x' : Invocation} {m : Move} {f : Option ConnectResponse}

/-- At most one Open is queued, and none before `enqueueOpen`. -/
def OpensOnce (x : Invocation) : Prop :=
  x.queued.countP isOpen ≤ 1 ∧ (x.pc.isUnopened = true → x.queued.countP isOpen = 0)

/-- A move that queues no Open, and leaves the request unopened only if it was. -/
theorem OpensOnce.of_le (hx : x.OpensOnce)
    (hq : x'.queued.countP isOpen = x.queued.countP isOpen)
    (hpc : x'.pc.isUnopened = true → x.pc.isUnopened = true) : x'.OpensOnce := by
  rw [OpensOnce, hq]
  exact ⟨hx.1, fun h ↦ hx.2 (hpc h)⟩

/-- A frame that is no Open does not count. -/
theorem countP_concat {frames f}
    (hf : isOpen f = false) : (frames ++ [f]).countP isOpen = frames.countP isOpen := by
  rw [List.countP_append, List.countP_singleton, hf]
  rfl

theorem OpensOnce.step (hx : x.OpensOnce) (h : Step p lanes x m x' f) : x'.OpensOnce := by
  cases h with
  | queued hs =>
    cases hs with
    | opened hpc =>
      refine ⟨?_, nofun⟩
      rw [List.countP_append, hx.2 (by rw [hpc]; rfl), Nat.zero_add]
      exact List.countP_le_length
    | data | halfClose => exact hx.of_le (countP_concat rfl) nofun
  | refused hs =>
    cases hs with
    | opened hpc => exact hx.of_le rfl fun _ ↦ by rw [hpc]; rfl
    | data | halfClose => exact hx.of_le rfl nofun
  | creditQueued => exact hx.of_le (countP_concat rfl) nofun
  | creditRefused | took | woken | compacted => exact hx.of_le rfl nofun
  | granted => exact hx.of_le (countP_concat rfl) id
  | canceled hs =>
    refine hx.of_le (countP_concat rfl) ?_
    cases hs <;> exact nofun
  | cancelRefused hs => cases hs <;> exact hx.of_le rfl nofun
  | aborted hs =>
    cases hs with
    | reader => exact hx.of_le rfl id
    | _ => exact hx.of_le rfl nofun
  | failed hs =>
    cases hs with
    | session => exact hx.of_le rfl id
    | opened hpc => exact hx.of_le rfl fun _ ↦ by rw [hpc]; rfl
  | goes hs =>
    cases hs with
    | same => exact hx.of_le rfl id
    | openCompleted hpc | rolledBack hpc => exact hx.of_le rfl fun _ ↦ by rw [hpc]; rfl
    | _ => exact hx.of_le rfl nofun
  | _ => exact hx.of_le rfl id

end Invocation

theorem Session.opensOnce {p s} {ok : Session → Action → Prop}
    (h : Reach (Session.step p) ok {} s) : ∀ x ∈ s.invocations, x.OpensOnce :=
  Session.forall_invocations (P := Invocation.OpensOnce)
    (fun _ _ _ _ ↦ by constructor <;> simp [startedInvocation]) (fun h hx ↦ hx.step h) h

/-! ## The number the read loop expects next -/

def Reader.isFailed : Reader → Bool
  | .failed _ => true
  | _ => false

theorem LogicalRequest.Takes.inboundSequence {r r' frame v} (h : Takes r frame r' v)
    (hv : v ≠ .violation) : r'.inboundSequence = r.inboundSequence + 1 := by
  cases h with
  | violation => exact absurd rfl hv
  | _ => rfl

namespace Invocation

variable {p : Params} {lanes : Lanes} {x x' : Invocation} {m : Move} {f : Option ConnectResponse}

theorem Step.inboundSequence_of_ne (h : Step p lanes x m x' f)
    (hm : ∀ frame, m ≠ .handleInbound frame) :
    x'.request.inboundSequence = x.request.inboundSequence := by
  cases h with
  | refused _ _ hr | creditRefused _ _ hr | grantRefused _ _ hr | cancelRefused _ _ _ _ hr =>
    obtain rfl | rfl := hr <;> rfl
  | inbound | violated => exact absurd rfl (hm _)
  | _ => rfl

/-- The number a request expects and the frames it handled grow together. -/
theorem Step.counted (h : Step p lanes x m x' f)
    (hm : ∀ frame, m = .handleInbound frame → (x.request.handleInbound frame).2 ≠ .violation)
    (hx : x.request.inboundSequence = x.handled.length) :
    x'.request.inboundSequence = x'.handled.length := by
  by_cases hin : ∃ frame, m = .handleInbound frame
  · obtain ⟨frame, rfl⟩ := hin
    cases h with
    | inbound hv =>
      rw [List.length_append, ← hx]
      exact (x.request.handleInbound_takes frame).inboundSequence hv
    | violated hv => exact absurd hv (hm frame rfl)
    | queued hs | refused hs | canceled hs | cancelRefused hs | aborted hs | failed hs => cases hs
    | goes hs =>
      cases hs with
      | waited hm => simp at hm
      | same hm => exact Bool.noConfusion hm
  · have hne : ∀ frame, m ≠ .handleInbound frame := fun frame h ↦ hin ⟨frame, h⟩
    rw [h.inboundSequence_of_ne hne, h.handled_eq_of_ne hne]
    exact hx

end Invocation

namespace Session

variable {p : Params} {s s' : Session} {a : Action}

/-- A read loop that failed does not go on. -/
theorem step_isFailed (h : s.step p a = some s') (hgoes : s'.reader.isFailed = false) :
    s.reader.isFailed = false := by
  have hof : ∀ {reader : Reader}, s.reader = reader → reader.isFailed = false →
      s.reader.isFailed = false := fun hr hf ↦ hr ▸ hf
  cases step_change h with
  | same _ _ hr | started _ _ _ _ _ hr => exact hr ▸ hgoes
  | control hq hi ha hr =>
    obtain hr | ⟨⟨nonce, hr⟩, -⟩ := hr
    · exact hr ▸ hgoes
    · exact hof hr rfl
  | unanswered hi ha hp => exact hof hp rfl
  | received hi ha hidle => exact hof hidle rfl
  | moved hx hstep hi ha hr =>
    generalize s'.reader = reader at hr hgoes
    cases hr with
    | invoke | absent | fail => exact hgoes
    | _ => exact hof (by assumption) rfl

/-- **The number a request expects is the number of frames it handled**, as long as the read loop
runs. -/
def Counted (s : Session) : Prop :=
  ∀ x ∈ s.invocations, x.request.inboundSequence = x.handled.length

theorem Counted.step (hs : s.Counted) (h : s.step p a = some s')
    (hgoes : s'.reader.isFailed = false) : s'.Counted := by
  intro x' hx'
  cases step_change h with
  | same hi | control _ hi | unanswered hi | received hi => exact hs x' (hi ▸ hx')
  | started hid hp hb hi =>
    rw [hi, List.mem_append, List.mem_singleton] at hx'
    obtain hx' | rfl := hx'
    · exact hs x' hx'
    · rfl
  | moved hx hstep hi ha hr =>
    rw [hi] at hx'
    obtain hx' | rfl := List.mem_or_eq_of_mem_set hx'
    · exact hs x' hx'
    · refine hstep.counted (fun frame hm hviolation ↦ ?_) (hs _ (List.mem_of_getElem? hx))
      subst hm
      generalize s'.reader = reader at hr hgoes
      cases hr with
      | invoke hm => exact Bool.noConfusion hm
      | deliver => rw [hviolation] at hgoes; exact Bool.noConfusion hgoes

theorem counted {ok : Session → Action → Prop} (h : Reach (step p) ok {} s)
    (hgoes : s.reader.isFailed = false) : s.Counted :=
  h.invariant (fun _ x hx ↦ by simp at hx)
    (fun _ _ _ _ hs _ hstep hgoes ↦ (hs (step_isFailed hstep hgoes)).step hstep hgoes) hgoes

end Session

end MarketMesh.GatewayIn
