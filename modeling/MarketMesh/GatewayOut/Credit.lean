import MarketMesh.GatewayOut.Drain

/-!
# The credit of a conversation

A conversation keeps two budgets.  `receiveCredit` is what the peer may still send; it grows with
every Credit that is granted and shrinks with every Data that is taken.  `sendCredit` is what the
conversation may still send; it grows with every Credit that is handled and shrinks with every piece
of the response.  `Conv.Accounts` ties both to the histories of the conversation, and
`Session.Charged` does the same for the entries of the terminal ring.

The moves that open a conversation are made while it has handled nothing but its Open
(`Session.Starting`).
-/

set_option autoImplicit false

namespace MarketMesh.GatewayOut

open Protocol Machine

theorem toUint32_le (n : Nat) : toUint32 n ≤ n := Nat.mod_le _ _

/-- The bytes of the response that are paid for and not yet queued. -/
def Completer.inHand : Completer → Nat
  | .taken chunk _ => chunk.length
  | .numbered frame _ => frame.data.length
  | _ => 0

namespace Conv

variable {p : Params} {env : Env} {x x' : Conv} {m : Move} {fs : List ConnectRequest}
  {err : Option Err}

/-- What is known of a conversation when one of the two moves that open it is made. -/
structure Starts (p : Params) (x : Conv) (m : Move) : Prop extends Suits p x m where
  numbering : m = .numberOpen → x.queued = [] ∧ requestBytes x.handled = []
  granting : ∀ f choice, m = .enqueueOpen f choice →
    x.request.receiveCredit = x.request.initialGrant p

/-- **The two budgets of a conversation.** -/
structure Accounts (x : Conv) : Prop where
  granted : requestCredit x.queued ≤ x.request.receiveCredit + (requestBytes x.handled).length
  spent : x.request.sendCredit + (responseBytes x.queued).length + x.completer.inHand ≤
    responseCredit x.handled
  numbered : ∀ f response, x.completer = .numbered f response → f.credit = 0

theorem Accounts.of_eq (hx : x.Accounts) (hq : x'.queued = x.queued)
    (hh : x'.handled = x.handled) (hr : x'.request.receiveCredit = x.request.receiveCredit)
    (hs : x'.request.sendCredit = x.request.sendCredit)
    (hc : x'.completer = x.completer ∨
      x'.completer.inHand = 0 ∧ ∀ f response, x'.completer ≠ .numbered f response) :
    x'.Accounts where
  granted := by rw [hq, hh, hr]; exact hx.granted
  spent := by
    have hspent := hx.spent
    rw [hq, hh, hs]
    obtain hc | ⟨hc, -⟩ := hc
    · rwa [hc]
    · omega
  numbered f response h := by
    obtain hc | ⟨-, hc⟩ := hc
    · exact hx.numbered f response (hc ▸ h)
    · exact absurd h (hc f response)

@[simp] theorem frame_credit_credit (r : RequestState) (n : Nat) :
    (r.frame p (.credit n)).credit = n := rfl

@[simp] theorem frame_credit_data (r : RequestState) (n : Nat) :
    (r.frame p (.credit n)).data = [] := rfl

theorem lastFrames_requestCredit (r : RequestState) (code : ResultCode) :
    requestCredit (lastFrames p r code) = 0 := rfl

theorem lastFrames_responseBytes (r : RequestState) (code : ResultCode) :
    responseBytes (lastFrames p r code) = [] := rfl

theorem firstPc_inHand (response : Bytes) (code : ResultCode) :
    (firstPc response code).inHand = 0 ∧
      ∀ f rest, firstPc response code ≠ .numbered f rest := by
  obtain h | h := firstPc_eq response code
  all_goals
    rw [h]
    exact ⟨rfl, by simp⟩

/-- A Data is taken and a Credit granted for it. -/
theorem Accounts.dataGranted {frame} {grant : Nat} (hx : x.Accounts)
    (hcredit : frame.data.length ≤ x.request.receiveCredit) :
    Accounts { x with
      request := (x.request.taken frame.data).granted grant
      handled := x.handled ++ [frame]
      queued := x.queued ++
        [((x.request.taken frame.data).granted grant).frame p (.credit (toUint32 grant))] } := by
  have hgranted := hx.granted
  have hspent := hx.spent
  have hle := toUint32_le grant
  refine ⟨?_, ?_, hx.numbered⟩
  · simp only [requestCredit_append, requestCredit_singleton, frame_credit_credit,
      requestBytes_append, requestBytes_singleton, List.length_append]
    simp only [RequestState.granted, RequestState.taken]
    omega
  · simp only [RequestState.granted, RequestState.taken, responseBytes_append,
      responseBytes_singleton, frame_credit_data, List.append_nil, responseCredit_append]
    omega

theorem Accounts.step (hx : x.Accounts) (h : Step p env x m x' fs err) (hs : Starts p x m) :
    x'.Accounts := by
  have hgranted := hx.granted
  have hspent := hx.spent
  cases h with
  | data htakes =>
    have hcredit := htakes.credit
    refine ⟨?_, ?_, hx.numbered⟩
    · simp only [RequestState.taken, requestBytes_append, requestBytes_singleton,
        List.length_append]
      omega
    · simp only [RequestState.taken, responseCredit_append]
      omega
  | dataGranted htakes hgrant hr hf =>
    subst hr hf
    exact hx.dataGranted htakes.credit
  | dataRefused htakes hgrant hr hf =>
    subst hr hf
    have hcredit := htakes.credit
    refine ⟨?_, ?_, hx.numbered⟩
    · simp only [RequestState.granted, RequestState.taken, requestBytes_append,
        requestBytes_singleton, List.length_append]
      omega
    · simp only [RequestState.granted, RequestState.taken, responseCredit_append]
      omega
  | halfClose | cancel | late | credit =>
    refine ⟨?_, ?_, hx.numbered⟩
    · simp only [requestBytes_append, List.length_append]
      omega
    · simp only [responseCredit_append, responseCredit_singleton]
      omega
  | numberOpen =>
    obtain ⟨hqueued, -⟩ := hs.numbering rfl
    exact ⟨by simp [hqueued], hspent, hx.numbered⟩
  | openGranted =>
    obtain ⟨hsilent, -, rfl⟩ := hs.opening _ _ rfl
    have hle := toUint32_le (x.request.initialGrant p)
    refine ⟨?_, ?_, hx.numbered⟩
    · simp only [hsilent.queued, List.nil_append, requestCredit_singleton, Session.openCredit,
        frame_credit_credit, hs.granting _ _ rfl]
      omega
    · simp only [responseBytes_append, responseBytes_singleton, Session.openCredit,
        frame_credit_data, List.append_nil]
      exact hspent
  | claimed => exact hx.of_eq rfl rfl rfl rfl (.inr (firstPc_inHand ..))
  | goes hsite =>
    refine hx.of_eq rfl rfl rfl rfl ?_
    cases hsite with
    | watcherDone | watcherExpired => exact .inl rfl
    | _ => exact .inr ⟨rfl, by simp⟩
  | took h =>
    refine ⟨hgranted, ?_, by simp⟩
    rw [h] at hspent
    simp only [Completer.inHand, List.length_take] at hspent ⊢
    omega
  | woken h | dataUnqueued h | unfinished h | aborted | cleanup h =>
    exact hx.of_eq rfl rfl rfl rfl (.inr ⟨rfl, by simp⟩)
  | numberData h =>
    rw [h] at hspent
    refine ⟨hgranted, hspent, fun f rest h ↦ ?_⟩
    cases h
    rfl
  | dataQueued h =>
    rw [h] at hspent
    refine ⟨?_, ?_, by simp⟩
    · rw [requestCredit_append, requestCredit_singleton, hx.numbered _ _ h]
      exact hgranted
    · simp only [Completer.inHand, responseBytes_append, responseBytes_singleton,
        List.length_append] at hspent ⊢
      omega
  | finished h =>
    rw [h] at hspent
    refine ⟨?_, ?_, by simp⟩
    · rw [requestCredit_append, lastFrames_requestCredit]
      exact hgranted
    · rw [responseBytes_append, lastFrames_responseBytes, List.append_nil]
      exact hspent
  | _ => exact hx.of_eq rfl rfl rfl rfl (.inl rfl)

/-- The other goroutines neither take nor grant anything. -/
theorem Step.own_eq (h : Step p env x m x' fs err) (hm : m.isOwn = true) :
    x'.handled = x.handled ∧ x'.request.receiveCredit = x.request.receiveCredit := by
  cases h with
  | data | dataGranted | dataRefused | halfClose | credit | cancel | late | numberOpen =>
    exact Bool.noConfusion hm
  | _ => exact ⟨rfl, rfl⟩

theorem initialGrant_congr {r r' : RequestState} (h : r'.route = r.route) :
    r'.initialGrant p = r.initialGrant p := by
  simp only [RequestState.initialGrant, RequestState.window, h]

end Conv

namespace Session

variable {p : Params} {s s' : Session} {a : Action} {k : Ref} {m : Move} {key : OpaqueID}
  {ok : Session → Action → Prop} {x : Conv} {err : Option Err} {fs : List ConnectRequest}
  {frame : ConnectResponse} {x' : Conv} {t : TerminalRequest} {receiver : Receiver}

/-- A conversation that is being opened has handled nothing but its Open, and has the credit that
is about to be granted. -/
def Starting (p : Params) (s : Session) : Prop :=
  ∀ (k : Ref) (x : Conv), s.convs[k]? = some x →
    (s.receiver = .reserved k → requestBytes x.handled = []) ∧
    ∀ f, s.receiver = .openNumbered k f → x.request.receiveCredit = x.request.initialGrant p

theorem Starting.step (hs : s.Starting p) (hheld : Held p s) (h : s.step p a = some s') :
    s'.Starting p := by
  intro k x' hx'
  have hown : ∀ {x env m fs err}, s.convs[k]? = some x → Conv.Step p env x m x' fs err →
      m.isOwn = true → s'.receiver = s.receiver →
      (s'.receiver = .reserved k → requestBytes x'.handled = []) ∧
      ∀ f, s'.receiver = .openNumbered k f →
        x'.request.receiveCredit = x'.request.initialGrant p := by
    intro x env m fs err hx hstep hm hr
    obtain ⟨hh, hc⟩ := hstep.own_eq hm
    rw [hr, hh, hc, Conv.initialGrant_congr hstep.request_eq.2.2]
    exact hs k x hx
  cases step_origin h hx' with
  | kept hx hr =>
    obtain hr | ⟨hr, -⟩ := hr
    · rw [hr]
      exact hs k x' hx
    · exact ⟨fun h ↦ absurd (by rw [h]; rfl) hr, fun f h ↦ absurd (by rw [h]; rfl) hr⟩
  | applied hidle hadm hlookup hx hstep hr =>
    generalize s'.receiver = receiver at hr
    cases hr <;> exact ⟨by simp, by simp⟩
  | @advanced _ x m fs err hx hstep hr =>
    generalize hr' : s'.receiver = receiver at hr
    cases hr with
    | worker hm => exact hr' ▸ hown hx hstep (isOwn_of_worker hm) hr'
    | session | release | abort => exact hr' ▸ hown hx hstep rfl hr'
    | numberOpen =>
      refine ⟨by simp, fun f _ ↦ ?_⟩
      cases hstep with
      | numberOpen => exact (Conv.initialGrant_congr rfl).symm
      | violation hchecks => exact Bool.noConfusion hchecks
      | claimed hs' | unclaimed hs' | goes hs' => cases hs'
      | contextDone hm => simp at hm
    | openAborted | completed =>
      split <;> exact ⟨by simp, by simp⟩
    | _ => exact ⟨by simp, by simp⟩
  | rejected hrej hlen hx hr =>
    rw [hr]
    exact ⟨by simp, by simp⟩
  | reserved hres hlen hx hr =>
    rw [Held, hres] at hheld
    obtain ⟨request, hk⟩ := hheld.1.payload
    refine ⟨fun _ ↦ ?_, fun f h ↦ by rw [hr] at h; cases h⟩
    rw [hx, reservedConv, requestBytes_singleton, ConnectResponse.data, hk]

theorem starting (h : Reach (step p) ok {} s) : s.Starting p :=
  h.invariant (P := Starting p) (fun k x hx ↦ by simp at hx) fun _ _ _ hreach hs _ hstep ↦
    hs.step (tabled hreach).2 hstep

theorem Applies.starts (h : Applies k frame m receiver) : Conv.Starts p x m where
  toSuits := h.suits
  numbering hm := by subst hm; cases h
  granting f choice hm := by subst hm; cases h

theorem Advances.starts (hheld : Held p s) (hopening : s.Opening p) (hstart : s.Starting p)
    (hx : s.convs[k]? = some x) (h : Advances p s k x x' a m err receiver) :
    Conv.Starts p x m where
  toSuits := h.suits hheld hopening hx
  numbering hm := by
    subst hm
    cases h with
    | worker hm => simp [Move.isWorker] at hm
    | numberOpen hres =>
      refine ⟨?_, (hstart k x hx).1 hres⟩
      rw [Opening, hres] at hopening
      obtain ⟨y, hy, hsilent, -⟩ := hopening
      cases hx.symm.trans hy
      exact hsilent.queued
  granting f choice hm := by
    subst hm
    cases h with
    | worker hm => simp [Move.isWorker] at hm
    | openGranted hnum | openRefused hnum => exact (hstart k x hx).2 _ hnum

/-- The invariant rule for properties of single conversations that depend on how they are opened. -/
theorem forall_convs_of_starts {P : Conv → Prop} (hnew : Begins p P)
    (hstep : ∀ {env x m x' fs err}, Conv.Step p env x m x' fs err → x.Starts p m → x.Sound →
      P x → P x')
    (h : Reach (step p) ok {} s) : ∀ x ∈ s.convs, P x :=
  forall_convs_of (S := fun x m ↦ x.Starts p m ∧ x.Sound) hnew
    (fun hreach hx h ↦ ⟨h.starts, conv_sound hreach _ (List.mem_of_getElem? hx)⟩)
    (fun hreach hx h ↦ ⟨h.starts (tabled hreach).2 (opening hreach) (starting hreach) hx,
      conv_sound hreach _ (List.mem_of_getElem? hx)⟩)
    (fun h hs ↦ hstep h hs.1 hs.2) h

theorem accounts (h : Reach (step p) ok {} s) : ∀ x ∈ s.convs, x.Accounts :=
  forall_convs_of_starts
    ⟨fun _ _ _ _ ↦ ⟨Nat.zero_le _, Nat.zero_le _, fun _ _ h ↦ by cases h⟩,
      fun _ _ _ _ ↦ ⟨Nat.zero_le _, Nat.zero_le _, fun _ _ h ↦ by cases h⟩⟩
    (fun h hs _ hx ↦ hx.step h hs) h

/-! ## What the flags of a request say -/

/-- The flags of a request are set by frames it handled, and a refused request has the credit limit
of the tunnel. -/
structure Marked (p : Params) (x : Conv) : Prop where
  closed : x.request.halfClosed = true → ∃ f ∈ x.handled, f.payload = .halfClose
  canceled : x.request.peerCanceled = true → ∃ f ∈ x.handled, ∃ r, f.payload = .cancel r
  refused : x.refused = true → x.request.maximumResponse p = p.limits.maxMessageBytes

theorem Marked.step {env}
    (hx : Marked p x) (h : Conv.Step p env x m x' fs err) (hs : x.Suits p m) : Marked p x' where
  closed hclosed := by
    have hkeep : x.request.halfClosed = true → ∃ f ∈ x'.handled, f.payload = .halfClose := by
      intro hclosed
      obtain ⟨f, hf, hk⟩ := hx.closed hclosed
      exact ⟨f, h.prefix_of_handled.subset hf, hk⟩
    cases h with
    | halfClose => exact ⟨_, List.mem_append_right _ List.mem_cons_self, hs.fits⟩
    | dataGranted _ _ hr | dataRefused _ _ hr => subst hr; exact hkeep hclosed
    | _ => exact hkeep hclosed
  canceled hcanceled := by
    have hkeep : x.request.peerCanceled = true → ∃ f ∈ x'.handled, ∃ r, f.payload = .cancel r := by
      intro hcanceled
      obtain ⟨f, hf, hk⟩ := hx.canceled hcanceled
      exact ⟨f, h.prefix_of_handled.subset hf, hk⟩
    cases h with
    | cancel => exact ⟨_, List.mem_append_right _ List.mem_cons_self, hs.fits⟩
    | dataGranted _ _ hr | dataRefused _ _ hr =>
      subst hr; exact hkeep hcanceled
    | _ => exact hkeep hcanceled
  refused href := by
    rw [h.refused_eq] at href
    rw [RequestState.maximumResponse, h.request_eq.2.2]
    exact hx.refused href

theorem marked (h : Reach (step p) ok {} s) : ∀ x ∈ s.convs, Marked p x :=
  forall_convs_of_suits
    ⟨fun _ _ _ _ ↦ ⟨nofun, nofun, fun _ ↦ Nat.min_self _⟩,
      fun _ _ _ _ ↦ ⟨nofun, nofun, nofun⟩⟩
    (fun h hs hx ↦ hx.step h hs) h

/-! ## The terminal ring -/

/-- The conversation of an Open that was just refused. -/
def Refusing (s : Session) : Prop :=
  ∀ (k : Ref) (x : Conv) (frame : ConnectResponse), s.convs[k]? = some x →
    s.receiver = .rejected frame k → x.refused = true ∧ x.completer = .done ∧
      x.request.route.trafficClass = frame.header.trafficClass

theorem Refusing.step (hs : s.Refusing) (hsound : ∀ x ∈ s.convs, x.Sound)
    (h : s.step p a = some s') : s'.Refusing := by
  intro k x' frame hx' hrej'
  obtain ⟨code, rfl⟩ | ⟨hrej, x, hx, rfl | ⟨m, fs, err, hstep, -⟩⟩ := rejected_origin h hrej' hx'
  · exact ⟨rfl, rfl, rfl⟩
  · exact hs k _ frame hx hrej
  · obtain ⟨href, hdone, hclass⟩ := hs k x frame hx hrej
    rw [hstep.refused_eq, hstep.request_eq.2.2]
    exact ⟨href, (hstep.of_done (hsound x (List.mem_of_getElem? hx)) hdone).1, hclass⟩

/-- **The entries of the terminal ring account for their conversations.** -/
structure Charge (p : Params) (t : TerminalRequest) (x : Conv) : Prop where
  done : x.completer = .done
  trafficClass : t.trafficClass = x.request.route.trafficClass
  maximum : t.maximumCredit = x.request.maximumResponse p
  spent : t.sendCredit + (responseBytes x.queued).length ≤ responseCredit x.handled
  canceled : t.canceled = true → ∃ f ∈ x.handled, ∃ r, f.payload = .cancel r

theorem Charge.step {env} (ht : Charge p t x) (h : Conv.Step p env x m x' fs err) (hx : x.Sound)
    (hs : x.Suits p m) : Charge p t x' := by
  have hdone := (h.of_done hx ht.done).1
  have hfs := h.not_isResponse hx hs ht.done
  have hdata : responseBytes fs = [] := by
    refine List.flatMap_eq_nil_iff.mpr fun f hf ↦ ?_
    have hresp := hfs f hf
    unfold isResponse at hresp
    unfold ConnectRequest.data
    split
    · simp_all
    · rfl
  refine ⟨hdone, ?_, ?_, ?_, fun hc ↦ ?_⟩
  · rw [h.request_eq.2.2]
    exact ht.trafficClass
  · rw [RequestState.maximumResponse, h.request_eq.2.2]
    exact ht.maximum
  · obtain ⟨rest, hrest⟩ := h.prefix_of_handled
    have hspent := ht.spent
    rw [h.queued_eq, responseBytes_append, hdata, List.append_nil, ← hrest, responseCredit_append]
    omega
  · obtain ⟨f, hf, hk⟩ := ht.canceled hc
    exact ⟨f, h.prefix_of_handled.subset hf, hk⟩

/-- The entry a request leaves behind accounts for it. -/
theorem Charge.of_released (hx : x.Accounts) (hm : Marked p x) :
    Charge p (terminalOf p k x.request) { x with completer := .done } where
  done := rfl
  trafficClass := rfl
  maximum := rfl
  spent := by
    have hspent := hx.spent
    simp only [terminalOf]
    omega
  canceled := hm.canceled

/-- A late frame is entered and handled together. -/
theorem Charge.late {t'} (ht : Charge p t x) (h : updateTerminal frame t = some t') :
    Charge p t' { x with handled := x.handled ++ [frame] } := by
  have hspent := ht.spent
  rw [updateTerminal] at h
  split at h
  · cases h
  simp only at h
  split at h
  · rename_i n hk
    split at h
    · cases h
    · cases h
      refine ⟨ht.done, ht.trafficClass, ht.maximum, ?_, fun hc ↦ ?_⟩
      · simp only [responseCredit_append, responseCredit_singleton, ConnectResponse.credit, hk]
        omega
      · obtain ⟨f, hf, hk⟩ := ht.canceled hc
        exact ⟨f, List.mem_append_left _ hf, hk⟩
  · rename_i reason hk
    cases h
    refine ⟨ht.done, ht.trafficClass, ht.maximum, ?_, fun _ ↦ ?_⟩
    · simp only [responseCredit_append]
      omega
    · exact ⟨frame, List.mem_append_right _ List.mem_cons_self, reason, hk⟩
  · cases h

/-- Every entry of the ring accounts for its conversation. -/
def Charged (p : Params) (s : Session) : Prop :=
  ∀ (key : OpaqueID) (t : TerminalRequest) (x : Conv), s.terminal.lookup key = some t →
    s.convs[t.ref]? = some x → Charge p t x

theorem refusing (h : Reach (step p) ok {} s) : s.Refusing :=
  h.invariant (P := Refusing) (fun k x frame hx ↦ by simp at hx) fun _ _ _ hreach hs _ hstep ↦
    hs.step (conv_sound hreach) hstep

theorem Charged.step (hs : s.Charged p) (hreach : Reach (step p) ok {} s)
    (h : s.step p a = some s') : s'.Charged p := by
  intro key t x' hterm hx'
  have htab := (tabled hreach).1
  cases (step_tables h).terminal_lookup hterm with
  | old ht₀ =>
    cases step_origin h hx' with
    | kept hx => exact hs key t x' ht₀ hx
    | applied hidle hadm hlookup hx hstep hr =>
      exact (hs key t _ ht₀ hx).step hstep (conv_sound hreach _ (List.mem_of_getElem? hx)) hr.suits
    | advanced hx hstep hr =>
      exact (hs key t _ ht₀ hx).step hstep (conv_sound hreach _ (List.mem_of_getElem? hx))
        (hr.suits (tabled hreach).2 (opening hreach) hx)
    | rejected _ hlen | reserved _ hlen =>
      obtain ⟨y, hy, -⟩ := htab.terminal ht₀
      rw [hlen, List.getElem?_eq_none le_rfl] at hy
      cases hy
  | @released k x hx hkey hlookup heq =>
    subst heq
    subst hkey
    have hmem := List.mem_of_getElem? hx
    cases step_tables h with
    | same hr ht hsame => simp [retables, hx, hlookup] at hsame
    | released hy hpc hlookup' hr ht hy' =>
      cases hx.symm.trans hy
      cases hx'.symm.trans hy'
      exact .of_released (accounts hreach _ hmem) (marked hreach _ hmem)
  | @rejected frame k hrej hkey href hseq ht =>
    obtain ⟨hclass, hmax, hcredit, hcanceled⟩ := ht
    rw [href] at hx'
    cases step_origin h hx' with
    | kept hx =>
      have hmem := List.mem_of_getElem? hx
      obtain ⟨hrefused, hdone, hclass'⟩ := refusing hreach k x' frame hx hrej
      have hspent := (accounts hreach x' hmem).spent
      refine ⟨hdone, hclass.trans hclass'.symm, ?_, ?_, fun hc ↦ ?_⟩
      · rw [hmax, (marked hreach x' hmem).refused hrefused]
      · omega
      · rw [hcanceled] at hc
        cases hc
    | advanced hx hstep hr => cases hr
  | @late frame t₀ hlate hkey ht₀ heq =>
    obtain ⟨-, href, -⟩ := updateTerminal_eq_some heq
    rw [href] at hx'
    subst hkey
    obtain ⟨x, hx, -⟩ := htab.terminal ht₀
    obtain ⟨hidle, hlater⟩ := late_eq h hlate ht₀ heq hx
    cases hx'.symm.trans hlater
    exact (hs _ t₀ x ht₀ hx).late heq

theorem charged (h : Reach (step p) ok {} s) : s.Charged p :=
  h.invariant (P := Charged p) (fun key t x hterm ↦ by simp at hterm)
    fun _ _ _ hreach hs _ hstep ↦ hs.step hreach hstep

end Session

end MarketMesh.GatewayOut
