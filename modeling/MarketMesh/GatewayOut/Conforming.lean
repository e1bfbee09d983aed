import MarketMesh.GatewayOut.Credit
import MarketMesh.GatewayOut.Reply
import MarketMesh.GatewayOut.Sequence

/-!
# A conforming peer

A peer keeps to the protocol if every frame it sends is well formed and in order, and within the
credit it was granted.  `Conv.allows` and `Session.conforms` say so in terms of what was exchanged,
and not of what gateway-out knows of the request by then: the peer cannot know that gateway-out has
given up a request, and its frames for it are on the way.

Gateway-out may end the session at a conforming frame all the same.  `Session.remembers` says that
it still knows the request of a late frame, and `Session.spares` that the queues and requests of
certain classes give it no reason; `Session.stops_cases` says that it then does not end for their
frames.
-/

set_option autoImplicit false

namespace MarketMesh.GatewayOut

open Protocol

def isHalfClose (f : ConnectResponse) : Bool :=
  match f.payload with
  | .halfClose => true
  | _ => false

def isCancel (f : ConnectResponse) : Bool :=
  match f.payload with
  | .cancel _ => true
  | _ => false

/-- The payloads that belong to a request that was opened. -/
def follows : ResponsePayload → Bool
  | .data _ | .halfClose | .credit _ | .cancel _ => true
  | _ => false

namespace Conv

variable {p : Params} {env : Env} {x x' : Conv} {frame : ConnectResponse} {fs : List ConnectRequest}
  {err : Option Err} {payload : Bytes}

/-- The frame may follow what the peer sent for the request, with the credit the peer was granted
and the response it was sent so far. -/
def allows (p : Params) (x : Conv) (frame : ConnectResponse) : Bool :=
  decide (frame.header.trafficClass = x.request.route.trafficClass) &&
  decide (frame.header.sequence = x.handled.length + 1) && !x.handled.any isCancel &&
  match frame.payload with
  | .data payload =>
    !x.handled.any isHalfClose &&
    decide ((requestBytes x.handled).length + payload.length ≤ requestCredit x.queued) &&
    decide ((requestBytes x.handled).length + payload.length ≤ x.request.maximumRequest p)
  | .halfClose => !x.handled.any isHalfClose
  | .credit n => decide (responseCredit x.handled + n ≤
      x.request.maximumResponse p + (responseBytes x.queued).length)
  | .cancel _ => true
  | _ => false

/-- What is allowed stays allowed while nothing else is handled. -/
theorem allows_mono (h : x.allows p frame = true) (hroute : x'.request.route = x.request.route)
    (hh : x'.handled = x.handled) (hq : x.queued <+: x'.queued) : x'.allows p frame = true := by
  obtain ⟨rest, hrest⟩ := hq
  simp only [allows, RequestState.maximumRequest, RequestState.maximumResponse, hroute, hh,
    ← hrest, requestCredit_append, responseBytes_append, List.length_append] at h ⊢
  rw [Bool.and_eq_true] at h ⊢
  obtain ⟨hheader, hbody⟩ := h
  refine ⟨hheader, ?_⟩
  cases hk : frame.payload <;> rw [hk] at hbody
  case data =>
    simp only [Bool.and_eq_true, decide_eq_true_eq] at hbody ⊢
    have hcredit := hbody.1.2
    exact ⟨⟨hbody.1.1, by omega⟩, of_decide_eq_true hbody.2⟩
  case credit =>
    have hcredit := of_decide_eq_true hbody
    exact decide_eq_true (by omega)
  all_goals exact hbody

theorem allows_header (h : x.allows p frame = true) :
    frame.header.trafficClass = x.request.route.trafficClass ∧
      frame.header.sequence = x.handled.length + 1 ∧
      ∀ f ∈ x.handled, ∀ r, f.payload ≠ .cancel r := by
  simp only [allows, Bool.and_eq_true, decide_eq_true_eq, Bool.not_eq_true', List.any_eq_false] at h
  refine ⟨h.1.1.1, h.1.1.2, fun f hf r hk ↦ h.1.2 f hf ?_⟩
  rw [isCancel, hk]

theorem not_isHalfClose (h : x.handled.any isHalfClose = false) :
    ∀ f ∈ x.handled, f.payload ≠ .halfClose := by
  intro f hf hk
  refine List.any_eq_false.mp h f hf ?_
  rw [isHalfClose, hk]

theorem allows_data (h : x.allows p frame = true) (hk : frame.payload = .data payload) :
    (∀ f ∈ x.handled, f.payload ≠ .halfClose) ∧
      (requestBytes x.handled).length + payload.length ≤ requestCredit x.queued ∧
      (requestBytes x.handled).length + payload.length ≤ x.request.maximumRequest p := by
  simp only [allows, hk, Bool.and_eq_true, decide_eq_true_eq, Bool.not_eq_true'] at h
  exact ⟨not_isHalfClose h.2.1.1, h.2.1.2, h.2.2⟩

theorem allows_halfClose (h : x.allows p frame = true) (hk : frame.payload = .halfClose) :
    ∀ f ∈ x.handled, f.payload ≠ .halfClose := by
  simp only [allows, hk, Bool.and_eq_true, Bool.not_eq_true'] at h
  exact not_isHalfClose h.2

theorem allows_credit (h : x.allows p frame = true) {n : Nat} (hk : frame.payload = .credit n) :
    responseCredit x.handled + n ≤ x.request.maximumResponse p +
      (responseBytes x.queued).length := by
  simp only [allows, hk, Bool.and_eq_true, decide_eq_true_eq] at h
  exact h.2

/-! ## The moves of the receive loop on an allowed frame -/

theorem expects_of_allows (h : x.allows p frame = true)
    (hseq : x.request.incomingSequence = x.handled.length) :
    x.request.expects frame.header = true := by
  obtain ⟨hclass, hsequence, -⟩ := allows_header h
  simp [RequestState.expects, hclass, hsequence, hseq]

theorem step_requestForFrame (env : Env) (he : x.request.expects frame.header = true) :
    ∃ x', x.step p env (.requestForFrame frame) = some (x', [], none) := by
  simp [step, RequestState.requestForFrame, he]

theorem step_credit (env : Env) (h : x.allows p frame = true) (hx : x.Accounts)
    (hseq : x.request.incomingSequence = x.handled.length) {n : Nat}
    (hk : frame.payload = .credit n) :
    ∃ x', x.step p env (.credit frame) = some (x', [], none) := by
  have hcredit := allows_credit h hk
  have hspent := hx.spent
  have hn : frame.credit = n := by rw [ConnectResponse.credit, hk]
  have hfree : ¬ (x.request.maximumResponse p < frame.credit ∨
      x.request.maximumResponse p - frame.credit < x.request.sendCredit) := by
    rw [hn]
    omega
  simp [step, RequestState.handleCredit, expects_of_allows h hseq, hfree]

theorem step_cancel (env : Env) (h : x.allows p frame = true) (hx : Session.Marked p x)
    (hseq : x.request.incomingSequence = x.handled.length) :
    ∃ x', x.step p env (.cancel frame) = some (x', [], none) := by
  have hfree : x.request.peerCanceled = false := by
    refine Bool.eq_false_iff.mpr fun hc ↦ ?_
    obtain ⟨f, hf, r, hk⟩ := hx.canceled hc
    exact (allows_header h).2.2 f hf r hk
  simp [step, RequestState.handleCancel, expects_of_allows h hseq, hfree]

theorem halfClosed_eq_false (hx : Session.Marked p x)
    (h : ∀ f ∈ x.handled, f.payload ≠ .halfClose) : x.request.halfClosed = false := by
  refine Bool.eq_false_iff.mpr fun hc ↦ ?_
  obtain ⟨f, hf, hk⟩ := hx.closed hc
  exact h f hf hk

theorem step_halfClose (env : Env) (h : x.allows p frame = true) (hx : Session.Marked p x)
    (hk : frame.payload = .halfClose) (ht : x.request.terminal = false) :
    ∃ x', x.step p env (.halfClose frame) = some (x', [], none) := by
  simp [step, halfClosed_eq_false hx (allows_halfClose h hk), ht]

/-- The end of a response is refused by its queue. -/
theorem Step.batchRefused_cases {m}
    (h : Step p env x m x' fs err) (hpc : x'.completer = .batchRefused) :
    x.completer = .batchRefused ∨ ∃ choice, m = .enqueueBatch choice ∧ ∃ code e,
      x.completer = .batch code ∧ enqueue p choice (sessionErr env.isDone) env.isDone env.room
        (lastFrames p x.request code) = some (some e) := by
  cases h with
  | unfinished h hq => exact .inr ⟨_, rfl, _, _, h, hq⟩
  | claimed =>
    obtain h | h := firstPc_eq _ _
    all_goals
      rw [h] at hpc
      cases hpc
  | goes hs =>
    cases hs with
    | watcherDone | watcherExpired => exact .inl hpc
    | _ => cases hpc
  | aborted | took | woken | numberData | dataQueued | dataUnqueued | finished | cleanup =>
    cases hpc
  | _ => exact .inl hpc

/-- An allowed Data is taken, and the Credit for it is queued. -/
theorem err_of_data (h : x.allows p frame = true) (hacc : x.Accounts) (hm : Session.Marked p x)
    (hsound : x.Sound) (hk : frame.payload = .data payload)
    (ht : x.request.terminal = false) {choice}
    (hadm : x.admitted p env (.data frame choice) = true)
    (hstep : x.step p env (.data frame choice) = some (x', fs, err)) :
    err = none := by
  obtain ⟨hopen, hcredit, hmax⟩ := allows_data h hk
  have hclosed := halfClosed_eq_false hm hopen
  have hgranted := hacc.granted
  have hbytes : x.request.requestBytes = requestBytes x.handled := by
    have hexec := hsound.executes
    have hnone := hexec.executor_none hclosed
    rw [Executes, hnone] at hexec
    exact hexec.2.2 ht
  have htake : x.request.takeData p payload =
      some (x.request.taken payload, (x.request.taken payload).dataGrant p) :=
    RequestState.Takes.takeData_eq ⟨⟨hclosed, ht⟩, by omega, by rw [hbytes]; exact hmax⟩
  have hdata : frame.data = payload := by rw [ConnectResponse.data, hk]
  rw [← hdata] at htake
  simp only [admitted, htake] at hadm
  simp only [step, htake] at hstep
  split at hstep
  · cases hstep
    rfl
  · rename_i hgrant
    simp only [hgrant, decide_false, Bool.false_or, Bool.and_eq_true, Bool.not_eq_true',
      Option.isNone_iff_eq_none] at hadm
    obtain ⟨⟨⟨hroom, hdone⟩, hctx⟩, hframe⟩ := hadm
    simp only [offer, hroom, hdone] at hstep
    split at hstep
    · cases hstep
    · cases hstep
      rfl
    · rename_i e hq
      have hall : [((x.request.taken frame.data).granted
          ((x.request.taken frame.data).dataGrant p)).frame p
          (.credit (toUint32 ((x.request.taken frame.data).dataGrant p)))].all
            (admits p) = true := by
        rw [List.all_cons, hframe]
        rfl
      cases Session.enqueue_of_room hall hctx hq

end Conv

namespace Session

variable {p : Params} {s s' : Session} {a : Action} {k : Ref} {m : Move} {frame : ConnectResponse}
  {now : Time} {x : Conv} {receiver : Receiver} {f : ConnectResponse} {choice : Select}

/-! ## The peer -/

/-- The Open is of the class of its route, if gateway-out offers the route. -/
def classed? (p : Params) (frame : ConnectResponse) (request : Open) : Bool :=
  (p.registry.lookup request.routeId).all fun route ↦
    route.id ∉ p.routes || route.trafficClass ∈ p.classes &&
      decide (frame.header.trafficClass = route.trafficClass)

/-- **The peer keeps to the protocol.** -/
def conforms (p : Params) (s : Session) : Action → Bool
  | .recv frame now => s.freshOpen (.recv frame now) && admitsInbound p frame &&
    match frame.payload with
    | .opened request => decide (frame.header.sequence = 1) && classed? p frame request
    | .data _ | .halfClose | .credit _ | .cancel _ =>
      s.convs.any fun x ↦ decide (x.request.requestID = frame.header.requestId) && x.allows p frame
    | .ping _ | .pong _ | .drain _ => true
    | .hello _ | .none => false
  | _ => true

theorem freshOpen_of_conforms (h : s.conforms p a = true) : s.freshOpen a = true := by
  cases a with
  | recv =>
    simp only [conforms, Bool.and_eq_true] at h
    exact h.1.1
  | _ => rfl

theorem conforms_admits (h : s.conforms p (.recv frame now) = true) :
    admitsInbound p frame = true := by
  simp only [conforms, Bool.and_eq_true] at h
  exact h.1.2

theorem conforms_allows
    (h : s.conforms p (.recv frame now) = true) (hk : follows frame.payload = true) :
    ∃ x ∈ s.convs, x.request.requestID = frame.header.requestId ∧ x.allows p frame = true := by
  simp only [conforms, Bool.and_eq_true] at h
  have hbody := h.2
  cases hp : frame.payload <;> rw [hp] at hbody hk
  case data | halfClose | credit | cancel =>
    obtain ⟨x, hx, hx'⟩ := List.any_eq_true.mp hbody
    rw [Bool.and_eq_true, decide_eq_true_eq] at hx'
    exact ⟨x, hx, hx'⟩
  all_goals cases hk

/-! ## The frame in the hands of the receive loop -/

theorem ofRequest_of_follows {payload} (h : follows payload = true) :
    payload.ofRequest = true := by
  cases payload <;> first | rfl | cases h

/-- The conversation a conforming frame is looked up in allows it, and expects its number. -/
theorem allowed_of_lookup (hreach : Runs p s)
    (hidle : s.receiver = .idle)
    (hconf : s.conforms p (.recv frame now) = true) (hk : follows frame.payload = true)
    (hlookup : s.requests.lookup (OpaqueID.copy frame.header.requestId) = some k) :
    ∃ x, s.convs[k]? = some x ∧ x.allows p frame = true ∧
      x.request.incomingSequence = x.handled.length := by
  obtain ⟨y, hy, hid, hallows⟩ := conforms_allows hconf hk
  obtain ⟨x, hx, hid'⟩ := (tabled hreach).1.requests hlookup
  have hlength := requestId_length (conforms_admits hconf) (ofRequest_of_follows hk)
  rw [OpaqueID.toList_copy hlength] at hid'
  obtain ⟨k', hk'⟩ := List.getElem?_of_mem hy
  obtain rfl := distinct hreach k' k y x hk' hx (hid.trans hid'.symm)
  cases hk'.symm.trans hx
  have hcount := (counted hreach (by rw [hidle]; rfl)).active hlookup hx
  refine ⟨y, hx, hallows, ?_⟩
  rw [hcount, count, hidle]
  rfl

/-- A move whose outcome is known. -/
theorem act_of_step {x'} (hx : s.convs[k]? = some x)
    (hstep : x.step p (s.envOf p x) m = some (x', [], none)) :
    s.act p k m = some ({ s with convs := s.convs.set k x' }, none) := by
  simp only [envOf] at hstep
  simp only [act, hx, Option.bind_eq_bind, Option.bind_some, hstep, push]

/-- The receive loop looks a frame up in the terminal ring if it is a Credit or a Cancel. -/
theorem late_of_recv (h : s.step p (.recv frame now) = some s') (hr : s'.receiver = .late f) :
    (∃ n, frame.payload = .credit n) ∨ ∃ reason, frame.payload = .cancel reason := by
  cases step_change h with
  | looked hi ha hidle hr' =>
    rw [hr] at hr'
    cases hr' with
    | late _ hk => exact hk
  | applied _ _ _ _ _ _ _ hr' | waited _ _ hr' | moved _ _ _ _ hr' =>
    rw [hr] at hr'
    cases hr'
  | same hi ha hr' => simp [step, ← hr', hr] at h
  | tunnel hadm hi ha hr' =>
    obtain hr' | ⟨-, hr'⟩ := hr'
    · simp [step, ← hr', hr] at h
    · rw [hr] at hr'
      cases hr'

/-- An idle receive loop hands the frame it received to `handleFrame`. -/
theorem handleFrame_of_recv (h : s.step p (.recv frame now) = some s') :
    s.receiver = .idle ∧
      handleFrame p { s with received := s.received ++ [frame] } frame now = some s' := by
  simp only [step] at h
  split at h
  · exact ⟨by assumption, h⟩
  · cases h

/-- A conforming Credit or Cancel of an active request is applied to it. -/
theorem lookup_of_late (hreach : Runs p s)
    (hconf : s.conforms p (.recv frame now) = true)
    (h : s.step p (.recv frame now) = some s') (hr : s'.receiver = .late f) :
    s.requests.lookup (OpaqueID.copy frame.header.requestId) = none := by
  have hk := late_of_recv h hr
  obtain ⟨hidle, h⟩ := handleFrame_of_recv h
  by_contra hsome
  obtain ⟨k, hlookup⟩ := Option.ne_none_iff_exists'.mp hsome
  have hupdate : ∀ {move next}, (∀ k, next k ≠ .late f) →
      (∃ s₁, act p { s with received := s.received ++ [frame] } k move = some (s₁, none)) →
      handleUpdate p { s with received := s.received ++ [frame] } frame move next ≠ some s' := by
    rintro move next hnext ⟨s₁, hact⟩ h
    simp only [handleUpdate, hlookup, hact, Option.some_inj] at h
    subst h
    exact hnext k hr
  simp only [handleFrame, conforms_admits hconf, if_true] at h
  obtain ⟨n, hk⟩ | ⟨reason, hk⟩ := hk
  all_goals
    simp only [hk] at h
    obtain ⟨x, hx, hallows, hseq⟩ := allowed_of_lookup hreach hidle hconf (by rw [hk]; rfl) hlookup
  · obtain ⟨x', hstep⟩ := Conv.step_credit (s.envOf p x) hallows
      (accounts hreach x (List.mem_of_getElem? hx)) hseq hk
    exact hupdate (fun _ h ↦ by cases h) ⟨_, act_of_step hx hstep⟩ h
  · obtain ⟨x', hstep⟩ := Conv.step_cancel (s.envOf p x) hallows
      (marked hreach x (List.mem_of_getElem? hx)) hseq
    exact hupdate (fun _ h ↦ by cases h) ⟨_, act_of_step hx hstep⟩ h

/-- The moves of the other goroutines are those that leave the receive loop where it is. -/
theorem Advances.own_of_same {x' err}
    (h : Advances p s k x x' a m err receiver) (hr : receiver = s.receiver) : m.isOwn = true := by
  cases h with
  | worker hm => exact isOwn_of_worker hm
  | session | release | abort => rfl
  | openAborted hopen | completed hopen =>
    rw [hopen] at hr
    split at hr <;> cases hr
  | late hlate =>
    rw [hlate] at hr
    cases hr
  | _ =>
    rename_i hopen
    rw [hopen] at hr
    cases hr

/-- As long as the receive loop stays where it is, an allowed frame stays allowed. -/
theorem allows_of_same (h : s.step p a = some s')
    (hbusy : s.receiver ≠ .idle) (hr : s'.receiver = s.receiver) (hx : s.convs[k]? = some x)
    (hallows : x.allows p frame = true) :
    ∃ x', s'.convs[k]? = some x' ∧ x'.request.requestID = x.request.requestID ∧
      x'.allows p frame = true := by
  cases step_change h with
  | same hi | waited hi | tunnel _ hi => exact ⟨x, hi ▸ hx, rfl, hallows⟩
  | looked _ _ hidle | applied hidle => exact absurd hidle hbusy
  | rejected _ _ hi | reserved _ hi => exact ⟨x, hi ▸ Pool.append hx _, rfl, hallows⟩
  | @moved _ _ k' y y' m fs err hy hstep hi ha hr' =>
    rw [hi]
    by_cases hkk : k = k'
    · subst hkk
      cases hx.symm.trans hy
      refine ⟨y', Pool.set_self hx y', hstep.request_eq.2.1, ?_⟩
      exact Conv.allows_mono hallows hstep.request_eq.2.2
        (hstep.own_eq (hr'.own_of_same hr)).1 ⟨fs, hstep.queued_eq.symm⟩
    · exact ⟨x, Pool.set_of_ne hx hkk y', rfl, hallows⟩

/-- What is known of the frame the receive loop works on, when it comes from a conforming peer. -/
structure InHand (p : Params) (s : Session) : Prop where
  body : ∀ k f, s.receiver = .data k f ∨ s.receiver = .halfClose k f →
    ∃ x, s.convs[k]? = some x ∧ x.allows p f = true
  late : ∀ f, s.receiver = .late f →
    s.requests.lookup (OpaqueID.copy f.header.requestId) = none ∧
      ∃ x ∈ s.convs, x.request.requestID = f.header.requestId ∧ x.allows p f = true
  last : ∀ f ∈ s.receiver.hand, s.receiver.isStopped = false → s.received.getLast? = some f

theorem InHand.init : InHand p {} where
  body k f h := by simp at h
  late f h := by simp at h
  last f hf := by simp [Receiver.hand] at hf

/-- The receive loop is over, or works on no frame. -/
def isFree (r : Receiver) : Bool :=
  r.isStopped || r.hand.isEmpty

/-- Where nothing is in hand there is nothing to know. -/
theorem InHand.of_isFree (hr : s.receiver = receiver) (hfree : isFree receiver = true) :
    InHand p s := by
  subst hr
  refine ⟨fun k f h ↦ ?_, fun f h ↦ ?_, fun f hf hgoes ↦ ?_⟩
  · obtain h | h := h <;> rw [h] at hfree <;> cases hfree
  · rw [h] at hfree
    cases hfree
  · cases hr : s.receiver <;> simp_all [isFree, Receiver.hand, Receiver.isStopped]

/-- A frame that stays in hand. -/
theorem InHand.of_same (hs : InHand p s) (h : s.step p a = some s') (hr : s'.receiver = s.receiver)
    (hbusy : s.receiver ≠ .idle) : InHand p s' := by
  have hv : s'.received = s.received := by
    obtain hv | ⟨frame, now, rfl, -⟩ := step_received h
    · exact hv
    · exact absurd (handleFrame_of_recv h).1 hbusy
  refine ⟨fun k f hf ↦ ?_, fun f hf ↦ ?_, ?_⟩
  · obtain ⟨x, hx, hallows⟩ := hs.body k f (hr ▸ hf)
    obtain ⟨x', hx', -, hallows'⟩ := allows_of_same h hbusy hr hx hallows
    exact ⟨x', hx', hallows'⟩
  · obtain ⟨hnone, x, hx, hid, hallows⟩ := hs.late f (hr ▸ hf)
    obtain ⟨k, hk⟩ := List.getElem?_of_mem hx
    obtain ⟨x', hx', hid', hallows'⟩ := allows_of_same h hbusy hr hk hallows
    refine ⟨?_, x', List.mem_of_getElem? hx', hid'.trans hid, hallows'⟩
    -- only the receive loop itself reserves a request
    rw [Option.eq_none_iff_forall_ne_some]
    intro k' hk'
    obtain hold | ⟨rfl, -⟩ := (step_tables h).requests_lookup hk'
    · rw [hnone] at hold
      cases hold
    · simp [step, ← hr, hf] at h
  · rw [hr, hv]
    exact hs.last

theorem InHand.step (hs : InHand p s)
    (hreach : Runs p s)
    (hconf : s.conforms p a = true) (h : s.step p a = some s') : InHand p s' := by
  by_cases hsame : s'.receiver = s.receiver
  · by_cases hidle : s.receiver = .idle
    · exact .of_isFree (hsame.trans hidle) rfl
    · exact hs.of_same h hsame hidle
  cases step_change h with
  | same hi ha hr => exact absurd hr hsame
  | tunnel hadm hi ha hr =>
    obtain hr | ⟨-, hr⟩ := hr
    · exact absurd hr hsame
    · exact .of_isFree hr rfl
  | waited hi ha hr hv =>
    generalize hreceiver : s'.receiver = receiver at hr
    cases hr with
    | full hres =>
      refine ⟨?_, ?_, fun f hf _ ↦ ?_⟩ <;> rw [hreceiver] at *
      · simp
      · simp
      · rw [hv]
        refine hs.last f ?_ ?_
        · rw [hres]
          exact hf
        · rw [hres]
          rfl
    | refused | unknown | unanswered | ended | entered | awaited =>
      exact .of_isFree hreceiver rfl
  | @looked frame now _ hi ha hidle hr hv =>
    have hlast : s'.received.getLast? = some frame := by rw [hv, List.getLast?_concat]
    generalize hreceiver : s'.receiver = receiver at hr
    cases hr with
    | stopped | pong => exact .of_isFree hreceiver rfl
    | rejecting | reserving =>
      refine ⟨?_, ?_, fun f hf _ ↦ ?_⟩ <;> rw [hreceiver] at *
      · simp
      · simp
      · rw [hlast, List.mem_singleton.mp hf]
    | late hadm hk =>
      have hnone := lookup_of_late hreach hconf h hreceiver
      have hsame : s'.requests = s.requests := by
        cases step_tables h with
        | same hr => exact hr
      obtain ⟨x, hx, hid, hallows⟩ := conforms_allows hconf
        (by obtain ⟨n, hk⟩ | ⟨r, hk⟩ := hk <;> rw [hk] <;> rfl)
      refine ⟨?_, fun f hf ↦ ?_, fun f hf _ ↦ ?_⟩ <;> rw [hreceiver] at *
      · simp
      · cases hf
        exact ⟨hsame ▸ hnone, x, hi ▸ hx, hid, hallows⟩
      · rw [hlast, List.mem_singleton.mp hf]
    | control => exact absurd (hreceiver.trans hidle.symm) hsame
  | @applied frame now _ k x x' m hidle hadm hlookup hx hstep hi ha hr hv =>
    have hlast : s'.received.getLast? = some frame := by rw [hv, List.getLast?_concat]
    have hx' : s'.convs[k]? = some x' := by
      rw [hi]
      exact Pool.set_self hx x'
    have hbody : follows frame.payload = true → m = .requestForFrame frame →
        x'.allows p frame = true := by
      intro hk hm
      obtain ⟨y, hy, hallows, -⟩ := allowed_of_lookup hreach hidle hconf hk hlookup
      cases hx.symm.trans hy
      subst hm
      exact Conv.allows_mono hallows hstep.request_eq.2.2
        (hstep.handled_eq.trans (List.append_nil _)) ⟨[], hstep.queued_eq.symm⟩
    generalize hreceiver : s'.receiver = receiver at hr
    cases hr with
    | data hk | halfClose hk =>
      refine ⟨fun k' f hf ↦ ?_, ?_, fun f hf _ ↦ ?_⟩ <;> rw [hreceiver] at *
      · simp only [reduceCtorEq, Receiver.data.injEq, Receiver.halfClose.injEq, or_false,
          false_or] at hf
        obtain ⟨rfl, rfl⟩ := hf
        exact ⟨x', hx', hbody (by rw [hk]; rfl) rfl⟩
      · simp
      · rw [hlast, List.mem_singleton.mp hf]
    | credit => exact absurd (hreceiver.trans hidle.symm) hsame
    | cancel => exact .of_isFree hreceiver rfl
  | rejected _ _ _ _ hr | reserved _ _ _ hr => exact .of_isFree hr rfl
  | @moved _ _ k x x' m fs err hx hstep hi ha hr =>
    generalize hreceiver : s'.receiver = receiver at hr
    cases hr with
    | worker | session | release | abort => exact absurd hreceiver hsame
    | openAborted | completed => exact .of_isFree hreceiver (by split <;> rfl)
    | _ => exact .of_isFree hreceiver rfl

/-! ## Sparing the session -/

/-- The frame belongs to a request of one of the classes. -/
def protects (classes : TrafficClass → Bool) (frame : ConnectResponse) : Bool :=
  frame.payload.ofRequest && classes frame.header.trafficClass

/-- A Credit or a Cancel, of whatever class, finds its request in one of the tables. -/
def remembers (s : Session) : Action → Bool
  | .late =>
    match s.receiver with
    | .late frame => (s.requests.lookup (OpaqueID.copy frame.header.requestId)).isSome ||
      (s.terminal.lookup (OpaqueID.copy frame.header.requestId)).isSome
    | _ => true
  | _ => true

/-- **As long as the session is not canceled, the requests and queues of the classes give no reason
to end it.**  The request of a Data or a HalfClose is active, and not over when the frame is
handled; and the queues take the Credit for a Data, the refusal of an Open and the end of a
response. -/
def spares (classes : TrafficClass → Bool) (p : Params) (s : Session) (a : Action) : Bool :=
  s.isDone || match a with
  | .recv frame _ => !protects classes frame ||
    match frame.payload with
    | .data _ | .halfClose =>
      (s.requests.lookup (OpaqueID.copy frame.header.requestId)).isSome
    | _ => true
  | .data choice =>
    match s.receiver with
    | .data k frame => !protects classes frame || (s.convs[k]?).all fun x ↦
      !x.request.terminal && x.admitted p (s.envOf p x) (.data frame choice)
    | _ => true
  | .halfClose =>
    match s.receiver with
    | .halfClose k frame => !protects classes frame ||
      (s.convs[k]?).all fun x ↦ !x.request.terminal
    | _ => true
  | .enqueueReject _ =>
    match s.receiver with
    | .rejecting frame code => !protects classes frame ||
      s.room p (queue frame.header.trafficClass) && (rejection p frame.header code).all (admits p)
    | _ => true
  | .worker k (.enqueueBatch _) => (s.convs[k]?).all fun x ↦
    !classes x.request.route.trafficClass ||
      match x.completer with
      | .batch code => s.room p (queue x.request.route.trafficClass) &&
        (Conv.lastFrames p x.request code).all (admits p)
      | _ => true
  | _ => true

/-- The peer keeps to the protocol, and nothing of the classes gives a reason to end the session. -/
def goesOn (classes : TrafficClass → Bool) (p : Params) (s : Session) (a : Action) : Bool :=
  s.conforms p a && s.remembers a && s.spares classes p a

/-- The receive loop ends in the step, and the session is not canceled. -/
structure Stops (p : Params) (s : Session) (a : Action) (s' : Session) : Prop where
  step : s.step p a = some s'
  notDone : s'.isDone = false
  runs : s.receiver.isStopped = false
  stops : s'.receiver.isStopped = true

/-- As long as the session is not canceled, no end of a response of the classes was refused. -/
def Spared (classes : TrafficClass → Bool) (s : Session) : Prop :=
  s.isDone = false → ∀ x ∈ s.convs, classes x.request.route.trafficClass = true →
    x.completer ≠ .batchRefused

variable {classes : TrafficClass → Bool} {ok : Session → Action → Prop}

/-- An Open of the right class is refused or reserved. -/
theorem handleOpen_goes {request}
    (hseq : frame.header.sequence = 1) (hclass : classed? p frame request = true) :
    (s.handleOpen p frame request now).receiver.isStopped = false := by
  simp only [handleOpen, hseq]
  repeat' split
  all_goals try rfl
  · contradiction
  · rename_i hlookup hmem hne
    simp only [classed?, hlookup, Option.all_some] at hclass
    simp_all

/-- A conforming frame of the classes, or of none, passes the first critical section. -/
theorem not_stopped_of_recv (hreach : Runs p s)
    (hconf : s.conforms p (.recv frame now) = true)
    (hok : s.spares classes p (.recv frame now) = true) (hd : s.isDone = false)
    (hprot : frame.payload.ofRequest = true → protects classes frame = true)
    (h : s.step p (.recv frame now) = some s') :
    s'.receiver.isStopped = false := by
  obtain ⟨hidle, h⟩ := handleFrame_of_recv h
  have hbody : ∀ {next}, (∀ k, (next k).isStopped = false) → follows frame.payload = true →
      (s.requests.lookup (OpaqueID.copy frame.header.requestId)).isSome = true →
      handleBody p { s with received := s.received ++ [frame] } frame next = some s' →
      s'.receiver.isStopped = false := by
    intro next hnext hk hsome h
    obtain ⟨k, hlookup⟩ := Option.isSome_iff_exists.mp hsome
    obtain ⟨x, hx, hallows, hseq⟩ := allowed_of_lookup hreach hidle hconf hk hlookup
    obtain ⟨x', hstep⟩ := Conv.step_requestForFrame (p := p) (s.envOf p x)
      (Conv.expects_of_allows hallows hseq)
    have hact : act p { s with received := s.received ++ [frame] } k (.requestForFrame frame) =
        some ({ s with received := s.received ++ [frame], convs := s.convs.set k x' }, none) :=
      act_of_step hx hstep
    simp only [handleBody, hlookup, hact, Option.some_inj] at h
    subst h
    exact hnext k
  have hupdate : ∀ {move next}, (∀ k, (next k).isStopped = false) →
      handleUpdate p { s with received := s.received ++ [frame] } frame move next = some s' →
      s'.receiver.isStopped = false := by
    intro move next hnext h
    refine Bool.eq_false_iff.mpr fun hstop ↦ ?_
    obtain ⟨hand, e, hr⟩ : ∃ hand e, s'.receiver = .stopped hand e := by
      unfold Receiver.isStopped at hstop
      split at hstop
      · exact ⟨_, _, by assumption⟩
      · cases hstop
    exact handleUpdate_stopped (fun k hk ↦ by have := hnext k; rw [hk] at this; cases this) h hr
  simp only [handleFrame, conforms_admits hconf, if_true] at h
  simp only [spares, hd, Bool.false_or] at hok
  simp only [conforms, Bool.and_eq_true] at hconf
  cases hk : frame.payload <;> simp only [hk] at h hok hconf hprot
  case opened request =>
    obtain ⟨hseq, hclass⟩ := Bool.and_eq_true_iff.mp hconf.2
    cases h
    exact handleOpen_goes (of_decide_eq_true hseq) hclass
  case data | halfClose =>
    rw [hprot rfl, Bool.not_true, Bool.false_or] at hok
    exact hbody (fun _ ↦ rfl) (by rw [hk]; rfl) hok h
  case cancel => exact hupdate (fun _ ↦ rfl) h
  case credit => exact hupdate (fun _ ↦ rfl) h
  case ping =>
    cases h
    rfl
  case pong =>
    cases h
    simp [hidle, Receiver.isStopped]
  case drain =>
    cases h
    rw [handlePeerDrain]
    split <;> simp [hidle, Receiver.isStopped]
  all_goals cases hconf.2

/-- An allowed Data of the classes is taken. -/
theorem not_stopped_of_data (hin : InHand p s) (hreach : Machine.Reach (step p) ok {} s)
    (hr : s.receiver = .data k frame)
    (hok : s.spares classes p (.data choice) = true) (hd : s.isDone = false)
    (hprot : protects classes frame = true) (h : s.step p (.data choice) = some s') :
    s'.receiver.isStopped = false := by
  obtain ⟨x, hx, hallows⟩ := hin.body k frame (.inl hr)
  have hmem := List.mem_of_getElem? hx
  obtain ⟨payload, hk⟩ : ∃ b, frame.payload = .data b := by
    have hheld := (tabled hreach).2
    rw [Held, hr] at hheld
    exact hheld.2
  simp only [spares, hd, hr, hprot, hx, Bool.false_or, Bool.not_true, Option.all_some,
    Bool.and_eq_true, Bool.not_eq_true'] at hok
  simp only [step, hr, hx, Option.bind_eq_bind, Option.bind_some] at h
  split at h
  · cases h
  · cases h
    rfl
  · rename_i s₁ e hact
    obtain ⟨y, y', fs, hy, hstep, -⟩ := act_eq_some hact
    cases hx.symm.trans hy
    cases Conv.err_of_data hallows (accounts hreach x hmem) (marked hreach x hmem)
      (conv_sound hreach x hmem) hk hok.1 hok.2 hstep

/-- An allowed HalfClose of the classes is taken. -/
theorem not_stopped_of_halfClose (hin : InHand p s) (hreach : Machine.Reach (step p) ok {} s)
    (hr : s.receiver = .halfClose k frame)
    (hok : s.spares classes p .halfClose = true) (hd : s.isDone = false)
    (hprot : protects classes frame = true) (h : s.step p .halfClose = some s') :
    s'.receiver.isStopped = false := by
  obtain ⟨x, hx, hallows⟩ := hin.body k frame (.inr hr)
  have hk : frame.payload = .halfClose := by
    have hheld := (tabled hreach).2
    rw [Held, hr] at hheld
    exact hheld.2
  simp only [spares, hd, hr, hprot, hx, Bool.false_or, Bool.not_true, Option.all_some,
    Bool.not_eq_true'] at hok
  obtain ⟨x', hstep⟩ := Conv.step_halfClose (s.envOf p x) hallows
    (marked hreach x (List.mem_of_getElem? hx)) hk hok
  simp only [step, hr, act_of_step hx hstep, Option.some_inj] at h
  subst h
  rfl

/-- An allowed Credit or Cancel is accepted by the terminal ring. -/
theorem updateTerminal_of_allows {t} (hallows : x.allows p frame = true) (ht : Charge p t x)
    (hseq : t.incomingSequence = x.handled.length)
    (hk : (∃ n, frame.payload = .credit n) ∨ ∃ reason, frame.payload = .cancel reason) :
    (updateTerminal frame t).isSome = true := by
  obtain ⟨hclass, hsequence, hcancel⟩ := Conv.allows_header hallows
  have hopen : t.canceled = false := by
    refine Bool.eq_false_iff.mpr fun hc ↦ ?_
    obtain ⟨f, hf, r, hk⟩ := ht.canceled hc
    exact hcancel f hf r hk
  have hpass : ¬ (frame.header.trafficClass ≠ t.trafficClass ∨
      frame.header.sequence ≠ t.incomingSequence + 1 ∨ t.canceled = true) := by
    simp [hclass, ht.trafficClass, hsequence, hseq, hopen]
  rw [updateTerminal, if_neg hpass]
  obtain ⟨n, hk⟩ | ⟨reason, hk⟩ := hk
  · have hcredit := Conv.allows_credit hallows hk
    have hspent := ht.spent
    have hmax := ht.maximum
    have hfree : ¬ (t.maximumCredit < n ∨ t.maximumCredit - n < t.sendCredit) := by omega
    simp [hk, hfree]
  · simp [hk]

theorem not_stopped_of_late (hin : InHand p s)
    (hreach : Runs p s)
    (hr : s.receiver = .late frame) (hok : s.remembers .late = true)
    (h : s.step p .late = some s') : s'.receiver.isStopped = false := by
  obtain ⟨hnone, x, hx, hid, hallows⟩ := hin.late frame hr
  have hheld := (tabled hreach).2
  rw [Held, hr] at hheld
  simp only [remembers, hr, hnone, Bool.false_or, Option.isSome_none] at hok
  obtain ⟨t, hterm⟩ := Option.isSome_iff_exists.mp hok
  -- the entry is the one of the conversation that allows the frame
  obtain ⟨y, hy, hid'⟩ := (tabled hreach).1.terminal hterm
  have hlength := requestId_length hheld.1
    (by obtain ⟨n, hk⟩ | ⟨r, hk⟩ := hheld.2 <;> rw [hk] <;> rfl)
  rw [OpaqueID.toList_copy hlength] at hid'
  obtain ⟨k', hk'⟩ := List.getElem?_of_mem hx
  obtain rfl := distinct hreach k' t.ref x y hk' hy (hid.trans hid'.symm)
  cases hk'.symm.trans hy
  have hcount := (counted hreach (by rw [hr]; rfl)).terminal hterm hy
  rw [count, hr] at hcount
  obtain ⟨t', ht'⟩ := Option.isSome_iff_exists.mp
    (updateTerminal_of_allows hallows (charged hreach _ t x hterm hy) hcount hheld.2)
  simp only [step, hr, handleTerminalFrame, hterm, ht'] at h
  obtain ⟨⟨s₁, err⟩, -, rfl⟩ := Option.map_eq_some_iff.mp h
  rfl

theorem not_stopped_of_reject {code} (hr : s.receiver = .rejecting frame code)
    (hok : s.spares classes p (.enqueueReject choice) = true) (hd : s.isDone = false)
    (hprot : protects classes frame = true) (h : s.step p (.enqueueReject choice) = some s') :
    s'.receiver.isStopped = false := by
  simp only [spares, hd, hr, hprot, Bool.false_or, Bool.not_true, Bool.and_eq_true] at hok
  exact not_stopped_of_room hr hd hok.1 hok.2 h

theorem Spared.step (hs : Spared classes s) (hok : s.spares classes p a = true)
    (h : s.step p a = some s') : Spared classes s' := by
  intro hd x' hx' hclass hpc
  have hd₀ := step_isDone h hd
  obtain ⟨k, hk⟩ := List.getElem?_of_mem hx'
  cases step_origin h hk with
  | kept hx => exact hs hd₀ x' (List.mem_of_getElem? hx) hclass hpc
  | applied hidle hadm hlookup hx hstep hr =>
    rw [hstep.request_eq.2.2] at hclass
    obtain hold | ⟨choice, hm, -⟩ := hstep.batchRefused_cases hpc
    · exact hs hd₀ _ (List.mem_of_getElem? hx) hclass hold
    · subst hm
      generalize s'.receiver = receiver at hr
      cases hr
  | @advanced _ x m fs err hx hstep hr =>
    rw [hstep.request_eq.2.2] at hclass
    obtain hold | ⟨choice, hm, code, e, hbatch, hq⟩ := hstep.batchRefused_cases hpc
    · exact hs hd₀ _ (List.mem_of_getElem? hx) hclass hold
    · subst hm
      generalize s'.receiver = receiver at hr
      cases hr with
      | worker =>
        simp only [spares, hd₀, hx, hclass, hbatch, Bool.false_or, Bool.not_true, Option.all_some,
          Bool.and_eq_true] at hok
        simp only [envOf, hd₀, hok.1] at hq
        cases enqueue_of_room hok.2 rfl hq
  | rejected _ _ hx | reserved _ _ hx =>
    rw [hx] at hpc
    cases hpc

/-- **Where the receive loop ends.**  `stream.Recv` fails, the answer to a Ping is refused, or
`handleFrame` returns an error for a frame of a request that is not of the classes. -/
theorem stops_cases (hin : InHand p s) (hreach : Runs p s) (hok : s.goesOn classes p a = true)
    (h : Stops p s a s') :
    s'.receiver = .stopped none .sessionClosed ∨ (∃ nonce, s.receiver = .pong nonce) ∨
      ∃ f, s'.received.getLast? = some f ∧ f.payload.ofRequest = true ∧
        classes f.header.trafficClass = false := by
  obtain ⟨h, hd, hstop₀, hstop⟩ := h
  simp only [goesOn, Bool.and_eq_true] at hok
  obtain ⟨⟨hconf, hrem⟩, hok⟩ := hok
  have hd₀ := step_isDone h hd
  have hheld := (tabled hreach).2
  -- the frame in hand is the last one that was received
  have hhand {frame : ConnectResponse} (hr : s.receiver.hand = [frame])
      (hv : s'.received = s.received) (hk : frame.payload.ofRequest = true)
      (hgoes : protects classes frame = true → s'.receiver.isStopped = false) :
      ∃ f, s'.received.getLast? = some f ∧ f.payload.ofRequest = true ∧
        classes f.header.trafficClass = false := by
    refine ⟨frame, hv ▸ hin.last _ (hr ▸ List.mem_singleton_self _) hstop₀, hk,
      Bool.eq_false_iff.mpr fun hclass ↦ ?_⟩
    rw [hgoes (by rw [protects, hk, hclass]; rfl)] at hstop
    cases hstop
  cases step_change h with
  | same hi ha hr => rw [hr, hstop₀] at hstop; cases hstop
  | tunnel hadm hi ha hr =>
    obtain hr | ⟨-, hr⟩ := hr
    · rw [hr, hstop₀] at hstop
      cases hstop
    · rw [hr] at hstop
      cases hstop
  | waited hi ha hr hv =>
    generalize hreceiver : s'.receiver = receiver at hr
    cases hr with
    | ended => exact .inl rfl
    | refused hrej =>
      rw [Held, hrej] at hheld
      obtain ⟨request, hk⟩ := hheld.1.payload
      exact .inr (.inr (hhand (by rw [hrej]; rfl) hv (by rw [hk]; rfl) fun hprot ↦
        not_stopped_of_reject hrej hok hd₀ hprot h))
    | unknown hlate =>
      rw [not_stopped_of_late hin hreach hlate hrem h] at hstop
      cases hstop
    | unanswered hpong => exact .inr (.inl ⟨_, hpong⟩)
    | _ =>
      rw [hreceiver] at hstop
      cases hstop
  | looked _ _ _ _ hv | applied _ _ _ _ _ _ _ _ hv =>
    refine .inr (.inr ⟨_, by rw [hv, List.getLast?_concat], ?_⟩)
    by_contra hother
    rw [not_stopped_of_recv hreach hconf hok hd₀ (fun hk ↦ ?_) h] at hstop
    · cases hstop
    · rw [protects, hk]
      exact Bool.of_not_eq_false fun hclass ↦ hother ⟨hk, hclass⟩
  | rejected _ _ _ _ hr | reserved _ _ _ hr => rw [hr] at hstop; cases hstop
  | moved hx hstep hi ha hr hv =>
    generalize hreceiver : s'.receiver = receiver at hr
    cases hr with
    | dataFailed hdata =>
      rw [Held, hdata] at hheld
      obtain ⟨-, b, hk⟩ := hheld
      exact .inr (.inr (hhand (by rw [hdata]; rfl) hv (by rw [hk]; rfl) fun hprot ↦
        not_stopped_of_data hin hreach hdata hok hd₀ hprot h))
    | halfCloseFailed hclose =>
      rw [Held, hclose] at hheld
      exact .inr (.inr (hhand (by rw [hclose]; rfl) hv (by rw [hheld.2]; rfl) fun hprot ↦
        not_stopped_of_halfClose hin hreach hclose hok hd₀ hprot h))
    | worker | session | release | abort =>
      rw [hreceiver, hstop₀] at hstop
      cases hstop
    | openAborted | completed =>
      rw [hreceiver] at hstop
      split at hstop <;> cases hstop
    | _ =>
      rw [hreceiver] at hstop
      cases hstop

/-- **The requests of the classes never cancel the session**, when the peer keeps to the protocol
and there is no reason to. -/
theorem spared (h : Machine.Reach (step p) (fun s a ↦ s.goesOn classes p a = true) {} s) :
    InHand p s ∧ Spared classes s := by
  refine h.invariant (P := fun s ↦ InHand p s ∧ Spared classes s)
    ⟨.init, fun _ x hx ↦ absurd hx List.not_mem_nil⟩ ?_
  rintro s a s' hreach ⟨hin, hs⟩ hok hstep
  simp only [goesOn, Bool.and_eq_true] at hok hreach
  have hfresh := hreach.mono fun s a h ↦ freshOpen_of_conforms h.1.1
  exact ⟨hin.step hfresh hok.1.1 hstep, hs.step hok.2 hstep⟩

end Session

end MarketMesh.GatewayOut
