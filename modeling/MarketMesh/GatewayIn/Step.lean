import MarketMesh.GatewayIn.Session
import MarketMesh.Lib.Run

/-!
# What a step of gateway-in can do

Every invariant of a session is proved by looking at what one step does, so this file says it once.

* `enqueueFrame_eq_none` and `enqueuePayloadLocked_cases` are the specification of an offer to the
  outbound queue: a completed request offers nothing, a refused frame has cost its number, and an
  accepted one satisfies every check.
* `LogicalRequest.Takes` lists what `handleInbound` can do with a frame.
* `Invocation.Step` lists the effects a move has on an invocation, and `Invocation.step_cases`
  says that there are no others.
* `Session.Change` does the same for a session: a step leaves the invocations alone, adds a new
  one, or makes one move on one of them.
-/

set_option autoImplicit false

namespace MarketMesh.GatewayIn

open Protocol

variable {p : Params} {view : View} {lanes : Lanes} {f : ConnectResponse}

/-! ## Offers -/

theorem Lanes.enqueue_eq_none {limits ctxErr} (h : Lanes.enqueue limits ctxErr lanes f = none) :
    ∃ lane, queueLane f.header.trafficClass = some lane := by
  cases ctxErr with
  | some => exact absurd h (by simp [enqueue])
  | none =>
    cases hlane : queueLane f.header.trafficClass with
    | none => exact absurd h (by simp [enqueue, hlane])
    | some lane => exact ⟨lane, rfl⟩

/-- A frame that enters the queue has passed every check of `enqueueFrame`. -/
theorem enqueueFrame_eq_none (h : enqueueFrame p view lanes f = none) :
    f.Valid ∧ f.header.tunnelId = p.id.toList ∧ f.size ≤ p.limits.maxFrameBytes ∧
      f.data.length ≤ p.limits.maxDataBytes ∧ f.credit ≤ p.limits.maxCreditBytes ∧
      Lanes.enqueue p.settings.queues view.ctxErr lanes f = none := by
  simp only [enqueueFrame] at h
  repeat' split at h
  all_goals first | exact absurd h (by simp) | skip
  rename_i hvalid hid hsize hdata hcredit
  exact ⟨by simpa using hvalid, by simpa using hid, by omega, by omega, by omega, h⟩

namespace LogicalRequest

/-- The two ways an offer can end. -/
theorem enqueuePayloadLocked_cases (p : Params) (view : View) (lanes : Lanes)
    (payload : ResponsePayload) (r : LogicalRequest) :
    (∃ r' e, r.enqueuePayloadLocked p view lanes payload = (r', .error e) ∧
      (r' = r ∨ r' = r.advance)) ∨
    (r.isCompleted = false ∧ enqueueFrame p view lanes (r.advance.frame p payload) = none ∧
      r.enqueuePayloadLocked p view lanes payload =
        (r.advance, .ok (r.advance.frame p payload))) := by
  rw [enqueuePayloadLocked]
  split
  · exact .inl ⟨_, _, rfl, .inl rfl⟩
  · rename_i hc
    split
    · exact .inl ⟨_, _, rfl, .inl rfl⟩
    · split
      · split
        · exact .inl ⟨_, _, rfl, .inr rfl⟩
        · rename_i hq
          exact .inr ⟨by simpa using hc, hq, rfl⟩
      · exact .inl ⟨_, _, rfl, .inr rfl⟩

/-- A request that was ended from this side: what is still to come of its response is accepted. -/
def aborted (err : Err) (r : LogicalRequest) : LogicalRequest :=
  { r with
    acceptResponseTail := true
    tailResponseSize := r.responsePayload.length
    isCompleted := true
    response := {}
    err := some err }

variable {err : Err}

theorem completeLocalAbort_of_not_completed {r : LogicalRequest}
    (h : r.isCompleted = false) : r.completeLocalAbort err = r.aborted err := by
  simp [completeLocalAbort, completeLocked, aborted, h]

theorem completeLocalAbort_of_completed {r : LogicalRequest}
    (h : r.isCompleted = true) : r.completeLocalAbort err = r := by
  simp [completeLocalAbort, h]

/-- A request that was completed with an error and takes no further frames. -/
def failed (err : Err) (r : LogicalRequest) : LogicalRequest :=
  { r with isCompleted := true, response := {}, err := some err }

theorem completeLocked_of_not_completed {r : LogicalRequest}
    (h : r.isCompleted = false) : r.completeLocked {} (some err) = r.failed err := by
  simp [completeLocked, failed, h]

theorem completeLocked_of_completed {r : LogicalRequest} {response : Response} {err : Option Err}
    (h : r.isCompleted = true) : r.completeLocked response err = r := by
  simp [completeLocked, h]

/-! ## Inbound frames -/

/-- The grant `handleInbound` computes for a Data of `size` bytes, before the Data is taken. -/
def dataGrant (r : LogicalRequest) (size : Nat) : Int :=
  min (size : Int) (r.policy.maxResponseBytes - (r.responsePayload.length + size : Int) -
    (r.receiveCredit - size))

/-- **What `handleInbound` can do with a frame.** -/
inductive Takes (r : LogicalRequest) (frame : ConnectRequest) : LogicalRequest → Inbound → Prop
  | credit {n} (hk : frame.payload = .credit n) (hc : r.isCompleted = false)
      (hseq : frame.header.sequence = r.inboundSequence + 1)
      (hmax : r.sendCredit ≤ r.policy.maxRequestBytes)
      (hn : (n : Int) ≤ r.policy.maxRequestBytes - r.sendCredit) :
      Takes r frame { r.advanceInbound with sendCredit := r.sendCredit + n } .credited
  | data {b} (hk : frame.payload = .data b) (hc : r.isCompleted = false)
      (hseq : frame.header.sequence = r.inboundSequence + 1) (hclosed : r.isResponseClosed = false)
      (hcredit : (b.length : Int) ≤ r.receiveCredit)
      (hmax : (r.responsePayload.length + b.length : Int) ≤ r.policy.maxResponseBytes) :
      Takes r frame
        { r.advanceInbound with
          receiveCredit := r.receiveCredit - b.length
          responsePayload := r.responsePayload ++ b }
        (if r.dataGrant b.length = 0 then .ok else .grant (r.dataGrant b.length))
  | halfClose (hk : frame.payload = .halfClose) (hc : r.isCompleted = false)
      (hseq : frame.header.sequence = r.inboundSequence + 1)
      (hclosed : r.isResponseClosed = false) :
      Takes r frame { r.advanceInbound with isResponseClosed := true } .ok
  | result {result} (hk : frame.payload = .result result) (hc : r.isCompleted = false)
      (hseq : frame.header.sequence = r.inboundSequence + 1)
      (hclosed : r.isResponseClosed = true) :
      Takes r frame
        { r.advanceInbound with
          isCompleted := true
          response := ⟨r.responsePayload, result.metadata⟩
          err := if result.code = .ok then none else some (.result result.code) } .ok
  | cancel {reason} (hk : frame.payload = .cancel reason)
      (hc : r.isCompleted = false) (hseq : frame.header.sequence = r.inboundSequence + 1) :
      Takes r frame
        { r.advanceInbound with
          isCompleted := true
          response := {}
          err := some (.context (if reason = .deadline then .deadlineExceeded else .canceled)) }
        .ok
  | tailCredit {n} (hk : frame.payload = .credit n) (hc : r.isCompleted = true)
      (htail : r.acceptResponseTail = true) (hend : r.tailTerminal = false)
      (hseq : frame.header.sequence = r.inboundSequence + 1) (hclosed : r.isResponseClosed = false)
      (hmax : r.sendCredit ≤ r.policy.maxRequestBytes)
      (hn : (n : Int) ≤ r.policy.maxRequestBytes - r.sendCredit) :
      Takes r frame { r.advanceInbound with sendCredit := r.sendCredit + n } .ok
  | tailData {b} (hk : frame.payload = .data b) (hc : r.isCompleted = true)
      (htail : r.acceptResponseTail = true) (hend : r.tailTerminal = false)
      (hseq : frame.header.sequence = r.inboundSequence + 1) (hclosed : r.isResponseClosed = false)
      (hcredit : (b.length : Int) ≤ r.receiveCredit)
      (hmax : r.tailResponseSize + b.length ≤ r.policy.maxResponseBytes) :
      Takes r frame
        { r.advanceInbound with
          receiveCredit := r.receiveCredit - b.length
          tailResponseSize := r.tailResponseSize + b.length } .ok
  | tailHalfClose (hk : frame.payload = .halfClose) (hc : r.isCompleted = true)
      (htail : r.acceptResponseTail = true) (hend : r.tailTerminal = false)
      (hseq : frame.header.sequence = r.inboundSequence + 1)
      (hclosed : r.isResponseClosed = false) :
      Takes r frame { r.advanceInbound with isResponseClosed := true } .ok
  | tailResult {result} (hk : frame.payload = .result result) (hc : r.isCompleted = true)
      (htail : r.acceptResponseTail = true) (hend : r.tailTerminal = false)
      (hseq : frame.header.sequence = r.inboundSequence + 1)
      (hclosed : r.isResponseClosed = true) :
      Takes r frame { r.advanceInbound with tailTerminal := true } .ok
  | violation {r'} (hr : r' = r ∨ r' = r.advanceInbound) :
      Takes r frame r' .violation

theorem handleCompletedInboundLocked_takes (r : LogicalRequest) (frame : ConnectRequest)
    (hc : r.isCompleted = true) :
    Takes r frame (r.handleCompletedInboundLocked frame).1
      (r.handleCompletedInboundLocked frame).2 := by
  simp only [handleCompletedInboundLocked]
  split
  · exact .violation (.inl rfl)
  · rename_i hopen
    obtain ⟨⟨htail, hend⟩, hseq⟩ : (r.acceptResponseTail = true ∧ r.tailTerminal = false) ∧
        frame.header.sequence = r.inboundSequence + 1 := by simpa using hopen
    split
    · rename_i n hk
      split
      · exact .violation (.inr rfl)
      · rename_i hclosed
        split
        · exact .violation (.inr rfl)
        · rename_i hn
          exact .tailCredit hk hc htail hend hseq (Bool.eq_false_iff.mpr hclosed)
            (not_lt.mp fun h ↦ hn (.inl h)) (not_lt.mp fun h ↦ hn (.inr h))
    · rename_i b hk
      split
      · exact .violation (.inr rfl)
      · rename_i hclosed
        split
        · exact .violation (.inr rfl)
        · rename_i hn
          exact .tailData hk hc htail hend hseq (Bool.eq_false_iff.mpr hclosed)
            (not_lt.mp fun h ↦ hn (.inl h)) (not_lt.mp fun h ↦ hn (.inr h))
    · rename_i hk
      split
      · exact .violation (.inr rfl)
      · rename_i hclosed
        exact .tailHalfClose hk hc htail hend hseq (Bool.eq_false_iff.mpr hclosed)
    · rename_i result hk
      split
      · rename_i hclosed
        exact .tailResult hk hc htail hend hseq hclosed
      · exact .violation (.inr rfl)
    · exact .violation (.inr rfl)

/-- **`handleInbound` does nothing else.** -/
theorem handleInbound_takes (r : LogicalRequest) (frame : ConnectRequest) :
    Takes r frame (r.handleInbound frame).1 (r.handleInbound frame).2 := by
  simp only [handleInbound]
  split
  · rename_i hc
    exact handleCompletedInboundLocked_takes r frame hc
  · rename_i hc
    have hc : r.isCompleted = false := by simpa using hc
    split
    · exact .violation (.inl rfl)
    · rename_i hseq
      have hseq : frame.header.sequence = r.inboundSequence + 1 := by simpa using hseq
      split
      · rename_i n hk
        split
        · exact .violation (.inr rfl)
        · rename_i hn
          exact .credit hk hc hseq
            (not_lt.mp fun h ↦ hn (.inl h)) (not_lt.mp fun h ↦ hn (.inr h))
      · rename_i b hk
        split
        · exact .violation (.inr rfl)
        · rename_i hclosed
          split
          · exact .violation (.inr rfl)
          · rename_i hn
            have hgrant : min (b.length : Int) (r.advanceInbound.policy.maxResponseBytes -
                ((r.advanceInbound.responsePayload ++ b).length : Int) -
                (r.advanceInbound.receiveCredit - b.length)) = r.dataGrant b.length := by
              rw [dataGrant, List.length_append, Int.natCast_add]
              rfl
            rw [hgrant]
            exact .data hk hc hseq (Bool.eq_false_iff.mpr hclosed)
              (not_lt.mp fun h ↦ hn (.inl h)) (not_lt.mp fun h ↦ hn (.inr h))
      · rename_i hk
        split
        · exact .violation (.inr rfl)
        · rename_i hclosed
          exact .halfClose hk hc hseq (Bool.eq_false_iff.mpr hclosed)
      · rename_i result hk
        split
        · rename_i hclosed
          rw [completeLocked, if_neg (by simp [advanceInbound, hc])]
          exact .result hk hc hseq hclosed
        · exact .violation (.inr rfl)
      · rename_i reason hk
        rw [completeLocked, if_neg (by simp [advanceInbound, hc])]
        exact .cancel hk hc hseq
      · exact .violation (.inr rfl)

variable {r r' : LogicalRequest} {frame : ConnectRequest} {v : Inbound}

theorem Takes.not_completed (h : Takes r frame r' v) (hc : r'.isCompleted = false) :
    r.isCompleted = false := by
  cases h with
  | violation hr => obtain rfl | rfl := hr <;> exact hc
  | result | cancel => exact absurd hc (by simp)
  | _ => exact hc

end LogicalRequest

/-! ## Moves -/

/-- The reason a Cancel carries for an error of the caller's context. -/
def cancelReason (err : ContextError) : CancelReason :=
  if err = .deadlineExceeded then .deadline else .caller

theorem LogicalRequest.cancel_eq (p : Params) (view : View) (lanes : Lanes) (e : ContextError)
    {r : LogicalRequest} (hc : r.isCompleted = false) : r.cancel p view lanes e =
      ((r.enqueuePayloadLocked p view lanes (.cancel (cancelReason e))).1.aborted (.context e),
        (r.enqueuePayloadLocked p view lanes (.cancel (cancelReason e))).2) := by
  have hout : (r.enqueuePayloadLocked p view lanes (.cancel (cancelReason e))).1.isCompleted =
      false := by
    obtain ⟨r', err, he, rfl | rfl⟩ | ⟨-, -, he⟩ :=
      enqueuePayloadLocked_cases p view lanes (.cancel (cancelReason e)) r <;> rw [he] <;> exact hc
  exact congrArg (·, _) (if_neg (Bool.eq_false_iff.mp hout))

/-- The moves of other goroutines that do nothing to a completed request. -/
def Move.skipsCompleted : Move → Bool
  | .grantReceiveCredit _ _ | .localAbort | .fail _ => true
  | _ => false

namespace Invocation

/-- The frames the `Invoke` goroutine offers on its way, and where it goes when they are
accepted. -/
inductive Sends (x : Invocation) (view : View) : Move → ResponsePayload → Pc → Prop
  | opened (h : x.pc = .opening) : Sends x view (.enqueueOpen view) x.openPayload .credit
  | data {chunk rest} (h : x.pc = .chunk chunk rest) :
      Sends x view (.enqueueData view) (.data chunk) (.body rest)
  | halfClose (h : x.pc = .body []) : Sends x view (.enqueueHalfClose view) .halfClose .wait

/-- Where the `Invoke` goroutine goes when they are refused. -/
inductive Refuses (x : Invocation) (view : View) : Move → ResponsePayload → Err → Pc → Prop
  | opened {e} (h : x.pc = .opening) :
      Refuses x view (.enqueueOpen view) x.openPayload e (.openRefused e)
  | data {chunk rest e} (h : x.pc = .chunk chunk rest) :
      Refuses x view (.enqueueData view) (.data chunk) e (.bodyRefused e)
  | halfClose {e} (h : x.pc = .body []) :
      Refuses x view (.enqueueHalfClose view) .halfClose e (.bodyRefused e)

/-- Where the `Invoke` goroutine cancels its request, and where it goes then. -/
inductive Cancels (x : Invocation) (view : View) (e : ContextError) : Move → Pc → Prop
  | body {err} (h : x.pc = .bodyFailed err ∨ x.pc = .bodyRefused err) :
      Cancels x view e (.bodyError view) (.finishing { err := some err })
  | wait (h : x.pc = .wait) :
      Cancels x view e (.waitContext view) (.finishing { err := some (.context e) })

/-- Where a request is ended without a Cancel. -/
inductive Aborts (x : Invocation) : Move → Err → Pc → Prop
  | credit {e} (h : x.pc = .creditRefused e) :
      Aborts x .abortCredit e (.finishing { err := some e })
  | body {view e} (h : x.pc = .bodyFailed e ∨ x.pc = .bodyRefused e)
      (hctx : x.ctxErr = none) : Aborts x (.bodyError view) e (.finishing { err := some e })
  | reader : Aborts x .localAbort .queueFull x.pc

/-- Where a request is completed for good. -/
inductive Fails (x : Invocation) : Move → Err → Pc → Prop
  | opened {e} (h : x.pc = .openRefused e) : Fails x .completeRefused e (.openCompleted e)
  | session {e} : Fails x (.fail e) e x.pc

/-- The moves that change the program counter and nothing else. -/
inductive Goes (x : Invocation) : Move → Pc → Prop
  | openCompleted {e} (h : x.pc = .openRefused e) (hc : x.request.isCompleted = true) :
      Goes x .completeRefused (.openCompleted e)
  | rolledBack {e} (h : x.pc = .openCompleted e) : Goes x .rollback (.rolledBack e)
  | creditAborted {e} (h : x.pc = .creditRefused e) (hc : x.request.isCompleted = true) :
      Goes x .abortCredit (.finishing { err := some e })
  | awaitCredit {rest} (h : x.pc = .body rest) (hne : rest ≠ [])
      (hc : x.request.sendCredit ≤ 0) : Goes x .takeSendCredit (.awaitCredit rest)
  | bodyCompleted {rest} (h : x.pc = .body rest) (hc : x.request.isCompleted = true) :
      Goes x .takeSendCredit (.bodyFailed x.request.completedError)
  | awaitCompleted {rest} (h : x.pc = .awaitCredit rest) (hc : x.request.isCompleted = true) :
      Goes x .creditDone (.bodyFailed x.request.completedError)
  | bodyExpired {rest e} (h : x.pc = .awaitCredit rest)
      (hctx : x.ctxErr = some e) : Goes x .creditContext (.bodyFailed (.context e))
  | bodyEnded {view err} (h : x.pc = .bodyFailed err ∨ x.pc = .bodyRefused err)
      (hc : x.request.isCompleted = true) :
      Goes x (.bodyError view) (.finishing { err := some err })
  | waited {m} (hm : m = .waitDone ∨ ∃ view, m = .waitContext view) (h : x.pc = .wait)
      (hc : x.request.isCompleted = true) : Goes x m (.finishing x.request.outcome)
  | finished {o} (h : x.pc = .finishing o) : Goes x .finish (.compacting o)
  | absent {o} (h : x.pc = .finishing o) : Goes x .finishAbsent (.returned o)
  | same {m} (hm : m.skipsCompleted = true) (hc : x.request.isCompleted = true) :
      Goes x m x.pc

/-- The bytes `takeSendCredit` takes for the rest of a body. -/
def chunkBytes (p : Params) (x : Invocation) (rest : Bytes) : Int :=
  min (min (min (rest.length : Int) x.request.sendCredit) p.limits.maxDataBytes)
    x.request.policy.maxRequestBytes

/-- **The effects a move can have on an invocation.** -/
inductive Step (p : Params) (lanes : Lanes) (x : Invocation) :
    Move → Invocation → Option ConnectResponse → Prop
  | queued {m payload pc view} (hs : x.Sends view m payload pc) (hc : x.request.isCompleted = false)
      (hq : enqueueFrame p view lanes (x.request.advance.frame p payload) = none) :
      Step p lanes x m
        { x with
          request := x.request.advance
          queued := x.queued ++ [x.request.advance.frame p payload]
          pc := pc } (some (x.request.advance.frame p payload))
  | refused {m payload pc view e r} (hs : x.Refuses view m payload e pc)
      (hq : x.request.enqueuePayloadLocked p view lanes payload = (r, .error e))
      (hr : r = x.request ∨ r = x.request.advance) :
      Step p lanes x m { x with request := r, pc := pc } none
  | creditQueued {view : View} (h : x.pc = .credit) (hc : x.request.isCompleted = false)
      (hq : enqueueFrame p view lanes (x.request.advance.frame p
        (.credit (toUint32 (x.request.initialResponseCredit p)))) = none) :
      Step p lanes x (.sendInitialResponseCredit view)
        { x with
          request := { x.request.advance with
            receiveCredit := x.request.initialResponseCredit p }
          queued := x.queued ++ [x.request.advance.frame p
            (.credit (toUint32 (x.request.initialResponseCredit p)))]
          pc := .body x.call.payload }
        (some (x.request.advance.frame p (.credit (toUint32 (x.request.initialResponseCredit p)))))
  | creditRefused {view e r} (h : x.pc = .credit)
      (hq : x.request.sendInitialResponseCredit p view lanes =
        ({ r with receiveCredit := 0 }, .error e))
      (hr : r = x.request ∨ r = x.request.advance) :
      Step p lanes x (.sendInitialResponseCredit view)
        { x with request := { r with receiveCredit := 0 }, pc := .creditRefused e } none
  | granted {bytes view} (hc : x.request.isCompleted = false) (hq : enqueueFrame p view lanes
        (x.request.advance.frame p (.credit (toUint32 bytes))) = none)
      (hg : (x.request.grantReceiveCredit p view lanes bytes).2 =
        .ok (x.request.advance.frame p (.credit (toUint32 bytes)))) :
      Step p lanes x (.grantReceiveCredit bytes view)
        { x with
          request := { x.request.advance with receiveCredit := x.request.receiveCredit + bytes }
          queued := x.queued ++ [x.request.advance.frame p (.credit (toUint32 bytes))] }
        (some (x.request.advance.frame p (.credit (toUint32 bytes))))
  | grantRefused {bytes view e r} (hc : x.request.isCompleted = false)
      (hg : (x.request.grantReceiveCredit p view lanes bytes).2 = .error e)
      (hr : r = x.request ∨ r = x.request.advance) :
      Step p lanes x (.grantReceiveCredit bytes view) { x with request := r } none
  | canceled {m view e pc} (hs : x.Cancels view e m pc)
      (hctx : x.ctxErr = some e) (hc : x.request.isCompleted = false)
      (hq : enqueueFrame p view lanes
        (x.request.advance.frame p (.cancel (cancelReason e))) = none) :
      Step p lanes x m
        { x with
          request := x.request.advance.aborted (.context e)
          queued := x.queued ++ [x.request.advance.frame p (.cancel (cancelReason e))]
          pc := pc } (some (x.request.advance.frame p (.cancel (cancelReason e))))
  | cancelRefused {m view e err pc r} (hs : x.Cancels view e m pc) (hctx : x.ctxErr = some e)
      (hc : x.request.isCompleted = false)
      (hq : x.request.enqueuePayloadLocked p view lanes (.cancel (cancelReason e)) =
        (r, .error err))
      (hr : r = x.request ∨ r = x.request.advance) :
      Step p lanes x m { x with request := r.aborted (.context e), pc := pc } none
  | aborted {m e pc} (hs : x.Aborts m e pc) (hc : x.request.isCompleted = false) :
      Step p lanes x m { x with request := x.request.aborted e, pc := pc } none
  | failed {m e pc} (hs : x.Fails m e pc) (hc : x.request.isCompleted = false) :
      Step p lanes x m { x with request := x.request.failed e, pc := pc } none
  | goes {m pc} (hs : x.Goes m pc) : Step p lanes x m { x with pc := pc } none
  | took {rest} (h : x.pc = .body rest) (hne : rest ≠ [])
      (hc : x.request.isCompleted = false) (hpos : 0 < x.request.sendCredit) :
      Step p lanes x .takeSendCredit
        { x with
          request := { x.request with sendCredit := x.request.sendCredit - x.chunkBytes p rest }
          pc := .chunk (rest.take (x.chunkBytes p rest).toNat)
            (rest.drop (x.chunkBytes p rest).toNat) } none
  | woken {rest} (h : x.pc = .awaitCredit rest) (ht : x.request.creditReady = true) :
      Step p lanes x .creditWoken
        { x with request := { x.request with creditReady := false }, pc := .body rest } none
  | notified : Step p lanes x .notify
      { x with request := { x.request with creditReady := true } } none
  | expired {e} (h : x.ctxErr = none) :
      Step p lanes x (.expire e) { x with ctxErr := some e } none
  | compacted {o} (h : x.pc = .compacting o) :
      Step p lanes x .compact
        { x with request := x.request.compactForTombstone, pc := .returned o } none
  | inbound {frame} (h : (x.request.handleInbound frame).2 ≠ .violation) :
      Step p lanes x (.handleInbound frame)
        { x with
          request := (x.request.handleInbound frame).1
          handled := x.handled ++ [frame] } none
  | violated {frame} (h : (x.request.handleInbound frame).2 = .violation) :
      Step p lanes x (.handleInbound frame)
        { x with request := (x.request.handleInbound frame).1 } none

variable {isClosed : Bool} {sessionErr : Option ContextError} {x x' : Invocation} {m : Move}
  {f : Option ConnectResponse} {frame : ConnectResponse}

/-- A move of the `Invoke` goroutine that offers a frame and nothing else. -/
theorem Step.of_offer {payload pc} {pc' : Err → Pc}
    (hs : x.Sends view m payload pc) (hr : ∀ e, x.Refuses view m payload e (pc' e))
    (h : (match (x.request.enqueuePayloadLocked p view lanes payload).2 with
      | .ok _ => some ({ x.offered (x.request.enqueuePayloadLocked p view lanes payload) with
          pc := pc }, accepted (x.request.enqueuePayloadLocked p view lanes payload))
      | .error e => some ({ x.offered (x.request.enqueuePayloadLocked p view lanes payload) with
          pc := pc' e }, accepted (x.request.enqueuePayloadLocked p view lanes payload))) =
      some (x', f)) : Step p lanes x m x' f := by
  obtain ⟨r, e, he, hreq⟩ | ⟨hc, hq, hok⟩ :=
    LogicalRequest.enqueuePayloadLocked_cases p view lanes payload x.request
  · simp only [he, offered, accepted, Except.toOption, Option.some_inj, Prod.mk.injEq] at h
    obtain ⟨rfl, rfl⟩ := h
    exact .refused (hr e) he hreq
  · simp only [hok, offered, accepted, Except.toOption, Option.some_inj, Prod.mk.injEq] at h
    obtain ⟨rfl, rfl⟩ := h
    exact .queued hs hc hq

/-- `request.cancel` of a request that is not completed. -/
theorem Step.of_cancel {e : ContextError} {pc : Pc} (hs : x.Cancels view e m pc)
    (hctx : x.ctxErr = some e) (hc : x.request.isCompleted = false) :
    Step p lanes x m { x.offered (x.request.cancel p view lanes e) with pc := pc }
      (accepted (x.request.cancel p view lanes e)) := by
  rw [LogicalRequest.cancel_eq p view lanes e hc]
  obtain ⟨r, err, he, hr⟩ | ⟨-, hq, he⟩ := LogicalRequest.enqueuePayloadLocked_cases p view lanes
    (.cancel (cancelReason e)) x.request
  · rw [he]
    exact .cancelRefused hs hctx hc he hr
  · rw [he]
    exact .canceled hs hctx hc hq

theorem Step.of_initialCredit (h : x.pc = .credit)
    (hstep : (match (x.request.sendInitialResponseCredit p view lanes).2 with
      | .ok _ => some ({ x.offered (x.request.sendInitialResponseCredit p view lanes) with
          pc := .body x.call.payload }, accepted (x.request.sendInitialResponseCredit p view lanes))
      | .error e => some ({ x.offered (x.request.sendInitialResponseCredit p view lanes) with
          pc := .creditRefused e }, accepted (x.request.sendInitialResponseCredit p view lanes))) =
      some (x', f)) : Step p lanes x (.sendInitialResponseCredit view) x' f := by
  obtain ⟨r, e, he, hr⟩ | ⟨hc, hq, hok⟩ := LogicalRequest.enqueuePayloadLocked_cases p view lanes
    (.credit (toUint32 (x.request.initialResponseCredit p)))
    { x.request with receiveCredit := x.request.initialResponseCredit p }
  · have hdef : x.request.sendInitialResponseCredit p view lanes =
        ({ r with receiveCredit := 0 }, .error e) := by
      simp only [LogicalRequest.sendInitialResponseCredit, he]
    simp only [hdef, offered, accepted, Except.toOption, Option.some_inj, Prod.mk.injEq] at hstep
    obtain ⟨rfl, rfl⟩ := hstep
    obtain rfl | rfl := hr
    · exact .creditRefused (r := x.request) h hdef (.inl rfl)
    · exact .creditRefused (r := x.request.advance) h hdef (.inr rfl)
  · have hdef : x.request.sendInitialResponseCredit p view lanes =
        ({ x.request.advance with receiveCredit := x.request.initialResponseCredit p },
          .ok (x.request.advance.frame p
            (.credit (toUint32 (x.request.initialResponseCredit p))))) := by
      simp only [LogicalRequest.sendInitialResponseCredit, hok]
      rfl
    simp only [hdef, offered, accepted, Except.toOption, Option.some_inj, Prod.mk.injEq] at hstep
    obtain ⟨rfl, rfl⟩ := hstep
    exact .creditQueued h hc hq

theorem Step.of_grant {bytes : Int} (hc : x.request.isCompleted = false) :
    Step p lanes x (.grantReceiveCredit bytes view)
      (x.offered (x.request.grantReceiveCredit p view lanes bytes))
      (accepted (x.request.grantReceiveCredit p view lanes bytes)) := by
  obtain ⟨r, e, he, hr⟩ | ⟨-, hq, hok⟩ := LogicalRequest.enqueuePayloadLocked_cases p view lanes
    (.credit (toUint32 bytes)) { x.request with receiveCredit := x.request.receiveCredit + bytes }
  · have hdef : x.request.grantReceiveCredit p view lanes bytes =
        ({ r with receiveCredit := r.receiveCredit - bytes }, .error e) := by
      simp only [LogicalRequest.grantReceiveCredit, he]
    rw [hdef]
    refine .grantRefused hc (congrArg Prod.snd hdef) ?_
    obtain rfl | rfl := hr <;> simp [LogicalRequest.advance]
  · have hdef : x.request.grantReceiveCredit p view lanes bytes =
        ({ x.request.advance with receiveCredit := x.request.receiveCredit + bytes },
          .ok (x.request.advance.frame p (.credit (toUint32 bytes)))) := by
      simp only [LogicalRequest.grantReceiveCredit, hok]
      rfl
    rw [hdef]
    exact .granted hc hq (congrArg Prod.snd hdef)

/-- **A move has no other effects.** -/
theorem step_cases (h : x.step p isClosed sessionErr lanes m = some (x', f)) :
    Step p lanes x m x' f := by
  cases m with simp only [step] at h
  | enqueueOpen view =>
    split at h
    · rename_i hpc
      split at h
      · exact .of_offer (.opened hpc) (fun _ ↦ .opened hpc) h
      · cases h
    · cases h
  | completeRefused =>
    split at h <;> cases h
    rename_i e hpc
    cases hc : x.request.isCompleted with
    | true =>
      rw [LogicalRequest.completeLocked_of_completed hc]
      exact .goes (.openCompleted hpc hc)
    | false =>
      rw [LogicalRequest.completeLocked_of_not_completed hc]
      exact .failed (.opened hpc) hc
  | rollback =>
    split at h <;> cases h
    rename_i e hpc
    exact .goes (.rolledBack hpc)
  | sendInitialResponseCredit view =>
    split at h
    · rename_i hpc
      split at h
      · exact .of_initialCredit hpc h
      · cases h
    · cases h
  | abortCredit =>
    split at h <;> cases h
    rename_i e hpc
    cases hc : x.request.isCompleted with
    | true =>
      rw [LogicalRequest.completeLocalAbort_of_completed hc]
      exact .goes (.creditAborted hpc hc)
    | false =>
      rw [LogicalRequest.completeLocalAbort_of_not_completed hc]
      exact .aborted (.credit hpc) hc
  | takeSendCredit =>
    split at h
    · cases h
    · rename_i rest hne hpc
      have hne : rest ≠ [] := by simpa using hne
      split at h
      · rename_i hc
        cases h
        exact .goes (.bodyCompleted hpc hc)
      · rename_i hc
        split at h
        · rename_i hpos
          cases h
          exact .took hpc hne (by simpa using hc) hpos
        · rename_i hpos
          cases h
          exact .goes (.awaitCredit hpc hne (by omega))
    · cases h
  | creditWoken =>
    split at h
    · rename_i rest hpc
      split at h <;> cases h
      rename_i ht
      exact .woken hpc ht
    · cases h
  | creditContext =>
    split at h <;> cases h
    rename_i rest e hpc hctx
    exact .goes (.bodyExpired hpc hctx)
  | creditDone =>
    split at h
    · rename_i rest hpc
      split at h <;> cases h
      rename_i hc
      exact .goes (.awaitCompleted hpc hc)
    · cases h
  | enqueueData view =>
    split at h
    · rename_i chunk rest hpc
      split at h
      · exact .of_offer (.data hpc) (fun _ ↦ .data hpc) h
      · cases h
    · cases h
  | enqueueHalfClose view =>
    split at h
    · rename_i hpc
      split at h
      · exact .of_offer (.halfClose hpc) (fun _ ↦ .halfClose hpc) h
      · cases h
    · cases h
  | bodyError view =>
    split at h
    case h_3 => cases h
    all_goals
      rename_i err hat
      have hpc : x.pc = .bodyFailed err ∨ x.pc = .bodyRefused err := by simp [hat]
      split at h
      · split at h
        · rename_i e hctx
          split at h
          · rename_i hc
            cases h
            exact .goes (.bodyEnded hpc hc)
          · rename_i hc
            cases h
            exact .of_cancel (.body hpc) hctx (by simpa using hc)
        · rename_i hctx
          cases h
          cases hc : x.request.isCompleted with
          | true =>
            rw [LogicalRequest.completeLocalAbort_of_completed hc]
            exact .goes (.bodyEnded hpc hc)
          | false =>
            rw [LogicalRequest.completeLocalAbort_of_not_completed hc]
            exact .aborted (.body hpc hctx) hc
      · cases h
  | waitDone =>
    split at h
    · rename_i hpc
      split at h <;> cases h
      rename_i hc
      exact .goes (.waited (.inl rfl) hpc hc)
    · cases h
  | waitContext view =>
    split at h
    · rename_i e hpc hctx
      split at h
      · split at h
        · rename_i hc
          cases h
          exact .goes (.waited (.inr ⟨view, rfl⟩) hpc hc)
        · rename_i hc
          have hc : x.request.isCompleted = false := by simpa using hc
          have hout : (x.request.cancel p view lanes e).1.outcome =
              { err := some (.context e) } := by
            rw [LogicalRequest.cancel_eq p view lanes e hc]
            rfl
          cases h
          rw [hout]
          exact .of_cancel (.wait hpc) hctx hc
      · cases h
    · cases h
  | finish =>
    split at h <;> cases h
    rename_i o hpc
    exact .goes (.finished hpc)
  | finishAbsent =>
    split at h <;> cases h
    rename_i o hpc
    exact .goes (.absent hpc)
  | compact =>
    split at h <;> cases h
    rename_i o hpc
    exact .compacted hpc
  | expire err =>
    split at h <;> cases h
    rename_i hctx
    exact .expired hctx
  | handleInbound frame =>
    split at h
    · rename_i hv
      cases h
      exact .violated hv
    · rename_i hv
      cases h
      exact .inbound hv
  | notify =>
    cases h
    exact .notified
  | grantReceiveCredit bytes view =>
    split at h
    · split at h
      · rename_i hc
        cases h
        exact .goes (.same rfl hc)
      · rename_i hc
        cases h
        exact .of_grant (by simpa using hc)
    · cases h
  | localAbort =>
    cases h
    cases hc : x.request.isCompleted with
    | true =>
      rw [LogicalRequest.completeLocalAbort_of_completed hc]
      exact .goes (.same rfl hc)
    | false =>
      rw [LogicalRequest.completeLocalAbort_of_not_completed hc]
      exact .aborted .reader hc
  | fail =>
    cases h
    cases hc : x.request.isCompleted with
    | true =>
      rw [LogicalRequest.completeLocked_of_completed hc]
      exact .goes (.same rfl hc)
    | false =>
      rw [LogicalRequest.completeLocked_of_not_completed hc]
      exact .failed .session hc

/-- An accepted frame has passed the checks, and carries the next number of its request. -/
theorem Step.accepted (h : Step p lanes x m x' (some frame)) :
    x.request.isCompleted = false ∧ x'.queued = x.queued ++ [frame] ∧
      ∃ payload view, frame = x.request.advance.frame p payload ∧
        enqueueFrame p view lanes frame = none := by
  cases h with
  | queued _ hc hq | creditQueued _ hc hq | granted hc hq | canceled _ _ hc hq =>
    exact ⟨hc, rfl, _, _, rfl, hq⟩

theorem Step.lane (h : Step p lanes x m x' (some frame)) :
    ∃ lane, queueLane frame.header.trafficClass = some lane := by
  obtain ⟨-, -, payload, view, -, hq⟩ := h.accepted
  obtain ⟨-, -, -, -, -, hq⟩ := enqueueFrame_eq_none hq
  obtain ⟨lane, hlane⟩ := Lanes.enqueue_eq_none hq
  exact ⟨lane, hlane⟩

theorem Step.not_accepted (h : Step p lanes x m x' none) : x'.queued = x.queued := by
  cases h <;> rfl

/-- A completed request stays completed. -/
theorem Step.not_completed (h : Step p lanes x m x' f) (hc : x'.request.isCompleted = false) :
    x.request.isCompleted = false := by
  cases h with
  | queued _ hc' | creditQueued _ hc' | granted hc' | grantRefused hc' | canceled _ _ hc'
  | cancelRefused _ _ hc' | aborted _ hc' | failed _ hc' => exact hc'
  | refused _ _ hr | creditRefused _ _ hr => obtain rfl | rfl := hr <;> exact hc
  | inbound | violated => exact (LogicalRequest.handleInbound_takes _ _).not_completed hc
  | _ => exact hc

end Invocation

/-! ## Sessions -/

namespace Session

variable {s s' : Session} {a : Action} {r : Ref} {m : Move} {deadline : Time}
  {draws : List OpaqueID} {call : Call} {payload : ResponsePayload} {frame : ConnectRequest}
  {policy : RoutePolicy} {e : Option Err}

/-- Putting a frame into its lane touches the lane and the history, and nothing else. -/
theorem pushAll_eq (s : Session) (f : Option ConnectResponse) :
    s.pushAll f = { s with lanes := (s.pushAll f).lanes, accepted := (s.pushAll f).accepted } := by
  cases f with
  | none => rfl
  | some =>
    rw [pushAll, push]
    split <;> rfl

theorem push_accepted {frame lane} (h : queueLane frame.header.trafficClass = some lane) :
    (s.push frame).accepted = s.accepted ++ [frame] := by
  simp [push, h]

/-- One move on one invocation. -/
theorem act_eq_some (h : s.act p r m = some s') :
    ∃ x x' f, s.invocations[r]? = some x ∧ x.step p s.isClosed s.ctxErr s.lanes m = some (x', f) ∧
      s' = { s.pushAll f with invocations := s.invocations.set r x' } := by
  simp only [act, Option.bind_eq_bind, Option.bind_eq_some_iff, Option.some_inj] at h
  obtain ⟨x, hx, ⟨x', f⟩, hstep, hs⟩ := h
  exact ⟨x, x', f, hx, hstep, hs.symm⟩

/-- Adding a tombstone only touches the ring. -/
theorem addTombstoneLocked_eq (p : Params) (s : Session) (id : OpaqueID) (r : Ref) :
    s.addTombstoneLocked p id r =
      { s with
        tombstones := (s.addTombstoneLocked p id r).tombstones
        tombstoneOrder := (s.addTombstoneLocked p id r).tombstoneOrder
        tombstonePosition := (s.addTombstoneLocked p id r).tombstonePosition } := by
  simp only [addTombstoneLocked]
  repeat' split
  all_goals rfl

/-- Removing a request only touches the tables. -/
theorem removeRequest_eq_some {id route addTombstone}
    (h : s.removeRequest p r id route addTombstone = some s') :
    s.requests.lookup id = some r ∧
      s' = { s with
        requests := s.requests.erase id
        routeActive := s'.routeActive
        tombstones := s'.tombstones
        tombstoneOrder := s'.tombstoneOrder
        tombstonePosition := s'.tombstonePosition } := by
  rw [removeRequest] at h
  split at h
  · rename_i hlookup
    refine ⟨hlookup, ?_⟩
    cases h
    cases addTombstone with
    | false => rfl
    | true =>
      simp only [if_true]
      rw [addTombstoneLocked_eq]
  · cases h

/-- A move of an `Invoke` goroutine, after the change of the tables that goes with it. -/
theorem invoke_eq_some (h : s.invoke p r m = some s') :
    ∃ (s₁ : Session) (m' : Move), s₁.act p r m' = some s' ∧ m'.isInvoke = true ∧
      (m' = m ∨ m = .finish ∧ m' = .finishAbsent) ∧
      s₁ = { s with
        requests := s₁.requests
        routeActive := s₁.routeActive
        tombstones := s₁.tombstones
        tombstoneOrder := s₁.tombstoneOrder
        tombstonePosition := s₁.tombstonePosition } := by
  simp only [invoke, Option.bind_eq_bind, Option.bind_eq_some_iff] at h
  obtain ⟨x, hx, h⟩ := h
  split at h
  · split at h
    · rename_i s₁ hs₁
      obtain ⟨-, heq⟩ := removeRequest_eq_some hs₁
      exact ⟨s₁, .finish, h, rfl, .inl rfl, by rw [heq]⟩
    · exact ⟨s, .finishAbsent, h, rfl, .inr ⟨rfl, rfl⟩, rfl⟩
  · cases h
  · refine ⟨_, .rollback, h, rfl, .inl rfl, ?_⟩
    cases hrem : s.removeRequest p r x.request.id x.request.route false with
    | none => rfl
    | some =>
      obtain ⟨-, heq⟩ := removeRequest_eq_some hrem
      rw [Option.getD_some, heq]
  · split at h
    · exact ⟨s, m, h, ‹_›, .inl rfl, rfl⟩
    · cases h

theorem deliver_eq_some (h : s.deliver p r frame = some s') :
    ∃ x s₁, s.invocations[r]? = some x ∧ s.act p r (.handleInbound frame) = some s₁ ∧
      s' = { s₁ with reader := match (x.request.handleInbound frame).2 with
        | .ok => .idle
        | .credited => .notify r
        | .grant bytes => .grant r bytes
        | .violation => .failed frame } := by
  simp only [deliver, Option.bind_eq_bind, Option.bind_eq_some_iff] at h
  obtain ⟨x, hx, s₁, hs₁, h⟩ := h
  refine ⟨x, s₁, hx, hs₁, ?_⟩
  generalize (x.request.handleInbound frame).2 = result at h ⊢
  cases result <;> exact (Option.some_inj.mp h).symm

theorem grant_eq_some {bytes : Int} (h : s.grant p r bytes view = some s') :
    ∃ x s₁, s.invocations[r]? = some x ∧ s.act p r (.grantReceiveCredit bytes view) = some s₁ ∧
      s' = { s₁ with reader :=
        if x.request.isCompleted then .idle
        else match (x.request.grantReceiveCredit p view s.lanes bytes).2 with
        | .ok _ => .idle
        | .error e => .grantRefused r e } := by
  simp only [grant, Option.bind_eq_bind, Option.bind_eq_some_iff] at h
  obtain ⟨x, hx, s₁, hs₁, h⟩ := h
  refine ⟨x, s₁, hx, hs₁, ?_⟩
  split at h
  · rename_i hc
    rw [if_pos hc]
    exact (Option.some_inj.mp h).symm
  · rename_i hc
    rw [if_neg hc]
    generalize (x.request.grantReceiveCredit p view s.lanes bytes).2 = result at h ⊢
    cases result <;> exact (Option.some_inj.mp h).symm

theorem enqueueControl_eq_some (h : s.enqueueControl p view payload = some (s', e)) :
    (s' = s ∧ e.isSome = true) ∨
      (enqueueFrame p view s.lanes (controlFrame p payload) = none ∧
        s' = s.push (controlFrame p payload) ∧ e = none) := by
  rw [enqueueControl] at h
  split at h
  · split at h
    · cases h
      exact .inl ⟨rfl, rfl⟩
    · cases h
      exact .inr ⟨‹_›, rfl, rfl⟩
  · cases h

theorem markDraining_eq_some {now} (h : s.markDraining deadline now = some s') :
    s' = { s with isDraining := true } := by
  rw [markDraining] at h
  repeat' split at h
  all_goals cases h
  rfl

/-- Receiving a frame only touches what the read loop owns, and the draining flag. -/
theorem recv_eq (p : Params) (s : Session) (frame : ConnectRequest) (now : Time) :
    s.recv p frame now =
      { s with
        received := s.received ++ [frame]
        reader := (s.recv p frame now).reader
        pendingPing := (s.recv p frame now).pendingPing
        isDraining := (s.recv p frame now).isDraining } := by
  simp only [recv, handleInbound]
  repeat' split
  all_goals first | rfl | skip
  rename_i hdrain
  obtain rfl := markDraining_eq_some hdrain
  rfl

/-- What `startRequest` has found, and what it does. -/
structure Starts (p : Params) (s : Session) (call : Call) (policy : RoutePolicy) (deadline : Time)
    (id : OpaqueID) (s' : Session) : Prop where
  isReady : s.isReady = true
  room : s.requests.entries.length < p.limits.maxInFlightRequests
  requests : s.requests.lookup id = none
  tombstones : s.tombstones.lookup id = none
  eq : s' = { s with
    requests := s.requests.insert id s.invocations.length
    routeActive := Function.update s.routeActive call.route (s.routeActive call.route + 1)
    invocations := s.invocations ++ [{
      call := call
      request := { id := id, route := call.route, policy := policy, deadline := deadline } }] }

theorem startRequestLoop_eq_ok (h : s.startRequestLoop p call policy deadline draws = .ok s') :
    ∃ id ∈ draws, Starts p s call policy deadline id s' := by
  induction draws with
  | nil => exact absurd h (by simp [startRequestLoop])
  | cons id draws ih =>
    simp only [startRequestLoop] at h
    split at h
    · cases h
    rename_i hready
    split at h
    · cases h
    split at h
    · cases h
    rename_i hroom
    split at h
    · obtain ⟨id', hid', hrest⟩ := ih h
      exact ⟨id', List.mem_cons_of_mem _ hid', hrest⟩
    · rename_i hfree
      simp only [Bool.or_eq_true, not_or, Bool.not_eq_true, Option.isSome_eq_false_iff,
        Option.isNone_iff_eq_none, Bool.not_eq_true', Bool.not_eq_false] at hready hfree
      simp only [not_or, not_le] at hroom
      exact ⟨id, List.mem_cons_self, by simpa using hready.1.1, hroom.1, hfree.1, hfree.2,
        (Except.ok.inj h).symm⟩

theorem startRequest_eq_ok (h : s.startRequest p call policy deadline draws = .ok s') :
    (call.payload.length : Int) ≤ (effectivePolicy p policy).maxRequestBytes ∧
      ∃ id ∈ draws, Starts p s call (effectivePolicy p policy) deadline id s' := by
  rw [startRequest] at h
  split at h
  · cases h
  · rename_i hbytes
    obtain ⟨id, hid, hstarts⟩ := startRequestLoop_eq_ok h
    exact ⟨not_lt.mp hbytes, id, List.mem_of_mem_take hid, hstarts⟩

theorem start_eq_some (h : s.step p (.start call deadline draws) = some s') : ∃ policy,
      p.settings.routes.lookup call.route = some policy ∧
      s.startRequest p call policy deadline draws = .ok s' := by
  simp only [step] at h
  split at h
  · cases h
  · rename_i policy hpolicy
    refine ⟨policy, hpolicy, ?_⟩
    generalize s.startRequest p call policy deadline draws = out at h ⊢
    cases out <;> cases h
    rfl

/-- An inbound frame that is looked at is valid, and no Hello. -/
theorem validateInbound_eq_true (h : validateInbound p frame = true) :
    frame.Valid ∧ ∀ hello, frame.payload ≠ .hello hello := by
  simp only [validateInbound, Bool.and_eq_true, decide_eq_true_eq] at h
  obtain ⟨⟨⟨⟨⟨⟨hvalid, hhello⟩, -⟩, -⟩, -⟩, -⟩, -⟩ := h
  refine ⟨hvalid, fun hello hk ↦ ?_⟩
  rw [hk] at hhello
  exact Bool.noConfusion hhello

/-- Where the read loop stands after it received a frame. -/
inductive Receives (p : Params) (s : Session) (frame : ConnectRequest) : Reader → Prop
  | deliver {r x} (hv : validateInbound p frame = true) (hk : frame.payload.ofRequest = true)
      (hr : s.requestFor (OpaqueID.copy frame.header.requestId) = some r)
      (hx : s.invocations[r]? = some x)
      (hclass : frame.header.trafficClass = x.request.policy.trafficClass) :
      Receives p s frame (.deliver r frame)
  | control {reader} (hv : validateInbound p frame = true) (hk : frame.payload.ofRequest = false)
      (hr : reader = .idle ∨ ∃ nonce, reader = .pong nonce) : Receives p s frame reader
  | failed : Receives p s frame (.failed frame)

/-- Which action makes which move on the invocation `x` at `r`, and where the read loop stands
afterwards. -/
inductive Reads (p : Params) (s : Session) (r : Ref) (x : Invocation) :
    Action → Move → Reader → Prop
  | invoke {m : Move} (hm : m.isInvoke = true) : Reads p s r x (.invoke r m) m s.reader
  | absent : Reads p s r x (.invoke r .finish) .finishAbsent s.reader
  | fail {e : Err} : Reads p s r x .failComplete (.fail e) s.reader
  | deliver {frame : ConnectRequest} (h : s.reader = .deliver r frame) :
      Reads p s r x .deliver (.handleInbound frame)
        (match (x.request.handleInbound frame).2 with
        | .ok => .idle
        | .credited => .notify r
        | .grant bytes => .grant r bytes
        | .violation => .failed frame)
  | notify (h : s.reader = .notify r) : Reads p s r x .notify .notify .idle
  | granted {bytes view} (h : s.reader = .grant r bytes) (hg : x.request.isCompleted = true ∨
        ∃ f, (x.request.grantReceiveCredit p view s.lanes bytes).2 = .ok f) :
      Reads p s r x (.grant view) (.grantReceiveCredit bytes view) .idle
  | grantRefused {bytes view e} (h : s.reader = .grant r bytes) (hc : x.request.isCompleted = false)
      (hg : (x.request.grantReceiveCredit p view s.lanes bytes).2 = .error e) :
      Reads p s r x (.grant view) (.grantReceiveCredit bytes view) (.grantRefused r e)
  | abort (h : s.reader = .grantRefused r .queueFull) : Reads p s r x .abort .localAbort .idle

/-- **What a step can do to the invocations, the read loop and the two histories they share.** -/
inductive Change (p : Params) (s : Session) : Action → Session → Prop
  | same {a : Action} {s' : Session} (hi : s'.invocations = s.invocations)
      (ha : s'.accepted = s.accepted) (hr : s'.reader = s.reader)
      (hv : s'.received = s.received) : Change p s a s'
  | control {a : Action} {s' : Session} {payload : ResponsePayload} {view : View}
      (hq : enqueueFrame p view s.lanes (controlFrame p payload) = none)
      (hi : s'.invocations = s.invocations)
      (ha : s'.accepted = s.accepted ++ [controlFrame p payload])
      (hr : s'.reader = s.reader ∨ (∃ nonce, s.reader = .pong nonce) ∧ s'.reader = .idle)
      (hv : s'.received = s.received) : Change p s a s'
  | unanswered {a s' nonce} (hi : s'.invocations = s.invocations)
      (ha : s'.accepted = s.accepted) (hp : s.reader = .pong nonce)
      (hr : s'.reader = .idle ∨ s'.reader = .failed none) (hv : s'.received = s.received) :
      Change p s a s'
  | received {frame now s'} (hi : s'.invocations = s.invocations) (ha : s'.accepted = s.accepted)
      (hidle : s.reader = .idle) (hr : Receives p s frame s'.reader)
      (hv : s'.received = s.received ++ [frame]) : Change p s (.recv frame now) s'
  | started {call deadline draws s' policy id} (hid : id ∈ draws)
      (hp : p.settings.routes.lookup call.route = some policy)
      (hb : (call.payload.length : Int) ≤ (effectivePolicy p policy).maxRequestBytes)
      (hi : s'.invocations = s.invocations ++ [{
        call := call
        request := { id := id, route := call.route, policy := effectivePolicy p policy
                     deadline := deadline } }])
      (ha : s'.accepted = s.accepted) (hr : s'.reader = s.reader)
      (hv : s'.received = s.received)
      (hq : s'.requests = s.requests.insert id s.invocations.length) :
      Change p s (.start call deadline draws) s'
  | moved {a s' r x x' m f} (hx : s.invocations[r]? = some x)
      (hstep : Invocation.Step p s.lanes x m x' f)
      (hi : s'.invocations = s.invocations.set r x') (ha : s'.accepted = s.accepted ++ f.toList)
      (hr : Reads p s r x a m s'.reader) (hv : s'.received = s.received) : Change p s a s'

theorem Change.of_act {s₁} (hact : s.act p r m = some s₁)
    (hi : s'.invocations = s₁.invocations) (ha : s'.accepted = s₁.accepted)
    (hv : s'.received = s₁.received)
    (hr : ∀ x, s.invocations[r]? = some x → Reads p s r x a m s'.reader) : Change p s a s' := by
  obtain ⟨x, x', f, hx, hstep, rfl⟩ := act_eq_some hact
  have hstep := Invocation.step_cases hstep
  refine .moved hx hstep hi ?_ (hr x hx) (by rw [hv, pushAll_eq])
  rw [ha]
  cases f with
  | none => simp [pushAll]
  | some =>
    obtain ⟨lane, hlane⟩ := hstep.lane
    exact push_accepted hlane

theorem act_reader (h : s.act p r m = some s') : s'.reader = s.reader := by
  obtain ⟨x, x', f, -, -, rfl⟩ := act_eq_some h
  show (s.pushAll f).reader = s.reader
  rw [pushAll_eq]

/-- A control frame was accepted or refused. -/
theorem enqueueControl_change (h : s.enqueueControl p view payload = some (s', e)) :
    s'.invocations = s.invocations ∧ s'.reader = s.reader ∧ s'.received = s.received ∧
      (s'.accepted = s.accepted ∧ e.isSome = true ∨
        enqueueFrame p view s.lanes (controlFrame p payload) = none ∧
          s'.accepted = s.accepted ++ [controlFrame p payload] ∧ e = none) := by
  obtain ⟨rfl, he⟩ | ⟨hq, rfl, he⟩ := enqueueControl_eq_some h
  · exact ⟨rfl, rfl, rfl, .inl ⟨rfl, he⟩⟩
  · obtain ⟨lane, hlane⟩ := Lanes.enqueue_eq_none (enqueueFrame_eq_none hq).2.2.2.2.2
    refine ⟨?_, ?_, ?_, .inr ⟨hq, push_accepted hlane, he⟩⟩ <;> rw [push, hlane]

theorem recv_receives (p : Params) (s : Session) (frame : ConnectRequest) (now : Time)
    (hidle : s.reader = .idle) : Receives p s frame (s.recv p frame now).reader := by
  rw [recv]
  split
  · rename_i hv
    rw [handleInbound]
    split
    · rename_i hk
      exact .control hv (by rw [hk]; rfl) (.inr ⟨_, rfl⟩)
    · rename_i hk
      split
      · exact .failed
      · exact .control hv (by rw [hk]; rfl) (.inl hidle)
    · rename_i hk
      split
      · split
        · rename_i hdrain
          obtain rfl := markDraining_eq_some hdrain
          exact .control hv (by rw [hk]; rfl) (.inl hidle)
        · exact .failed
      · exact .failed
    · exact .failed
    · rename_i hping hpong hdrain hrevoke
      have hk : frame.payload.ofRequest = true := by
        obtain ⟨hvalid, hhello⟩ := validateInbound_eq_true hv
        cases hpayload : frame.payload with
        | none => simp [ConnectRequest.Valid, validateGatewayOutFrame, hpayload] at hvalid
        | hello hello => exact absurd hpayload (hhello hello)
        | ping nonce => exact absurd hpayload (hping nonce)
        | pong nonce => exact absurd hpayload (hpong nonce)
        | drain d => exact absurd hpayload (hdrain d)
        | revokeSession id => exact absurd hpayload (hrevoke id)
        | _ => rfl
      split
      · exact .failed
      · rename_i r hr
        split
        · exact .failed
        · rename_i x hx
          split
          · exact .failed
          · rename_i hclass
            exact .deliver hv hk hr hx (by simpa using hclass)
  · exact .failed

end Session

end MarketMesh.GatewayIn
