import Mathlib.Algebra.Ring.Int.Defs
import MarketMesh.Tunnel.Link

/-!
# The frames of one response

`handleInbound` looks at one frame and at the record of the request.  What it accepts over a whole
response is a language, and the record is no part of its description: `Follows` says when a frame
may come after a list of events, in terms of what was received, granted and sent before.  `Tracks`
says that the record is nothing but a summary of these events, so the frames are accepted one by
one exactly if each may follow the events before it.

A request that was ended from this side has a second set of rules for the frames that are still on
their way, in `handleCompletedInboundLocked`.  They should accept whatever the first set would have
accepted; `Tail` relates the two records.  They do, but for two kinds of frames: a Cancel, and a
Credit behind the HalfClose.
-/

set_option autoImplicit false

namespace MarketMesh.GatewayIn

open Protocol Machine

namespace LogicalRequest

variable {p : Params} {r x t : LogicalRequest} {frame : ConnectRequest} {r' : LogicalRequest}
  {o : Outcome}

/-! ## Events -/

/-- What happens to a request while its response arrives. -/
inductive Event where
  | inbound (frame : ConnectRequest)
  | grant (bytes : Int) (view : View) (lanes : Lanes)
  /-- `takeSendCredit` takes some of the credit for the body. -/
  | take (bytes : Int)

def Event.next (p : Params) (r : LogicalRequest) : Event → LogicalRequest
  | .inbound frame => (r.handleInbound frame).1
  | .grant bytes view lanes => (r.grantReceiveCredit p view lanes bytes).1
  | .take bytes => { r with sendCredit := r.sendCredit - bytes }

/-- The credit of a grant, if its Credit entered the queue. -/
def Event.credited (p : Params) (r : LogicalRequest) : Event → Int
  | .grant bytes view lanes =>
    if (r.grantReceiveCredit p view lanes bytes).2.toOption.isSome then bytes else 0
  | _ => 0

def after (p : Params) (r : LogicalRequest) (es : List Event) : LogicalRequest :=
  es.foldl (Event.next p) r

/-- The credit that was granted for the response. -/
def granted (p : Params) : LogicalRequest → List Event → Int
  | _, [] => 0
  | r, e :: es => e.credited p r + granted p (e.next p r) es

def frames (es : List Event) : List ConnectRequest :=
  es.filterMap fun
    | .inbound frame => some frame
    | _ => none

/-- The bytes of the response so far. -/
def received (es : List Event) : Bytes :=
  (frames es).flatMap fun frame ↦
    match frame.payload with
    | .data b => b
    | _ => []

def credits (es : List Event) : Int :=
  ((frames es).map fun frame ↦
    match frame.payload with
    | .credit n => (n : Int)
    | _ => 0).sum

def taken (es : List Event) : Int :=
  (es.map fun
    | .take bytes => bytes
    | _ => 0).sum

def isClosed (es : List Event) : Bool := (frames es).any fun frame ↦ frame.payload = .halfClose

/-- The frame ends the response. -/
def isEnd (frame : ConnectRequest) : Bool :=
  match frame.payload with
  | .result _ | .cancel _ => true
  | _ => false

/-- Every frame satisfies `P` together with the events before it. -/
def Each (P : List Event → ConnectRequest → Prop) : List Event → List Event → Prop
  | _, [] => True
  | before, .inbound frame :: es => P before frame ∧ Each P (before ++ [.inbound frame]) es
  | before, e :: es => Each P (before ++ [e]) es

/-- Nothing comes after the end of the response. -/
def endsLast : List Event → Bool
  | [] => true
  | .inbound frame :: es => (!isEnd frame || es.isEmpty) && endsLast es
  | _ :: es => endsLast es

/-! ## The language of a response -/

/-- The request has received nothing. -/
structure IsNew (r : LogicalRequest) : Prop where
  active : r.isCompleted = false
  sequence : r.inboundSequence = 0
  payload : r.responsePayload = []
  closed : r.isResponseClosed = false
  tail : r.acceptResponseTail = false

/-- **The frame may follow the events.**  Its number is the next one; a Data fits the outstanding
credit and the maximum of the response, which is not closed; a Credit keeps the credit for the body
within the maximum of the request; there is one HalfClose, and the Result comes after it. -/
def Follows (p : Params) (r : LogicalRequest) (es : List Event) (frame : ConnectRequest) : Prop :=
  frame.header.sequence = (frames es).length + 1 ∧
  match frame.payload with
  | .credit n => r.sendCredit + credits es - taken es + n ≤ r.policy.maxRequestBytes
  | .data b =>
    isClosed es = false ∧
      (b.length : Int) ≤ r.receiveCredit + granted p r es - (received es).length ∧
      ((received es).length + b.length : Int) ≤ r.policy.maxResponseBytes
  | .halfClose => isClosed es = false
  | .result _ => isClosed es = true
  | .cancel _ => True
  | _ => False

/-- `handleInbound` accepts the frame after the events. -/
def Accepted (p : Params) (r : LogicalRequest) (es : List Event) (frame : ConnectRequest) : Prop :=
  ((after p r es).handleInbound frame).2 ≠ .violation

/-- The record is a summary of the events. -/
structure Tracks (p : Params) (r : LogicalRequest) (es : List Event) (x : LogicalRequest) :
    Prop where
  active : x.isCompleted = false
  tail : x.acceptResponseTail = false
  policy : x.policy = r.policy
  sequence : x.inboundSequence = (frames es).length
  payload : x.responsePayload = received es
  closed : x.isResponseClosed = isClosed es
  sendCredit : x.sendCredit = r.sendCredit + credits es - taken es
  receiveCredit : x.receiveCredit = r.receiveCredit + granted p r es - (received es).length

theorem IsNew.tracks (h : IsNew r) : Tracks p r [] r where
  active := h.active
  tail := h.tail
  policy := rfl
  sequence := h.sequence
  payload := h.payload
  closed := h.closed
  sendCredit := by simp [credits, taken, frames]
  receiveCredit := by simp [granted, received, frames]

theorem after_concat (es : List Event) (e : Event) :
    after p r (es ++ [e]) = e.next p (after p r es) := by
  rw [after, List.foldl_append]
  rfl

theorem granted_concat (es : List Event) (e : Event) :
    granted p r (es ++ [e]) = granted p r es + e.credited p (after p r es) := by
  induction es generalizing r with
  | nil => simp [granted, after]
  | cons e' es ih =>
    rw [List.cons_append, granted, ih, granted, Int.add_assoc]
    rfl

@[simp]
theorem frames_concat (es : List Event) :
    frames (es ++ [.inbound frame]) = frames es ++ [frame] := by
  simp [frames]

/-- What `handleInbound` accepts may follow the events, and the record stays their summary. -/
theorem Takes.tracks {es x' v}
    (htakes : Takes x frame x' v) (hv : v ≠ .violation) (h : Tracks p r es x) :
    Follows p r es frame ∧
      (isEnd frame = false → granted p r (es ++ [.inbound frame]) = granted p r es →
        Tracks p r (es ++ [.inbound frame]) x') := by
  obtain ⟨hactive, htail, hpolicy, hsequence, hpayload, hclosed, hsend, hreceive⟩ := h
  have htaken : taken (es ++ [.inbound frame]) = taken es := by simp [taken]
  cases htakes with
  | credit _ _ hseq | data _ _ hseq | halfClose _ _ hseq =>
    refine ⟨⟨by rw [hseq, hsequence], ?_⟩,
      fun _ hgranted ↦ ⟨hactive, htail, hpolicy, ?_, ?_, ?_, ?_, ?_⟩⟩
    all_goals simp_all [received, credits, isClosed, advanceInbound]
    all_goals omega
  | result _ _ hseq | cancel _ _ hseq =>
    refine ⟨⟨by rw [hseq, hsequence], ?_⟩, fun hend ↦ ?_⟩
    all_goals simp_all [isEnd]
  | violation => exact absurd rfl hv
  | _ => simp_all

/-- A frame is accepted if and only if it may follow the events. -/
theorem Tracks.accepted_iff {es} (h : Tracks p r es (after p r es)) :
    Accepted p r es frame ↔ Follows p r es frame := by
  refine ⟨fun hacc ↦ ((handleInbound_takes _ frame).tracks hacc h).1, fun ⟨hseq, hfits⟩ ↦ ?_⟩
  obtain ⟨hactive, htail, hpolicy, hsequence, hpayload, hclosed, hsend, hreceive⟩ := h
  rw [← hsequence] at hseq
  rw [← hpayload] at hreceive
  rw [← hclosed, ← hpayload, ← hpolicy, ← hsend, ← hreceive] at hfits
  rw [Accepted]
  generalize after p r es = x at *
  cases hk : frame.payload <;> rw [hk] at hfits <;> dsimp only at hfits
  case credit n =>
    have hn : ¬ (x.policy.maxRequestBytes < x.sendCredit ∨
        x.policy.maxRequestBytes - x.sendCredit < (n : Int)) := by omega
    simp [handleInbound, hactive, hseq, hk, advanceInbound, hn]
  case data b =>
    have hn : ¬ (x.receiveCredit < b.length ∨
        x.policy.maxResponseBytes < (x.responsePayload.length + b.length : Int)) := by omega
    simp only [handleInbound, hactive, hseq, hk, advanceInbound, hfits.1, hn]
    simp only [Bool.false_eq_true, if_false, ne_eq, not_true_eq_false]
    split <;> simp
  case halfClose | result | cancel =>
    simp [handleInbound, hactive, hseq, hk, advanceInbound, hfits]

/-- A grant changes the credit by what it has announced. -/
theorem next_grant (bytes : Int) (view : View) (lanes : Lanes) :
    ∃ n, Event.next p x (.grant bytes view lanes) = { x with
      outboundSequence := n
      receiveCredit := x.receiveCredit + Event.credited p x (.grant bytes view lanes) } := by
  rw [Event.next, Event.credited, grantReceiveCredit]
  obtain ⟨r', e, hq, rfl | rfl⟩ | ⟨-, -, hq⟩ := enqueuePayloadLocked_cases p view lanes
    (.credit (toUint32 bytes)) { x with receiveCredit := x.receiveCredit + bytes }
  all_goals
    rw [hq]
    exact ⟨_, by simp [Except.toOption, advance]; rfl⟩

/-- One event keeps the record a summary. -/
theorem Tracks.next {es e} (h : Tracks p r es (after p r es))
    (he : ∀ frame, e = .inbound frame → isEnd frame = false ∧ Accepted p r es frame) :
    Tracks p r (es ++ [e]) (after p r (es ++ [e])) := by
  have hgranted := granted_concat (p := p) (r := r) es e
  rw [after_concat]
  cases e with
  | inbound frame =>
    obtain ⟨hend, hacc⟩ := he frame rfl
    exact ((handleInbound_takes _ frame).tracks hacc h).2 hend
      (hgranted.trans (Int.add_zero _))
  | grant bytes view lanes =>
    have hframes : frames (es ++ [.grant bytes view lanes]) = frames es := by simp [frames]
    obtain ⟨n, hnext⟩ := next_grant (p := p) (x := after p r es) bytes view lanes
    obtain ⟨hactive, htail, hpolicy, hsequence, hpayload, hclosed, hsend, hreceive⟩ := h
    rw [hnext]
    constructor
    all_goals simp_all [received, credits, taken, isClosed]
    omega
  | take bytes =>
    have hframes : frames (es ++ [.take bytes]) = frames es := by simp [frames]
    obtain ⟨hactive, htail, hpolicy, hsequence, hpayload, hclosed, hsend, hreceive⟩ := h
    constructor
    all_goals simp_all [received, credits, taken, isClosed, Event.next, Event.credited]
    omega

theorem Tracks.each_iff (es : List Event) : ∀ {before},
    Tracks p r before (after p r before) → endsLast es = true →
      (Each (Accepted p r) before es ↔ Each (Follows p r) before es) := by
  induction es with
  | nil => exact fun _ _ ↦ Iff.rfl
  | cons e es ih =>
    intro before h hends
    cases e with
    | inbound =>
      rw [endsLast, Bool.and_eq_true, Bool.or_eq_true, Bool.not_eq_true', List.isEmpty_iff] at hends
      rw [Each, Each, h.accepted_iff]
      refine and_congr_right fun hfollows ↦ ?_
      obtain ⟨hend | rfl, hends⟩ := hends
      · refine ih (h.next ?_) hends
        rintro _ ⟨⟩
        exact ⟨hend, h.accepted_iff.mpr hfollows⟩
      · exact Iff.rfl
    | grant | take => exact ih (h.next fun _ h ↦ nomatch h) hends

theorem Tracks.of_accepted (es : List Event) : ∀ {before},
    Tracks p r before (after p r before) → (∀ frame ∈ frames es, isEnd frame = false) →
      Each (Accepted p r) before es → Tracks p r (before ++ es) (after p r (before ++ es)) := by
  induction es with
  | nil => exact fun h _ _ ↦ by rwa [List.append_nil]
  | cons e es ih =>
    intro before h hopen hacc
    rw [← List.singleton_append, ← List.append_assoc]
    cases e with
    | inbound frame =>
      refine ih (h.next ?_) (fun f hf ↦ hopen f (List.mem_cons_of_mem _ hf)) hacc.2
      rintro _ ⟨⟩
      exact ⟨hopen frame List.mem_cons_self, hacc.1⟩
    | grant | take => exact ih (h.next fun _ h ↦ nomatch h) hopen hacc

/-- What is left of a request that was completed by its peer. -/
structure IsOver (x : LogicalRequest) (outcome : Outcome) : Prop where
  completed : x.isCompleted = true
  tail : x.acceptResponseTail = false
  outcome : x.outcome = outcome

theorem IsOver.handleInbound (h : IsOver x o) (frame : ConnectRequest) :
    x.handleInbound frame = (x, .violation) := by
  simp [LogicalRequest.handleInbound, handleCompletedInboundLocked, h.completed, h.tail]

theorem IsOver.next (h : IsOver x o) (e : Event) : IsOver (e.next p x) o := by
  cases e with
  | inbound =>
    rw [Event.next, h.handleInbound]
    exact h
  | grant bytes view lanes =>
    obtain ⟨n, hnext⟩ := next_grant (p := p) (x := x) bytes view lanes
    rw [hnext]
    exact ⟨h.completed, h.tail, h.outcome⟩
  | take => exact ⟨h.completed, h.tail, h.outcome⟩

theorem IsOver.after (h : IsOver x o) (es : List Event) :
    IsOver (after p x es) o := by
  induction es generalizing x with
  | nil => exact h
  | cons e es ih => exact ih (h.next e)

/-- **The language of a response.**  The frames of a response, up to its end, are accepted one by
one if and only if each of them may follow the events before it.  When a Result is accepted, the
request was not completed before; its outcome is made of the bytes of all Data in order, and it
stays so, whatever comes later: nobody completes the request again, and every frame is refused. -/
theorem response_framing (p : Params) (r : LogicalRequest) (hnew : r.IsNew) (es : List Event) :
    (endsLast es = true → (Each (Accepted p r) [] es ↔ Each (Follows p r) [] es)) ∧
    ∀ frame result, (∀ f ∈ frames es, isEnd f = false) → Each (Accepted p r) [] es →
      Accepted p r es frame → frame.payload = .result result →
      (after p r es).isCompleted = false ∧
      ∀ later, let x := after p r (es ++ .inbound frame :: later)
        x.isCompleted = true ∧
        x.outcome = ⟨⟨received es, result.metadata⟩,
          if result.code = .ok then none else some (.result result.code)⟩ ∧
        (∀ response err, x.completeLocked response err = x) ∧
        (∀ err, x.completeLocalAbort err = x) ∧ ∀ f, (x.handleInbound f).2 = .violation := by
  refine ⟨hnew.tracks.each_iff es, fun frame result hopen hacc hlast hk ↦ ?_⟩
  have h := hnew.tracks.of_accepted es hopen hacc
  rw [List.nil_append] at h
  refine ⟨h.active, fun later ↦ ?_⟩
  have hover : IsOver ((after p r es).handleInbound frame).1 ⟨⟨received es, result.metadata⟩,
      if result.code = .ok then none else some (.result result.code)⟩ := by
    have htakes := handleInbound_takes (after p r es) frame
    rw [Accepted] at hlast
    generalize (after p r es).handleInbound frame = out at *
    obtain ⟨x, v⟩ := out
    obtain ⟨hactive, htail, -, -, hpayload, -, -, -⟩ := h
    cases htakes with
    | result hk' =>
      cases hk.symm.trans hk'
      exact ⟨rfl, htail, by rw [← hpayload]; rfl⟩
    | violation => exact absurd rfl hlast
    | _ => simp_all
  have hover := hover.after (p := p) later
  have hafter : after p r (es ++ .inbound frame :: later) =
      after p ((after p r es).handleInbound frame).1 later := by
    rw [after, List.foldl_append]
    rfl
  rw [hafter]
  exact ⟨hover.completed, hover.outcome, fun _ _ ↦ completeLocked_of_completed hover.completed,
    fun _ ↦ completeLocalAbort_of_completed hover.completed, fun f ↦ by rw [hover.handleInbound]⟩

def sampleFrame (sequence : Nat) (payload : RequestPayload) : ConnectRequest where
  header := { (default : FrameHeader) with sequence := sequence }
  payload := payload

def sampleRequest : LogicalRequest where
  id := Tunnel.sampleID 7
  route := .userGetMe
  policy := { (default : RoutePolicy) with maxRequestBytes := 8, maxResponseBytes := 8 }
  deadline := 0
  receiveCredit := 4

def sampleEvents : List Event :=
  [.inbound (sampleFrame 1 (.data [1])), .inbound (sampleFrame 2 (.data [2, 3])),
    .inbound (sampleFrame 3 .halfClose)]

open Tunnel in
/-- A response of two Data. -/
theorem response_framing_sample :
    ∃ pin pout, (sample sampleLimits 16).params = some (pin, pout) ∧ sampleRequest.IsNew ∧
      Each (Follows pin sampleRequest) [] sampleEvents ∧
      ∀ later, (after pin sampleRequest (sampleEvents ++
        .inbound (sampleFrame 4 (.result default)) :: later)).outcome.response.payload =
          [1, 2, 3] := by
  obtain ⟨⟨pin, pout⟩, hparams⟩ := Option.isSome_iff_exists.mp
    (show (sample sampleLimits 16).params.isSome by decide +kernel)
  have hnew : sampleRequest.IsNew := ⟨rfl, rfl, rfl, rfl, rfl⟩
  have hacc : Each (Accepted pin sampleRequest) [] sampleEvents := ⟨nofun, nofun, nofun, trivial⟩
  obtain ⟨hiff, hend⟩ := response_framing pin sampleRequest hnew sampleEvents
  refine ⟨pin, pout, hparams, hnew, (hiff rfl).mp hacc, fun later ↦ ?_⟩
  obtain ⟨-, hlater⟩ := hend (sampleFrame 4 (.result default)) default (by decide) hacc nofun rfl
  rw [(hlater later).2.1]
  rfl

/-! ## The tail of a response -/

/-- `handleInbound` accepts the frames one after the other; nothing is granted in between. -/
def accepts (r : LogicalRequest) : List ConnectRequest → Option LogicalRequest
  | [] => some r
  | frame :: fs =>
    if (r.handleInbound frame).2 = .violation then none
    else accepts (r.handleInbound frame).1 fs

/-- The request is ended from this side. -/
inductive EndsLocally (p : Params) (r : LogicalRequest) : LogicalRequest → Prop
  | abort (err : Err) : EndsLocally p r (r.completeLocalAbort err)
  | cancel (view : View) (lanes : Lanes) (err : ContextError) (hc : r.isCompleted = false) :
      EndsLocally p r (r.cancel p view lanes err).1
  /-- `cancelWithBarrier` leaves a completed request alone. -/
  | completed (hc : r.isCompleted = true) : EndsLocally p r r

/-- There is no Cancel, and no Credit comes when the response is closed. -/
def sparesTail : Bool → List ConnectRequest → Bool
  | _, [] => true
  | closed, frame :: fs =>
    match frame.payload with
    | .cancel _ => false
    | .credit _ => !closed && sparesTail closed fs
    | .halfClose => sparesTail true fs
    | _ => sparesTail closed fs

/-- The request `t` is what was left of the request `r`. -/
structure Tail (r t : LogicalRequest) : Prop where
  completed : t.isCompleted = true
  accept : t.acceptResponseTail = true
  terminal : t.tailTerminal = false
  policy : t.policy = r.policy
  sequence : t.inboundSequence = r.inboundSequence
  closed : t.isResponseClosed = r.isResponseClosed
  sendCredit : t.sendCredit = r.sendCredit
  receiveCredit : t.receiveCredit = r.receiveCredit
  size : t.tailResponseSize = r.responsePayload.length

/-- A request that is not completed, as it occurs in a session. -/
structure IsActive (r : LogicalRequest) : Prop where
  active : r.isCompleted = false
  tail : r.acceptResponseTail = false
  terminal : r.tailTerminal = false

theorem EndsLocally.tail (h : EndsLocally p r t) (hr : IsActive r) : Tail r t := by
  obtain ⟨hc, -, ht⟩ := hr
  cases h with
  | abort =>
    rw [completeLocalAbort_of_not_completed hc]
    constructor <;> first | rfl | exact ht
  | cancel view lanes err =>
    rw [LogicalRequest.cancel]
    obtain ⟨r', e, hq, rfl | rfl⟩ | ⟨-, -, hq⟩ := enqueuePayloadLocked_cases p view lanes
      (.cancel (if err = .deadlineExceeded then .deadline else .caller)) r
    all_goals
      rw [hq]
      constructor <;> simp [completeLocked, advance, hc, ht]
  | completed hc' => simp [hc] at hc'

/-- What the tail does with a frame that the request would have accepted: it refuses it, it is over
with the Result, or it stays the tail of the request. -/
theorem Tail.handleInbound (h : Tail r t) (hr : IsActive r)
    (hacc : (r.handleInbound frame).2 ≠ .violation) :
    (∀ fs, sparesTail r.isResponseClosed (frame :: fs) = false) ∧
        (t.handleInbound frame).2 = .violation ∨
    (∀ fs, sparesTail r.isResponseClosed (frame :: fs) =
        sparesTail (r.handleInbound frame).1.isResponseClosed fs) ∧
      (t.handleInbound frame).2 ≠ .violation ∧
      ((∃ o, IsOver (r.handleInbound frame).1 o) ∧ (t.handleInbound frame).1.isCompleted = true ∧
          (t.handleInbound frame).1.tailTerminal = true ∨
        IsActive (r.handleInbound frame).1 ∧
          Tail (r.handleInbound frame).1 (t.handleInbound frame).1 ∧
          ∀ result, frame.payload ≠ .result result) := by
  obtain ⟨hdone, haccept, hterminal, hpolicy, hsequence, hclosed, hsend, hreceive, hsize⟩ := h
  obtain ⟨hactive, htail, hend⟩ := hr
  have htakes := handleInbound_takes r frame
  generalize r.handleInbound frame = out at *
  obtain ⟨r', v⟩ := out
  have hstart : t.handleInbound frame = t.handleCompletedInboundLocked frame := by
    simp [LogicalRequest.handleInbound, hdone]
  rw [hstart, handleCompletedInboundLocked]
  cases htakes with
  | violation => exact absurd rfl hacc
  | @credit n hk hc hseq =>
    have hfree : ¬ (t.policy.maxRequestBytes < t.sendCredit ∨
        t.policy.maxRequestBytes - t.sendCredit < (n : Int)) := by rw [hpolicy, hsend]; omega
    cases hopen : r.isResponseClosed with
    | true =>
      refine .inl ⟨fun fs ↦ by simp [sparesTail, hk], ?_⟩
      simp [haccept, hterminal, hseq, hsequence, hk, advanceInbound, hclosed, hopen]
    | false =>
      refine .inr ⟨fun fs ↦ by simp [sparesTail, hk, hopen, advanceInbound], ?_⟩
      simp only [haccept, hterminal, hseq, hsequence, hk, advanceInbound, hclosed, hopen, hfree]
      refine ⟨by simp, .inr ⟨⟨hactive, htail, hend⟩, ?_, by simp⟩⟩
      constructor <;> simp_all
  | @data b hk hc hseq hopen =>
    have hfree : ¬ (t.receiveCredit < b.length ∨
        t.policy.maxResponseBytes < t.tailResponseSize + b.length) := by
      rw [hpolicy, hreceive, hsize]
      omega
    refine .inr ⟨fun fs ↦ by simp [sparesTail, hk, advanceInbound], ?_⟩
    simp only [haccept, hterminal, hseq, hsequence, hk, advanceInbound, hclosed, hopen, hfree]
    refine ⟨by simp, .inr ⟨⟨hactive, htail, hend⟩, ?_, by simp⟩⟩
    constructor <;> simp_all
  | halfClose hk hc hseq hopen =>
    refine .inr ⟨fun fs ↦ by simp [sparesTail, hk], ?_⟩
    simp only [haccept, hterminal, hseq, hsequence, hk, advanceInbound, hclosed, hopen]
    refine ⟨by simp, .inr ⟨⟨hactive, htail, hend⟩, ?_, by simp⟩⟩
    constructor <;> simp_all
  | result hk hc hseq hopen =>
    refine .inr ⟨fun fs ↦ by simp [sparesTail, hk, advanceInbound], ?_⟩
    simp only [haccept, hterminal, hseq, hsequence, hk, advanceInbound, hclosed, hopen]
    exact ⟨by simp, .inl ⟨⟨_, rfl, htail, rfl⟩, by simpa using hdone, by simp⟩⟩
  | cancel hk hc hseq =>
    refine .inl ⟨fun fs ↦ by simp [sparesTail, hk], ?_⟩
    simp [haccept, hterminal, hseq, hsequence, hk]
  | _ => simp_all

theorem IsActive.handleInbound (hr : IsActive r) (hacc : (r.handleInbound frame).2 ≠ .violation) :
    IsActive (r.handleInbound frame).1 ∨ ∃ o, IsOver (r.handleInbound frame).1 o := by
  obtain ⟨hactive, htail, hend⟩ := hr
  have htakes := handleInbound_takes r frame
  generalize r.handleInbound frame = out at *
  obtain ⟨r', v⟩ := out
  cases htakes with
  | credit | data | halfClose => exact .inl ⟨hactive, htail, hend⟩
  | result | cancel => exact .inr ⟨_, rfl, htail, rfl⟩
  | violation => exact absurd rfl hacc
  | _ => simp_all

theorem accepts_cons (fs : List ConnectRequest) :
    r.accepts (frame :: fs) = some r' ↔
      (r.handleInbound frame).2 ≠ .violation ∧ (r.handleInbound frame).1.accepts fs = some r' := by
  rw [accepts]
  split <;> simp_all

theorem accepts_append (fs gs : List ConnectRequest) :
    r.accepts (fs ++ gs) = (r.accepts fs).bind (·.accepts gs) := by
  induction fs generalizing r with
  | nil => rfl
  | cons frame fs ih =>
    rw [List.cons_append, accepts, accepts]
    split
    · rfl
    · exact ih

theorem IsOver.accepts (h : IsOver r o) {fs}
    (hacc : r.accepts fs = some r') : fs = [] ∧ r' = r := by
  cases fs with
  | nil =>
    cases hacc
    exact ⟨rfl, rfl⟩
  | cons frame fs =>
    refine absurd ?_ (accepts_cons fs |>.mp hacc).1
    rw [h.handleInbound]

theorem handleInbound_of_terminal (hc : t.isCompleted = true) (ht : t.tailTerminal = true) :
    t.handleInbound frame = (t, .violation) := by
  simp [handleInbound, handleCompletedInboundLocked, hc, ht]

theorem Takes.of_violation {v} (h : Takes r frame r' v)
    (hv : v = .violation) : r' = r ∨ r' = r.advanceInbound := by
  cases h with
  | violation hr => exact hr
  | data => split at hv <;> cases hv
  | _ => cases hv

/-- Ended at the start, the tail accepts the frames if they spare it; the Result is its end. -/
theorem Tail.accepts_iff (fs : List ConnectRequest) : ∀ {r t r'}, Tail r t →
    IsActive r → r.accepts fs = some r' →
      ((t.accepts fs).isSome = true ↔ sparesTail r.isResponseClosed fs = true) ∧
      ∀ t', t.accepts fs = some t' → (∃ f ∈ fs, ∃ result, f.payload = .result result) →
        ∀ f, (t'.handleInbound f).2 = .violation := by
  induction fs with
  | nil => exact fun _ _ _ ↦ ⟨by simp [accepts, sparesTail], fun _ _ ⟨_, h, _⟩ ↦ nomatch h⟩
  | cons frame fs ih =>
    intro r t r' h hr hacc
    obtain ⟨hframe, hacc⟩ := (accepts_cons fs).mp hacc
    obtain ⟨hspares, hviolation⟩ | ⟨hspares, htframe, hnext⟩ := h.handleInbound hr hframe
    · simp [accepts, hviolation, hspares fs]
    rw [hspares fs, accepts, if_neg htframe]
    obtain ⟨⟨o, hover⟩, hdone, hterminal⟩ | ⟨hactive, htail, hk⟩ := hnext
    · obtain ⟨rfl, -⟩ := hover.accepts hacc
      refine ⟨by simp [accepts, sparesTail], ?_⟩
      rintro _ ⟨⟩ - f
      rw [handleInbound_of_terminal hdone hterminal]
    · obtain ⟨hiff, hlast⟩ := ih htail hactive hacc
      refine ⟨hiff, fun t' ht' ⟨f, hf, result, hresult⟩ ↦ hlast t' ht' ?_⟩
      obtain rfl | hf := List.mem_cons.mp hf
      · exact absurd hresult (hk result)
      · exact ⟨f, hf, result, hresult⟩

/-- A prefix of frames that spare the tail leaves a request whose remaining frames spare it. -/
theorem IsActive.accepts (p : Params) (fs gs : List ConnectRequest)
    : ∀ {r}, IsActive r → r.accepts fs = some r' →
      (IsActive r' ∨ ∃ o, IsOver r' o) ∧
        (sparesTail r.isResponseClosed (fs ++ gs) = true →
          sparesTail r'.isResponseClosed gs = true) := by
  induction fs with
  | nil =>
    rintro r hr ⟨⟩
    exact ⟨.inl hr, fun h ↦ h⟩
  | cons frame fs ih =>
    intro r hr hacc
    obtain ⟨hframe, hacc⟩ := (accepts_cons fs).mp hacc
    have hspares : sparesTail r.isResponseClosed (frame :: fs ++ gs) = true →
        sparesTail (r.handleInbound frame).1.isResponseClosed (fs ++ gs) = true := by
      have htail := (EndsLocally.abort (p := p) (r := r) .queueFull).tail hr
      obtain ⟨hrefused, -⟩ | ⟨hspares, -⟩ := htail.handleInbound hr hframe
      · simp [hrefused (fs ++ gs)]
      · exact (hspares (fs ++ gs)).symm.trans
    obtain hactive | ⟨o, hover⟩ := hr.handleInbound hframe
    · exact (ih hactive hacc).imp_right fun h ↦ h ∘ hspares
    · obtain ⟨rfl, rfl⟩ := hover.accepts hacc
      exact ⟨.inr ⟨o, hover⟩, hspares⟩

end LogicalRequest

/-- The requests of a session that are not completed have no tail. -/
theorem Session.isActive {p s} {ok : Session → Action → Prop} (h : Reach (Session.step p) ok {} s) :
    ∀ x ∈ s.invocations, x.request.isCompleted = false → x.request.IsActive := by
  refine Session.forall_invocations (P := fun x ↦ x.request.isCompleted = false →
    x.request.IsActive) (fun _ _ _ _ _ ↦ ⟨rfl, rfl, rfl⟩) (fun hstep hx hc ↦ ?_) h
  have hx := hx (hstep.not_completed hc)
  cases hstep with
  | inbound hacc =>
    obtain h | ⟨o, hover⟩ := hx.handleInbound hacc
    · exact h
    · rw [hover.completed] at hc
      cases hc
  | violated hv =>
    obtain hr | hr := (LogicalRequest.handleInbound_takes _ _).of_violation hv
    all_goals
      rw [hr]
      exact ⟨hx.1, hx.2, hx.3⟩
  | refused _ _ hr | creditRefused _ _ hr | grantRefused _ _ hr =>
    obtain rfl | rfl := hr
    all_goals exact ⟨hc, hx.2, hx.3⟩
  | canceled | cancelRefused | aborted | failed => cases hc
  | _ => exact ⟨hc, hx.2, hx.3⟩

open LogicalRequest in
/-- **A request that is ended from this side accepts what it would have accepted**, if and only if
this has no Cancel and no Credit behind the HalfClose: for every request of a session that is not
completed, and all frames that it accepts without a further grant, ended before any of them it still
accepts the rest.  After the Result it accepts nothing. -/
theorem tail_accepted (p : Params) {s : Session} {ok : Session → Action → Prop}
    (h : Reach (Session.step p) ok {} s) {x : Invocation} (hx : x ∈ s.invocations)
    (hc : x.request.isCompleted = false) {fs : List ConnectRequest}
    (hfs : (x.request.accepts fs).isSome = true) :
    ((∀ before rest, fs = before ++ rest → ∀ r t, x.request.accepts before = some r →
        EndsLocally p r t → (t.accepts rest).isSome = true) ↔
      sparesTail x.request.isResponseClosed fs = true) ∧
    ∀ before rest r t t', fs = before ++ rest → x.request.accepts before = some r →
      r.isCompleted = false → EndsLocally p r t → t.accepts rest = some t' →
      (∃ f ∈ rest, ∃ result, f.payload = .result result) →
        ∀ f, (t'.handleInbound f).2 = .violation := by
  have hr := Session.isActive h x hx hc
  obtain ⟨r', hfs⟩ := Option.isSome_iff_exists.mp hfs
  have hrest : ∀ before rest r, fs = before ++ rest → x.request.accepts before = some r →
      r.accepts rest = some r' := by
    rintro before rest r rfl hbefore
    rwa [accepts_append, hbefore] at hfs
  refine ⟨⟨fun hall ↦ ?_, fun hspares before rest hsplit r t hbefore hend ↦ ?_⟩,
    fun before rest r t t' hsplit hbefore hc hend ↦ ?_⟩
  · have htail := (EndsLocally.abort (p := p) (r := x.request) .queueFull).tail hr
    exact (htail.accepts_iff fs hr hfs).1.mp (hall [] fs rfl _ _ rfl (.abort .queueFull))
  · have hacc := hrest before rest r hsplit hbefore
    obtain ⟨hactive | ⟨o, hover⟩, hspares'⟩ := hr.accepts p before rest hbefore
    · exact ((hend.tail hactive).accepts_iff rest hactive hacc).1.mpr (hspares' (hsplit ▸ hspares))
    · cases hend with
      | abort =>
        rw [completeLocalAbort_of_completed hover.completed, hacc]
        rfl
      | cancel _ _ _ hc =>
        rw [hover.completed] at hc
        cases hc
      | completed =>
        rw [hacc]
        rfl
  · obtain ⟨hactive | ⟨o, hover⟩, -⟩ := hr.accepts p before rest hbefore
    · exact ((hend.tail hactive).accepts_iff rest hactive (hrest before rest r hsplit hbefore)).2 t'
    · rw [hover.completed] at hc
      cases hc

/-- A Credit behind the HalfClose. -/
def lateCredit : List ConnectRequest :=
  [LogicalRequest.sampleFrame 1 .halfClose, LogicalRequest.sampleFrame 2 (.credit 1),
    LogicalRequest.sampleFrame 3 (.result default)]

def peerCancel : List ConnectRequest := [LogicalRequest.sampleFrame 1 (.cancel .caller)]

def plainResponse : List ConnectRequest :=
  [LogicalRequest.sampleFrame 1 (.data [1]), LogicalRequest.sampleFrame 2 (.credit 1),
    LogicalRequest.sampleFrame 3 .halfClose, LogicalRequest.sampleFrame 4 (.result default)]

open Tunnel LogicalRequest in
/-- A request that is not completed and accepts each of the responses. -/
theorem exists_accepts : ∃ pin pout, (sample sampleLimits 16).params = some (pin, pout) ∧ ∃ l,
    Reach (Link.step pin pout) (fun l a ↦ l.fresh a = true) {} l ∧
    ∃ x ∈ l.gatewayIn.invocations, x.request.isCompleted = false ∧
      x.request.isResponseClosed = false ∧
      ∀ fs ∈ [plainResponse, lateCredit, peerCancel], (x.request.accepts fs).isSome = true := by
  exact (sample sampleLimits 16).exists_of_replay (Script.opened []) _ _ (by decide +kernel)

open Tunnel LogicalRequest in
/-- An aborted request accepts all frames of its response. -/
theorem tail_accepted_plain : ∃ pin pout, (sample sampleLimits 16).params = some (pin, pout) ∧ ∃ l,
    Reach (Link.step pin pout) (fun l a ↦ l.fresh a = true) {} l ∧
    ∃ x ∈ l.gatewayIn.invocations, x.request.isCompleted = false ∧
      ∀ t, EndsLocally pin x.request t → (t.accepts plainResponse).isSome = true := by
  obtain ⟨pin, pout, hparams, l, hreach, x, hx, hc, hclosed, hacc⟩ := exists_accepts
  refine ⟨pin, pout, hparams, l, hreach, x, hx, hc, fun t ht ↦ ?_⟩
  have hin : Reach (Session.step pin) (fun _ _ ↦ True) {} l.gatewayIn :=
    Link.reach_gatewayIn (fun _ _ _ ↦ trivial) hreach
  obtain ⟨hiff, -⟩ := tail_accepted pin hin hx hc (hacc plainResponse (by simp))
  refine hiff.mpr ?_ [] plainResponse rfl x.request t rfl ht
  rw [hclosed]
  rfl

open Tunnel LogicalRequest in
/-- **A local end turns legal frames into a violation.**  The request of a call accepts a Credit
behind the HalfClose, and a Cancel.  Ended from this side, it refuses both. -/
theorem tail_refused : ∃ pin pout, (sample sampleLimits 16).params = some (pin, pout) ∧ ∃ l,
    Reach (Link.step pin pout) (fun l a ↦ l.fresh a = true) {} l ∧
    ∃ x ∈ l.gatewayIn.invocations, x.request.isCompleted = false ∧
      ∀ fs ∈ [lateCredit, peerCancel], (x.request.accepts fs).isSome = true ∧
        ∀ t, EndsLocally pin x.request t → t.accepts fs = none := by
  obtain ⟨pin, pout, hparams, l, hreach, x, hx, hc, hclosed, hacc⟩ := exists_accepts
  refine ⟨pin, pout, hparams, l, hreach, x, hx, hc, fun fs hfs ↦ ?_⟩
  have hsome := hacc fs (List.mem_cons_of_mem _ hfs)
  refine ⟨hsome, fun t ht ↦ ?_⟩
  have hin : Reach (Session.step pin) (fun _ _ ↦ True) {} l.gatewayIn :=
    Link.reach_gatewayIn (fun _ _ _ ↦ trivial) hreach
  have hactive := Session.isActive hin x hx hc
  obtain ⟨r', hr'⟩ := Option.isSome_iff_exists.mp hsome
  have hiff := ((ht.tail hactive).accepts_iff fs hactive hr').1
  have hspares : sparesTail false fs = false := by
    obtain rfl | rfl := List.mem_pair.mp hfs
    all_goals rfl
  rw [hclosed, hspares] at hiff
  simpa using hiff

end MarketMesh.GatewayIn
