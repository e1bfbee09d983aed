import MarketMesh.GatewayIn.Config

/-!
# One logical request of gateway-in

`logicalRequest` is the shared record of one call: the `Invoke` goroutine that sends the body, the
read loop that delivers the response and `session.fail` all work on it under `request.mu`.  Here
every critical section is a function on the record, and `Invocation` puts the record together with
the program counter of its `Invoke` goroutine.  `Invocation.step` then has one case for each atomic
step any goroutine takes on it.

Two lists of an invocation are history and no part of the program state: `queued` are the frames
of the request that entered the outbound queue, and `handled` the frames of the peer that
`handleInbound` accepted, each in order.
-/

set_option autoImplicit false

namespace MarketMesh.GatewayIn

open Protocol

/-! ## The outbound queue -/

/-- Lane 0 is tunnel control; the others are the traffic classes. -/
abbrev Lane := Fin 4

/-- The contents of the four lanes, oldest frame first. -/
abbrev Lanes := Lane → List ConnectResponse

def QueueLimits.depth (limits : QueueLimits) : Lane → Nat
  | 0 => limits.tunnelControl.toNat
  | 1 => limits.controlAuth.toNat
  | 2 => limits.regular.toNat
  | 3 => limits.realtime.toNat

def queueLane : TrafficClass → Option Lane
  | .unspecified => some 0
  | .controlAuth => some 1
  | .regular => some 2
  | .realtime => some 3
  | .unknown _ => none

/-- The lane of regular traffic. -/
def regularLane : Lane := 2

/-- What a goroutine saw of the flags it tests on its way to the queue.  The flags only ever go
up, and they are read before the frame is offered, so a goroutine may see less than is true by
the time of the offer, but never more (`View.sees`). -/
structure View where
  isClosed : Bool
  ctxErr : Option ContextError
  deriving DecidableEq, Repr, Inhabited

/-- The view is one a goroutine can have while the flags are `isClosed` and `ctxErr`. -/
def View.sees (view : View) (isClosed : Bool) (ctxErr : Option ContextError) : Bool :=
  (!view.isClosed || isClosed) && (view.ctxErr.isNone || view.ctxErr == ctxErr)

/-- What a session is built with and never changes. -/
structure Params where
  settings : Settings
  id : OpaqueID
  limits : Limits
  routes : List RouteId
  capabilities : List Capability

/-- `outboundQueue.enqueue`: the error, or `none` if the frame enters its lane. -/
def Lanes.enqueue (limits : QueueLimits) (ctxErr : Option ContextError) (lanes : Lanes)
    (frame : ConnectResponse) : Option Err :=
  match ctxErr with
  | some e => some (.context e)
  | none =>
    match queueLane frame.header.trafficClass with
    | none => some .protocolViolation
    | some lane => if (lanes lane).length < limits.depth lane then none else some .queueFull

/-- `session.enqueueFrame`: the error, or `none` if the frame enters its lane. -/
def enqueueFrame (p : Params) (view : View) (lanes : Lanes) (frame : ConnectResponse) :
    Option Err :=
  if view.isClosed then some .tunnelClosed
  else if ¬ frame.Valid then some .protocolViolation
  else if frame.header.tunnelId ≠ p.id.toList then some .protocolViolation
  else if p.limits.maxFrameBytes < frame.size then some .queueFull
  else if p.limits.maxDataBytes < frame.data.length then some .queueFull
  else if p.limits.maxCreditBytes < frame.credit then some .protocolViolation
  else lanes.enqueue p.settings.queues view.ctxErr frame

/-! ## The request record -/

/-- A logical request as the caller of gateway-in describes it. -/
structure Call where
  route : RouteId
  payload : Bytes
  idempotencyKey : Bytes := []
  metadata : List (Option Metadata) := []
  deriving DecidableEq, Repr

structure Response where
  payload : Bytes := []
  metadata : List (Option Metadata) := []
  deriving DecidableEq, Repr, Inhabited

/-- What `Invoke` returns: `err = none` is a success. -/
structure Outcome where
  response : Response := {}
  err : Option Err := none
  deriving DecidableEq, Repr

/-- `logicalRequest`.  `isCompleted` also stands for the closed channel `done`, and `creditReady`
for a token in the channel of that name. -/
structure LogicalRequest where
  id : OpaqueID
  route : RouteId
  policy : RoutePolicy
  deadline : Time
  creditReady : Bool := false
  outboundSequence : Nat := 0
  inboundSequence : Nat := 0
  sendCredit : Int := 0
  receiveCredit : Int := 0
  responsePayload : Bytes := []
  isResponseClosed : Bool := false
  isCompleted : Bool := false
  acceptResponseTail : Bool := false
  tailTerminal : Bool := false
  tailResponseSize : Int := 0
  response : Response := {}
  err : Option Err := none

/-- Go's conversion `uint32(n)`. -/
def toUint32 (n : Int) : Nat := (n % 4294967296).toNat

/-- `math.MaxUint64`. -/
def maxUint64 : Nat := 18446744073709551615

namespace LogicalRequest

/-- The frame `enqueuePayloadLocked` builds, with the current outbound sequence. -/
def frame (p : Params) (r : LogicalRequest) (payload : ResponsePayload) : ConnectResponse where
  header :=
    { protocolVersion := protocolVersion
      tunnelId := p.id.toList
      requestId := r.id.toList
      sequence := r.outboundSequence
      trafficClass := r.policy.trafficClass }
  payload := payload

/-- The payloads `enqueuePayloadLocked` knows. -/
def isRequestPayload : ResponsePayload → Bool
  | .opened _ | .data _ | .halfClose | .cancel _ | .credit _ => true
  | _ => false

/-- `r.outboundSequence++`. -/
def advance (r : LogicalRequest) : LogicalRequest :=
  { r with outboundSequence := r.outboundSequence + 1 }

/-- The number is spent before the frame is checked and offered: a refused frame leaves
`outboundSequence` advanced. -/
def enqueuePayloadLocked (p : Params) (view : View) (lanes : Lanes) (payload : ResponsePayload)
    (r : LogicalRequest) : LogicalRequest × Except Err ConnectResponse :=
  if r.isCompleted then (r, .error (r.err.getD .tunnelClosed))
  else if r.outboundSequence = maxUint64 then (r, .error .protocolViolation)
  else if isRequestPayload payload then
    match enqueueFrame p view lanes (r.advance.frame p payload) with
    | some e => (r.advance, .error e)
    | none => (r.advance, .ok (r.advance.frame p payload))
  else (r.advance, .error .protocolViolation)

def completeLocked (response : Response) (err : Option Err) (r : LogicalRequest) :
    LogicalRequest :=
  if r.isCompleted then r
  else { r with isCompleted := true, response := response, err := err }

def completeLocalAbort (err : Err) (r : LogicalRequest) : LogicalRequest :=
  if r.isCompleted then r
  else
    { r with acceptResponseTail := true, tailResponseSize := r.responsePayload.length }
      |>.completeLocked {} (some err)

def outcome (r : LogicalRequest) : Outcome := ⟨r.response, r.err⟩

def completedError (r : LogicalRequest) : Err := r.err.getD .tunnelClosed

def compactForTombstone (r : LogicalRequest) : LogicalRequest :=
  { r with responsePayload := [], response := {} }

/-- What the read loop has to do after `handleInbound` released `request.mu`. -/
inductive Inbound where
  | ok
  /-- Put a token into `creditReady`. -/
  | credited
  /-- Call `grantReceiveCredit`. -/
  | grant (bytes : Int)
  /-- `ErrProtocolViolation`. -/
  | violation
  deriving DecidableEq, Repr

/-- `r.inboundSequence++`. -/
def advanceInbound (r : LogicalRequest) : LogicalRequest :=
  { r with inboundSequence := r.inboundSequence + 1 }

/-- `handleCompletedInboundLocked`: the tail of a response whose call is over. -/
def handleCompletedInboundLocked (frame : ConnectRequest) (r : LogicalRequest) :
    LogicalRequest × Inbound :=
  if !r.acceptResponseTail || r.tailTerminal || frame.header.sequence ≠ r.inboundSequence + 1 then
    (r, .violation)
  else
    let r := r.advanceInbound
    match frame.payload with
    | .credit credit =>
      if r.isResponseClosed then (r, .violation)
      else if r.policy.maxRequestBytes < r.sendCredit ∨
          r.policy.maxRequestBytes - r.sendCredit < (credit : Int) then (r, .violation)
      else ({ r with sendCredit := r.sendCredit + credit }, .ok)
    | .data payload =>
      if r.isResponseClosed then (r, .violation)
      else if r.receiveCredit < payload.length ∨
          r.policy.maxResponseBytes < r.tailResponseSize + payload.length then (r, .violation)
      else
        ({ r with
            receiveCredit := r.receiveCredit - payload.length
            tailResponseSize := r.tailResponseSize + payload.length }, .ok)
    | .halfClose =>
      if r.isResponseClosed then (r, .violation) else ({ r with isResponseClosed := true }, .ok)
    | .result _ =>
      if r.isResponseClosed then ({ r with tailTerminal := true }, .ok) else (r, .violation)
    | _ => (r, .violation)

/-- `logicalRequest.handleInbound`, up to the point where it releases `request.mu`. -/
def handleInbound (frame : ConnectRequest) (r : LogicalRequest) : LogicalRequest × Inbound :=
  if r.isCompleted then r.handleCompletedInboundLocked frame
  else if frame.header.sequence ≠ r.inboundSequence + 1 then (r, .violation)
  else
    let r := r.advanceInbound
    match frame.payload with
    | .credit credit =>
      if r.policy.maxRequestBytes < r.sendCredit ∨
          r.policy.maxRequestBytes - r.sendCredit < (credit : Int) then (r, .violation)
      else ({ r with sendCredit := r.sendCredit + credit }, .credited)
    | .data payload =>
      if r.isResponseClosed then (r, .violation)
      else if r.receiveCredit < payload.length ∨
          r.policy.maxResponseBytes < (r.responsePayload.length + payload.length : Int) then
        (r, .violation)
      else
        let r :=
          { r with
            receiveCredit := r.receiveCredit - payload.length
            responsePayload := r.responsePayload ++ payload }
        let remainingCapacity := r.policy.maxResponseBytes - (r.responsePayload.length : Int)
        let grant := min (payload.length : Int) (remainingCapacity - r.receiveCredit)
        (r, if grant = 0 then .ok else .grant grant)
    | .halfClose =>
      if r.isResponseClosed then (r, .violation) else ({ r with isResponseClosed := true }, .ok)
    | .result result =>
      if r.isResponseClosed then
        (r.completeLocked ⟨r.responsePayload, result.metadata⟩
          (if result.code = .ok then none else some (.result result.code)), .ok)
      else (r, .violation)
    | .cancel reason =>
      (r.completeLocked {}
        (some (.context (if reason = .deadline then .deadlineExceeded else .canceled))), .ok)
    | _ => (r, .violation)

/-- The credit `sendInitialResponseCredit` grants: the receive window of the request. -/
def initialResponseCredit (p : Params) (r : LogicalRequest) : Int :=
  min (min (p.settings.initialResponseCredit : Int) r.policy.maxResponseBytes)
    p.limits.maxCreditBytes

def sendInitialResponseCredit (p : Params) (view : View) (lanes : Lanes) (r : LogicalRequest) :
    LogicalRequest × Except Err ConnectResponse :=
  let credit := r.initialResponseCredit p
  match enqueuePayloadLocked p view lanes (.credit (toUint32 credit))
      { r with receiveCredit := credit } with
  | (r', .ok frame) => (r', .ok frame)
  | (r', .error e) => ({ r' with receiveCredit := 0 }, .error e)

/-- `grantReceiveCredit` of a request that is not completed. -/
def grantReceiveCredit (p : Params) (view : View) (lanes : Lanes) (bytes : Int)
    (r : LogicalRequest) : LogicalRequest × Except Err ConnectResponse :=
  match enqueuePayloadLocked p view lanes (.credit (toUint32 bytes))
      { r with receiveCredit := r.receiveCredit + bytes } with
  | (r', .ok frame) => (r', .ok frame)
  | (r', .error e) => ({ r' with receiveCredit := r'.receiveCredit - bytes }, .error e)

/-- `cancelWithBarrier` of a request that is not completed: whether the Cancel entered the queue
is not looked at. -/
def cancel (p : Params) (view : View) (lanes : Lanes) (err : ContextError) (r : LogicalRequest) :
    LogicalRequest × Except Err ConnectResponse :=
  let out := enqueuePayloadLocked p view lanes
    (.cancel (if err = .deadlineExceeded then .deadline else .caller)) r
  ({ out.1 with acceptResponseTail := true, tailResponseSize := out.1.responsePayload.length }
    |>.completeLocked {} (some (.context err)), out.2)

end LogicalRequest

/-! ## The invocation -/

/-- Where the `Invoke` goroutine of a request stands. -/
inductive Pc where
  /-- `startRequest` returned; `enqueueOpen` is next. -/
  | opening
  /-- `enqueueOpen` returned `err`; `request.complete` is next. -/
  | openRefused (err : Err)
  /-- `rollbackRequestBeforeOpen` is next. -/
  | openCompleted (err : Err)
  /-- The request is gone before its Open was queued. -/
  | rolledBack (err : Err)
  /-- Open is queued; `sendInitialResponseCredit` is next. -/
  | credit
  | creditRefused (err : Err)
  /-- The head of the loop of `sendBody`. -/
  | body (remaining : Bytes)
  /-- `takeSendCredit` waits in its `select`. -/
  | awaitCredit (remaining : Bytes)
  /-- The credit for `chunk` is taken; its Data is not yet offered. -/
  | chunk (chunk remaining : Bytes)
  /-- `takeSendCredit` returned `err`. -/
  | bodyFailed (err : Err)
  /-- `enqueuePayload` inside `sendBody` returned `err`. -/
  | bodyRefused (err : Err)
  /-- `wait`. -/
  | wait
  /-- The result is known; the deferred `finishRequest` is next. -/
  | finishing (outcome : Outcome)
  /-- The request left `session.requests`; `compactForTombstone` is next. -/
  | compacting (outcome : Outcome)
  | returned (outcome : Outcome)
  deriving DecidableEq, Repr

structure Invocation where
  call : Call
  /-- `callCtx.Err()`. -/
  ctxErr : Option ContextError := none
  pc : Pc := .opening
  request : LogicalRequest
  /-- The frames of this request that entered the outbound queue. -/
  queued : List ConnectResponse := []
  /-- The frames of the peer that `handleInbound` accepted for this request. -/
  handled : List ConnectRequest := []

/-- One atomic step of some goroutine on an invocation. -/
inductive Move where
  | enqueueOpen (view : View)
  | completeRefused
  | rollback
  | sendInitialResponseCredit (view : View)
  | abortCredit
  | takeSendCredit
  /-- `takeSendCredit` is woken by a token in `creditReady`. -/
  | creditWoken
  | creditContext
  | creditDone
  | enqueueData (view : View)
  | enqueueHalfClose (view : View)
  /-- `Invoke` handles the error of `sendBody`. -/
  | bodyError (view : View)
  | waitDone
  | waitContext (view : View)
  | finish
  /-- `removeRequest` does not find the request and returns. -/
  | finishAbsent
  | compact
  /-- The context of the caller ends. -/
  | expire (err : ContextError)
  | handleInbound (frame : ConnectRequest)
  /-- The read loop offers a token to `creditReady`. -/
  | notify
  | grantReceiveCredit (bytes : Int) (view : View)
  /-- The read loop calls `completeLocalAbort(ErrQueueFull)`. -/
  | localAbort
  /-- `session.fail` completes the request. -/
  | fail (err : Err)
  deriving DecidableEq, Repr

namespace Invocation

/-- Record the result of an offer: the changed request, and the frame if it entered the queue. -/
def offered (x : Invocation) (out : LogicalRequest × Except Err ConnectResponse) : Invocation :=
  match out.2 with
  | .ok frame => { x with request := out.1, queued := x.queued ++ [frame] }
  | .error _ => { x with request := out.1 }

/-- The frame an offer put into the queue. -/
def accepted (out : LogicalRequest × Except Err ConnectResponse) : Option ConnectResponse :=
  out.2.toOption

/-- The Open of a call. -/
def openPayload (x : Invocation) : ResponsePayload :=
  .opened
    { routeId := x.call.route
      deadline := some (Timestamp.new x.request.deadline)
      idempotencyKey := x.call.idempotencyKey
      metadata := x.call.metadata }

/-- The invocation after the step, and the frame the step put into the outbound queue.  The
session's flags `isClosed` and `sessionErr` bound what a goroutine can have seen of them. -/
def step (p : Params) (isClosed : Bool) (sessionErr : Option ContextError) (lanes : Lanes)
    (x : Invocation) : Move → Option (Invocation × Option ConnectResponse)
  | .enqueueOpen view =>
    match x.pc with
    | .opening =>
      if view.sees isClosed x.ctxErr then
        let out := x.request.enqueuePayloadLocked p view lanes x.openPayload
        match out.2 with
        | .ok _ => some ({ x.offered out with pc := .credit }, accepted out)
        | .error e => some ({ x.offered out with pc := .openRefused e }, accepted out)
      else none
    | _ => none
  | .completeRefused =>
    match x.pc with
    | .openRefused e =>
      some ({ x with request := x.request.completeLocked {} (some e), pc := .openCompleted e },
        none)
    | _ => none
  | .rollback =>
    match x.pc with
    | .openCompleted e => some ({ x with pc := .rolledBack e }, none)
    | _ => none
  | .sendInitialResponseCredit view =>
    match x.pc with
    | .credit =>
      if view.sees isClosed x.ctxErr then
        let out := x.request.sendInitialResponseCredit p view lanes
        match out.2 with
        | .ok _ => some ({ x.offered out with pc := .body x.call.payload }, accepted out)
        | .error e => some ({ x.offered out with pc := .creditRefused e }, accepted out)
      else none
    | _ => none
  | .abortCredit =>
    match x.pc with
    | .creditRefused e =>
      some ({ x with
        request := x.request.completeLocalAbort e
        pc := .finishing { err := some e } }, none)
    | _ => none
  | .takeSendCredit =>
    match x.pc with
    | .body [] => none
    | .body remaining =>
      if x.request.isCompleted then
        some ({ x with pc := .bodyFailed x.request.completedError }, none)
      else if 0 < x.request.sendCredit then
        let chunkBytes := min (min (min (remaining.length : Int) x.request.sendCredit)
          p.limits.maxDataBytes) x.request.policy.maxRequestBytes
        some ({ x with
          request := { x.request with sendCredit := x.request.sendCredit - chunkBytes }
          pc := .chunk (remaining.take chunkBytes.toNat) (remaining.drop chunkBytes.toNat) }, none)
      else some ({ x with pc := .awaitCredit remaining }, none)
    | _ => none
  | .creditWoken =>
    match x.pc with
    | .awaitCredit remaining =>
      if x.request.creditReady then
        some ({ x with
          request := { x.request with creditReady := false }, pc := .body remaining }, none)
      else none
    | _ => none
  | .creditContext =>
    match x.pc, x.ctxErr with
    | .awaitCredit _, some e => some ({ x with pc := .bodyFailed (.context e) }, none)
    | _, _ => none
  | .creditDone =>
    match x.pc with
    | .awaitCredit _ =>
      if x.request.isCompleted then
        some ({ x with pc := .bodyFailed x.request.completedError }, none)
      else none
    | _ => none
  | .enqueueData view =>
    match x.pc with
    | .chunk chunk remaining =>
      if view.sees isClosed x.ctxErr then
        let out := x.request.enqueuePayloadLocked p view lanes (.data chunk)
        match out.2 with
        | .ok _ => some ({ x.offered out with pc := .body remaining }, accepted out)
        | .error e => some ({ x.offered out with pc := .bodyRefused e }, accepted out)
      else none
    | _ => none
  | .enqueueHalfClose view =>
    match x.pc with
    | .body [] =>
      if view.sees isClosed x.ctxErr then
        let out := x.request.enqueuePayloadLocked p view lanes .halfClose
        match out.2 with
        | .ok _ => some ({ x.offered out with pc := .wait }, accepted out)
        | .error e => some ({ x.offered out with pc := .bodyRefused e }, accepted out)
      else none
    | _ => none
  | .bodyError view =>
    -- the error of `sendBody` is what `Invoke` returns, whichever way the request is ended
    match x.pc with
    | .bodyFailed err | .bodyRefused err =>
      if view.sees isClosed sessionErr then
        match x.ctxErr with
        | some e =>
          if x.request.isCompleted then some ({ x with pc := .finishing { err := some err } }, none)
          else
            let out := x.request.cancel p view lanes e
            some ({ x.offered out with pc := .finishing { err := some err } }, accepted out)
        | none =>
          some ({ x with
            request := x.request.completeLocalAbort err
            pc := .finishing { err := some err } }, none)
      else none
    | _ => none
  | .waitDone =>
    match x.pc with
    | .wait =>
      if x.request.isCompleted then some ({ x with pc := .finishing x.request.outcome }, none)
      else none
    | _ => none
  | .waitContext view =>
    match x.pc, x.ctxErr with
    | .wait, some e =>
      if view.sees isClosed sessionErr then
        if x.request.isCompleted then some ({ x with pc := .finishing x.request.outcome }, none)
        else
          let out := x.request.cancel p view lanes e
          some ({ x.offered out with pc := .finishing out.1.outcome }, accepted out)
      else none
    | _, _ => none
  | .finish =>
    match x.pc with
    | .finishing o => some ({ x with pc := .compacting o }, none)
    | _ => none
  | .finishAbsent =>
    match x.pc with
    | .finishing o => some ({ x with pc := .returned o }, none)
    | _ => none
  | .compact =>
    match x.pc with
    | .compacting o =>
      some ({ x with request := x.request.compactForTombstone, pc := .returned o }, none)
    | _ => none
  | .expire err =>
    match x.ctxErr with
    | none => some ({ x with ctxErr := some err }, none)
    | some _ => none
  | .handleInbound frame =>
    let out := x.request.handleInbound frame
    match out.2 with
    | .violation => some ({ x with request := out.1 }, none)
    | _ => some ({ x with request := out.1, handled := x.handled ++ [frame] }, none)
  | .notify => some ({ x with request := { x.request with creditReady := true } }, none)
  | .grantReceiveCredit bytes view =>
    if view.sees isClosed sessionErr then
      if x.request.isCompleted then some (x, none)
      else
        let out := x.request.grantReceiveCredit p view lanes bytes
        some (x.offered out, accepted out)
    else none
  | .localAbort => some ({ x with request := x.request.completeLocalAbort .queueFull }, none)
  | .fail err => some ({ x with request := x.request.completeLocked {} (some err) }, none)

end Invocation

end MarketMesh.GatewayIn
