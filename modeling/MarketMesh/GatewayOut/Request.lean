import MarketMesh.GatewayOut.Config

/-!
# One request of gateway-out

`requestState` is shared by the receive loop, the goroutine that executes the route, the watcher of
the request's context and whoever wins the right to finish the request (`completeRequest` or
`abortRequest`).  `Conv` puts the record together with the program counters of those goroutines,
and `Conv.step` has one case for each atomic step one of them takes.

Four fields of a conversation are history and no part of the program state: `queued` are the
frames of the request that entered a send queue, `handled` the frames of the peer whose effect was
applied to it, `executions` the runs of `route.invoke` with what they returned, and `refused` tells
the requests that `rejectOpen` turned down.

The unsigned arithmetic of the source is kept: credits are natural numbers below `2 ^ 64`, and the
two subtractions of `handleData` wrap (`sub64`).
-/

set_option autoImplicit false

namespace MarketMesh.GatewayOut

open Protocol

/-- The errors the loops of a session end with. -/
inductive Err where
  /-- `errProtocol`. -/
  | protocol
  /-- `errSessionClosed`. -/
  | sessionClosed
  /-- `ErrQueueFull`. -/
  | queueFull
  | context (err : ContextError)
  deriving DecidableEq, Repr

/-- What a session works with after the handshake. -/
structure Params where
  settings : Settings
  registry : Registry
  tunnelID : Bytes
  limits : Limits
  routes : List RouteId
  classes : List TrafficClass

/-- `settings.classLimits[class]`; a missing class has the zero limits. -/
def Params.classLimits (p : Params) (trafficClass : TrafficClass) : ClassLimits :=
  (p.settings.classLimits.lookup trafficClass).getD ⟨0, 0, 0⟩

/-! ## The send queues -/

inductive Queue where
  | control
  | regular
  | realtime
  deriving DecidableEq, Repr, Inhabited

def queue : TrafficClass → Queue
  | .regular => .regular
  | .realtime => .realtime
  | _ => .control

/-- The class whose `SendQueueDepth` is the capacity of a queue. -/
def Queue.trafficClass : Queue → TrafficClass
  | .control => .controlAuth
  | .regular => .regular
  | .realtime => .realtime

def Params.depth (p : Params) (q : Queue) : Nat :=
  (p.classLimits q.trafficClass).sendQueueDepth.toNat

/-- One element of a queue: a frame with the frames that go out right behind it.  `sent` tells
that the sender waits for the outcome. -/
structure Queued where
  frame : ConnectRequest
  following : List ConnectRequest := []
  sent : Bool := false
  deriving DecidableEq, Repr

def Queued.frames (q : Queued) : List ConnectRequest := q.frame :: q.following

/-- `withinNegotiatedLimits` on what it reads of a frame. -/
def withinNegotiatedLimits (limits : Limits) (size : Nat) (data : Bytes) (credit : Nat)
    (entries : List (Option Metadata)) : Bool :=
  decide (size ≤ limits.maxFrameBytes) && decide (data.length ≤ limits.maxDataBytes) &&
  decide (credit ≤ limits.maxCreditBytes) &&
  decide (entries.length ≤ limits.maxMetadataEntries) &&
  -- the value of a nil entry is empty
  entries.all fun entry ↦
    decide (((entry.map Metadata.value).getD []).length ≤ limits.maxMetadataValueBytes)

/-- The metadata `withinNegotiatedLimits` looks at: that of a Result. -/
def requestEntries (frame : ConnectRequest) : List (Option Metadata) :=
  match frame.payload with
  | .result result => result.metadata
  | _ => []

/-- The metadata `withinNegotiatedLimits` looks at: that of an Open. -/
def responseEntries (frame : ConnectResponse) : List (Option Metadata) :=
  match frame.payload with
  | .opened request => request.metadata
  | _ => []

def requestWithinLimits (limits : Limits) (frame : ConnectRequest) : Bool :=
  withinNegotiatedLimits limits frame.size frame.data frame.credit (requestEntries frame)

def responseWithinLimits (limits : Limits) (frame : ConnectResponse) : Bool :=
  withinNegotiatedLimits limits frame.size frame.data frame.credit (responseEntries frame)

/-- The checks `enqueue` makes on one frame. -/
def admits (p : Params) (frame : ConnectRequest) : Bool :=
  decide frame.Valid && requestWithinLimits p.limits frame

/-- Which ready case the `select` of `enqueue` takes. -/
inductive Select where
  | room
  | ctxDone
  | sessionDone
  | full
  deriving DecidableEq, Repr

/-- `enqueue` of one batch: `none` if the chosen case is not ready, and otherwise the error it
returns, if any.  `full` is the `default` case, which only runs when nothing else is ready. -/
def enqueue (p : Params) (choice : Select) (ctxErr : Option ContextError) (isDone room : Bool)
    (frames : List ConnectRequest) : Option (Option Err) :=
  if frames.all (admits p) then
    match choice with
    | .room => if room then some none else none
    | .ctxDone => ctxErr.map fun e ↦ some (.context e)
    | .sessionDone => if isDone then some (some .sessionClosed) else none
    | .full => if !room && ctxErr.isNone && !isDone then some (some .queueFull) else none
  else some (some .protocol)

/-- `session.ctx.Err()`: the session's context is only ever canceled. -/
def sessionErr (isDone : Bool) : Option ContextError := if isDone then some .canceled else none

/-! ## The request record -/

/-- `uint64` subtraction. -/
def sub64 (a b : Nat) : Nat := (a + 18446744073709551616 - b) % 18446744073709551616

/-- Go's conversion `uint32(n)` of an unsigned value. -/
def toUint32 (n : Nat) : Nat := n % 4294967296

/-- `requestState`.  `ctxErr` is `request.ctx.Err()`, `creditChanged` a token in the channel of
that name, and `isDone` the closed channel `done`. -/
structure RequestState where
  key : OpaqueID
  requestID : Bytes
  route : RouteSpec
  ctxErr : Option ContextError := none
  isDone : Bool := false
  terminal : Bool := false
  incomingSequence : Nat
  outgoingSequence : Nat := 0
  receiveCredit : Nat := 0
  sendCredit : Nat := 0
  requestBytes : Bytes := []
  halfClosed : Bool := false
  peerCanceled : Bool := false
  creditChanged : Bool := false
  deriving Inhabited

/-- `requestFrame`. -/
def requestFrame (p : Params) (requestID : Bytes) (trafficClass : TrafficClass) (sequence : Nat)
    (payload : RequestPayload) : ConnectRequest where
  header :=
    { protocolVersion := protocolVersion
      tunnelId := p.tunnelID
      requestId := requestID
      sequence := sequence
      trafficClass := trafficClass }
  payload := payload

namespace RequestState

/-- The frame with the current outgoing sequence. -/
def frame (p : Params) (r : RequestState) (payload : RequestPayload) : ConnectRequest :=
  requestFrame p r.requestID r.route.trafficClass r.outgoingSequence payload

/-- The request bytes gateway-out accepts for this request. -/
def maximumRequest (p : Params) (r : RequestState) : Nat :=
  min r.route.maxRequestBytes p.limits.maxMessageBytes

/-- The response credit gateway-out accepts for this request. -/
def maximumResponse (p : Params) (r : RequestState) : Nat :=
  min r.route.maxResponseBytes p.limits.maxMessageBytes

def window (p : Params) (r : RequestState) : Nat :=
  (p.classLimits r.route.trafficClass).receiveWindowBytes

/-- The check that `requestForFrame` and `updateRequestForFrame` share. -/
def expects (r : RequestState) (header : FrameHeader) : Bool :=
  decide (header.trafficClass = r.route.trafficClass) &&
  decide (header.sequence = r.incomingSequence + 1)

/-- `requestForFrame`, once the request is found. -/
def requestForFrame (header : FrameHeader) (r : RequestState) : Option RequestState :=
  if r.expects header then some { r with incomingSequence := header.sequence } else none

/-- `updateRequestForFrame` with the update of `handleCredit`. -/
def handleCredit (p : Params) (header : FrameHeader) (increment : Nat) (r : RequestState) :
    Option RequestState :=
  if r.expects header then
    if r.maximumResponse p < increment ∨ r.maximumResponse p - increment < r.sendCredit then none
    else
      some { r with
        sendCredit := r.sendCredit + increment
        creditChanged := true
        incomingSequence := header.sequence }
  else none

/-- `updateRequestForFrame` with the update of `handleCancel`. -/
def handleCancel (header : FrameHeader) (r : RequestState) : Option RequestState :=
  if r.expects header then
    if r.peerCanceled then none
    else some { r with peerCanceled := true, incomingSequence := header.sequence }
  else none

/-- The first grant of `handleOpen`. -/
def initialGrant (p : Params) (r : RequestState) : Nat :=
  min (min (min r.route.maxRequestBytes p.limits.maxMessageBytes) p.limits.maxCreditBytes)
    (r.window p)

/-- `handleData` up to the grant: the request with the bytes taken, and the grant. -/
def takeData (p : Params) (payload : Bytes) (r : RequestState) : Option (RequestState × Nat) :=
  if r.halfClosed || r.terminal then none
  else if r.receiveCredit < payload.length then none
  else if r.maximumRequest p < r.requestBytes.length + payload.length then none
  else
    let r := { r with
      requestBytes := r.requestBytes ++ payload
      receiveCredit := r.receiveCredit - payload.length }
    let remaining := sub64 (sub64 (r.maximumRequest p) r.requestBytes.length) r.receiveCredit
    some (r, min (min remaining (sub64 (r.window p) r.receiveCredit)) p.limits.maxCreditBytes)

end RequestState

/-! ## The conversation -/

/-- The goroutine of `execute`. -/
inductive Executor where
  | none
  /-- `route.invoke` is running. -/
  | running (payload : Bytes)
  /-- `completeRequest` is next. -/
  | completing (response : Bytes) (code : ResultCode)
  | done
  deriving DecidableEq, Repr

/-- The goroutine of `watchRequest`. -/
inductive Watcher where
  | none
  | watching
  /-- `completeRequest` is next. -/
  | completing (code : ResultCode)
  | done
  deriving DecidableEq, Repr

/-- Where the goroutine stands that set `terminal`: inside `completeRequest` or `abortRequest`. -/
inductive Completer where
  | none
  /-- The head of the loop of `sendResponse`. -/
  | sending (response : Bytes)
  /-- `consumeSendCredit` waits in its `select`. -/
  | awaitCredit (response : Bytes)
  /-- The credit for `chunk` is taken; it has no number yet. -/
  | taken (chunk response : Bytes)
  /-- The Data is numbered and not yet offered. -/
  | numbered (frame : ConnectRequest) (response : Bytes)
  /-- `sendResponse` returned an error. -/
  | sendFailed
  /-- `enqueueRequestFrames` is next. -/
  | batch (code : ResultCode)
  /-- The batch was refused; `session.cancel` is next. -/
  | batchRefused
  | cleanup
  /-- `session.release` is next. -/
  | release
  | done
  deriving DecidableEq, Repr

structure Conv where
  request : RequestState
  executor : Executor := .none
  watcher : Watcher := .none
  completer : Completer := .none
  /-- The frames of this request that entered a send queue. -/
  queued : List ConnectRequest := []
  /-- The frames of the peer that were applied to this request. -/
  handled : List ConnectResponse := []
  /-- The runs of `route.invoke`: the payload, and the response and code it returned. -/
  executions : List (Bytes × Bytes × Code) := []
  /-- The Open was refused by `rejectOpen`. -/
  refused : Bool := false
  deriving Inhabited

/-- What a step on a conversation sees of its session: whether the session's context is done, and
whether the queue of the request's class has room. -/
structure Env where
  isDone : Bool
  room : Bool
  deriving DecidableEq, Repr

/-- One atomic step of some goroutine on a conversation. -/
inductive Move where
  /-- `requestForFrame`. -/
  | requestForFrame (frame : ConnectResponse)
  /-- `handleData` after `requestForFrame`. -/
  | data (frame : ConnectResponse) (choice : Select)
  /-- `handleHalfClose` after `requestForFrame`. -/
  | halfClose (frame : ConnectResponse)
  | credit (frame : ConnectResponse)
  | cancel (frame : ConnectResponse)
  /-- A frame was accepted by `handleTerminalFrame`. -/
  | late (frame : ConnectResponse)
  /-- `handleOpen` sets the receive credit and numbers its Credit. -/
  | numberOpen
  /-- `handleOpen` offers its Credit and starts the watcher if it is accepted. -/
  | enqueueOpen (frame : ConnectRequest) (choice : Select)
  /-- `request.cancel` in `handleCancel`. -/
  | cancelContext
  /-- `completeRequest` called by `handleCancel`: the compare-and-swap. -/
  | claimCancel
  /-- `abortRequest`: the compare-and-swap. -/
  | claimAbort
  | execute (rpc : Rpc)
  | claimExecutor
  | watcherDone
  | watcherExpired
  | claimWatcher
  | consumeSendCredit
  | creditWoken
  | creditContext
  | numberData
  | enqueueData (choice : Select)
  | sendError
  | enqueueBatch (choice : Select)
  | cancelSession
  | cleanup
  | released
  /-- The context of the request ends. -/
  | expire (err : ContextError)
  deriving DecidableEq, Repr

namespace Conv

/-- The compare-and-swap of `completeRequest`, and what its winner does first. -/
def claim (response : Bytes) (code : ResultCode) (x : Conv) : Conv :=
  if x.request.terminal then x
  else
    { x with
      request := { x.request with terminal := true }
      completer := if code = .ok ∧ response ≠ [] then .sending response else .batch code }

/-- Offer a batch that the request `r` has already paid for with its numbers. -/
def offer (p : Params) (env : Env) (choice : Select) (ctxErr : Option ContextError)
    (frames : List ConnectRequest) (x : Conv) :
    Option (Conv × List ConnectRequest × Option Err) :=
  match enqueue p choice ctxErr env.isDone env.room frames with
  | none => none
  | some none => some ({ x with queued := x.queued ++ frames }, frames, none)
  | some (some e) => some (x, [], some e)

/-- The conversation after the step, the batch the step put into the queue, and the error the
step returns to the goroutine that takes it. -/
def step (p : Params) (env : Env) (x : Conv) :
    Move → Option (Conv × List ConnectRequest × Option Err)
  | .requestForFrame frame =>
    match x.request.requestForFrame frame.header with
    | some r => some ({ x with request := r }, [], none)
    | none => some (x, [], some .protocol)
  | .data frame choice =>
    match x.request.takeData p frame.data with
    | none => some (x, [], some .protocol)
    | some (r, grant) =>
      let x := { x with request := r, handled := x.handled ++ [frame] }
      if grant = 0 then some (x, [], none)
      else
        let r := { r with
          receiveCredit := r.receiveCredit + grant
          outgoingSequence := r.outgoingSequence + 1 }
        { x with request := r }.offer p env choice r.ctxErr [r.frame p (.credit (toUint32 grant))]
  | .halfClose frame =>
    if x.request.halfClosed || x.request.terminal then some (x, [], some .protocol)
    else
      some ({ x with
        request := { x.request with halfClosed := true, requestBytes := [] }
        executor := .running x.request.requestBytes
        handled := x.handled ++ [frame] }, [], none)
  | .credit frame =>
    match x.request.handleCredit p frame.header frame.credit with
    | some r => some ({ x with request := r, handled := x.handled ++ [frame] }, [], none)
    | none => some (x, [], some .protocol)
  | .cancel frame =>
    match x.request.handleCancel frame.header with
    | some r => some ({ x with request := r, handled := x.handled ++ [frame] }, [], none)
    | none => some (x, [], some .protocol)
  | .late frame => some ({ x with handled := x.handled ++ [frame] }, [], none)
  | .numberOpen =>
    some ({ x with request := { x.request with
      receiveCredit := x.request.initialGrant p
      outgoingSequence := x.request.outgoingSequence + 1 } }, [], none)
  | .enqueueOpen frame choice =>
    match x.offer p env choice (sessionErr env.isDone) [frame] with
    | none => none
    | some (x, frames, none) => some ({ x with watcher := .watching }, frames, none)
    | some (x, frames, some e) => some (x, frames, some e)
  | .cancelContext =>
    some ({ x with request := { x.request with
      ctxErr := some (x.request.ctxErr.getD .canceled) } }, [], none)
  | .claimCancel => some (x.claim [] .canceled, [], none)
  | .claimAbort =>
    if x.request.terminal then some (x, [], none)
    else
      some ({ x with
        request := { x.request with terminal := true }, completer := .cleanup }, [], none)
  | .execute rpc =>
    match x.executor with
    | .running payload =>
      let (response, code) := x.request.route.invoke payload rpc
      some ({ x with
        executor := .completing response (resultCode code)
        executions := x.executions ++ [(payload, response, code)] }, [], none)
    | _ => none
  | .claimExecutor =>
    match x.executor with
    | .completing response code => some ({ x.claim response code with executor := .done }, [], none)
    | _ => none
  | .watcherDone =>
    match x.watcher with
    | .watching => if x.request.isDone then some ({ x with watcher := .done }, [], none) else none
    | _ => none
  | .watcherExpired =>
    match x.watcher, x.request.ctxErr with
    | .watching, some e =>
      let code := if e = .deadlineExceeded then .deadlineExceeded else .canceled
      some ({ x with watcher := .completing code }, [], none)
    | _, _ => none
  | .claimWatcher =>
    match x.watcher with
    | .completing code => some ({ x.claim [] code with watcher := .done }, [], none)
    | _ => none
  | .consumeSendCredit =>
    match x.completer with
    | .sending [] => some ({ x with completer := .batch .ok }, [], none)
    | .sending response =>
      let chunkSize := min response.length p.limits.maxDataBytes
      if chunkSize ≤ x.request.sendCredit then
        some ({ x with
          request := { x.request with sendCredit := x.request.sendCredit - chunkSize }
          completer := .taken (response.take chunkSize) (response.drop chunkSize) }, [], none)
      else some ({ x with completer := .awaitCredit response }, [], none)
    | _ => none
  | .creditWoken =>
    match x.completer with
    | .awaitCredit response =>
      if x.request.creditChanged then
        some ({ x with
          request := { x.request with creditChanged := false }
          completer := .sending response }, [], none)
      else none
    | _ => none
  | .creditContext =>
    match x.completer, x.request.ctxErr with
    | .awaitCredit _, some _ => some ({ x with completer := .sendFailed }, [], none)
    | _, _ => none
  | .numberData =>
    match x.completer with
    | .taken chunk response =>
      let r := { x.request with outgoingSequence := x.request.outgoingSequence + 1 }
      some ({ x with request := r, completer := .numbered (r.frame p (.data chunk)) response },
        [], none)
    | _ => none
  | .enqueueData choice =>
    match x.completer with
    | .numbered frame response =>
      match x.offer p env choice (sessionErr env.isDone) [frame] with
      | none => none
      | some (x, frames, none) => some ({ x with completer := .sending response }, frames, none)
      | some (x, frames, some _) => some ({ x with completer := .sendFailed }, frames, none)
    | _ => none
  | .sendError =>
    match x.completer with
    | .sendFailed =>
      let code :=
        if env.isDone then .unavailable
        else if x.request.ctxErr = some .deadlineExceeded then .deadlineExceeded
        else .canceled
      some ({ x with completer := .batch code }, [], none)
    | _ => none
  | .enqueueBatch choice =>
    match x.completer with
    | .batch code =>
      let r₁ := { x.request with outgoingSequence := x.request.outgoingSequence + 1 }
      let r₂ := { x.request with outgoingSequence := x.request.outgoingSequence + 2 }
      match { x with request := r₂ }.offer p env choice (sessionErr env.isDone)
          [r₁.frame p .halfClose, r₂.frame p (.result { code := code })] with
      | none => none
      | some (x, frames, none) => some ({ x with completer := .cleanup }, frames, none)
      | some (x, frames, some _) => some ({ x with completer := .batchRefused }, frames, none)
    | _ => none
  | .cancelSession =>
    match x.completer with
    | .batchRefused => some ({ x with completer := .cleanup }, [], none)
    | _ => none
  | .cleanup =>
    match x.completer with
    | .cleanup =>
      some ({ x with
        request := { x.request with
          requestBytes := []
          ctxErr := some (x.request.ctxErr.getD .canceled)
          isDone := true }
        completer := .release }, [], none)
    | _ => none
  | .released =>
    match x.completer with
    | .release => some ({ x with completer := .done }, [], none)
    | _ => none
  | .expire err =>
    match x.request.ctxErr with
    | none => some ({ x with request := { x.request with ctxErr := some err } }, [], none)
    | some _ => none

end Conv

end MarketMesh.GatewayOut
