import MarketMesh.GatewayIn.Request
import Mathlib.Data.List.AList

/-!
# A session of gateway-in

One authenticated tunnel as gateway-in runs it: the table of active requests and the ring of
tombstones, the outbound queue, and the goroutines that work on them.

* The `Invoke` goroutines take the moves of `Invocation.step`.  Removing a request from the table
  (`finish`, `rollback`) is the one of their moves that also changes the session.
* The read loop receives a frame, validates it, looks its request up and works on it in up to
  three further critical sections (`Reader`).
* The write loop takes a frame out of some non-empty lane and sends it.  The source scans the
  lanes round robin and not atomically, so any non-empty lane may be the one it hits.
* `fail` closes the session: it marks it, then completes the requests one by one, then cancels the
  context.
* The keepalive loop and `initiateDrain` only add frames to the control lane.

An entry of the tables points to the invocation by its position in `invocations`, where a request
stays after it has left the tables.  `accepted`, `sent` and `received` are history: all frames that
entered the outbound queue, that were sent, and that were received, each in order.
-/

set_option autoImplicit false

namespace MarketMesh.GatewayIn

open Protocol

/-- The position of an invocation of the session. -/
abbrev Ref := Nat

abbrev RequestMap := AList fun _ : OpaqueID ↦ Ref

/-- Where the read loop stands. -/
inductive Reader where
  /-- In `stream.Recv`. -/
  | idle
  /-- The request is looked up; `request.handleInbound` is next. -/
  | deliver (r : Ref) (frame : ConnectRequest)
  /-- A Credit is added; a token goes to `creditReady` next. -/
  | notify (r : Ref)
  /-- A Data is taken; `grantReceiveCredit` is next. -/
  | grant (r : Ref) (bytes : Int)
  /-- `grantReceiveCredit` returned `err`. -/
  | grantRefused (r : Ref) (err : Err)
  /-- A Ping is to be answered. -/
  | pong (nonce : Nat)
  /-- A frame was found to be a protocol violation, or a Ping could not be answered; `fail` is
  next.  `hand` is the frame. -/
  | failed (hand : Option ConnectRequest)
  deriving DecidableEq, Repr

/-- Where the write loop stands.  `stopped` keeps the frame whose `Send` failed. -/
inductive Writer where
  | idle
  | sending (frame : ConnectResponse)
  | stopped (lost : ConnectResponse)
  deriving DecidableEq, Repr

/-- A goroutine that offers one control frame to the queue: the keepalive loop its Ping, and
`initiateDrain` its Drain. -/
inductive Control where
  | idle
  | offering (payload : ResponsePayload)
  | refused
  deriving DecidableEq, Repr

/-- The reasons `fail` is called with. -/
inductive FailReason where
  | stale
  | protocolViolation
  | peerClosed
  | receiveFailed
  | sendFailed
  | pongTimeout
  | randomFailed
  | controlQueueFull
  | drained
  | drainUnsupported
  | drainEnqueueFailed
  | drainDeadline
  deriving DecidableEq, Repr

/-- `sessionFailure.requestErr`: the error the open requests are completed with. -/
def FailReason.requestErr : FailReason → Err
  | .drained | .drainUnsupported | .drainEnqueueFailed | .drainDeadline => .draining
  | _ => .tunnelClosed

structure Session where
  isReady : Bool := true
  isDraining : Bool := false
  isClosed : Bool := false
  /-- `session.ctx.Err()`. -/
  ctxErr : Option ContextError := none
  requests : RequestMap := ∅
  routeActive : RouteId → Int := fun _ ↦ 0
  tombstones : RequestMap := ∅
  tombstoneOrder : List OpaqueID := []
  tombstonePosition : Nat := 0
  pendingPing : Nat := 0
  lanes : Lanes := fun _ ↦ []
  reader : Reader := .idle
  writer : Writer := .idle
  keepalive : Control := .idle
  drainer : Control := .idle
  /-- The requests `fail` has yet to complete, and the error it completes them with. -/
  failing : Option (List Ref × Err) := none
  invocations : List Invocation := []
  accepted : List ConnectResponse := []
  sent : List ConnectResponse := []
  received : List ConnectRequest := []

/-- One atomic step of some goroutine of the session. -/
inductive Action where
  /-- `startRequest`; `draws` are the identifiers `randomOpaqueID` returns to it. -/
  | start (call : Call) (deadline : Time) (draws : List OpaqueID)
  | invoke (r : Ref) (move : Move)
  | recv (frame : ConnectRequest) (now : Time)
  | deliver
  | notify
  | grant (view : View)
  | abort
  | pong (view : View)
  | dequeue (lane : Lane)
  | send
  | sendFail
  | ping (nonce : Nat)
  | enqueuePing (view : View)
  | initiateDrain (drain : Drain) (now : Time)
  | enqueueDrain (view : View)
  | fail (reason : FailReason)
  | failComplete
  | failCancel
  /-- The context of the stream ends. -/
  | streamDone (err : ContextError)

/-- The moves that the `Invoke` goroutine and the caller's context make on their own. -/
def Move.isInvoke : Move → Bool
  | .handleInbound _ | .notify | .grantReceiveCredit _ _ | .localAbort | .fail _ => false
  | _ => true

namespace Session

/-- Put a frame into its lane. -/
def push (s : Session) (frame : ConnectResponse) : Session :=
  match queueLane frame.header.trafficClass with
  | some lane =>
    { s with
      lanes := Function.update s.lanes lane (s.lanes lane ++ [frame])
      accepted := s.accepted ++ [frame] }
  | none => s

def pushAll (s : Session) : Option ConnectResponse → Session
  | some frame => s.push frame
  | none => s

/-- One move on the invocation `r`. -/
def act (p : Params) (s : Session) (r : Ref) (move : Move) : Option Session := do
  let x ← s.invocations[r]?
  let (x', frame) ← x.step p s.isClosed s.ctxErr s.lanes move
  some { s.pushAll frame with invocations := s.invocations.set r x' }

/-! ## The tables -/

/-- `effectivePolicy` of `startRequest`. -/
def effectivePolicy (p : Params) (policy : RoutePolicy) : RoutePolicy :=
  { policy with
    maxRequestBytes := min policy.maxRequestBytes p.limits.maxMessageBytes
    maxResponseBytes := min policy.maxResponseBytes p.limits.maxMessageBytes
    maxInFlight := min policy.maxInFlight p.limits.maxInFlightRequests }

/-- The loop of `startRequest` over the identifiers still to be drawn. -/
def startRequestLoop (p : Params) (s : Session) (call : Call) (policy : RoutePolicy)
    (deadline : Time) : List OpaqueID → Except Err Session
  | [] => .error .requestIDCollision
  | id :: draws =>
    if !s.isReady || s.isDraining || s.isClosed then .error .draining
    else if call.route ∉ p.routes then .error .routeNotAllowed
    else if p.limits.maxInFlightRequests ≤ s.requests.entries.length ∨
        policy.maxInFlight ≤ s.routeActive call.route then .error .queueFull
    else if (s.requests.lookup id).isSome || (s.tombstones.lookup id).isSome then
      startRequestLoop p s call policy deadline draws
    else
      .ok { s with
        requests := s.requests.insert id s.invocations.length
        routeActive := Function.update s.routeActive call.route (s.routeActive call.route + 1)
        invocations := s.invocations ++ [{
          call := call
          request := { id := id, route := call.route, policy := policy, deadline := deadline } }] }

/-- `startRequest`.  At most four identifiers are drawn.  The lock is released between two
draws, and an attempt that met a taken identifier leaves nothing behind, so the loop may be read as
one step at the time of its last attempt. -/
def startRequest (p : Params) (s : Session) (call : Call) (policy : RoutePolicy)
    (deadline : Time) (draws : List OpaqueID) : Except Err Session :=
  let policy := effectivePolicy p policy
  if policy.maxRequestBytes < (call.payload.length : Int) then .error (.result .resourceExhausted)
  else startRequestLoop p s call policy deadline (draws.take 4)

def addTombstoneLocked (p : Params) (s : Session) (id : OpaqueID) (r : Ref) : Session :=
  let capacity := p.limits.maxInFlightRequests
  if s.tombstoneOrder.length < capacity then
    { s with
      tombstoneOrder := s.tombstoneOrder ++ [id]
      tombstones := s.tombstones.insert id r }
  else
    match s.tombstoneOrder[s.tombstonePosition]? with
    | some oldest =>
      { s with
        tombstoneOrder := s.tombstoneOrder.set s.tombstonePosition id
        tombstones := (s.tombstones.erase oldest).insert id r
        tombstonePosition := (s.tombstonePosition + 1) % capacity }
    | none => s

/-- The part of `removeRequest` under `session.mu`; `none` if the table does not hold `r` under
`id`. -/
def removeRequest (p : Params) (s : Session) (r : Ref) (id : OpaqueID) (route : RouteId)
    (addTombstone : Bool) : Option Session :=
  if s.requests.lookup id = some r then
    let s := { s with
      requests := s.requests.erase id
      routeActive := Function.update s.routeActive route (s.routeActive route - 1) }
    some (if addTombstone then s.addTombstoneLocked p id r else s)
  else none

/-- The step of an `Invoke` goroutine. -/
def invoke (p : Params) (s : Session) (r : Ref) (move : Move) : Option Session := do
  let x ← s.invocations[r]?
  match move with
  | .finish =>
    match s.removeRequest p r x.request.id x.request.route true with
    | some s => s.act p r .finish
    | none => s.act p r .finishAbsent
  | .finishAbsent => none
  | .rollback =>
    ((s.removeRequest p r x.request.id x.request.route false).getD s).act p r .rollback
  | move => if move.isInvoke then s.act p r move else none

/-! ## Control frames -/

/-- The frame `enqueueControl` builds. -/
def controlFrame (p : Params) (payload : ResponsePayload) : ConnectResponse where
  header := { protocolVersion := protocolVersion, tunnelId := p.id.toList }
  payload := payload

/-- `enqueueControl`, on the session's own context. -/
def enqueueControl (p : Params) (s : Session) (view : View) (payload : ResponsePayload) :
    Option (Session × Option Err) :=
  if view.sees s.isClosed s.ctxErr then
    match enqueueFrame p view s.lanes (controlFrame p payload) with
    | some e => some (s, some e)
    | none => some (s.push (controlFrame p payload), none)
  else none

/-! ## The read loop -/

/-- `validateInbound`: whether it returns nil.  Every error of it ends the session in the same
way. -/
def validateInbound (p : Params) (frame : ConnectRequest) : Bool :=
  decide frame.Valid &&
  (match frame.payload with | .hello _ => false | _ => true) &&
  decide (frame.size ≤ p.limits.maxFrameBytes) &&
  decide (frame.header.tunnelId = p.id.toList) &&
  decide (frame.data.length ≤ p.limits.maxDataBytes) &&
  decide (frame.credit ≤ p.limits.maxCreditBytes) &&
  match frame.payload with
  | .result result =>
    decide (result.metadata.length ≤ p.limits.maxMetadataEntries) &&
    result.metadata.all fun
      | some metadata => decide (metadata.value.length ≤ p.limits.maxMetadataValueBytes)
      | none => false
  | _ => true

/-- `markDraining`, for a deadline that is still ahead of `now`. -/
def markDraining (s : Session) (deadline now : Time) : Option Session :=
  if deadline ≤ now then none
  else if s.isClosed then none
  else some { s with isDraining := true }

/-- The request of an identifier: active, or a tombstone. -/
def requestFor (s : Session) (id : OpaqueID) : Option Ref :=
  (s.requests.lookup id).or (s.tombstones.lookup id)

/-- `session.handleInbound` up to `request.handleInbound`. -/
def handleInbound (p : Params) (s : Session) (frame : ConnectRequest) (now : Time) : Session :=
  match frame.payload with
  | .ping nonce => { s with reader := .pong nonce }
  | .pong nonce =>
    if s.pendingPing = 0 ∨ s.pendingPing ≠ nonce then { s with reader := .failed frame }
    else { s with pendingPing := 0 }
  | .drain drain =>
    if .drain ∈ p.capabilities then
      match s.markDraining ((drain.deadline.map Timestamp.asTime).getD 0) now with
      | some s => s
      | none => { s with reader := .failed frame }
    else { s with reader := .failed frame }
  | .revokeSession _ => { s with reader := .failed frame }
  | _ =>
    match s.requestFor (OpaqueID.copy frame.header.requestId) with
    | none => { s with reader := .failed frame }
    | some r =>
      match s.invocations[r]? with
      | none => { s with reader := .failed frame }
      | some x =>
        if frame.header.trafficClass ≠ x.request.policy.trafficClass then
          { s with reader := .failed frame }
        else { s with reader := .deliver r frame }

def recv (p : Params) (s : Session) (frame : ConnectRequest) (now : Time) : Session :=
  let s := { s with received := s.received ++ [frame] }
  if validateInbound p frame then s.handleInbound p frame now
  else { s with reader := .failed frame }

/-- `request.handleInbound`. -/
def deliver (p : Params) (s : Session) (r : Ref) (frame : ConnectRequest) : Option Session := do
  let x ← s.invocations[r]?
  let s ← s.act p r (.handleInbound frame)
  match (x.request.handleInbound frame).2 with
  | .ok => some { s with reader := .idle }
  | .credited => some { s with reader := .notify r }
  | .grant bytes => some { s with reader := .grant r bytes }
  | .violation => some { s with reader := .failed frame }

/-- `grantReceiveCredit`, called by the read loop. -/
def grant (p : Params) (s : Session) (r : Ref) (bytes : Int) (view : View) : Option Session := do
  let x ← s.invocations[r]?
  let s' ← s.act p r (.grantReceiveCredit bytes view)
  if x.request.isCompleted then some { s' with reader := .idle }
  else
    match (x.request.grantReceiveCredit p view s.lanes bytes).2 with
    | .ok _ => some { s' with reader := .idle }
    | .error e => some { s' with reader := .grantRefused r e }

/-- Which failures the state of the session allows.  The clock, the random source and the stream
may fail it at any time. -/
def canFail (p : Params) (s : Session) : FailReason → Bool
  | .stale | .randomFailed => true
  | .peerClosed | .receiveFailed => s.reader = .idle
  | .protocolViolation =>
    match s.reader with
    | .failed _ => true
    | .grantRefused _ e => e ≠ .queueFull
    | _ => false
  | .sendFailed => match s.writer with | .stopped _ => true | _ => false
  | .pongTimeout => s.pendingPing ≠ 0
  | .controlQueueFull => s.keepalive = .refused
  | .drained => s.isDraining && s.requests.entries.isEmpty
  | .drainUnsupported => .drain ∉ p.capabilities
  | .drainEnqueueFailed => s.drainer = .refused
  | .drainDeadline => s.isDraining

/-! ## The session -/

def step (p : Params) (s : Session) : Action → Option Session
  | .start call deadline draws =>
    match p.settings.routes.lookup call.route with
    | none => none
    | some policy => (s.startRequest p call policy deadline draws).toOption
  | .invoke r move => s.invoke p r move
  | .recv frame now =>
    match s.reader with
    | .idle => some (s.recv p frame now)
    | _ => none
  | .deliver =>
    match s.reader with
    | .deliver r frame => s.deliver p r frame
    | _ => none
  | .notify =>
    match s.reader with
    | .notify r => (s.act p r .notify).map fun s ↦ { s with reader := .idle }
    | _ => none
  | .grant view =>
    match s.reader with
    | .grant r bytes => s.grant p r bytes view
    | _ => none
  | .abort =>
    match s.reader with
    | .grantRefused r .queueFull =>
      (s.act p r .localAbort).map fun s ↦ { s with reader := .idle }
    | _ => none
  | .pong view =>
    match s.reader with
    | .pong nonce =>
      match s.enqueueControl p view (.pong nonce) with
      | none => none
      | some (s, none) | some (s, some .queueFull) => some { s with reader := .idle }
      | some (s, some _) => some { s with reader := .failed none }
    | _ => none
  | .dequeue lane =>
    match s.writer, s.lanes lane with
    | .idle, frame :: rest =>
      some { s with writer := .sending frame, lanes := Function.update s.lanes lane rest }
    | _, _ => none
  | .send =>
    match s.writer with
    | .sending frame => some { s with writer := .idle, sent := s.sent ++ [frame] }
    | _ => none
  | .sendFail =>
    match s.writer with
    | .sending frame => some { s with writer := .stopped frame }
    | _ => none
  | .ping nonce =>
    match s.keepalive with
    | .idle =>
      if s.pendingPing = 0 ∧ nonce ≠ 0 then
        some { s with pendingPing := nonce, keepalive := .offering (.ping nonce) }
      else none
    | _ => none
  | .enqueuePing view =>
    match s.keepalive with
    | .offering payload =>
      (s.enqueueControl p view payload).map fun (s, e) ↦
        { s with keepalive := if e.isSome then .refused else .idle }
    | _ => none
  | .initiateDrain drain now =>
    match s.drainer with
    | .idle =>
      if .drain ∈ p.capabilities then
        (s.markDraining ((drain.deadline.map Timestamp.asTime).getD 0) now).map fun s ↦
          { s with drainer := .offering (.drain drain) }
      else none
    | _ => none
  | .enqueueDrain view =>
    match s.drainer with
    | .offering payload =>
      (s.enqueueControl p view payload).map fun (s, e) ↦
        { s with drainer := if e.isSome then .refused else .idle }
    | _ => none
  | .fail reason =>
    if s.failing.isNone && s.canFail p reason then
      some { s with
        isClosed := true
        isReady := false
        failing := some (s.requests.entries.map Sigma.snd, reason.requestErr) }
    else none
  | .failComplete =>
    match s.failing with
    | some (r :: rest, err) =>
      (s.act p r (.fail err)).map fun s ↦ { s with failing := some (rest, err) }
    | _ => none
  | .failCancel =>
    match s.failing with
    | some ([], _) => some { s with ctxErr := some (s.ctxErr.getD .canceled) }
    | _ => none
  | .streamDone err => some { s with ctxErr := some (s.ctxErr.getD err) }

end Session

end MarketMesh.GatewayIn
