import MarketMesh.GatewayOut.Request
import Mathlib.Data.List.AList

/-!
# A session of gateway-out

One tunnel as gateway-out runs it: the table of active requests and the ring of terminal ones, the
three send queues, and the goroutines that work on them.

* The receive loop takes a frame and works on it in one or more critical sections (`Receiver`).
* The goroutines of a request take the moves of `Conv.step`; leaving the table (`release`) is the
  one that also changes the session.
* The send loop first polls the control queue and then waits on all three and on the session's
  context (`Sender`).
* A drain may run twice at once: for a local shutdown or reconnect, and for a Drain of the peer.
* `run` cancels the session when one of the loops ends, and aborts what is still active.

Not modelled are the keepalive timers, which may end the session at any time, and the wake-up
channel of `drain`, which may look at the table at any time.

An entry of a table points to the conversation by its position in `convs`.  A refused Open has a
conversation too: the source keeps no record for it, and it only carries its history.  `accepted`,
`sent` and `received` are history: all frames that entered a queue, that were sent, and that were
received, each in order.
-/

set_option autoImplicit false

namespace MarketMesh.GatewayOut

open Protocol

/-- The position of a conversation of the session. -/
abbrev Ref := Nat

/-- `terminalRequest`; `ref` is the conversation it belongs to, and no part of the source. -/
structure TerminalRequest where
  trafficClass : TrafficClass
  incomingSequence : Nat
  sendCredit : Nat := 0
  maximumCredit : Nat
  canceled : Bool := false
  ref : Ref
  deriving DecidableEq, Repr

/-- Where the receive loop stands. -/
inductive Receiver where
  /-- In `stream.Recv`. -/
  | idle
  /-- `rejectOpen` is next. -/
  | rejecting (frame : ConnectResponse) (code : ResultCode)
  /-- The refusal is queued; the terminal entry is next. -/
  | rejected (frame : ConnectResponse) (k : Ref)
  /-- `reserve` is next. -/
  | reserving (frame : ConnectResponse) (route : RouteSpec)
  /-- The request is in the table; its first Credit is next. -/
  | reserved (k : Ref)
  | openNumbered (k : Ref) (frame : ConnectRequest)
  /-- The first Credit was refused; `abortRequest` is next. -/
  | openRefused (k : Ref)
  /-- `requestForFrame` returned; the rest of `handleData` is next. -/
  | data (k : Ref) (frame : ConnectResponse)
  | halfClose (k : Ref) (frame : ConnectResponse)
  /-- A Cancel is applied; `request.cancel` is next. -/
  | canceling (k : Ref)
  /-- `completeRequest` of a canceled request is next. -/
  | completing (k : Ref)
  /-- The receive loop itself runs `completeRequest` or `abortRequest`. -/
  | awaiting (k : Ref)
  /-- `updateRequestForFrame` returned an error; `handleTerminalFrame` is next. -/
  | late (frame : ConnectResponse)
  /-- A Ping is to be answered. -/
  | pong (nonce : Nat)
  /-- `handleFrame` returned `err`; `hand` is the frame, unless it was applied before. -/
  | stopped (hand : Option ConnectResponse) (err : Err)
  deriving DecidableEq, Repr

/-- Where the send loop stands.  `stopped` keeps the frames of the batch whose `Send` failed. -/
inductive Sender where
  | polling
  | selecting
  | sending (frames : List ConnectRequest) (signal : Bool)
  | stopped (lost : List ConnectRequest)
  deriving DecidableEq, Repr

/-- Who called `drain`. -/
inductive Drainer where
  | localShutdown
  | peer
  deriving DecidableEq, Repr

/-- Where a call of `drain` stands. -/
inductive DrainPc where
  | none
  /-- `draining` is set. -/
  | started
  /-- This call sends the Drain frame. -/
  | offering
  | awaitingSent
  /-- `drain` counts the active requests. -/
  | polling
  | waiting
  /-- The deadline passed; `abortAll` runs. -/
  | aborting
  /-- `drain` returned; `zero` tells that it did so because no request was active. -/
  | returned (zero : Bool)
  /-- The caller canceled the session. -/
  | canceled (zero : Bool)
  deriving DecidableEq, Repr

structure Session where
  /-- `session.ctx` is done. -/
  isDone : Bool := false
  draining : Bool := false
  drainSent : Bool := false
  /-- The Drain frame went out. -/
  drainDelivered : Bool := false
  /-- One of the three loops returned. -/
  loopEnded : Bool := false
  /-- Some call of `abortAll` has begun. -/
  aborting : Bool := false
  requests : AList fun _ : OpaqueID ↦ Ref := ∅
  terminal : AList fun _ : OpaqueID ↦ TerminalRequest := ∅
  terminalOrder : List OpaqueID := []
  terminalNext : Nat := 0
  activeByClass : TrafficClass → Nat := fun _ ↦ 0
  queues : Queue → List Queued := fun _ ↦ []
  nonce : Nat := 0
  receiver : Receiver := .idle
  sender : Sender := .polling
  drains : Drainer → DrainPc := fun _ ↦ .none
  convs : List Conv := []
  accepted : List ConnectRequest := []
  sent : List ConnectRequest := []
  received : List ConnectResponse := []

/-- One atomic step of some goroutine of the session. -/
inductive Action where
  | recv (frame : ConnectResponse) (now : Time)
  | recvError
  | enqueueReject (choice : Select)
  | addTerminal
  | reserve
  | numberOpen
  | enqueueOpen (choice : Select)
  | abortOpen
  | data (choice : Select)
  | halfClose
  | cancelContext
  | claimCancel
  | awaited
  | late
  | pong (choice : Select)
  | worker (k : Ref) (move : Move)
  | cancelSession (k : Ref)
  | release (k : Ref)
  | abort (k : Ref)
  | poll
  | take (q : Queue)
  | senderDone
  | send
  | sendFail
  | ping (choice : Select)
  | keepaliveTimeout
  | runCancel
  | drainStart
  | drainClaim (d : Drainer)
  | drainEnqueue (d : Drainer) (deadline : Time) (choice : Select)
  | drainDelivered (d : Drainer)
  | drainFail (d : Drainer)
  | drainPoll (d : Drainer)
  | drainWake (d : Drainer)
  | drainExpire (d : Drainer)
  | drainAborted (d : Drainer)
  | drainCancel (d : Drainer)

/-- The moves the goroutines of a request make on their own. -/
def Move.isWorker : Move → Bool
  | .execute _ | .claimExecutor | .watcherDone | .watcherExpired | .claimWatcher
  | .consumeSendCredit | .creditWoken | .creditContext | .numberData | .enqueueData _
  | .sendError | .enqueueBatch _ | .cleanup => true
  | _ => false

namespace Session

/-- There is room in a queue. -/
def room (p : Params) (s : Session) (q : Queue) : Bool := (s.queues q).length < p.depth q

/-- Put a batch into a queue. -/
def push (s : Session) (q : Queue) (sent : Bool) : List ConnectRequest → Session
  | [] => s
  | frame :: following =>
    { s with
      queues := Function.update s.queues q (s.queues q ++ [⟨frame, following, sent⟩])
      accepted := s.accepted ++ frame :: following }

/-- One move on the conversation `k`, with the error it returns. -/
def act (p : Params) (s : Session) (k : Ref) (move : Move) : Option (Session × Option Err) := do
  let x ← s.convs[k]?
  let q := queue x.request.route.trafficClass
  let (x', frames, err) ← x.step p ⟨s.isDone, s.room p q⟩ move
  some ({ s.push q false frames with convs := s.convs.set k x' }, err)

/-- `enqueue` of a frame that belongs to no conversation, on the session's context. -/
def offer (p : Params) (s : Session) (q : Queue) (choice : Select) (ctxErr : Option ContextError)
    (sent : Bool) (frames : List ConnectRequest) : Option (Session × Option Err) :=
  match enqueue p choice ctxErr s.isDone (s.room p q) frames with
  | none => none
  | some none => some (s.push q sent frames, none)
  | some (some e) => some (s, some e)

/-- A frame of the tunnel itself. -/
def tunnelFrame (p : Params) (payload : RequestPayload) : ConnectRequest where
  header := { protocolVersion := protocolVersion, tunnelId := p.tunnelID }
  payload := payload

/-! ## The tables -/

def addTerminalLocked (p : Params) (s : Session) (key : OpaqueID) (terminal : TerminalRequest) :
    Session :=
  let capacity := p.limits.maxInFlightRequests
  if (s.terminal.lookup key).isSome then { s with terminal := s.terminal.insert key terminal }
  else if s.terminalOrder.length < capacity then
    { s with
      terminalOrder := s.terminalOrder ++ [key]
      terminal := s.terminal.insert key terminal }
  else
    match s.terminalOrder[s.terminalNext]? with
    | some oldest =>
      { s with
        terminalOrder := s.terminalOrder.set s.terminalNext key
        terminal := (s.terminal.erase oldest).insert key terminal
        terminalNext := (s.terminalNext + 1) % capacity }
    | none => s

/-- `reserve`, for a request of the given key and class. -/
def canReserve (p : Params) (s : Session) (key : OpaqueID) (trafficClass : TrafficClass) : Bool :=
  !s.draining && (s.requests.lookup key).isNone && (s.terminal.lookup key).isNone &&
  decide (s.requests.entries.length < p.limits.maxInFlightRequests) &&
  decide (s.activeByClass trafficClass < (p.classLimits trafficClass).maxInFlight)

/-- The terminal entry `release` leaves behind. -/
def terminalOf (p : Params) (k : Ref) (r : RequestState) : TerminalRequest where
  trafficClass := r.route.trafficClass
  incomingSequence := r.incomingSequence
  sendCredit := r.sendCredit
  maximumCredit := r.maximumResponse p
  canceled := r.peerCanceled
  ref := k

/-- The table part of `release`. -/
def releaseEntry (p : Params) (s : Session) (k : Ref) (r : RequestState) : Session :=
  if s.requests.lookup r.key = some k then
    let s := s.addTerminalLocked p r.key (terminalOf p k r)
    { s with
      requests := s.requests.erase r.key
      activeByClass := Function.update s.activeByClass r.route.trafficClass
        (s.activeByClass r.route.trafficClass - 1) }
  else s

def release (p : Params) (s : Session) (k : Ref) : Option Session := do
  let x ← s.convs[k]?
  let (s, _) ← (s.releaseEntry p k x.request).act p k .released
  some s

/-! ## The receive loop -/

/-- The checks `handleFrame` makes before it looks at the kind of the frame. -/
def admitsInbound (p : Params) (frame : ConnectResponse) : Bool :=
  decide frame.Valid && responseWithinLimits p.limits frame &&
  decide (frame.header.tunnelId = p.tunnelID)

def stop (s : Session) (frame : ConnectResponse) (err : Err) : Session :=
  { s with receiver := .stopped (some frame) err, loopEnded := true }

/-- `handleOpen` up to `reserve`. -/
def handleOpen (p : Params) (s : Session) (frame : ConnectResponse) (request : Open) (now : Time) :
    Session :=
  let header := frame.header
  if header.sequence ≠ 1 then s.stop frame .protocol
  else if s.draining then { s with receiver := .rejecting frame .unavailable }
  else
    match p.registry.lookup request.routeId with
    | none => { s with receiver := .rejecting frame .permissionDenied }
    | some route =>
      let deadline := (request.deadline.map Timestamp.asTime).getD 0
      if route.id ∉ p.routes then { s with receiver := .rejecting frame .permissionDenied }
      else if route.trafficClass ∉ p.classes ∨ header.trafficClass ≠ route.trafficClass then
        s.stop frame .protocol
      else if deadline ≤ now then { s with receiver := .rejecting frame .deadlineExceeded }
      else if now + route.maxDeadline < deadline then
        { s with receiver := .rejecting frame .invalidArgument }
      else if route.requireIdempotencyKey ∧ request.idempotencyKey = [] then
        { s with receiver := .rejecting frame .invalidArgument }
      else { s with receiver := .reserving frame route }

/-- `handleData` and `handleHalfClose` up to the end of `requestForFrame`. -/
def handleBody (p : Params) (s : Session) (frame : ConnectResponse) (next : Ref → Receiver) :
    Option Session :=
  match s.requests.lookup (OpaqueID.copy frame.header.requestId) with
  | none => some (s.stop frame .protocol)
  | some k =>
    match s.act p k (.requestForFrame frame) with
    | none => none
    | some (s, none) => some { s with receiver := next k }
    | some (s, some e) => some (s.stop frame e)

/-- `handleCredit` and `handleCancel` up to the end of `updateRequestForFrame`. -/
def handleUpdate (p : Params) (s : Session) (frame : ConnectResponse) (move : Move)
    (next : Ref → Receiver) : Option Session :=
  match s.requests.lookup (OpaqueID.copy frame.header.requestId) with
  | none => some { s with receiver := .late frame }
  | some k =>
    match s.act p k move with
    | none => none
    | some (s, none) => some { s with receiver := next k }
    | some (s, some _) => some { s with receiver := .late frame }

/-- `handlePeerDrain`. -/
def handlePeerDrain (s : Session) : Session :=
  if s.draining then s
  else { s with draining := true, drains := Function.update s.drains .peer .started }

/-- `handleFrame`, up to the end of its first critical section. -/
def handleFrame (p : Params) (s : Session) (frame : ConnectResponse) (now : Time) :
    Option Session :=
  if admitsInbound p frame then
    match frame.payload with
    | .opened request => some (s.handleOpen p frame request now)
    | .data _ => s.handleBody p frame fun k ↦ .data k frame
    | .halfClose => s.handleBody p frame fun k ↦ .halfClose k frame
    | .cancel _ => s.handleUpdate p frame (.cancel frame) .canceling
    | .credit _ => s.handleUpdate p frame (.credit frame) fun _ ↦ .idle
    | .ping nonce => some { s with receiver := .pong nonce }
    | .pong _ => some s
    | .drain _ => some s.handlePeerDrain
    | .hello _ | .none => some (s.stop frame .protocol)
  else some (s.stop frame .protocol)

/-- The two frames `rejectOpen` sends. -/
def rejection (p : Params) (header : FrameHeader) (code : ResultCode) : List ConnectRequest :=
  [requestFrame p header.requestId header.trafficClass 1 .halfClose,
   requestFrame p header.requestId header.trafficClass 2 (.result { code := code })]

/-- The conversation of a refused Open. -/
def rejectedConv (p : Params) (frame : ConnectResponse) (code : ResultCode) : Conv where
  request :=
    { key := OpaqueID.copy frame.header.requestId
      requestID := frame.header.requestId
      route :=
        { id := .unspecified
          trafficClass := frame.header.trafficClass
          maxRequestBytes := 0
          maxResponseBytes := p.limits.maxMessageBytes
          maxDeadline := 0 }
      isDone := true
      terminal := true
      incomingSequence := frame.header.sequence
      outgoingSequence := 2 }
  completer := .done
  queued := rejection p frame.header code
  handled := [frame]
  refused := true

def enqueueReject (p : Params) (s : Session) (frame : ConnectResponse) (code : ResultCode)
    (choice : Select) : Option Session :=
  match s.offer p (queue frame.header.trafficClass) choice (sessionErr s.isDone) false
      (rejection p frame.header code) with
  | none => none
  | some (s, none) =>
    some { s with
      convs := s.convs ++ [rejectedConv p frame code]
      receiver := .rejected frame s.convs.length }
  | some (s, some e) => some (s.stop frame e)

/-- The terminal entry of a refused Open. -/
def addRejected (p : Params) (s : Session) (frame : ConnectResponse) (k : Ref) : Session :=
  { s.addTerminalLocked p (OpaqueID.copy frame.header.requestId)
      { trafficClass := frame.header.trafficClass
        incomingSequence := frame.header.sequence
        maximumCredit := p.limits.maxMessageBytes
        ref := k } with
    receiver := .idle }

def reserve (p : Params) (s : Session) (frame : ConnectResponse) (route : RouteSpec) : Session :=
  let key := OpaqueID.copy frame.header.requestId
  if s.canReserve p key route.trafficClass then
    { s with
      requests := s.requests.insert key s.convs.length
      activeByClass := Function.update s.activeByClass route.trafficClass
        (s.activeByClass route.trafficClass + 1)
      convs := s.convs ++ [{
        request :=
          { key := key
            requestID := frame.header.requestId
            route := route
            incomingSequence := frame.header.sequence }
        handled := [frame] }]
      receiver := .reserved s.convs.length }
  else { s with receiver := .rejecting frame .resourceExhausted }

/-- The credit `handleOpen` offers, after `numberOpen`. -/
def openCredit (p : Params) (r : RequestState) : ConnectRequest :=
  r.frame p (.credit (toUint32 (r.initialGrant p)))

/-- `handleTerminalFrame` on the entry it found. -/
def updateTerminal (frame : ConnectResponse) (terminal : TerminalRequest) :
    Option TerminalRequest :=
  if frame.header.trafficClass ≠ terminal.trafficClass ∨
      frame.header.sequence ≠ terminal.incomingSequence + 1 ∨ terminal.canceled then none
  else
    let terminal' := { terminal with incomingSequence := frame.header.sequence }
    match frame.payload with
    | .credit increment =>
      if terminal.maximumCredit < increment ∨
          terminal.maximumCredit - increment < terminal.sendCredit then none
      else some { terminal' with sendCredit := terminal.sendCredit + increment }
    | .cancel _ => some { terminal' with canceled := true }
    | _ => none

/-- `handleTerminalFrame`. -/
def handleTerminalFrame (p : Params) (s : Session) (frame : ConnectResponse) : Option Session :=
  let key := OpaqueID.copy frame.header.requestId
  match s.terminal.lookup key with
  | none => some (s.stop frame .protocol)
  | some terminal =>
    match updateTerminal frame terminal with
    | none => some (s.stop frame .protocol)
    | some terminal' =>
      (act p { s with terminal := s.terminal.insert key terminal' } terminal.ref
        (.late frame)).map fun (s, _) ↦ { s with receiver := .idle }

/-! ## Drain -/

def setDrain (s : Session) (d : Drainer) (pc : DrainPc) : Session :=
  { s with drains := Function.update s.drains d pc }

def drainFrame (p : Params) (d : Drainer) (deadline : Time) : ConnectRequest :=
  tunnelFrame p (.drain
    { deadline := some (Timestamp.new deadline)
      reason := match d with | .localShutdown => .shutdown | .peer => .maintenance })

/-! ## The session -/

def step (p : Params) (s : Session) : Action → Option Session
  | .recv frame now =>
    match s.receiver with
    | .idle => handleFrame p { s with received := s.received ++ [frame] } frame now
    | _ => none
  | .recvError =>
    match s.receiver with
    | .idle => some { s with receiver := .stopped none .sessionClosed, loopEnded := true }
    | _ => none
  | .enqueueReject choice =>
    match s.receiver with
    | .rejecting frame code => s.enqueueReject p frame code choice
    | _ => none
  | .addTerminal =>
    match s.receiver with
    | .rejected frame k => some (s.addRejected p frame k)
    | _ => none
  | .reserve =>
    match s.receiver with
    | .reserving frame route => some (s.reserve p frame route)
    | _ => none
  | .numberOpen =>
    match s.receiver with
    | .reserved k => do
      let (s, _) ← s.act p k .numberOpen
      let x ← s.convs[k]?
      some { s with receiver := .openNumbered k (openCredit p x.request) }
    | _ => none
  | .enqueueOpen choice =>
    match s.receiver with
    | .openNumbered k frame =>
      match s.act p k (.enqueueOpen frame choice) with
      | none => none
      | some (s, none) => some { s with receiver := .idle }
      | some (s, some _) => some { s with receiver := .openRefused k }
    | _ => none
  | .abortOpen =>
    match s.receiver with
    | .openRefused k => do
      let x ← s.convs[k]?
      let (s, _) ← s.act p k .claimAbort
      some { s with receiver := if x.request.terminal then .idle else .awaiting k }
    | _ => none
  | .data choice =>
    match s.receiver with
    | .data k frame => do
      let x ← s.convs[k]?
      match s.act p k (.data frame choice) with
      | none => none
      | some (s, none) => some { s with receiver := .idle }
      | some (s, some e) =>
        -- the bytes may be taken although the Credit for them was refused
        let hand := if (x.request.takeData p frame.data).isSome then none else some frame
        some { s with receiver := .stopped hand e, loopEnded := true }
    | _ => none
  | .halfClose =>
    match s.receiver with
    | .halfClose k frame =>
      match s.act p k (.halfClose frame) with
      | none => none
      | some (s, none) => some { s with receiver := .idle }
      | some (s, some e) => some (s.stop frame e)
    | _ => none
  | .cancelContext =>
    match s.receiver with
    | .canceling k =>
      (s.act p k .cancelContext).map fun (s, _) ↦ { s with receiver := .completing k }
    | _ => none
  | .claimCancel =>
    match s.receiver with
    | .completing k => do
      let x ← s.convs[k]?
      let (s, _) ← s.act p k .claimCancel
      some { s with receiver := if x.request.terminal then .idle else .awaiting k }
    | _ => none
  | .awaited =>
    match s.receiver with
    | .awaiting k => do
      let x ← s.convs[k]?
      if x.completer = .done then some { s with receiver := .idle } else none
    | _ => none
  | .late =>
    match s.receiver with
    | .late frame => s.handleTerminalFrame p frame
    | _ => none
  | .pong choice =>
    match s.receiver with
    | .pong nonce =>
      match s.offer p .control choice (sessionErr s.isDone) false
          [tunnelFrame p (.pong nonce)] with
      | none => none
      | some (s, none) => some { s with receiver := .idle }
      | some (s, some e) => some { s with receiver := .stopped none e, loopEnded := true }
    | _ => none
  | .worker k move =>
    match move with
    | .expire err =>
      -- the deadline may pass at any time; a cancellation comes from the session's context
      if err = .deadlineExceeded ∨ s.isDone then (s.act p k (.expire err)).map Prod.fst else none
    | move => if move.isWorker then (s.act p k move).map Prod.fst else none
  | .cancelSession k => (s.act p k .cancelSession).map fun (s, _) ↦ { s with isDone := true }
  | .release k => s.release p k
  | .abort k => if s.aborting then (s.act p k .claimAbort).map Prod.fst else none
  | .poll =>
    match s.sender, s.queues .control with
    | .polling, [] => some { s with sender := .selecting }
    | _, _ => none
  | .take q =>
    match s.sender, s.queues q with
    | .polling, e :: rest =>
      if q = .control then
        some { s with
          sender := .sending e.frames e.sent
          queues := Function.update s.queues q rest }
      else none
    | .selecting, e :: rest =>
      some { s with
        sender := .sending e.frames e.sent
        queues := Function.update s.queues q rest }
    | _, _ => none
  | .senderDone =>
    match s.sender with
    | .selecting =>
      if s.isDone then some { s with sender := .stopped [], loopEnded := true } else none
    | _ => none
  | .send =>
    match s.sender with
    | .sending [frame] signal =>
      some { s with
        sender := .polling
        sent := s.sent ++ [frame]
        drainDelivered := s.drainDelivered || signal }
    | .sending (frame :: rest) signal =>
      some { s with sender := .sending rest signal, sent := s.sent ++ [frame] }
    | _ => none
  | .sendFail =>
    match s.sender with
    | .sending frames _ => some { s with sender := .stopped frames, loopEnded := true }
    | _ => none
  | .ping choice =>
    match s.offer p .control choice (sessionErr s.isDone) false
        [tunnelFrame p (.ping (s.nonce + 1))] with
    | none => none
    | some (s, none) => some { s with nonce := s.nonce + 1 }
    | some (s, some _) => some { s with nonce := s.nonce + 1, loopEnded := true }
  | .keepaliveTimeout => some { s with loopEnded := true }
  | .runCancel => if s.loopEnded then some { s with isDone := true, aborting := true } else none
  | .drainStart =>
    match s.drains .localShutdown with
    | .none => some (setDrain { s with draining := true } .localShutdown .started)
    | _ => none
  | .drainClaim d =>
    match s.drains d with
    | .started =>
      if s.drainSent then some (s.setDrain d .polling)
      else some (setDrain { s with drainSent := true } d .offering)
    | _ => none
  | .drainEnqueue d deadline choice =>
    match s.drains d with
    | .offering =>
      -- the context of a drain has its own deadline, which may pass at any time
      let ctxErr := if choice = .ctxDone then some .deadlineExceeded else none
      match s.offer p .control choice ctxErr true [drainFrame p d deadline] with
      | none => none
      | some (s, none) => some (s.setDrain d .awaitingSent)
      | some (s, some _) => some (s.setDrain d (.returned false))
    | _ => none
  | .drainDelivered d =>
    match s.drains d with
    | .awaitingSent => if s.drainDelivered then some (s.setDrain d .polling) else none
    | _ => none
  | .drainFail d =>
    match s.drains d with
    | .awaitingSent => some (s.setDrain d (.returned false))
    | .waiting => if s.isDone then some (s.setDrain d (.returned false)) else none
    | _ => none
  | .drainPoll d =>
    match s.drains d with
    | .polling =>
      if s.requests.entries = [] then some (s.setDrain d (.returned true))
      else some (s.setDrain d .waiting)
    | _ => none
  | .drainWake d =>
    match s.drains d with
    | .waiting => some (s.setDrain d .polling)
    | _ => none
  | .drainExpire d =>
    match s.drains d with
    | .waiting => some (setDrain { s with aborting := true } d .aborting)
    | _ => none
  | .drainAborted d =>
    match s.drains d with
    | .aborting => some (s.setDrain d (.returned false))
    | _ => none
  | .drainCancel d =>
    match s.drains d with
    | .returned zero => some (setDrain { s with isDone := true } d (.canceled zero))
    | _ => none

end Session

end MarketMesh.GatewayOut
