import MarketMesh.GatewayIn.Session
import Mathlib.Data.List.Dedup
import Mathlib.Data.List.Rotate
import Mathlib.Data.List.Sort

/-!
# The registry of gateway-in

`Registry.Invoke` is the entrance of gateway-in: it turns what its caller passes into a logical
request, and looks for a tunnel that takes it.

* `Registry` is the record behind `Registry.mu`: the registered sessions, the counters of tunnels
  and of active requests of each gateway-out instance, and the state of the selection.  Each of its
  critical sections is a function on the record.
* `selectionOrder` is the order in which a call tries the sessions.

The sessions themselves are in a list of `ActiveSession`, and the registry points to them by their
position; a session stays in the list after it has left the registry.  Whether a session has been
silent for too long is a question to the clock, so the functions that ask it are given the sessions
the clock finds stale.
-/

set_option autoImplicit false

namespace MarketMesh.GatewayIn

open Protocol

/-! ## The call -/

/-- A digit of `%x`. -/
def hexDigit (n : UInt8) : UInt8 := if n < 10 then 48 + n else 87 + n

/-- The lower-case hexadecimal form of some bytes. -/
def hexEncode (b : Bytes) : Bytes := b.flatMap fun c ↦ [hexDigit (c / 16), hexDigit (c % 16)]

/-- A valid `trace.SpanContext`; `traceState` is the text of its state. -/
structure SpanContext where
  traceID : Bytes
  spanID : Bytes
  traceFlags : UInt8
  traceState : Bytes := []
  deriving DecidableEq, Repr

/-- `00-<trace>-<span>-<flags>`. -/
def SpanContext.traceparent (span : SpanContext) : Bytes :=
  [48, 48, 45] ++ hexEncode span.traceID ++ [45] ++ hexEncode span.spanID ++ [45] ++
    hexEncode [span.traceFlags]

/-- The keys `metadataWithTrace` sets itself. -/
def MetadataKey.isOwn : MetadataKey → Bool
  | .contentType | .traceparent | .tracestate => true
  | _ => false

/-- `metadataWithTrace`; `span` is the span context of the caller, if it is valid. -/
def metadataWithTrace (span : Option SpanContext) (values : List (Option Metadata)) :
    List (Option Metadata) :=
  (values.filter fun value ↦ !(value.any fun metadata ↦ MetadataKey.isOwn metadata.key)) ++
  [some ⟨.contentType, protobufContentType⟩] ++
  match span with
  | none => []
  | some span =>
    some ⟨.traceparent, span.traceparent⟩ ::
      if span.traceState = [] then [] else [some ⟨.tracestate, span.traceState⟩]

/-- `validateCall`: whether it returns nil. -/
def validateCall (call : Call) (policy : RoutePolicy) (deadline : Time) : Bool :=
  decide (ConnectResponse.Valid
    { header :=
        { protocolVersion := protocolVersion
          tunnelId := List.replicate 16 0
          requestId := List.replicate 16 0
          sequence := 1
          trafficClass := policy.trafficClass }
      payload := .opened
        { routeId := call.route
          deadline := some (Timestamp.new deadline)
          idempotencyKey := call.idempotencyKey
          metadata := call.metadata } })

/-- `contextWithRouteDeadline`: the deadline of the call. -/
def contextWithRouteDeadline (now : Time) (callerDeadline : Option Time)
    (ctxErr : Option ContextError) (maximum : Int) : Except Err Time :=
  let deadline := match callerDeadline with
    | some t => if t < now + maximum then t else now + maximum
    | none => now + maximum
  match ctxErr with
  | some e => .error (.context e)
  | none => if deadline ≤ now then .error (.context .deadlineExceeded) else .ok deadline

/-- The checks of `Invoke` before it looks for a tunnel: the call with its metadata, the policy of
its route and its deadline. -/
def admitCall (settings : Settings) (call : Call) (span : Option SpanContext) (now : Time)
    (callerDeadline : Option Time) (ctxErr : Option ContextError) :
    Except Err (Call × RoutePolicy × Time) :=
  match settings.routes.lookup call.route with
  | none => .error .routeNotAllowed
  | some policy =>
    if policy.maxRequestBytes < (call.payload.length : Int) then
      .error (.result .resourceExhausted)
    else
      match contextWithRouteDeadline now callerDeadline ctxErr policy.maxDeadline with
      | .error e => .error e
      | .ok deadline =>
        let call := { call with metadata := metadataWithTrace span call.metadata }
        match validateGatewayInFrame
            { header :=
                { protocolVersion := protocolVersion
                  tunnelId := List.replicate 16 0
                  requestId := List.replicate 16 0
                  sequence := 1
                  trafficClass := policy.trafficClass }
              payload := .opened
                { routeId := call.route
                  deadline := some (Timestamp.new deadline)
                  idempotencyKey := call.idempotencyKey
                  metadata := call.metadata } } with
        | .error e => .error (.invalidCall e)
        | .ok () => .ok (call, policy, deadline)

/-! ## The registered sessions -/

/-- The position of a session among all the server has accepted. -/
abbrev SessionRef := Nat

/-- A session with what the registry knows about it.  `isRunning` is set by `session.run` and
`isStale` by `accepts`; together with the flag of the session they make up its `isReady`.  `run`
also sets the source's flag when `fail` has cleared it before, but `isClosed` stays then, and every
reader of the flag asks for both. -/
structure ActiveSession where
  params : Params
  instanceID : OpaqueID
  dataCenter : String
  isRunning : Bool := false
  isStale : Bool := false
  session : Session := {}

namespace ActiveSession

def isReady (t : ActiveSession) : Bool := t.isRunning && !t.isStale && t.session.isReady

/-- `isReady && !isDraining && !isClosed`. -/
def serves (t : ActiveSession) : Bool := t.isReady && !t.session.isDraining && !t.session.isClosed

/-- `startRequest`, with the readiness of the session as it is. -/
def startRequest (t : ActiveSession) (call : Call) (policy : RoutePolicy) (deadline : Time)
    (draws : List OpaqueID) : Except Err Session :=
  { t.session with isReady := t.isReady }.startRequest t.params call policy deadline draws

end ActiveSession

structure SelectionKey where
  route : RouteId
  dataCenter : String
  deriving DecidableEq, Repr

structure SelectionState where
  readySince : Time := 0
  currentWeight : Int := 0
  nextSession : Nat := 0
  isReady : Bool := false
  deriving DecidableEq, Repr

/-- The maps of counters are read with zero for a missing key, and an entry is deleted when its
counter is zero, so a counter is a function. -/
structure Registry where
  sessions : AList fun _ : OpaqueID ↦ SessionRef := ∅
  instanceTunnels : OpaqueID → Int := fun _ ↦ 0
  instanceActive : OpaqueID → Int := fun _ ↦ 0
  selection : SelectionKey → Option SelectionState := fun _ ↦ none
  handshakes : Int := 0
  isDraining : Bool := false

/-- `isReadyForRoute`. -/
def isReadyForRoute (all : List ActiveSession) (stale : List SessionRef) (route : RouteId)
    (k : SessionRef) : Bool :=
  (all[k]?).any fun t ↦ t.serves && decide (route ∈ t.params.routes) && decide (k ∉ stale)

def dataCenterOf (all : List ActiveSession) (k : SessionRef) : String :=
  ((all[k]?).map ActiveSession.dataCenter).getD ""

/-- The identifier of a session, as `bytes.Compare` sees it. -/
def sessionID (all : List ActiveSession) (k : SessionRef) : Bytes :=
  ((all[k]?).map fun t ↦ t.params.id.toList).getD []

/-- `slices.SortFunc` by the identifier. -/
def sortByID (all : List ActiveSession) (sessions : List SessionRef) : List SessionRef :=
  sessions.insertionSort fun a b ↦ sessionID all a ≤ sessionID all b

/-- The result of `reserveInstance`. -/
inductive Reservation where
  | accepted
  | draining
  | saturated
  deriving DecidableEq, Repr

def failbackWeight (elapsed warmup : Int) : Int :=
  if warmup ≤ 0 ∨ warmup ≤ elapsed then 1000
  else if elapsed ≤ 0 then 100
  else 100 + elapsed * (1000 - 100) / warmup

namespace Registry

variable (settings : Settings) (r : Registry) (all : List ActiveSession) (stale : List SessionRef)

/-! ### Admission of tunnels -/

/-- `beginHandshake`; `none` is a refusal. -/
def beginHandshake : Option Registry :=
  if r.isDraining || decide (settings.maxTunnels ≤ r.sessions.entries.length + r.handshakes) then
    none
  else some { r with handshakes := r.handshakes + 1 }

def releaseHandshake : Registry :=
  if 0 < r.handshakes then { r with handshakes := r.handshakes - 1 } else r

/-- `registerFromHandshake` of the session `k`: the registry, and the error. -/
def registerFromHandshake (k : SessionRef) (id instanceID : OpaqueID) : Registry × Option Err :=
  if r.handshakes = 0 then (r, some .protocolViolation)
  else
    let r := { r with handshakes := r.handshakes - 1 }
    if r.isDraining then (r, some .draining)
    else if settings.maxTunnels ≤ r.sessions.entries.length + r.handshakes then
      (r, some .queueFull)
    else if settings.maxTunnelsPerInstance ≤ r.instanceTunnels instanceID then (r, some .queueFull)
    else if (r.sessions.lookup id).isSome then (r, some .protocolViolation)
    else
      ({ r with
        sessions := r.sessions.insert id k
        instanceTunnels := Function.update r.instanceTunnels instanceID
          (r.instanceTunnels instanceID + 1) }, none)

/-- The registered sessions of a data center. -/
def peers (dataCenter : String) : List SessionRef :=
  (r.sessions.entries.map Sigma.snd).filter fun k ↦
    (all[k]?).any fun t ↦ t.dataCenter = dataCenter

def resetDataCenterIfUnavailableLocked (dataCenter : String) : Registry :=
  { r with
    selection := fun key ↦ (r.selection key).map fun state ↦
      if key.dataCenter = dataCenter ∧
          (r.peers all dataCenter).any (isReadyForRoute all stale key.route) = false then
        { state with isReady := false, currentWeight := 0 }
      else state }

def unregister (k : SessionRef) (t : ActiveSession) : Registry :=
  if r.sessions.lookup t.params.id = some k then
    { r with
      sessions := r.sessions.erase t.params.id
      instanceTunnels := Function.update r.instanceTunnels t.instanceID
        (r.instanceTunnels t.instanceID - 1) }
    |>.resetDataCenterIfUnavailableLocked all stale t.dataCenter
  else r

def markSessionReady (k : SessionRef) (t : ActiveSession) (now : Time) : Registry :=
  { r with
    selection := fun key ↦
      if key.dataCenter = t.dataCenter ∧ key.route ∈ t.params.routes then
        let state := (r.selection key).getD {}
        let hadReadyPeer := (r.peers all t.dataCenter).any fun j ↦
          decide (j ≠ k) && isReadyForRoute all stale key.route j
        if !state.isReady || !hadReadyPeer then
          some { state with readySince := now, currentWeight := 0, isReady := true }
        else some { state with isReady := true }
      else r.selection key }

/-! ### Slots of an instance -/

def reserveInstance (instanceID : OpaqueID) : Registry × Reservation :=
  if r.isDraining then (r, .draining)
  else if settings.maxInFlightPerInstance ≤ r.instanceActive instanceID then (r, .saturated)
  else
    ({ r with
      instanceActive := Function.update r.instanceActive instanceID
        (r.instanceActive instanceID + 1) }, .accepted)

def releaseInstance (instanceID : OpaqueID) : Registry :=
  if 0 < r.instanceActive instanceID then
    { r with
      instanceActive := Function.update r.instanceActive instanceID
        (r.instanceActive instanceID - 1) }
  else r

/-! ### The order of selection -/

/-- `accepts` of the registered sessions: those that take requests of the route. -/
def eligibleSessions (route : RouteId) : List SessionRef :=
  (r.sessions.entries.map Sigma.snd).filter (isReadyForRoute all stale route)

def sortedDataCenters (eligible : List SessionRef) : List String :=
  (eligible.map (dataCenterOf all)).dedup.insertionSort (· ≤ ·)

def resetUnavailableDataCentersLocked (route : RouteId) (dataCenters : List String) : Registry :=
  { r with
    selection := fun key ↦ (r.selection key).map fun state ↦
      if key.route = route ∧ key.dataCenter ∉ dataCenters then
        { state with isReady := false, currentWeight := 0 }
      else state }

/-- The loop of `selectDataCenterLocked`: `total` is the weight met so far and `best` the data
center selected so far with its weight. -/
def selectDataCenterLoop (route : RouteId) (now : Time) :
    Registry → Int → Option (String × Int) → List String →
      Registry × Int × Option (String × Int)
  | r, total, best, [] => (r, total, best)
  | r, total, best, dataCenter :: rest =>
    let key := SelectionKey.mk route dataCenter
    let state := (r.selection key).getD {}
    let state :=
      if state.isReady then state
      else { state with isReady := true, readySince := now, currentWeight := 0 }
    let weight := failbackWeight (now - state.readySince) settings.failbackWarmup
    let state := { state with currentWeight := state.currentWeight + weight }
    let best := match best with
      | some (name, w) => if w < state.currentWeight then (dataCenter, state.currentWeight)
        else (name, w)
      | none => (dataCenter, state.currentWeight)
    selectDataCenterLoop route now
      { r with selection := Function.update r.selection key (some state) } (total + weight)
      (some best) rest

/-- `selectDataCenterLocked`, for at least one data center. -/
def selectDataCenterLocked (route : RouteId) (dataCenters : List String) (now : Time) :
    Registry × String :=
  match selectDataCenterLoop settings route now r 0 none dataCenters with
  | (r, total, best) =>
    let selected := (best.map Prod.fst).getD ""
    let key := SelectionKey.mk route selected
    let state := (r.selection key).getD {}
    let weight := if dataCenters.length = 1 then 0 else state.currentWeight - total
    ({ r with
      selection := Function.update r.selection key (some { state with currentWeight := weight }) },
      selected)

/-- The weight `orderDataCentersLocked` compares by. -/
def currentWeight (route : RouteId) (dataCenter : String) : Int :=
  ((r.selection ⟨route, dataCenter⟩).map SelectionState.currentWeight).getD 0

/-- The selected data center first, then by falling weight, then by name. -/
def orderDataCentersLocked (route : RouteId) (dataCenters : List String) (selected : String) :
    List String :=
  dataCenters.insertionSort fun left right ↦
    left = selected ∨ right ≠ selected ∧
      (r.currentWeight route right < r.currentWeight route left ∨
        r.currentWeight route left = r.currentWeight route right ∧ left ≤ right)

def orderSessionsLocked (route : RouteId) (eligible : List SessionRef)
    (dataCenters : List String) : List SessionRef :=
  dataCenters.flatMap fun dataCenter ↦
    (sortByID all (eligible.filter fun k ↦ dataCenterOf all k = dataCenter)).rotate
      (((r.selection ⟨route, dataCenter⟩).map SelectionState.nextSession).getD 0)

/-- `selectionOrder`, unless the registry is draining. -/
def selectionOrder (route : RouteId) (now : Time) : Registry × List SessionRef :=
  let eligible := r.eligibleSessions all stale route
  let dataCenters := sortedDataCenters all eligible
  let r := r.resetUnavailableDataCentersLocked route dataCenters
  if dataCenters = [] then (r, [])
  else
    match r.selectDataCenterLocked settings route dataCenters now with
    | (r, selected) =>
      (r, r.orderSessionsLocked all route eligible
        (r.orderDataCentersLocked route dataCenters selected))

def commitSessionSelection (route : RouteId) (k : SessionRef) (t : ActiveSession) : Registry :=
  match r.selection ⟨route, t.dataCenter⟩ with
  | none => r
  | some state =>
    let sessions := sortByID all
      ((r.peers all t.dataCenter).filter (isReadyForRoute all stale route))
    if k ∈ sessions then
      { r with
        selection := Function.update r.selection ⟨route, t.dataCenter⟩
          (some { state with nextSession := sessions.idxOf k + 1 }) }
    else r

end Registry

end MarketMesh.GatewayIn
