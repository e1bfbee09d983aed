import MarketMesh.Protocol.Validate
import Mathlib.Data.List.Sort
import Mathlib.Data.List.Dedup

/-!
# Configuration and routes of gateway-out

`validateSettings` checks what a tunnel client is configured with, and `newRegistry` the static
table of routes.  A route runs one unary RPC of an internal service; `Route.invoke` is the part of
that call that is the program's own, around the outcome of the RPC.

What the tunnel never looks at enters as the verdict of its check: the TLS configuration, the
reconnect policy, and the method name and message factories of a route.
-/

set_option autoImplicit false

namespace MarketMesh.GatewayOut

open Protocol Validation

/-! ## gRPC status codes -/

/-- `codes.Code`. -/
inductive Code where
  | ok
  | canceled
  | unknown
  | invalidArgument
  | deadlineExceeded
  | notFound
  | alreadyExists
  | permissionDenied
  | resourceExhausted
  | failedPrecondition
  | aborted
  | outOfRange
  | unimplemented
  | internal
  | unavailable
  | dataLoss
  | unauthenticated
  deriving DecidableEq, Repr, Inhabited

/-- The code `safeResultCode` lets through for a failed RPC. -/
def safeResultCode : Code → Code
  | .canceled => .canceled
  | .invalidArgument => .invalidArgument
  | .deadlineExceeded => .deadlineExceeded
  | .notFound => .notFound
  | .alreadyExists => .alreadyExists
  | .permissionDenied => .permissionDenied
  | .resourceExhausted => .resourceExhausted
  | .aborted => .aborted
  | .unavailable => .unavailable
  | .unauthenticated => .unauthenticated
  | _ => .internal

def resultCode : Code → ResultCode
  | .ok => .ok
  | .invalidArgument => .invalidArgument
  | .unauthenticated => .unauthenticated
  | .permissionDenied => .permissionDenied
  | .notFound => .notFound
  | .alreadyExists | .aborted => .conflict
  | .resourceExhausted => .resourceExhausted
  | .deadlineExceeded => .deadlineExceeded
  | .canceled => .canceled
  | .unavailable => .unavailable
  | _ => .internal

@[simp] theorem resultCode_eq_ok {code} : resultCode code = .ok ↔ code = .ok := by
  cases code <;> simp [resultCode]

/-! ## Routes -/

/-- `RouteSpec`.  `isMethodValid`, `hasFactories` and `factoriesReturn` are the verdicts on the
method name and the protobuf factories; `maxDeadline` is in nanoseconds. -/
structure RouteSpec where
  id : RouteId
  trafficClass : TrafficClass
  isMethodValid : Bool := true
  hasFactories : Bool := true
  factoriesReturn : Bool := true
  maxRequestBytes : Nat
  maxResponseBytes : Nat
  maxDeadline : Int
  mutating : Bool := false
  requireIdempotencyKey : Bool := false
  deriving DecidableEq, Repr, Inhabited

/-- The errors of `NewRegistry`. -/
inductive RegistryError where
  | unboundedRouteSet
  | unknownRoute (route : RouteId)
  | invalidTrafficClass (route : RouteId)
  | requiresStreamingAdapter (route : RouteId)
  | invalidMethod (route : RouteId)
  | requiresFactories (route : RouteId)
  | factoryReturnedNil (route : RouteId)
  | invalidRequestLimit (route : RouteId)
  | invalidResponseLimit (route : RouteId)
  | deadlineNotPositive (route : RouteId)
  | idempotencyForRead (route : RouteId)
  | duplicatedRoute (route : RouteId)
  | clientRequired (trafficClass : TrafficClass)
  deriving DecidableEq, Repr

def validateRouteSpec (spec : RouteSpec) : Except RegistryError Unit := do
  ensure (routeTrafficClass spec.id ≠ .unspecified) (.unknownRoute spec.id)
  ensure (spec.trafficClass = routeTrafficClass spec.id) (.invalidTrafficClass spec.id)
  ensure (spec.trafficClass ≠ .realtime) (.requiresStreamingAdapter spec.id)
  ensure (spec.isMethodValid = true) (.invalidMethod spec.id)
  ensure (spec.hasFactories = true) (.requiresFactories spec.id)
  ensure (spec.factoriesReturn = true) (.factoryReturnedNil spec.id)
  ensure (spec.maxRequestBytes ≠ 0 ∧ spec.maxRequestBytes ≤ maxMessageBytes)
    (.invalidRequestLimit spec.id)
  ensure (spec.maxResponseBytes ≠ 0 ∧ spec.maxResponseBytes ≤ maxMessageBytes)
    (.invalidResponseLimit spec.id)
  ensure (0 < spec.maxDeadline) (.deadlineNotPositive spec.id)
  ensure (spec.requireIdempotencyKey = true → spec.mutating = true) (.idempotencyForRead spec.id)

/-- `Registry`: the routes in the order they were given. -/
structure Registry where
  routes : List RouteSpec
  deriving Repr, Inhabited

/-- The loop of `NewRegistry`; `clients` are the classes that have a client. -/
def newRegistryLoop (clients : List TrafficClass) : List RouteSpec → List RouteSpec →
    Except RegistryError Registry
  | seen, [] => .ok ⟨seen.reverse⟩
  | seen, spec :: specs => do
    validateRouteSpec spec
    ensure (spec.id ∉ seen.map RouteSpec.id) (.duplicatedRoute spec.id)
    ensure (spec.trafficClass ∈ clients) (.clientRequired spec.trafficClass)
    newRegistryLoop clients (spec :: seen) specs

def newRegistry (clients : List TrafficClass) (specs : List RouteSpec) :
    Except RegistryError Registry := do
  ensure (specs.length ≠ 0 ∧ specs.length ≤ maxAdvertisedRoutes) .unboundedRouteSet
  newRegistryLoop clients [] specs

namespace Registry

def lookup (registry : Registry) (id : RouteId) : Option RouteSpec :=
  registry.routes.find? fun route ↦ route.id = id

/-- The advertised lists come in the order of the enumeration's numbers. -/
def advertisedRoutes (registry : Registry) : List RouteId :=
  (registry.routes.map RouteSpec.id).insertionSort fun a b ↦ a.number ≤ b.number

def advertisedClasses (registry : Registry) : List TrafficClass :=
  ((registry.routes.map RouteSpec.trafficClass).dedup).insertionSort fun a b ↦
    a.number ≤ b.number

def hasClass (registry : Registry) (trafficClass : TrafficClass) : Bool :=
  trafficClass ∈ registry.routes.map RouteSpec.trafficClass

end Registry

/-- What happens outside the program while `route.invoke` runs. -/
inductive Rpc where
  | newRequestNil
  /-- The request bytes are not a message of the route. -/
  | unmarshalFailed
  | newResponseNil
  /-- `client.Invoke` returned an error with this code. -/
  | failed (code : Code)
  | marshalFailed
  /-- `client.Invoke` returned a response with these bytes. -/
  | replied (response : Bytes)
  deriving DecidableEq, Repr

/-- `route.invoke`: the response bytes and the status code. -/
def RouteSpec.invoke (route : RouteSpec) (requestBytes : Bytes) (rpc : Rpc) : Bytes × Code :=
  if route.maxRequestBytes < requestBytes.length then ([], .resourceExhausted)
  else
    match rpc with
    | .newRequestNil => ([], .internal)
    | .unmarshalFailed => ([], .invalidArgument)
    | .newResponseNil => ([], .internal)
    | .failed code => ([], safeResultCode code)
    | .marshalFailed => ([], .internal)
    | .replied response =>
      if route.maxResponseBytes < response.length then ([], .resourceExhausted)
      else (response, .ok)

/-! ## Settings -/

structure ClassLimits where
  maxInFlight : Nat
  sendQueueDepth : Int
  receiveWindowBytes : Nat
  deriving DecidableEq, Repr, Inhabited

/-- The fields of `settings` that `validateSettings` reads.  Durations are in nanoseconds, and
`reconnect` is the verdict of `validateReconnectPolicy`. -/
structure Settings where
  target : String
  hasLogger : Bool
  hasTelemetry : Bool
  instanceID : OpaqueID
  connectTimeout : Int
  handshakeTimeout : Int
  keepaliveTime : Int
  keepaliveTimeout : Int
  pingInterval : Int
  pingTimeout : Int
  drainTimeout : Int
  limits : Limits
  classLimits : List (TrafficClass × ClassLimits)
  reconnect : Except String Unit

/-- The errors of `validateSettings`; `invalid` carries the text. -/
inductive SettingsError where
  | invalid (message : String)
  | invalidLimits (cause : FrameError)
  | classRequired (trafficClass : TrafficClass)
  | classMaxInFlight (trafficClass : TrafficClass)
  | classQueueDepth (trafficClass : TrafficClass)
  | classReceiveWindow (trafficClass : TrafficClass)
  deriving DecidableEq, Repr

/-- The Hello `validateOfferedLimits` lets the protocol check. -/
def offeredHello (limits : Limits) : ConnectRequest where
  header := {}
  payload := .hello
    { instanceId := List.replicate instanceIDBytes 1
      supportedProtocolVersions := [protocolVersion]
      capabilities := []
      trafficClasses := [.controlAuth]
      routeIds := [.authLogin]
      limits := some limits }

def validateOfferedLimits (limits : Limits) : Except SettingsError Unit :=
  match validateGatewayOutFrame (offeredHello limits) with
  | .ok () => .ok ()
  | .error e => .error (.invalidLimits e)

def requiredClasses : List TrafficClass := [.controlAuth, .regular, .realtime]

def validateClassLimit (limits : List (TrafficClass × ClassLimits)) (trafficClass : TrafficClass) :
    Except SettingsError Unit :=
  match limits.lookup trafficClass with
  | none => .error (.classRequired trafficClass)
  | some value => do
    ensure (value.maxInFlight ≠ 0 ∧ value.maxInFlight ≤ maxInFlightRequests)
      (.classMaxInFlight trafficClass)
    ensure (0 < value.sendQueueDepth ∧ value.sendQueueDepth ≤ maxInFlightRequests)
      (.classQueueDepth trafficClass)
    ensure (value.receiveWindowBytes ≠ 0 ∧ value.receiveWindowBytes ≤ maxCreditBytes)
      (.classReceiveWindow trafficClass)

def validateClassLimits (limits : List (TrafficClass × ClassLimits)) :
    Except SettingsError Unit := do
  requiredClasses.forM (validateClassLimit limits)
  ensure (limits.length = requiredClasses.length)
    (.invalid "gateway-out tunnel class limits contain an unknown class")

def validateSettings (settings : Settings) : Except SettingsError Unit := do
  ensure (settings.target ≠ "") (.invalid "gateway-out tunnel target must not be empty")
  ensure (settings.hasLogger = true) (.invalid "gateway-out tunnel logger must not be nil")
  ensure (settings.hasTelemetry = true) (.invalid "gateway-out tunnel telemetry must not be nil")
  ensure (¬ settings.instanceID.toList.all (· == 0))
    (.invalid "gateway-out tunnel instance ID must not be zero")
  ensure (0 < settings.connectTimeout ∧ 0 < settings.handshakeTimeout)
    (.invalid "gateway-out tunnel connect and handshake timeouts must be positive")
  ensure (0 < settings.keepaliveTime ∧ 0 < settings.keepaliveTimeout)
    (.invalid "gateway-out tunnel transport keepalive values must be positive")
  ensure (0 < settings.pingInterval ∧ 0 < settings.pingTimeout)
    (.invalid "gateway-out tunnel application keepalive values must be positive")
  ensure (settings.pingTimeout < settings.pingInterval)
    (.invalid "gateway-out tunnel ping timeout must be less than ping interval")
  ensure (0 < settings.drainTimeout)
    (.invalid "gateway-out tunnel drain timeout must be positive")
  match settings.reconnect with
  | .error message => .error (.invalid message)
  | .ok () =>
    validateOfferedLimits settings.limits
    validateClassLimits settings.classLimits

/-! ## What accepted settings and routes are like -/

theorem validateRouteSpec_eq_ok {spec} (h : validateRouteSpec spec = .ok ()) :
    spec.trafficClass = routeTrafficClass spec.id := by
  simp only [validateRouteSpec, ensure_bind_eq_ok] at h
  exact h.2.1

variable {clients : List TrafficClass} {specs : List RouteSpec} {registry : Registry}
  {route : RouteSpec}

/-- The loop keeps what it has seen and adds only routes that pass their check. -/
theorem newRegistryLoop_eq_ok {seen} (h : newRegistryLoop clients seen specs = .ok registry)
    (hroute : route ∈ registry.routes) : route ∈ seen ∨ validateRouteSpec route = .ok () := by
  induction specs generalizing seen with
  | nil => cases h; exact .inl (List.mem_reverse.mp hroute)
  | cons spec specs ih =>
    obtain ⟨⟨⟩, hspec, h⟩ := bind_eq_ok.mp h
    simp only [ensure_bind_eq_ok] at h
    obtain ⟨-, -, h⟩ := h
    rcases ih h with hseen | hvalid
    · rcases List.mem_cons.mp hseen with rfl | hseen
      · exact .inr hspec
      · exact .inl hseen
    · exact .inr hvalid

theorem newRegistry_eq_ok (h : newRegistry clients specs = .ok registry)
    (hroute : route ∈ registry.routes) :
    route.trafficClass = routeTrafficClass route.id := by
  rw [newRegistry, ensure_bind_eq_ok] at h
  rcases newRegistryLoop_eq_ok h.2 hroute with hnil | hvalid
  · cases hnil
  · exact validateRouteSpec_eq_ok hvalid

theorem validateSettings_eq_ok {settings} (h : validateSettings settings = .ok ()) :
    validateLimits (some settings.limits) = .ok () := by
  simp only [validateSettings, ensure_bind_eq_ok] at h
  obtain ⟨-, -, -, -, -, -, -, -, -, h⟩ := h
  split at h
  · cases h
  · obtain ⟨-, h, -⟩ := bind_eq_ok.mp h
    rw [validateOfferedLimits] at h
    split at h
    · rename_i hoffered
      simp only [validateGatewayOutFrame, offeredHello, validateGatewayOutHello,
        bind_eq_ok] at hoffered
      obtain ⟨-, -, -, -, -, -, -, -, -, -, -, -, hlimits⟩ := hoffered
      exact hlimits
    · cases h

namespace Registry

variable {registry : Registry} {id : RouteId} {route : RouteSpec}

theorem lookup_eq_some
    (h : registry.lookup id = some route) : route ∈ registry.routes ∧ route.id = id :=
  have hid := List.find?_some h
  ⟨List.mem_of_find?_eq_some h, of_decide_eq_true hid⟩

theorem mem_advertisedRoutes :
    id ∈ registry.advertisedRoutes ↔ ∃ route, registry.lookup id = some route := by
  rw [advertisedRoutes, List.mem_insertionSort, List.mem_map, lookup, ← Option.isSome_iff_exists,
    List.find?_isSome]
  simp

theorem mem_advertisedClasses {trafficClass} :
    trafficClass ∈ registry.advertisedClasses ↔ registry.hasClass trafficClass = true := by
  rw [advertisedClasses, List.mem_insertionSort, List.mem_dedup, hasClass, decide_eq_true_iff]

theorem hasClass_of_lookup
    (h : registry.lookup id = some route) : registry.hasClass route.trafficClass = true :=
  decide_eq_true (List.mem_map_of_mem (lookup_eq_some h).1)

end Registry

end MarketMesh.GatewayOut
