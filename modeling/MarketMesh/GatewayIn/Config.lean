import MarketMesh.Protocol.Validate

/-!
# Configuration of gateway-in

`newSettings` turns a `Config` into the immutable `Settings` a tunnel server works with, or refuses
it.  Two of its checks are about things the tunnel model never looks at — the workload identities
of the peers and the telemetry instruments — and enter as the verdict of that check.
-/

set_option autoImplicit false

namespace MarketMesh.GatewayIn

open Protocol Validation

/-- The errors a logical call can end with. -/
inductive Err where
  | noTunnel
  | tunnelClosed
  | queueFull
  | draining
  | routeNotAllowed
  | protocolViolation
  /-- `*ResultError`: the finite result category sent by gateway-out. -/
  | result (code : ResultCode)
  | context (err : ContextError)
  /-- `tunnel: invalid logical call`, with the structural error it wraps. -/
  | invalidCall (cause : FrameError)
  /-- `tunnel: request id collision`. -/
  | requestIDCollision
  deriving DecidableEq, Repr

/-- The depth of each outbound lane. -/
structure QueueLimits where
  tunnelControl : Int
  controlAuth : Int
  regular : Int
  realtime : Int
  deriving DecidableEq, Repr, Inhabited

/-- The local policy of one route.  `maxDeadline` is in nanoseconds. -/
structure RoutePolicy where
  trafficClass : TrafficClass
  maxRequestBytes : Int
  maxResponseBytes : Int
  maxDeadline : Int
  maxInFlight : Int
  deriving DecidableEq, Repr, Inhabited

/-- Durations are in nanoseconds.  `peer` and `instrumentation` are the verdicts of
`newPeerAuthorizer` and `newInstrumentation` on the parts of the configuration they read. -/
structure Config where
  hasLogger : Bool
  peer : Except String Unit
  instrumentation : Except String Unit
  limits : Option Limits
  routes : List (RouteId × RoutePolicy)
  capabilities : List Capability
  queues : QueueLimits
  maxTunnels : Int
  maxTunnelsPerInstance : Int
  maxInFlightPerInstance : Int
  initialResponseCredit : Nat
  handshakeTimeout : Int
  pingInterval : Int
  pongTimeout : Int
  failbackWarmup : Int

structure Settings where
  limits : Limits
  routes : List (RouteId × RoutePolicy)
  capabilities : List Capability
  queues : QueueLimits
  maxTunnels : Int
  maxTunnelsPerInstance : Int
  maxInFlightPerInstance : Int
  initialResponseCredit : Nat
  handshakeTimeout : Int
  pingInterval : Int
  pongTimeout : Int
  failbackWarmup : Int
  staleAfter : Int
  deriving Inhabited

def second : Int := 1000000000
def defaultFailbackWarmup : Int := 30 * second
def maxFailbackWarmup : Int := 600 * second
def maxStaleAfter : Int := 300 * second

/-- What `newPeerAuthorizer` accepts at most. -/
def maxDataCenters : Nat := 16

def validateQueueLimits (limits : QueueLimits) : Except String Unit :=
  ensure (∀ value ∈ [limits.tunnelControl, limits.controlAuth, limits.regular, limits.realtime],
      2 ≤ value ∧ value ≤ Protocol.maxInFlightRequests)
    "tunnel: queue depth is outside bounds"

/-- `validateCapabilities` of the configuration; `seen` are the capabilities already met. -/
def validateCapabilities : List Capability → List Capability → Except String (List Capability)
  | seen, [] => .ok seen.reverse
  | seen, capability :: rest => do
    match capability with
    | .drain | .realtime => .ok ()
    | .sessionRevocation => .error "tunnel: session revocation is not configured"
    | _ => .error "tunnel: capability is unknown or unspecified"
    ensure (capability ∉ seen) "tunnel: capability is duplicated"
    validateCapabilities (capability :: seen) rest

/-- The text of an error about one route. -/
def routeError (route : RouteId) (message : String) : String :=
  "tunnel: route " ++ toString route.number ++ " " ++ message

def validateRoutePolicy (limits : Limits) (capabilities : List Capability) (route : RouteId)
    (policy : RoutePolicy) : Except String Unit := do
  ensure (routeTrafficClass route ≠ .unspecified) (routeError route "is unknown")
  ensure (policy.trafficClass = routeTrafficClass route)
    (routeError route "has invalid traffic class")
  ensure (0 < policy.maxRequestBytes ∧ policy.maxRequestBytes ≤ limits.maxMessageBytes)
    (routeError route "request limit is outside bounds")
  ensure (0 < policy.maxResponseBytes ∧ policy.maxResponseBytes ≤ limits.maxMessageBytes)
    (routeError route "response limit is outside bounds")
  ensure (0 < policy.maxDeadline) (routeError route "deadline is outside bounds")
  ensure (0 < policy.maxInFlight ∧ policy.maxInFlight ≤ limits.maxInFlightRequests)
    (routeError route "in-flight limit is outside bounds")
  ensure (routeTrafficClass route = .realtime → Capability.realtime ∈ capabilities)
    (routeError route "requires realtime capability")

def validateRoutePolicies (values : List (RouteId × RoutePolicy)) (limits : Limits)
    (capabilities : List Capability) : Except String Unit := do
  ensure (values.length ≠ 0 ∧ values.length ≤ maxAdvertisedRoutes)
    "tunnel: route policy count is outside bounds"
  values.forM fun entry ↦ validateRoutePolicy limits capabilities entry.1 entry.2

/-- The Hello of the local policy, with the lists in the order of the enumeration. -/
def localHello (limits : Limits) (routes : List (RouteId × RoutePolicy))
    (capabilities : List Capability) : ConnectResponse where
  header := { tunnelId := List.replicate tunnelIDBytes 0 }
  payload := .hello
    { instanceId := List.replicate instanceIDBytes 0
      selectedProtocolVersion := protocolVersion
      capabilities := capabilities
      trafficClasses := (routes.map fun entry ↦ entry.2.trafficClass).dedup
      routeIds := routes.map Prod.fst
      limits := some limits }

/-- The order of the advertised lists does not matter to any of the structural checks, so the
sorting of `validateLocalHello` is left out. -/
def validateLocalHello (limits : Limits) (routes : List (RouteId × RoutePolicy))
    (capabilities : List Capability) : Except String Unit :=
  ensure (localHello limits routes capabilities).Valid "tunnel: local protocol policy is invalid"

def newSettings (config : Config) : Except String Settings := do
  ensure (config.hasLogger = true) "tunnel: logger must not be nil"
  match config.limits with
  | none => .error "tunnel: limits must not be nil"
  | some limits =>
    ensure (0 < config.maxTunnels ∧ config.maxTunnels ≤ Protocol.maxInFlightRequests)
      "tunnel: max tunnels is outside bounds"
    ensure (0 < config.maxTunnelsPerInstance ∧ config.maxTunnelsPerInstance ≤ config.maxTunnels)
      "tunnel: max tunnels per instance is outside bounds"
    ensure (0 < config.maxInFlightPerInstance ∧
        config.maxInFlightPerInstance ≤ Protocol.maxInFlightRequests)
      "tunnel: max in-flight per instance is outside bounds"
    ensure (config.initialResponseCredit ≠ 0 ∧
        config.initialResponseCredit ≤ limits.maxCreditBytes)
      "tunnel: initial response credit is outside bounds"
    ensure (0 < config.handshakeTimeout ∧ config.handshakeTimeout ≤ 30 * second)
      "tunnel: handshake timeout is outside bounds"
    ensure (0 < config.pingInterval ∧ 0 < config.pongTimeout ∧
        config.pongTimeout < config.pingInterval)
      "tunnel: ping and pong intervals are invalid"
    let staleAfter := config.pingInterval + config.pongTimeout
    ensure (config.pingInterval < staleAfter ∧ staleAfter ≤ maxStaleAfter)
      "tunnel: stale timeout is outside bounds"
    let failbackWarmup :=
      if config.failbackWarmup = 0 then defaultFailbackWarmup else config.failbackWarmup
    ensure (0 ≤ failbackWarmup ∧ failbackWarmup ≤ maxFailbackWarmup)
      "tunnel: failback warmup is outside bounds"
    validateQueueLimits config.queues
    config.peer
    let capabilities ← validateCapabilities [] config.capabilities
    validateRoutePolicies config.routes limits capabilities
    validateLocalHello limits config.routes capabilities
    config.instrumentation
    .ok
      { limits := limits
        routes := config.routes
        capabilities := capabilities
        queues := config.queues
        maxTunnels := config.maxTunnels
        maxTunnelsPerInstance := config.maxTunnelsPerInstance
        maxInFlightPerInstance := config.maxInFlightPerInstance
        initialResponseCredit := config.initialResponseCredit
        handshakeTimeout := config.handshakeTimeout
        pingInterval := config.pingInterval
        pongTimeout := config.pongTimeout
        failbackWarmup := failbackWarmup
        staleAfter := staleAfter }

/-! ## What an accepted configuration is like -/

/-- What `newSettings` has checked about the policy it returns. -/
structure Settings.Checked (settings : Settings) : Prop where
  hello : (localHello settings.limits settings.routes settings.capabilities).Valid
  routeClass : ∀ entry ∈ settings.routes, entry.2.trafficClass = routeTrafficClass entry.1
  capacity : 0 < settings.maxTunnels ∧ 0 < settings.maxTunnelsPerInstance ∧
    0 < settings.maxInFlightPerInstance

theorem validateRoutePolicy_eq_ok {limits capabilities route policy}
    (h : validateRoutePolicy limits capabilities route policy = .ok ()) :
    policy.trafficClass = routeTrafficClass route := by
  simp only [validateRoutePolicy, ensure_bind_eq_ok] at h
  exact h.2.1

variable {settings : Settings}

theorem newSettings_eq_ok {config} (h : newSettings config = .ok settings) : settings.Checked := by
  rw [newSettings, ensure_bind_eq_ok] at h
  obtain ⟨-, h⟩ := h
  split at h
  · cases h
  · simp only [ensure_bind_eq_ok] at h
    obtain ⟨htunnels, hinstance, hflight, -, -, -, -, -, h⟩ := h
    obtain ⟨-, -, h⟩ := bind_eq_ok.mp h
    obtain ⟨-, -, h⟩ := bind_eq_ok.mp h
    obtain ⟨capabilities, -, h⟩ := bind_eq_ok.mp h
    obtain ⟨⟨⟩, hroutes, h⟩ := bind_eq_ok.mp h
    obtain ⟨⟨⟩, hhello, h⟩ := bind_eq_ok.mp h
    obtain ⟨-, -, h⟩ := bind_eq_ok.mp h
    cases h
    refine ⟨ensure_eq_ok.mp hhello, fun entry hentry ↦ ?_, htunnels.1, hinstance.1, hflight.1⟩
    rw [validateRoutePolicies, ensure_bind_eq_ok] at hroutes
    exact validateRoutePolicy_eq_ok (forM_eq_ok.mp hroutes.2 entry hentry)

/-- The checks of the lists and limits of the local policy. -/
theorem Settings.Checked.lists (h : settings.Checked) :
    Protocol.validateCapabilities settings.capabilities = .ok () ∧
      settings.capabilities.Nodup ∧
      validateTrafficClasses (settings.routes.map fun entry ↦ entry.2.trafficClass).dedup
        = .ok () ∧
      validateRoutes (settings.routes.map Prod.fst) = .ok () ∧
      (settings.routes.map Prod.fst).Nodup ∧
      validateLimits (some settings.limits) = .ok () := by
  have hhello := (ConnectResponse.valid_hello.mp h.hello).2
  rw [validateGatewayInHello_eq_ok] at hhello
  obtain ⟨-, -, hcapabilities, hclasses, hroutes, hlimits⟩ := hhello
  refine ⟨hcapabilities, ?_, hclasses, hroutes, ?_, hlimits⟩
  · rw [Protocol.validateCapabilities, ensure_bind_eq_ok] at hcapabilities
    exact (validateDistinct_eq_ok.mp hcapabilities.2).2
  · rw [validateRoutes, ensure_bind_eq_ok] at hroutes
    exact (validateDistinct_eq_ok.mp hroutes.2).2

end MarketMesh.GatewayIn
