import MarketMesh.GatewayIn.Session
import MarketMesh.GatewayOut.Session

/-!
# The handshake

gateway-out opens the stream and offers its policy in a Hello; gateway-in intersects it with its
own and answers with the result; gateway-out checks that the answer stays inside its offer.
`connect` runs the three steps and returns what the two sessions are then built with.

What the rest of the development needs of a handshake is `Negotiated`: both ends hold the same
limits and the same tunnel identifier, and agree on the routes.
-/

set_option autoImplicit false

namespace MarketMesh.Tunnel

open Protocol

/-! ## gateway-out's offer -/

def offeredCapabilities (registry : GatewayOut.Registry) : List Capability :=
  if registry.hasClass .realtime then [.drain, .realtime] else [.drain]

/-- The Hello of gateway-out. -/
def gatewayOutHello (settings : GatewayOut.Settings) (registry : GatewayOut.Registry) :
    GatewayOutHello where
  instanceId := settings.instanceID.toList
  supportedProtocolVersions := [protocolVersion]
  capabilities := offeredCapabilities registry
  trafficClasses := registry.advertisedClasses
  routeIds := registry.advertisedRoutes
  limits := some settings.limits

/-! ## gateway-in's answer -/

def minimumLimits (own peer : Limits) : Limits where
  maxFrameBytes := min own.maxFrameBytes peer.maxFrameBytes
  maxDataBytes := min own.maxDataBytes peer.maxDataBytes
  maxMessageBytes := min own.maxMessageBytes peer.maxMessageBytes
  maxInFlightRequests := min own.maxInFlightRequests peer.maxInFlightRequests
  maxMetadataEntries := min own.maxMetadataEntries peer.maxMetadataEntries
  maxMetadataValueBytes := min own.maxMetadataValueBytes peer.maxMetadataValueBytes
  maxCreditBytes := min own.maxCreditBytes peer.maxCreditBytes

structure Negotiation where
  limits : Limits
  routes : List RouteId
  classes : List TrafficClass
  capabilities : List Capability
  deriving DecidableEq, Repr

/-- The capabilities both ends have. -/
def commonCapabilities (settings : GatewayIn.Settings) (hello : GatewayOutHello) :
    List Capability :=
  settings.capabilities.filter (· ∈ hello.capabilities)

/-- The routes of gateway-in that the peer offers as well. -/
def commonRoutes (settings : GatewayIn.Settings) (hello : GatewayOutHello) :
    List (RouteId × GatewayIn.RoutePolicy) :=
  settings.routes.filter fun entry ↦
    entry.1 ∈ hello.routeIds ∧ entry.2.trafficClass ∈ hello.trafficClasses ∧
    (entry.2.trafficClass = .realtime → .realtime ∈ commonCapabilities settings hello)

/-- `negotiate`; `none` is `ErrRouteNotAllowed`.  The lists come in the order of the enumeration's
numbers, as `negotiation.hello` sends them. -/
def negotiate (settings : GatewayIn.Settings) (hello : GatewayOutHello) : Option Negotiation :=
  let routes := commonRoutes settings hello
  match hello.limits with
  | none => none
  | some peer =>
    if routes = [] then none
    else
      some
        { limits := minimumLimits settings.limits peer
          routes := (routes.map Prod.fst).insertionSort fun a b ↦ a.number ≤ b.number
          classes := ((routes.map fun entry ↦ entry.2.trafficClass).dedup).insertionSort
            fun a b ↦ a.number ≤ b.number
          capabilities := (commonCapabilities settings hello).insertionSort
            fun a b ↦ a.number ≤ b.number }

/-- The Hello of gateway-in. -/
def Negotiation.hello (n : Negotiation) (tunnelID instanceID : OpaqueID) : ConnectResponse where
  header := { tunnelId := tunnelID.toList }
  payload := .hello
    { instanceId := instanceID.toList
      selectedProtocolVersion := protocolVersion
      capabilities := n.capabilities
      trafficClasses := n.classes
      routeIds := n.routes
      limits := some n.limits }

/-! ## gateway-out's check of the answer -/

def limitsDoNotExceed (selected offered : Limits) : Bool :=
  decide (selected.maxFrameBytes ≤ offered.maxFrameBytes) &&
  decide (selected.maxDataBytes ≤ offered.maxDataBytes) &&
  decide (selected.maxMessageBytes ≤ offered.maxMessageBytes) &&
  decide (selected.maxInFlightRequests ≤ offered.maxInFlightRequests) &&
  decide (selected.maxMetadataEntries ≤ offered.maxMetadataEntries) &&
  decide (selected.maxMetadataValueBytes ≤ offered.maxMetadataValueBytes) &&
  decide (selected.maxCreditBytes ≤ offered.maxCreditBytes)

/-- Every selected route is known, of a selected class. -/
def routesAccepted (registry : GatewayOut.Registry) (classes : List TrafficClass)
    (routes : List RouteId) : Bool :=
  routes.all fun id ↦
    match registry.lookup id with
    | none => false
    | some route => decide (route.trafficClass ∈ classes)

/-- `acceptHello`; `none` is `errProtocol`. -/
def acceptHello (settings : GatewayOut.Settings) (registry : GatewayOut.Registry)
    (frame : ConnectResponse) : Option GatewayOut.Params :=
  if frame.Valid then
    match frame.payload with
    | .hello hello =>
      match hello.limits with
      | none => none
      | some limits =>
        if Capability.drain ∈ hello.capabilities ∧
            hello.capabilities.all (· ∈ offeredCapabilities registry) ∧
            hello.trafficClasses ≠ [] ∧ hello.routeIds ≠ [] ∧
            hello.trafficClasses.all registry.hasClass ∧
            routesAccepted registry hello.trafficClasses hello.routeIds ∧
            limitsDoNotExceed limits settings.limits then
          some
            { settings := settings
              registry := registry
              tunnelID := frame.header.tunnelId
              limits := limits
              routes := hello.routeIds
              classes := hello.trafficClasses }
        else none
    | _ => none
  else none

/-! ## The whole exchange -/

/-- Connect the two ends: what their sessions are built with, if no step refuses. -/
def connect (gatewayIn : GatewayIn.Settings) (gatewayOut : GatewayOut.Settings)
    (registry : GatewayOut.Registry) (tunnelID instanceID : OpaqueID) :
    Option (GatewayIn.Params × GatewayOut.Params) := do
  let first : ConnectRequest :=
    { header := {}, payload := .hello (gatewayOutHello gatewayOut registry) }
  if first.size ≤ gatewayIn.limits.maxFrameBytes ∧ first.Valid then
    let n ← negotiate gatewayIn (gatewayOutHello gatewayOut registry)
    let out ← acceptHello gatewayOut registry (n.hello tunnelID instanceID)
    some
      ({ settings := gatewayIn
         id := tunnelID
         limits := n.limits
         routes := n.routes
         capabilities := n.capabilities }, out)
  else none

/-- What a completed handshake leaves the two sessions with. -/
structure Negotiated (pin : GatewayIn.Params) (pout : GatewayOut.Params) : Prop where
  tunnelID_eq : pout.tunnelID = pin.id.toList
  limits_eq : pout.limits = pin.limits
  routes_eq : pout.routes = pin.routes
  drain_mem : Capability.drain ∈ pin.capabilities
  /-- Each negotiated route is one of gateway-out's, of a negotiated class. -/
  lookup_route : ∀ id ∈ pin.routes, ∃ route, pout.registry.lookup id = some route ∧
    route.trafficClass ∈ pout.classes

variable {registry : GatewayOut.Registry} {pout : GatewayOut.Params} {pin : GatewayIn.Params}
  {instanceID tunnelID : OpaqueID}

theorem acceptHello_eq_some {settings : GatewayOut.Settings}
    {n : Negotiation} {out : GatewayOut.Params}
    (h : acceptHello settings registry (n.hello tunnelID instanceID) = some out) :
    Capability.drain ∈ n.capabilities ∧ routesAccepted registry n.classes n.routes ∧
      out = { settings := settings, registry := registry, tunnelID := tunnelID.toList
              limits := n.limits, routes := n.routes, classes := n.classes } := by
  rw [acceptHello] at h
  split at h
  · simp only [Negotiation.hello] at h
    split at h
    · rename_i hok
      exact ⟨hok.1, hok.2.2.2.2.2.1, (Option.some_inj.mp h).symm⟩
    · cases h
  · cases h

/-- **A completed handshake leaves both ends with the same tunnel.** -/
theorem connect_negotiated {gatewayIn : GatewayIn.Settings} {gatewayOut : GatewayOut.Settings}
    (h : connect gatewayIn gatewayOut registry tunnelID instanceID = some (pin, pout)) :
    Negotiated pin pout := by
  simp only [connect] at h
  split at h
  · obtain ⟨n, hn, h⟩ := Option.bind_eq_some_iff.mp h
    obtain ⟨out, hout, h⟩ := Option.bind_eq_some_iff.mp h
    obtain ⟨hdrain, hroutes, rfl⟩ := acceptHello_eq_some hout
    cases h
    refine ⟨rfl, rfl, rfl, hdrain, fun id hid ↦ ?_⟩
    have hroute := List.all_eq_true.mp hroutes id hid
    cases hlookup : registry.lookup id with
    | none => rw [hlookup] at hroute; exact absurd hroute (by simp)
    | some route =>
      rw [hlookup] at hroute
      exact ⟨route, rfl, of_decide_eq_true hroute⟩
  · cases h

/-! ## A deployment

Two configurations, and the identifiers the handshake between them uses. -/

structure Deployment where
  gatewayIn : GatewayIn.Config
  gatewayOut : GatewayOut.Settings
  /-- The classes gateway-out has a client for. -/
  clients : List TrafficClass
  routes : List GatewayOut.RouteSpec
  tunnelID : OpaqueID
  instanceID : OpaqueID

/-- What the two sessions are built with, if both ends accept their configuration and the handshake
completes. -/
def Deployment.params (d : Deployment) : Option (GatewayIn.Params × GatewayOut.Params) := do
  let settings ← (GatewayIn.newSettings d.gatewayIn).toOption
  let () ← (GatewayOut.validateSettings d.gatewayOut).toOption
  let registry ← (GatewayOut.newRegistry d.clients d.routes).toOption
  connect settings d.gatewayOut registry d.tunnelID d.instanceID

theorem Deployment.negotiated {d : Deployment}
    (h : d.params = some (pin, pout)) : Negotiated pin pout := by
  simp only [params, Option.bind_eq_bind, Option.bind_eq_some_iff] at h
  obtain ⟨settings, -, -, -, registry, -, hconnect⟩ := h
  exact connect_negotiated hconnect

/-- An identifier for examples. -/
def sampleID (n : UInt8) : OpaqueID := List.Vector.replicate 16 n

def sampleLimits : Limits where
  maxFrameBytes := 256
  maxDataBytes := 4
  maxMessageBytes := 16
  maxInFlightRequests := 2
  maxMetadataEntries := 4
  maxMetadataValueBytes := 64
  maxCreditBytes := 16

/-- A deployment with one regular route, as small as the checks of both ends allow: lanes of two
frames at gateway-in and of one batch at gateway-out. -/
def sample (limits : Limits) (initialResponseCredit : Nat) : Deployment where
  gatewayIn :=
    { hasLogger := true
      peer := .ok ()
      instrumentation := .ok ()
      limits := some limits
      routes := [(.userGetMe,
        { trafficClass := .regular
          maxRequestBytes := limits.maxMessageBytes
          maxResponseBytes := limits.maxMessageBytes
          maxDeadline := 1000000000
          maxInFlight := limits.maxInFlightRequests })]
      capabilities := [.drain]
      queues := ⟨2, 2, 2, 2⟩
      maxTunnels := 4
      maxTunnelsPerInstance := 4
      maxInFlightPerInstance := 4
      initialResponseCredit := initialResponseCredit
      handshakeTimeout := 1000000000
      pingInterval := 2000000000
      pongTimeout := 1000000000
      failbackWarmup := 0 }
  gatewayOut :=
    { target := "gateway-in"
      hasLogger := true
      hasTelemetry := true
      instanceID := sampleID 1
      connectTimeout := 1000000000
      handshakeTimeout := 1000000000
      keepaliveTime := 1000000000
      keepaliveTimeout := 1000000000
      pingInterval := 2000000000
      pingTimeout := 1000000000
      drainTimeout := 1000000000
      limits := limits
      classLimits :=
        [(.controlAuth, ⟨4, 1, 16⟩), (.regular, ⟨4, 1, 16⟩), (.realtime, ⟨4, 1, 16⟩)]
      reconnect := .ok () }
  clients := [.regular]
  routes :=
    [{ id := .userGetMe
       trafficClass := .regular
       maxRequestBytes := limits.maxMessageBytes
       maxResponseBytes := limits.maxMessageBytes
       maxDeadline := 1000000000 }]
  tunnelID := sampleID 2
  instanceID := sampleID 1

/-- A deployment with a control route and a regular one; each end has a further route and is the
stricter one in some of the limits. -/
def mixed : Deployment :=
  let d := sample { sampleLimits with maxInFlightRequests := 3 } 16
  let policy (c : TrafficClass) : GatewayIn.RoutePolicy :=
    { trafficClass := c
      maxRequestBytes := 16
      maxResponseBytes := 16
      maxDeadline := 1000000000
      maxInFlight := 3 }
  let spec (id : RouteId) (c : TrafficClass) : GatewayOut.RouteSpec :=
    { id := id
      trafficClass := c
      maxRequestBytes := 12
      maxResponseBytes := 12
      maxDeadline := 1000000000 }
  { d with
    gatewayIn := { d.gatewayIn with
      routes := [(.userGetMe, policy .regular), (.authLogin, policy .controlAuth),
        (.fileDelete, policy .regular)] }
    gatewayOut := { d.gatewayOut with
      limits := { d.gatewayOut.limits with
        maxFrameBytes := 512
        maxDataBytes := 3
        maxMessageBytes := 12 } }
    clients := [.regular, .controlAuth]
    routes := [spec .userGetMe .regular, spec .authLogin .controlAuth,
      spec .fileGetStatus .regular] }

end MarketMesh.Tunnel
