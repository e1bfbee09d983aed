import MarketMesh.Tunnel.Handshake

/-!
# What the two ends agree on

gateway-in computes the agreement from its policy and the offer of the peer, and gateway-out
computes nothing: it checks the answer against its own offer.  So the handshake can only complete
if the one end's computation always passes the other end's checks.

`Agreed` says what a negotiation with an offer of gateway-out contains, as sets: the `Admissible`
routes, their classes, the common capabilities and the smaller of each two limits.  That the answer
is well formed, and that it is accepted, both follow from it; the order and the multiplicity of the
lists matter only here.

The last section compares the agreed limits with the Data frames that both ends cut.
-/

set_option autoImplicit false

namespace MarketMesh.Tunnel

open Protocol Validation

/-- The smaller of two valid sets of limits is valid: the conditions between the fields survive
taking minima. -/
theorem validateLimits_minimumLimits {own peer}
    (hown : validateLimits (some own) = .ok ()) (hpeer : validateLimits (some peer) = .ok ()) :
    validateLimits (some (minimumLimits own peer)) = .ok () := by
  rw [validateLimits_eq_ok] at hown hpeer ⊢
  simp only [minimumLimits]
  omega

theorem limitsDoNotExceed_minimumLimits (own peer : Limits) :
    limitsDoNotExceed (minimumLimits own peer) peer = true := by
  simp [limitsDoNotExceed, minimumLimits]

/-- A route the two ends can agree on: both have it configured, with one class, and a realtime one
needs the capability at both. -/
def Admissible (settings : GatewayIn.Settings) (registry : GatewayOut.Registry) (id : RouteId) :
    Prop :=
  ∃ policy route, (id, policy) ∈ settings.routes ∧ registry.lookup id = some route ∧
    policy.trafficClass = route.trafficClass ∧
    (policy.trafficClass = .realtime →
      Capability.realtime ∈ settings.capabilities ∧ registry.hasClass .realtime = true)

section

variable {config : GatewayIn.Config} {settings : GatewayIn.Settings}
  {gatewayOut : GatewayOut.Settings} {clients : List TrafficClass}
  {specs : List GatewayOut.RouteSpec} {registry : GatewayOut.Registry} {n : Negotiation}

theorem realtime_mem_offeredCapabilities :
    Capability.realtime ∈ offeredCapabilities registry ↔ registry.hasClass .realtime = true := by
  rw [offeredCapabilities]
  split <;> simp_all

/-- The routes `negotiate` keeps are the admissible ones. -/
theorem mem_commonRoutes (hin : settings.Checked)
    (hreg : ∀ route ∈ registry.routes, route.trafficClass = routeTrafficClass route.id)
    {id policy} :
    (id, policy) ∈ commonRoutes settings (gatewayOutHello gatewayOut registry) ↔
      (id, policy) ∈ settings.routes ∧ ∃ route, registry.lookup id = some route ∧
        policy.trafficClass = route.trafficClass ∧
        (policy.trafficClass = .realtime →
          Capability.realtime ∈ settings.capabilities ∧ registry.hasClass .realtime = true) := by
  have hsame {route : GatewayOut.RouteSpec} (hmem : (id, policy) ∈ settings.routes)
      (hlookup : registry.lookup id = some route) : policy.trafficClass = route.trafficClass := by
    obtain ⟨hroute, rfl⟩ := GatewayOut.Registry.lookup_eq_some hlookup
    exact (hin.routeClass _ hmem).trans (hreg route hroute).symm
  rw [commonRoutes, List.mem_filter, decide_eq_true_iff, commonCapabilities]
  simp only [gatewayOutHello, GatewayOut.Registry.mem_advertisedRoutes,
    GatewayOut.Registry.mem_advertisedClasses, List.mem_filter, decide_eq_true_iff,
    realtime_mem_offeredCapabilities]
  constructor
  · rintro ⟨hmem, ⟨route, hlookup⟩, -, hrealtime⟩
    exact ⟨hmem, route, hlookup, hsame hmem hlookup, hrealtime⟩
  · rintro ⟨hmem, route, hlookup, hclass, hrealtime⟩
    exact ⟨hmem, ⟨route, hlookup⟩, hclass ▸ GatewayOut.Registry.hasClass_of_lookup hlookup,
      hrealtime⟩

/-- `negotiate` on an offer of gateway-out. -/
theorem negotiate_gatewayOutHello :
    negotiate settings (gatewayOutHello gatewayOut registry) =
      if commonRoutes settings (gatewayOutHello gatewayOut registry) = [] then none
      else some
        { limits := minimumLimits settings.limits gatewayOut.limits
          routes := ((commonRoutes settings (gatewayOutHello gatewayOut registry)).map
            Prod.fst).insertionSort fun a b ↦ a.number ≤ b.number
          classes := (((commonRoutes settings (gatewayOutHello gatewayOut registry)).map
            fun entry ↦ entry.2.trafficClass).dedup).insertionSort fun a b ↦ a.number ≤ b.number
          capabilities := (commonCapabilities settings
            (gatewayOutHello gatewayOut registry)).insertionSort fun a b ↦ a.number ≤ b.number } :=
  rfl

/-- What is negotiated with an offer of gateway-out. -/
structure Agreed (settings : GatewayIn.Settings) (gatewayOut : GatewayOut.Settings)
    (registry : GatewayOut.Registry) (n : Negotiation) : Prop where
  limits_eq : n.limits = minimumLimits settings.limits gatewayOut.limits
  limits_valid : validateLimits (some n.limits) = .ok ()
  routes_nodup : n.routes.Nodup
  classes_nodup : n.classes.Nodup
  capabilities_nodup : n.capabilities.Nodup
  routes_ne_nil : n.routes ≠ []
  mem_routes : ∀ id, id ∈ n.routes ↔ Admissible settings registry id
  mem_classes : ∀ c, c ∈ n.classes ↔
    ∃ id ∈ n.routes, ∃ route, registry.lookup id = some route ∧ route.trafficClass = c
  mem_capabilities : ∀ c, c ∈ n.capabilities ↔
    c ∈ settings.capabilities ∧ c ∈ offeredCapabilities registry

theorem Agreed.classes_ne_nil (h : Agreed settings gatewayOut registry n) :
    n.classes ≠ [] := by
  obtain ⟨id, hid⟩ := List.exists_mem_of_ne_nil _ h.routes_ne_nil
  obtain ⟨-, route, -, hlookup, -⟩ := (h.mem_routes id).mp hid
  exact List.ne_nil_of_mem ((h.mem_classes _).mpr ⟨id, hid, route, hlookup, rfl⟩)

theorem agreed_of_negotiate (hin : settings.Checked)
    (hlimits : validateLimits (some gatewayOut.limits) = .ok ())
    (hreg : ∀ route ∈ registry.routes, route.trafficClass = routeTrafficClass route.id)
    (hn : negotiate settings (gatewayOutHello gatewayOut registry) = some n) :
    Agreed settings gatewayOut registry n := by
  obtain ⟨-, hcapabilities, -, -, hroutes, hown⟩ := hin.lists
  rw [negotiate_gatewayOutHello] at hn
  split at hn
  · cases hn
  · rename_i hne
    cases hn
    have hmem (id : RouteId) : id ∈ (commonRoutes settings
        (gatewayOutHello gatewayOut registry)).map Prod.fst ↔ Admissible settings registry id := by
      simp only [List.mem_map, Prod.exists, exists_and_right, exists_eq_right,
        mem_commonRoutes hin hreg, Admissible, exists_and_left]
    refine ⟨rfl, validateLimits_minimumLimits hown hlimits, ?_, ?_, ?_, ?_, ?_, ?_, ?_⟩
    · refine (List.perm_insertionSort _ _).nodup_iff.mpr ?_
      exact hroutes.sublist (List.filter_sublist.map _)
    · exact (List.perm_insertionSort _ _).nodup_iff.mpr (List.nodup_dedup _)
    · exact (List.perm_insertionSort _ _).nodup_iff.mpr (hcapabilities.filter _)
    · obtain ⟨entry, hentry⟩ := List.exists_mem_of_ne_nil _ hne
      exact List.ne_nil_of_mem ((List.mem_insertionSort _).mpr (List.mem_map_of_mem hentry))
    · intro id
      rw [List.mem_insertionSort, hmem]
    · intro c
      simp only [List.mem_insertionSort, List.mem_dedup, hmem]
      simp only [List.mem_map, Prod.exists, mem_commonRoutes hin hreg, Admissible]
      constructor
      · rintro ⟨id, policy, ⟨hmem, route, hlookup, hclass, hrealtime⟩, rfl⟩
        exact ⟨id, ⟨policy, route, hmem, hlookup, hclass, hrealtime⟩, route, hlookup, hclass.symm⟩
      · rintro ⟨id, ⟨policy, route, hmem, hlookup, hclass, hrealtime⟩, route', hlookup', rfl⟩
        cases hlookup.symm.trans hlookup'
        exact ⟨id, policy, ⟨hmem, route, hlookup, hclass, hrealtime⟩, hclass⟩
    · intro c
      rw [List.mem_insertionSort, commonCapabilities, List.mem_filter, decide_eq_true_iff]
      rfl

/-- The answer to an offer of gateway-out is well formed. -/
theorem Agreed.hello_valid (h : Agreed settings gatewayOut registry n)
    (hin : settings.Checked) (tunnelID instanceID : OpaqueID) :
    (n.hello tunnelID instanceID).Valid := by
  obtain ⟨hcapabilities, -, hclasses, hroutes, -, -⟩ := hin.lists
  refine ConnectResponse.valid_hello.mpr ⟨?_, ?_⟩
  · rw [validateGatewayInHelloHeader_eq_ok]
    exact ⟨⟨rfl, rfl, rfl, rfl⟩, tunnelID.toList_length⟩
  · rw [validateGatewayInHello_eq_ok]
    refine ⟨instanceID.toList_length, rfl, ?_, ?_, ?_, h.limits_valid⟩
    · exact validateCapabilities_of_subset hcapabilities h.capabilities_nodup
        fun c hc ↦ ((h.mem_capabilities c).mp hc).1
    · refine validateTrafficClasses_of_subset hclasses h.classes_ne_nil h.classes_nodup
        fun c hc ↦ ?_
      obtain ⟨id, hid, route, hlookup, rfl⟩ := (h.mem_classes c).mp hc
      obtain ⟨policy, route', hmem, hlookup', hclass, -⟩ := (h.mem_routes id).mp hid
      cases hlookup'.symm.trans hlookup
      exact List.mem_dedup.mpr (List.mem_map.mpr ⟨(id, policy), hmem, hclass⟩)
    · refine validateRoutes_of_subset hroutes h.routes_ne_nil h.routes_nodup fun id hid ↦ ?_
      obtain ⟨policy, -, hmem, -⟩ := (h.mem_routes id).mp hid
      exact List.mem_map_of_mem hmem

/-- gateway-out accepts the answer. -/
theorem Agreed.acceptHello (h : Agreed settings gatewayOut registry n)
    (hin : settings.Checked) (hdrain : Capability.drain ∈ settings.capabilities)
    (tunnelID instanceID : OpaqueID) :
    acceptHello gatewayOut registry (n.hello tunnelID instanceID) =
      some { settings := gatewayOut, registry := registry, tunnelID := tunnelID.toList
             limits := n.limits, routes := n.routes, classes := n.classes } := by
  have hoffered : Capability.drain ∈ offeredCapabilities registry := by
    rw [offeredCapabilities]
    split <;> simp
  have hhas : n.classes.all registry.hasClass = true := by
    refine List.all_eq_true.mpr fun c hc ↦ ?_
    obtain ⟨id, -, route, hlookup, rfl⟩ := (h.mem_classes c).mp hc
    exact GatewayOut.Registry.hasClass_of_lookup hlookup
  have hroutes : routesAccepted registry n.classes n.routes = true := by
    refine List.all_eq_true.mpr fun id hid ↦ ?_
    obtain ⟨-, route, -, hlookup, -⟩ := (h.mem_routes id).mp hid
    rw [hlookup]
    exact decide_eq_true ((h.mem_classes _).mpr ⟨id, hid, route, hlookup, rfl⟩)
  have hcapabilities : n.capabilities.all (· ∈ offeredCapabilities registry) = true :=
    List.all_eq_true.mpr fun c hc ↦ decide_eq_true ((h.mem_capabilities c).mp hc).2
  have hlimits : limitsDoNotExceed n.limits gatewayOut.limits = true := by
    rw [h.limits_eq]
    exact limitsDoNotExceed_minimumLimits _ _
  rw [Tunnel.acceptHello, if_pos (h.hello_valid hin tunnelID instanceID)]
  exact if_pos ⟨(h.mem_capabilities _).mpr ⟨hdrain, hoffered⟩, hcapabilities, h.classes_ne_nil,
    h.routes_ne_nil, hhas, hroutes, hlimits⟩

theorem negotiate_eq_none_iff (hin : settings.Checked)
    (hreg : ∀ route ∈ registry.routes, route.trafficClass = routeTrafficClass route.id) :
    negotiate settings (gatewayOutHello gatewayOut registry) = none ↔
      ∀ id, ¬ Admissible settings registry id := by
  rw [negotiate_gatewayOutHello, ite_eq_left_iff]
  simp only [reduceCtorEq, imp_false, not_not, List.eq_nil_iff_forall_not_mem, Prod.forall,
    mem_commonRoutes hin hreg, Admissible]
  exact ⟨fun h id ⟨policy, route, hmem, hroute⟩ ↦ h id policy ⟨hmem, route, hroute⟩,
    fun h id policy ⟨hmem, route, hroute⟩ ↦ h id ⟨policy, route, hmem, hroute⟩⟩

/-- **The handshake agrees.**  Between a gateway-in whose configuration was accepted with the drain
capability and a gateway-out whose settings and routes were accepted, the negotiation fails exactly
when no route is admissible at both ends; otherwise the answer of gateway-in is well formed,
gateway-out accepts it, and both hold the same limits, routes and classes: the admissible routes,
their classes, and the smaller of each two limits, which are valid limits themselves. -/
theorem handshake_agrees (hin : GatewayIn.newSettings config = .ok settings)
    (hdrain : Capability.drain ∈ settings.capabilities)
    (hout : GatewayOut.validateSettings gatewayOut = .ok ())
    (hreg : GatewayOut.newRegistry clients specs = .ok registry) :
    (negotiate settings (gatewayOutHello gatewayOut registry) = none ↔
      ∀ id, ¬ Admissible settings registry id) ∧
    ∀ n, negotiate settings (gatewayOutHello gatewayOut registry) = some n →
      (∀ id, id ∈ n.routes ↔ Admissible settings registry id) ∧
      (∀ c, c ∈ n.classes ↔
        ∃ id ∈ n.routes, ∃ route, registry.lookup id = some route ∧ route.trafficClass = c) ∧
      n.limits = minimumLimits settings.limits gatewayOut.limits ∧
      validateLimits (some n.limits) = .ok () ∧
      n.limits.maxDataBytes < n.limits.maxFrameBytes ∧
      n.limits.maxDataBytes ≤ n.limits.maxMessageBytes ∧
      ∀ tunnelID instanceID, (n.hello tunnelID instanceID).Valid ∧
        ∃ out, acceptHello gatewayOut registry (n.hello tunnelID instanceID) = some out ∧
          out.tunnelID = tunnelID.toList ∧ out.limits = n.limits ∧ out.routes = n.routes ∧
          out.classes = n.classes := by
  have hchecked := GatewayIn.newSettings_eq_ok hin
  have hclass : ∀ route ∈ registry.routes, route.trafficClass = routeTrafficClass route.id :=
    fun route hroute ↦ GatewayOut.newRegistry_eq_ok hreg hroute
  refine ⟨negotiate_eq_none_iff hchecked hclass, fun n hn ↦ ?_⟩
  have hagreed := agreed_of_negotiate hchecked (GatewayOut.validateSettings_eq_ok hout) hclass hn
  have hlimits := validateLimits_eq_ok.mp hagreed.limits_valid
  refine ⟨hagreed.mem_routes, hagreed.mem_classes, hagreed.limits_eq, hagreed.limits_valid,
    hlimits.2.2.1, hlimits.2.2.2.1.1, fun tunnelID instanceID ↦ ?_⟩
  exact ⟨hagreed.hello_valid hchecked tunnelID instanceID, _,
    hagreed.acceptHello hchecked hdrain tunnelID instanceID, rfl, rfl, rfl, rfl⟩

end

/-- The handshake of a deployment whose ends differ: the two common routes, and the smaller limits.
-/
theorem handshake_agrees_sample :
    ∃ settings registry n, GatewayIn.newSettings mixed.gatewayIn = .ok settings ∧
      GatewayOut.newRegistry mixed.clients mixed.routes = .ok registry ∧
      negotiate settings (gatewayOutHello mixed.gatewayOut registry) = some n ∧
      n.routes = [.authLogin, .userGetMe] ∧ ¬ Admissible settings registry .fileDelete ∧
      n.limits = { sampleLimits with
        maxInFlightRequests := 3, maxDataBytes := 3, maxMessageBytes := 12 } ∧
      (n.hello (sampleID 2) (sampleID 1)).Valid := by
  refine ⟨_, _, _, rfl, rfl, rfl, rfl, ?_⟩
  obtain ⟨-, hagrees⟩ := @handshake_agrees mixed.gatewayIn _ mixed.gatewayOut mixed.clients
    mixed.routes _ rfl (List.mem_singleton_self _) rfl rfl
  obtain ⟨hroutes, -, hlimits, -, -, -, hhello⟩ := hagrees _ rfl
  exact ⟨fun h ↦ absurd ((hroutes _).mpr h) (by decide), hlimits, (hhello _ _).1⟩

/-! ## Data frames -/

open GatewayIn (maxUint64)

theorem sizeVarint_mono {m n : Nat} (h : m ≤ n) : sizeVarint m ≤ sizeVarint n := by
  have hlog : m.log2 ≤ n.log2 := by
    by_cases hm : m = 0
    · rw [hm]
      exact Nat.zero_le _
    · exact (Nat.le_log2 (by omega)).mpr ((Nat.log2_self_le hm).trans h)
  rw [sizeVarint, sizeVarint, if_neg (by omega), if_neg (by omega), Int.toNat_natCast,
    Int.toNat_natCast]
  omega

theorem sizeMessage_mono (tag : Nat) {m n : Nat} (h : m ≤ n) :
    sizeMessage tag m ≤ sizeMessage tag n :=
  Nat.add_le_add_left (Nat.add_le_add (sizeVarint_mono h) h) tag

theorem sizeBytes_replicate {n : Nat} (hn : n ≠ 0) :
    sizeBytes (List.replicate n 0) = 1 + sizeDelimited n := by
  rw [sizeBytes, if_neg (by simpa using hn), List.length_replicate]

/-- The size of a Data frame with `n` bytes under the longest header a request can have. -/
def maxDataFrameSize (n : Nat) : Nat := sizeMessage 1 51 + sizeMessage 1 (1 + sizeDelimited n)

section

variable {header : FrameHeader} (hversion : header.protocolVersion = protocolVersion)
  (htunnel : header.tunnelId.length = tunnelIDBytes)
  (hrequest : header.requestId.length = requestIDBytes)
  (hclass : knownTrafficClass header.trafficClass = true ∧ header.trafficClass ≠ .unspecified)

include hversion htunnel hrequest hclass

theorem header_size_eq : header.size = 40 + sizeScalar header.sequence := by
  have hid : ∀ b : Bytes, b.length = 16 → sizeBytes b = 18 := by
    intro b hb
    have hne : b ≠ [] := by
      rintro rfl
      cases hb
    rw [sizeBytes, if_neg hne, hb]
    rfl
  have hclass : sizeScalar header.trafficClass.number = 2 := by
    cases hc : header.trafficClass with
    | unspecified => exact absurd hc hclass.2
    | unknown => simp [hc, knownTrafficClass] at hclass
    | _ => rfl
  rw [FrameHeader.size, hid _ htunnel, hid _ hrequest, hversion, hclass]
  show 2 + 18 + 18 + _ + 2 = _
  omega

variable {chunk : Bytes} {n : Nat}

/-- No Data frame is larger. -/
theorem dataFrame_size_le (hseq : header.sequence ≤ maxUint64) (hn : chunk.length ≤ n) :
    sizeMessage 1 header.size + sizeMessage 1 (sizeBytes chunk) ≤ maxDataFrameSize n := by
  refine Nat.add_le_add (sizeMessage_mono 1 ?_) (sizeMessage_mono 1 ?_)
  · rw [header_size_eq hversion htunnel hrequest hclass, sizeScalar]
    split
    · omega
    · have hten : sizeVarint maxUint64 = 10 := by decide
      have := hten ▸ sizeVarint_mono hseq
      omega
  · rw [sizeBytes]
    split
    · exact Nat.zero_le _
    · exact Nat.add_le_add_left (Nat.add_le_add (sizeVarint_mono hn) hn) 1

/-- A maximal chunk with the last sequence number is that large. -/
theorem dataFrame_size_eq (hseq : header.sequence = maxUint64) (hn : n ≠ 0) :
    sizeMessage 1 header.size + sizeMessage 1 (sizeBytes (List.replicate n 0)) =
      maxDataFrameSize n := by
  have hten : sizeScalar maxUint64 = 11 := by decide
  rw [header_size_eq hversion htunnel hrequest hclass, hseq, hten,
    sizeBytes_replicate hn]
  rfl

end

/-- The Data frames that `sendBody` builds from its chunks. -/
inductive BodyData (p : GatewayIn.Params) : ConnectResponse → Prop
  | mk (r : GatewayIn.LogicalRequest) (chunk : Bytes) (hseq : r.outboundSequence ≤ maxUint64)
      (hclass : knownTrafficClass r.policy.trafficClass ∧ r.policy.trafficClass ≠ .unspecified)
      (hchunk : chunk.length ≤ p.limits.maxDataBytes) : BodyData p (r.frame p (.data chunk))

/-- The Data frames that `sendResponse` builds from its chunks. -/
inductive ResponseData (p : GatewayOut.Params) : ConnectRequest → Prop
  | mk (r : GatewayOut.RequestState) (chunk : Bytes) (hid : r.requestID.length = requestIDBytes)
      (hseq : r.outgoingSequence ≤ maxUint64)
      (hclass : knownTrafficClass r.route.trafficClass ∧ r.route.trafficClass ≠ .unspecified)
      (hchunk : chunk.length ≤ p.limits.maxDataBytes) : ResponseData p (r.frame p (.data chunk))

/-- A request of either end with the given sequence number. -/
def sampleBody (n : Nat) : GatewayIn.LogicalRequest where
  id := sampleID 7
  route := .userGetMe
  policy := { (default : GatewayIn.RoutePolicy) with trafficClass := .regular }
  deadline := 0
  outboundSequence := n

@[inherit_doc sampleBody]
def sampleResponse (n : Nat) : GatewayOut.RequestState :=
  { (default : GatewayOut.RequestState) with
    requestID := (sampleID 7).toList
    route := { (default : GatewayOut.RouteSpec) with trafficClass := .regular }
    outgoingSequence := n }

/-- **Maximal chunks fit** exactly when the negotiated frame leaves room for the longest header and
the length prefixes, which `validateLimits` does not ask for. -/
theorem chunks_fit {own peer : Limits} (hown : validateLimits (some own) = .ok ())
    (hpeer : validateLimits (some peer) = .ok ()) {pin : GatewayIn.Params}
    {pout : GatewayOut.Params} (hin : pin.limits = minimumLimits own peer)
    (hout : pout.limits = minimumLimits own peer) (htunnel : pout.tunnelID.length = tunnelIDBytes) :
    ((∀ f, BodyData pin f → f.size ≤ pin.limits.maxFrameBytes) ↔
      maxDataFrameSize pin.limits.maxDataBytes ≤ pin.limits.maxFrameBytes) ∧
    ((∀ f, ResponseData pout f → f.size ≤ pout.limits.maxFrameBytes) ↔
      maxDataFrameSize pout.limits.maxDataBytes ≤ pout.limits.maxFrameBytes) := by
  have hregular : TrafficClass.regular ≠ .unspecified := by decide
  have hne := (validateLimits_eq_ok.mp (validateLimits_minimumLimits hown hpeer)).2.1.1
  refine ⟨⟨fun h ↦ ?_, ?_⟩, fun h ↦ ?_, ?_⟩
  · refine (Eq.symm ?_).le.trans (h _ (.mk (sampleBody maxUint64)
      (List.replicate pin.limits.maxDataBytes 0) le_rfl ⟨rfl, by decide⟩ (by simp)))
    exact dataFrame_size_eq rfl pin.id.2 rfl ⟨rfl, hregular⟩ rfl (hin ▸ hne)
  · rintro h _ ⟨r, chunk, hseq, hclass, hchunk⟩
    exact (dataFrame_size_le rfl pin.id.2 r.id.2 hclass hseq hchunk).trans h
  · refine (Eq.symm ?_).le.trans (h _ (.mk (sampleResponse maxUint64)
      (List.replicate pout.limits.maxDataBytes 0) rfl le_rfl ⟨rfl, by decide⟩ (by simp)))
    exact dataFrame_size_eq rfl htunnel rfl ⟨rfl, hregular⟩ rfl (hout ▸ hne)
  · rintro h _ ⟨r, chunk, hid, hseq, hclass, hchunk⟩
    exact (dataFrame_size_le rfl htunnel hid hclass hseq hchunk).trans h

/-- The sample limits leave that room. -/
theorem chunks_fit_sample :
    ∃ pin pout, (sample sampleLimits 16).params = some (pin, pout) ∧
      (∀ f, BodyData pin f → f.size ≤ pin.limits.maxFrameBytes) ∧
      ∀ f, ResponseData pout f → f.size ≤ pout.limits.maxFrameBytes := by
  obtain ⟨⟨pin, pout⟩, hparams⟩ : ∃ x, (sample sampleLimits 16).params = some x := ⟨_, rfl⟩
  obtain ⟨hin, hout, htunnel⟩ : pin.limits = minimumLimits sampleLimits sampleLimits ∧
      pout.limits = minimumLimits sampleLimits sampleLimits ∧
      pout.tunnelID.length = tunnelIDBytes := by
    cases hparams
    exact ⟨rfl, rfl, rfl⟩
  have hfits : maxDataFrameSize (minimumLimits sampleLimits sampleLimits).maxDataBytes ≤
      (minimumLimits sampleLimits sampleLimits).maxFrameBytes := by decide
  obtain ⟨hbody, hresponse⟩ := chunks_fit rfl rfl hin hout htunnel
  exact ⟨pin, pout, hparams, hbody.mpr (hin ▸ hfits), hresponse.mpr (hout ▸ hfits)⟩

/-- Limits that `validateLimits` accepts: a frame may be one byte longer than its data. -/
def tightLimits : Limits := { sampleLimits with maxDataBytes := 255, maxMessageBytes := 255 }

/-- **A maximal chunk does not fit.**  Both ends accept the limits and complete the handshake, and
the third frame of a request is too long for either of them. -/
theorem chunk_exceeds_frame :
    ∃ pin pout, (sample tightLimits 16).params = some (pin, pout) ∧
      validateLimits (some tightLimits) = .ok () ∧
      pin.limits = minimumLimits tightLimits tightLimits ∧
      pout.limits = minimumLimits tightLimits tightLimits ∧
      (∃ f, BodyData pin f ∧ f.header.sequence = 3 ∧ pin.limits.maxFrameBytes < f.size) ∧
      ∃ f, ResponseData pout f ∧ f.header.sequence = 3 ∧ pout.limits.maxFrameBytes < f.size := by
  have hlength : (List.replicate 255 (0 : UInt8)).length ≤ 255 := List.length_replicate.le
  have hdata : sizeBytes (List.replicate 255 0) = 258 := sizeBytes_replicate (by decide)
  refine ⟨_, _, rfl, rfl, rfl, rfl,
    ⟨_, .mk (sampleBody 3) (List.replicate 255 0) (by decide) ⟨rfl, by decide⟩ hlength, rfl, ?_⟩,
    _, .mk (sampleResponse 3) (List.replicate 255 0) rfl (by decide) ⟨rfl, by decide⟩ hlength,
      rfl, ?_⟩
  · rw [ConnectResponse.size, GatewayIn.LogicalRequest.frame, ResponsePayload.size, hdata]
    decide
  · rw [ConnectRequest.size, GatewayOut.RequestState.frame, GatewayOut.requestFrame,
      RequestPayload.size, hdata]
    decide

end MarketMesh.Tunnel
