import MarketMesh.Lib.Validation
import MarketMesh.Protocol.Frame
import Mathlib.Data.List.Perm.Subperm

/-!
# The structural checks of the protocol

`ValidateGatewayOutFrame` and `ValidateGatewayInFrame` check one decoded frame without looking at
any tunnel state.  Both ends run them: the sender before a frame enters a queue, the receiver
before it looks at the frame at all.  The checks are kept in the order of the source, since the
first one that fails decides the error, and every error carries the field path and the text it has
there.
-/

set_option autoImplicit false

namespace MarketMesh.Protocol

open Validation

/-! ## The absolute limits of v1 -/

def protocolVersion : Nat := 1
def maxEncodedFrameBytes : Nat := 1048576
def maxDataBytes : Nat := 262144
def maxMessageBytes : Nat := 8388608
def maxInFlightRequests : Nat := 4096
def maxMetadataEntries : Nat := 16
def maxMetadataValueBytes : Nat := 16384
def maxCreditBytes : Nat := 1048576
def requestIDBytes : Nat := 16
def tunnelIDBytes : Nat := 16
def instanceIDBytes : Nat := 16
def sessionIDBytes : Nat := 16
def maxIdempotencyKeyBytes : Nat := 128
def maxSupportedVersions : Nat := 8
def maxCapabilities : Nat := 3
def maxTrafficClasses : Nat := 3
def maxAdvertisedRoutes : Nat := 64
def maxContentTypeBytes : Nat := 64
def maxTraceparentBytes : Nat := 128
def maxTracestateBytes : Nat := 512
/-- Five minutes, in nanoseconds. -/
def maxRetryAfter : Int := 300000000000

/-- `application/protobuf`. -/
def protobufContentType : Bytes :=
  [97, 112, 112, 108, 105, 99, 97, 116, 105, 111, 110, 47, 112, 114, 111, 116, 111, 98, 117, 102]

/-! ## Errors -/

/-- The errors of the structural checks. -/
inductive FrameError where
  | invalidFrame (field reason : String)
  | unsupportedVersion (field : String)
  | unknownFrameType
  deriving DecidableEq, Repr

/-! ## Known enumeration values

Every named value is known, the unspecified one included; the checks refuse that one separately. -/

def knownTrafficClass : TrafficClass → Bool
  | .unknown _ => false
  | _ => true

def knownCapability : Capability → Bool
  | .unknown _ => false
  | _ => true

def knownRoute : RouteId → Bool
  | .unknown _ => false
  | _ => true

def knownMetadataKey : MetadataKey → Bool
  | .unknown _ => false
  | _ => true

def knownCancelReason : CancelReason → Bool
  | .unknown _ => false
  | _ => true

def knownResultCode : ResultCode → Bool
  | .unknown _ => false
  | _ => true

def knownDrainReason : DrainReason → Bool
  | .unknown _ => false
  | _ => true

/-- The class a route belongs to.  gateway-in and gateway-out hold the same table. -/
def routeTrafficClass : RouteId → TrafficClass
  | .unspecified | .unknown _ => .unspecified
  | .authRegisterCredentials | .authLogin | .authRefreshSession | .authRevokeSession
  | .authSessionAssertion | .authLogoutAll | .authStartLoginCodeChange
  | .authCompleteLoginCodeChange | .authChangePassword | .authStartLogin | .authCompleteLogin
  | .authResendLoginCode | .authRequestEmailVerification | .authConfirmEmail
  | .authRequestPasswordReset | .authConfirmPasswordReset | .authGetCredentials
  | .authStartEmailChange | .authConfirmEmailChange | .authCancelEmailChange | .authListSessions
  | .authRevokeOwnedSession | .authRequestAccountDeletion | .authCancelAccountDeletion =>
    .controlAuth
  | .userGetMe | .userUpdateMe | .userBrowserGetMe | .userBrowserUpdateMe
  | .userBrowserListAddresses | .userBrowserCreateAddress | .userBrowserUpdateAddress
  | .userBrowserDeleteAddress | .userBrowserSetDefaultAddress | .userBrowserGetSettings
  | .userBrowserUpdateSettings | .userBrowserGetAvatar | .userBrowserSetAvatar
  | .userBrowserClearAvatar | .fileCreateUpload | .fileCompleteUpload | .fileGetStatus
  | .fileCreateDownload | .fileDelete => .regular
  | .realtimeChat | .realtimeNotifications => .realtime

/-! ## Headers -/

def validateHelloHeader (header : FrameHeader) : Except FrameError Unit := do
  ensure (header.protocolVersion = 0) (.unsupportedVersion "header.protocol_version")
  ensure (header.requestId.length = 0)
    (.invalidFrame "header.request_id" "must be empty for Hello")
  ensure (header.sequence = 0) (.invalidFrame "header.sequence" "must be zero for Hello")
  ensure (header.trafficClass = .unspecified)
    (.invalidFrame "header.traffic_class" "must be unspecified for Hello")

def validateGatewayOutHelloHeader (header : FrameHeader) : Except FrameError Unit := do
  validateHelloHeader header
  ensure (header.tunnelId.length = 0)
    (.invalidFrame "header.tunnel_id" "must be empty in gateway-out Hello")

def validateGatewayInHelloHeader (header : FrameHeader) : Except FrameError Unit := do
  validateHelloHeader header
  ensure (header.tunnelId.length = tunnelIDBytes)
    (.invalidFrame "header.tunnel_id" "must be 16 bytes in gateway-in Hello")

def validateRequestHeader (header : FrameHeader) : Except FrameError Unit := do
  ensure (header.protocolVersion = protocolVersion)
    (.unsupportedVersion "header.protocol_version")
  ensure (header.tunnelId.length = tunnelIDBytes)
    (.invalidFrame "header.tunnel_id" "must be 16 bytes")
  ensure (header.requestId.length = requestIDBytes)
    (.invalidFrame "header.request_id" "must be 16 bytes")
  ensure (header.sequence ≠ 0) (.invalidFrame "header.sequence" "must be positive")
  ensure (knownTrafficClass header.trafficClass ∧ header.trafficClass ≠ .unspecified)
    (.invalidFrame "header.traffic_class" "is unknown or unspecified")

/-- The header check of frames that belong to no request.  The two users differ in the traffic
class they demand and in how they call themselves. -/
def validateControlHeader (kind : String) (trafficClass : TrafficClass) (classReason : String)
    (header : FrameHeader) : Except FrameError Unit := do
  ensure (header.protocolVersion = protocolVersion)
    (.unsupportedVersion "header.protocol_version")
  ensure (header.tunnelId.length = tunnelIDBytes)
    (.invalidFrame "header.tunnel_id" "must be 16 bytes")
  ensure (header.requestId.length = 0)
    (.invalidFrame "header.request_id" ("must be empty for " ++ kind))
  ensure (header.sequence = 0)
    (.invalidFrame "header.sequence" ("must be zero for " ++ kind))
  ensure (header.trafficClass = trafficClass)
    (.invalidFrame "header.traffic_class" classReason)

def validateTunnelHeader : FrameHeader → Except FrameError Unit :=
  validateControlHeader "tunnel control" .unspecified "must be unspecified for tunnel control"

def validateSessionControlHeader : FrameHeader → Except FrameError Unit :=
  validateControlHeader "session control" .controlAuth "must be control/auth"

/-! ## Hello -/

/-- `seen` is the set of versions already met. -/
def validateDistinctVersions : List Nat → List Nat → Except FrameError Unit
  | _, [] => .ok ()
  | seen, version :: rest => do
    ensure (version ∉ seen)
      (.invalidFrame "hello.supported_protocol_versions" "contains a duplicate")
    validateDistinctVersions (version :: seen) rest

def validateSupportedVersions (versions : List Nat) : Except FrameError Unit := do
  ensure (versions.length ≠ 0 ∧ versions.length ≤ maxSupportedVersions)
    (.invalidFrame "hello.supported_protocol_versions" "has invalid length")
  validateDistinctVersions [] versions
  ensure (protocolVersion ∈ versions)
    (.unsupportedVersion "hello.supported_protocol_versions")

/-- Every value of an advertised list is acceptable and occurs once. -/
def validateDistinct {α : Type} [DecidableEq α] (field : String) (acceptable : α → Bool) :
    List α → List α → Except FrameError Unit
  | _, [] => .ok ()
  | seen, value :: rest => do
    ensure (acceptable value) (.invalidFrame field "contains an unknown value")
    ensure (value ∉ seen) (.invalidFrame field "contains a duplicate")
    validateDistinct field acceptable (value :: seen) rest

def validateCapabilities (capabilities : List Capability) : Except FrameError Unit := do
  ensure (capabilities.length ≤ maxCapabilities)
    (.invalidFrame "hello.capabilities" "has invalid length")
  validateDistinct "hello.capabilities" (fun c ↦ knownCapability c && c != .unspecified) []
    capabilities

def validateTrafficClasses (classes : List TrafficClass) : Except FrameError Unit := do
  ensure (classes.length ≠ 0 ∧ classes.length ≤ maxTrafficClasses)
    (.invalidFrame "hello.traffic_classes" "has invalid length")
  validateDistinct "hello.traffic_classes" (fun c ↦ knownTrafficClass c && c != .unspecified) []
    classes

def validateRoutes (routes : List RouteId) : Except FrameError Unit := do
  ensure (routes.length ≠ 0 ∧ routes.length ≤ maxAdvertisedRoutes)
    (.invalidFrame "hello.route_ids" "has invalid length")
  validateDistinct "hello.route_ids" (fun r ↦ knownRoute r && r != .unspecified) [] routes

def validateLimits : Option Limits → Except FrameError Unit
  | none => .error (.invalidFrame "hello.limits" "is required")
  | some limits => do
    ensure (limits.maxFrameBytes ≠ 0 ∧ limits.maxFrameBytes ≤ maxEncodedFrameBytes)
      (.invalidFrame "hello.limits.max_frame_bytes" "is outside v1 bounds")
    ensure (limits.maxDataBytes ≠ 0 ∧ limits.maxDataBytes ≤ maxDataBytes)
      (.invalidFrame "hello.limits.max_data_bytes" "is outside v1 bounds")
    ensure (limits.maxDataBytes < limits.maxFrameBytes)
      (.invalidFrame "hello.limits.max_frame_bytes" "must exceed max_data_bytes")
    ensure (limits.maxDataBytes ≤ limits.maxMessageBytes ∧
        limits.maxMessageBytes ≤ maxMessageBytes)
      (.invalidFrame "hello.limits.max_message_bytes" "is outside v1 bounds")
    ensure (limits.maxInFlightRequests ≠ 0 ∧ limits.maxInFlightRequests ≤ maxInFlightRequests)
      (.invalidFrame "hello.limits.max_in_flight_requests" "is outside v1 bounds")
    ensure (limits.maxMetadataEntries ≠ 0 ∧ limits.maxMetadataEntries ≤ maxMetadataEntries)
      (.invalidFrame "hello.limits.max_metadata_entries" "is outside v1 bounds")
    ensure (limits.maxMetadataValueBytes ≠ 0 ∧
        limits.maxMetadataValueBytes ≤ maxMetadataValueBytes)
      (.invalidFrame "hello.limits.max_metadata_value_bytes" "is outside v1 bounds")
    ensure (limits.maxCreditBytes ≠ 0 ∧ limits.maxCreditBytes ≤ maxCreditBytes)
      (.invalidFrame "hello.limits.max_credit_bytes" "is outside v1 bounds")

def validateGatewayOutHello (hello : GatewayOutHello) : Except FrameError Unit := do
  ensure (hello.instanceId.length = instanceIDBytes)
    (.invalidFrame "hello.instance_id" "must be 16 bytes")
  validateSupportedVersions hello.supportedProtocolVersions
  validateCapabilities hello.capabilities
  validateTrafficClasses hello.trafficClasses
  validateRoutes hello.routeIds
  validateLimits hello.limits

def validateGatewayInHello (hello : GatewayInHello) : Except FrameError Unit := do
  ensure (hello.instanceId.length = instanceIDBytes)
    (.invalidFrame "hello.instance_id" "must be 16 bytes")
  ensure (hello.selectedProtocolVersion = protocolVersion)
    (.unsupportedVersion "hello.selected_protocol_version")
  validateCapabilities hello.capabilities
  validateTrafficClasses hello.trafficClasses
  validateRoutes hello.routeIds
  validateLimits hello.limits

/-! ## Metadata values -/

def lowerHex (value : Bytes) : Bool :=
  value.all fun c ↦ (48 ≤ c && c ≤ 57) || (97 ≤ c && c ≤ 102)

def allZero (value : Bytes) : Bool := value.all fun c ↦ c == 48

/-- `value[lo:hi]`. -/
def slice (value : Bytes) (lo hi : Nat) : Bytes := (value.drop lo).take (hi - lo)

def validTraceparent (value : Bytes) : Bool :=
  value.length == 55 && slice value 0 2 == [48, 48] &&
    (value[2]? == some 45 && value[35]? == some 45 && value[52]? == some 45) &&
    (lowerHex (slice value 3 35) && !allZero (slice value 3 35)) &&
    (lowerHex (slice value 36 52) && !allZero (slice value 36 52)) &&
    lowerHex (slice value 53 55)

def lowerAlphaNumeric (c : UInt8) : Bool := (97 ≤ c && c ≤ 122) || (48 ≤ c && c ≤ 57)

/-- A key may hold one `@`, neither first nor last. -/
def validTracestateKey (value : Bytes) : Bool :=
  (value.length != 0 && value.length ≤ 256 && (value.head?.map lowerAlphaNumeric).getD false) &&
    (value.all (fun c ↦ lowerAlphaNumeric c || c == 95 || c == 45 || c == 42 || c == 47 || c == 64)
      && value.count 64 ≤ 1) &&
    (value.head? != some 64 && value.getLast? != some 64)

def validTracestateValue (value : Bytes) : Bool :=
  (value.length != 0 && value.length ≤ 256 && value.getLast? != some 32) &&
    value.all fun c ↦ 32 ≤ c && c ≤ 126 && c != 44 && c != 61

/-- `bytes.Trim(member, " ")`. -/
def trimSpaces (member : Bytes) : Bytes :=
  ((member.dropWhile (· == 32)).reverse.dropWhile (· == 32)).reverse

/-- The members of a tracestate: `seen` are the keys already met. -/
def validTracestateMembers : List Bytes → List Bytes → Bool
  | _, [] => true
  | seen, member :: rest =>
    let trimmed := trimSpaces member
    let key := trimmed.takeWhile (· != 61)
    match trimmed.dropWhile (· != 61) with
    | [] => false
    | _ :: memberValue =>
      validTracestateKey key && validTracestateValue memberValue && !seen.contains key &&
        validTracestateMembers (key :: seen) rest

def validTracestate (value : Bytes) : Bool :=
  (value.head? != some 44 && value.getLast? != some 44) &&
    (value.all fun c ↦ 32 ≤ c && c ≤ 126) &&
    ((value.splitOn 44).length ≤ 32 && validTracestateMembers [] (value.splitOn 44))

def validateMetadataValue (key : MetadataKey) (value : Bytes) (allowSessionAssertion : Bool) :
    Except FrameError Unit := do
  ensure (value.length ≠ 0 ∧ value.length ≤ maxMetadataValueBytes)
    (.invalidFrame "metadata.value" "is empty or exceeds v1 limit")
  match key with
  | .contentType =>
    ensure (value.length ≤ maxContentTypeBytes ∧ value = protobufContentType)
      (.invalidFrame "metadata.value" "has unsupported content type")
  | .traceparent =>
    ensure (value.length ≤ maxTraceparentBytes ∧ validTraceparent value)
      (.invalidFrame "metadata.value" "has invalid traceparent format")
  | .tracestate =>
    ensure (value.length ≤ maxTracestateBytes ∧ validTracestate value)
      (.invalidFrame "metadata.value" "has invalid tracestate format")
  | .sessionAssertion =>
    ensure (allowSessionAssertion = true) (.invalidFrame "metadata.key" "is forbidden in Result")
  | _ => .error (.invalidFrame "metadata.key" "is unknown")

/-- The loop over the entries: `seen` are the keys already met. -/
def validateMetadataEntries (path : String) (allowSessionAssertion : Bool) :
    List MetadataKey → List (Option Metadata) → Except FrameError Unit
  | _, [] => .ok ()
  | _, none :: _ => .error (.invalidFrame path "contains a nil entry")
  | seen, some entry :: rest => do
    ensure (knownMetadataKey entry.key ∧ entry.key ≠ .unspecified)
      (.invalidFrame path "contains an unknown key")
    ensure (entry.key ∉ seen) (.invalidFrame path "contains a duplicate key")
    validateMetadataValue entry.key entry.value allowSessionAssertion
    validateMetadataEntries path allowSessionAssertion (entry.key :: seen) rest

def validateMetadata (path : String) (entries : List (Option Metadata))
    (allowSessionAssertion : Bool) : Except FrameError Unit := do
  ensure (entries.length ≤ maxMetadataEntries) (.invalidFrame path "has too many entries")
  validateMetadataEntries path allowSessionAssertion [] entries

/-! ## Payloads -/

/-- `Timestamp.CheckValid`: the years 1 to 9999. -/
def Timestamp.checkValid (t : Timestamp) : Prop :=
  -62135596800 ≤ t.seconds ∧ t.seconds ≤ 253402300799 ∧ 0 ≤ t.nanos ∧ t.nanos ≤ 999999999
  deriving Decidable

def validateTimestamp (field : String) (timestamp : Option Timestamp) : Except FrameError Unit :=
  match timestamp with
  | none => .error (.invalidFrame field "is required and must be a valid UTC timestamp")
  | some t =>
    ensure t.checkValid (.invalidFrame field "is required and must be a valid UTC timestamp")

/-- `Duration.CheckValid`: about ten thousand years, and the two parts agree in sign. -/
def Duration.checkValid (d : Duration) : Prop :=
  (-315576000000 ≤ d.seconds ∧ d.seconds ≤ 315576000000) ∧
    (-999999999 ≤ d.nanos ∧ d.nanos ≤ 999999999) ∧
    ¬ (0 < d.seconds ∧ d.nanos < 0) ∧ ¬ (d.seconds < 0 ∧ 0 < d.nanos)
  deriving Decidable

def validateDuration (field : String) (d : Duration) : Except FrameError Unit := do
  ensure d.checkValid (.invalidFrame field "must be valid")
  ensure (0 < d.seconds * 1000000000 + d.nanos ∧
      d.seconds * 1000000000 + d.nanos ≤ maxRetryAfter)
    (.invalidFrame field "is outside v1 bounds")

def validateOpen (trafficClass : TrafficClass) (request : Open) : Except FrameError Unit := do
  ensure (knownRoute request.routeId ∧ request.routeId ≠ .unspecified)
    (.invalidFrame "open.route_id" "is unknown or unspecified")
  ensure (trafficClass = routeTrafficClass request.routeId)
    (.invalidFrame "header.traffic_class" "does not match route policy")
  validateTimestamp "open.deadline" request.deadline
  ensure (request.idempotencyKey.length ≤ maxIdempotencyKeyBytes)
    (.invalidFrame "open.idempotency_key" "exceeds v1 limit")
  validateMetadata "open.metadata" request.metadata true

def validateData (payload : Bytes) : Except FrameError Unit :=
  ensure (payload.length ≠ 0 ∧ payload.length ≤ maxDataBytes)
    (.invalidFrame "data.payload" "is empty or exceeds v1 limit")

def validateCancel (reason : CancelReason) : Except FrameError Unit :=
  ensure (knownCancelReason reason ∧ reason ≠ .unspecified)
    (.invalidFrame "cancel.reason" "is unknown or unspecified")

def validateResult (result : Result) : Except FrameError Unit := do
  ensure (knownResultCode result.code ∧ result.code ≠ .unspecified)
    (.invalidFrame "result.code" "is unknown or unspecified")
  ensure (result.code = .ok → result.retryAfter = none)
    (.invalidFrame "result.retry_after" "must be absent for success")
  match result.retryAfter with
  | some d => validateDuration "result.retry_after" d
  | none => .ok ()
  validateMetadata "result.metadata" result.metadata false

def validateCredit (bytes : Nat) : Except FrameError Unit :=
  ensure (bytes ≠ 0 ∧ bytes ≤ maxCreditBytes)
    (.invalidFrame "credit.bytes" "is outside v1 bounds")

def validatePing (nonce : Nat) : Except FrameError Unit :=
  ensure (nonce ≠ 0) (.invalidFrame "ping.nonce" "must be positive")

def validatePong (nonce : Nat) : Except FrameError Unit :=
  ensure (nonce ≠ 0) (.invalidFrame "pong.nonce" "must be positive")

def validateDrain (drain : Drain) : Except FrameError Unit := do
  validateTimestamp "drain.deadline" drain.deadline
  ensure (knownDrainReason drain.reason ∧ drain.reason ≠ .unspecified)
    (.invalidFrame "drain.reason" "is unknown or unspecified")

def validateRevokeSession (sessionId : Bytes) : Except FrameError Unit :=
  ensure (sessionId.length = sessionIDBytes)
    (.invalidFrame "revoke_session.session_id" "must be 16 bytes")

/-! ## Frames -/

def validateGatewayOutFrame (frame : ConnectRequest) : Except FrameError Unit :=
  match frame.payload with
  | .hello hello => do
    validateGatewayOutHelloHeader frame.header
    validateGatewayOutHello hello
  | .data payload => do
    validateRequestHeader frame.header
    validateData payload
  | .halfClose => validateRequestHeader frame.header
  | .cancel reason => do
    validateRequestHeader frame.header
    validateCancel reason
  | .result result => do
    validateRequestHeader frame.header
    validateResult result
  | .credit bytes => do
    validateRequestHeader frame.header
    validateCredit bytes
  | .ping nonce => do
    validateTunnelHeader frame.header
    validatePing nonce
  | .pong nonce => do
    validateTunnelHeader frame.header
    validatePong nonce
  | .drain drain => do
    validateTunnelHeader frame.header
    validateDrain drain
  | .revokeSession sessionId => do
    validateSessionControlHeader frame.header
    validateRevokeSession sessionId
  | .none => .error .unknownFrameType

def validateGatewayInFrame (frame : ConnectResponse) : Except FrameError Unit :=
  match frame.payload with
  | .hello hello => do
    validateGatewayInHelloHeader frame.header
    validateGatewayInHello hello
  | .opened request => do
    validateRequestHeader frame.header
    validateOpen frame.header.trafficClass request
  | .data payload => do
    validateRequestHeader frame.header
    validateData payload
  | .halfClose => validateRequestHeader frame.header
  | .cancel reason => do
    validateRequestHeader frame.header
    validateCancel reason
  | .credit bytes => do
    validateRequestHeader frame.header
    validateCredit bytes
  | .ping nonce => do
    validateTunnelHeader frame.header
    validatePing nonce
  | .pong nonce => do
    validateTunnelHeader frame.header
    validatePong nonce
  | .drain drain => do
    validateTunnelHeader frame.header
    validateDrain drain
  | .none => .error .unknownFrameType

instance (x : Except FrameError Unit) : Decidable (x = .ok ()) :=
  match x with
  | .ok () => isTrue rfl
  | .error _ => isFalse fun h ↦ nomatch h

/-- The frame passes the structural checks. -/
def ConnectRequest.Valid (f : ConnectRequest) : Prop := validateGatewayOutFrame f = .ok ()
  deriving Decidable

/-- The frame passes the structural checks. -/
def ConnectResponse.Valid (f : ConnectResponse) : Prop := validateGatewayInFrame f = .ok ()
  deriving Decidable

/-! ## What a valid frame looks like -/

/-- The payloads of gateway-out that belong to a request. -/
def RequestPayload.ofRequest : RequestPayload → Bool
  | .data _ | .halfClose | .cancel _ | .result _ | .credit _ => true
  | _ => false

/-- The payloads of gateway-in that belong to a request. -/
def ResponsePayload.ofRequest : ResponsePayload → Bool
  | .opened _ | .data _ | .halfClose | .cancel _ | .credit _ => true
  | _ => false

variable {header : FrameHeader} {f : ConnectRequest} {hello : GatewayInHello} {u : Unit}
  {field : String}

theorem validateRequestHeader_eq_ok
    (h : validateRequestHeader header = .ok u) : header.requestId.length = requestIDBytes := by
  simp only [validateRequestHeader, ensure_bind_eq_ok] at h
  exact h.2.2.1

theorem validateControlHeader_eq_ok {kind reason c}
    (h : validateControlHeader kind c reason header = .ok u) :
    header.requestId = [] := by
  simp only [validateControlHeader, ensure_bind_eq_ok] at h
  exact List.eq_nil_of_length_eq_zero h.2.2.1

theorem validateHelloHeader_eq_ok (h : validateHelloHeader header = .ok u) :
    header.requestId = [] := by
  simp only [validateHelloHeader, ensure_bind_eq_ok] at h
  exact List.eq_nil_of_length_eq_zero h.2.1

/-- A frame of a request names it. -/
theorem ConnectRequest.Valid.requestId_length (h : f.Valid)
    (hp : f.payload.ofRequest = true) : f.header.requestId.length = requestIDBytes := by
  rw [ConnectRequest.Valid, validateGatewayOutFrame] at h
  cases hk : f.payload <;> rw [hk] at h hp
  case halfClose => exact validateRequestHeader_eq_ok h
  case data | cancel | result | credit =>
    obtain ⟨_, hheader, -⟩ := bind_eq_ok.mp h
    exact validateRequestHeader_eq_ok hheader
  all_goals exact Bool.noConfusion hp

/-- A frame of the tunnel itself names no request. -/
theorem ConnectRequest.Valid.requestId_eq_nil (h : f.Valid)
    (hp : f.payload.ofRequest = false) : f.header.requestId = [] := by
  rw [ConnectRequest.Valid, validateGatewayOutFrame] at h
  cases hk : f.payload <;> rw [hk] at h hp
  case none => exact absurd h (by simp)
  case hello =>
    obtain ⟨_, hheader, -⟩ := bind_eq_ok.mp h
    obtain ⟨_, hheader, -⟩ := bind_eq_ok.mp hheader
    exact validateHelloHeader_eq_ok hheader
  case ping | pong | drain | revokeSession =>
    obtain ⟨_, hheader, -⟩ := bind_eq_ok.mp h
    exact validateControlHeader_eq_ok hheader
  all_goals exact Bool.noConfusion hp

/-- A frame of a request names it. -/
theorem ConnectResponse.Valid.requestId_length {f : ConnectResponse} (h : f.Valid)
    (hp : f.payload.ofRequest = true) : f.header.requestId.length = requestIDBytes := by
  rw [ConnectResponse.Valid, validateGatewayInFrame] at h
  cases hk : f.payload <;> rw [hk] at h hp
  case halfClose => exact validateRequestHeader_eq_ok h
  case opened | data | cancel | credit =>
    obtain ⟨_, hheader, -⟩ := bind_eq_ok.mp h
    exact validateRequestHeader_eq_ok hheader
  all_goals exact Bool.noConfusion hp

/-- A frame of the tunnel itself names no request. -/
theorem ConnectResponse.Valid.requestId_eq_nil {f : ConnectResponse} (h : f.Valid)
    (hp : f.payload.ofRequest = false) : f.header.requestId = [] := by
  rw [ConnectResponse.Valid, validateGatewayInFrame] at h
  cases hk : f.payload <;> rw [hk] at h hp
  case none => exact absurd h (by simp)
  case hello =>
    obtain ⟨_, hheader, -⟩ := bind_eq_ok.mp h
    obtain ⟨_, hheader, -⟩ := bind_eq_ok.mp hheader
    exact validateHelloHeader_eq_ok hheader
  case ping | pong | drain =>
    obtain ⟨_, hheader, -⟩ := bind_eq_ok.mp h
    exact validateControlHeader_eq_ok hheader
  all_goals exact Bool.noConfusion hp

/-- The entries of valid metadata are not nil. -/
theorem validateMetadataEntries_eq_ok {path allow seen entries}
    (h : validateMetadataEntries path allow seen entries = .ok ()) : none ∉ entries := by
  induction entries generalizing seen with
  | nil => exact List.not_mem_nil
  | cons entry rest ih =>
    cases entry with
    | none => exact absurd h (by simp [validateMetadataEntries])
    | some =>
      simp only [validateMetadataEntries, ensure_bind_eq_ok] at h
      obtain ⟨_, -, hrest⟩ := bind_eq_ok.mp h.2.2
      rw [List.mem_cons]
      exact fun hmem ↦ hmem.elim (by simp) (ih hrest)

theorem ConnectRequest.Valid.none_notMem_metadata (h : f.Valid)
    {result} (hp : f.payload = .result result) : none ∉ result.metadata := by
  rw [ConnectRequest.Valid, validateGatewayOutFrame, hp] at h
  obtain ⟨_, -, h⟩ := bind_eq_ok.mp h
  simp only [validateResult, ensure_bind_eq_ok] at h
  have hmetadata : validateMetadata "result.metadata" result.metadata false = .ok () := by
    obtain ⟨-, -, h⟩ := h
    split at h
    · obtain ⟨_, -, h⟩ := bind_eq_ok.mp h
      exact h
    · exact h
  rw [validateMetadata, ensure_bind_eq_ok] at hmetadata
  exact validateMetadataEntries_eq_ok hmetadata.2

/-! ## The checks of a Hello -/

theorem validateDistinct_eq_ok {α : Type} [DecidableEq α] {acceptable : α → Bool}
    {seen l} :
    validateDistinct field acceptable seen l = .ok () ↔
      (∀ v ∈ l, acceptable v = true ∧ v ∉ seen) ∧ l.Nodup := by
  induction l generalizing seen with
  | nil => simp [validateDistinct]
  | cons v l ih =>
    rw [validateDistinct, ensure_bind_eq_ok, ensure_bind_eq_ok, ih]
    simp only [List.mem_cons, List.nodup_cons, forall_eq_or_imp]
    grind

/-- Distinct values of an accepted list are accepted. -/
theorem validateDistinct_of_subset {α : Type} [DecidableEq α]
    {acceptable : α → Bool} {l l'}
    (h : validateDistinct field acceptable [] l' = .ok ()) (hn : l.Nodup) (hs : l ⊆ l') :
    validateDistinct field acceptable [] l = .ok () :=
  validateDistinct_eq_ok.mpr
    ⟨fun v hv ↦ (validateDistinct_eq_ok.mp h).1 v (hs hv), hn⟩

theorem validateCapabilities_of_subset {l l'}
    (h : validateCapabilities l' = .ok ()) (hn : l.Nodup) (hs : l ⊆ l') :
    validateCapabilities l = .ok () := by
  rw [validateCapabilities, ensure_bind_eq_ok] at h ⊢
  exact ⟨(List.subperm_of_subset hn hs).length_le.trans h.1, validateDistinct_of_subset h.2 hn hs⟩

theorem validateTrafficClasses_of_subset {l l'}
    (h : validateTrafficClasses l' = .ok ()) (hne : l ≠ []) (hn : l.Nodup) (hs : l ⊆ l') :
    validateTrafficClasses l = .ok () := by
  rw [validateTrafficClasses, ensure_bind_eq_ok] at h ⊢
  exact ⟨⟨mt List.eq_nil_of_length_eq_zero hne,
    (List.subperm_of_subset hn hs).length_le.trans h.1.2⟩, validateDistinct_of_subset h.2 hn hs⟩

theorem validateRoutes_of_subset {l l'}
    (h : validateRoutes l' = .ok ()) (hne : l ≠ []) (hn : l.Nodup) (hs : l ⊆ l') :
    validateRoutes l = .ok () := by
  rw [validateRoutes, ensure_bind_eq_ok] at h ⊢
  exact ⟨⟨mt List.eq_nil_of_length_eq_zero hne,
    (List.subperm_of_subset hn hs).length_le.trans h.1.2⟩, validateDistinct_of_subset h.2 hn hs⟩

theorem validateLimits_eq_ok {limits} :
    validateLimits (some limits) = .ok () ↔
      (limits.maxFrameBytes ≠ 0 ∧ limits.maxFrameBytes ≤ maxEncodedFrameBytes) ∧
      (limits.maxDataBytes ≠ 0 ∧ limits.maxDataBytes ≤ maxDataBytes) ∧
      limits.maxDataBytes < limits.maxFrameBytes ∧
      (limits.maxDataBytes ≤ limits.maxMessageBytes ∧ limits.maxMessageBytes ≤ maxMessageBytes) ∧
      (limits.maxInFlightRequests ≠ 0 ∧ limits.maxInFlightRequests ≤ maxInFlightRequests) ∧
      (limits.maxMetadataEntries ≠ 0 ∧ limits.maxMetadataEntries ≤ maxMetadataEntries) ∧
      (limits.maxMetadataValueBytes ≠ 0 ∧ limits.maxMetadataValueBytes ≤ maxMetadataValueBytes) ∧
      (limits.maxCreditBytes ≠ 0 ∧ limits.maxCreditBytes ≤ maxCreditBytes) := by
  simp only [validateLimits, ensure_bind_eq_ok, ensure_eq_ok]

theorem validateGatewayInHello_eq_ok :
    validateGatewayInHello hello = .ok () ↔
      hello.instanceId.length = instanceIDBytes ∧ hello.selectedProtocolVersion = protocolVersion ∧
      validateCapabilities hello.capabilities = .ok () ∧
      validateTrafficClasses hello.trafficClasses = .ok () ∧
      validateRoutes hello.routeIds = .ok () ∧ validateLimits hello.limits = .ok () := by
  simp only [validateGatewayInHello, bind_eq_ok, ensure_eq_ok]
  constructor
  · rintro ⟨-, hid, -, hversion, ⟨⟩, hcaps, ⟨⟩, hclasses, ⟨⟩, hroutes, hlimits⟩
    exact ⟨hid, hversion, hcaps, hclasses, hroutes, hlimits⟩
  · rintro ⟨hid, hversion, hcaps, hclasses, hroutes, hlimits⟩
    exact ⟨(), hid, (), hversion, (), hcaps, (), hclasses, (), hroutes, hlimits⟩

theorem validateGatewayInHelloHeader_eq_ok :
    validateGatewayInHelloHeader header = .ok () ↔
      (header.protocolVersion = 0 ∧ header.requestId.length = 0 ∧ header.sequence = 0 ∧
        header.trafficClass = .unspecified) ∧ header.tunnelId.length = tunnelIDBytes := by
  simp only [validateGatewayInHelloHeader, validateHelloHeader, bind_eq_ok, ensure_eq_ok]
  constructor
  · rintro ⟨-, ⟨-, h₁, -, h₂, -, h₃, h₄⟩, h₅⟩
    exact ⟨⟨h₁, h₂, h₃, h₄⟩, h₅⟩
  · rintro ⟨⟨h₁, h₂, h₃, h₄⟩, h₅⟩
    exact ⟨(), ⟨(), h₁, (), h₂, (), h₃, h₄⟩, h₅⟩

/-- The checks of a frame with a Hello of gateway-in. -/
theorem ConnectResponse.valid_hello :
    ({ header := header, payload := .hello hello } : ConnectResponse).Valid ↔
      validateGatewayInHelloHeader header = .ok () ∧ validateGatewayInHello hello = .ok () := by
  rw [ConnectResponse.Valid, validateGatewayInFrame, bind_eq_ok]
  exact ⟨fun ⟨⟨⟩, h⟩ ↦ h, fun h ↦ ⟨(), h⟩⟩

end MarketMesh.Protocol
