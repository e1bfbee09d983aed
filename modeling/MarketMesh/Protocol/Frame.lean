import Mathlib.Algebra.GroupWithZero.Nat
import Mathlib.Data.Vector.Basic

/-!
# The frames of the reverse tunnel

The wire vocabulary of `tunnel.v1`: the two directions of the stream carry different envelopes,
`ConnectRequest` from gateway-out to gateway-in and `ConnectResponse` the other way, each with a
`FrameHeader` and one payload.

proto3 enumerations are open, so every enumeration here has an `unknown` value besides the ones the
schema names.  A sub-message that the wire may leave out and that the validator tests for is an
`Option`; the header and the payload message itself are always there, since the strict decoder
accepts a frame only when it holds exactly one of each.
-/

set_option autoImplicit false

namespace MarketMesh

/-- A Go byte slice. -/
abbrev Bytes := List UInt8

/-- An error of a `context.Context`. -/
inductive ContextError where
  | canceled
  | deadlineExceeded
  deriving DecidableEq, Repr, Inhabited

/-- `[16]byte`: tunnel, request, instance and session identifiers. -/
abbrev OpaqueID := List.Vector UInt8 16

/-- Go's `copy(id[:], b)` into a zeroed array: the first sixteen bytes, padded with zeros. -/
def OpaqueID.copy (b : Bytes) : OpaqueID :=
  ⟨(b ++ List.replicate 16 0).take 16, by simp⟩

@[simp] theorem OpaqueID.copy_toList (id : OpaqueID) : OpaqueID.copy id.toList = id := by
  obtain ⟨l, hl⟩ := id
  refine Subtype.ext ?_
  show (l ++ List.replicate 16 0).take 16 = l
  rw [List.take_append_of_le_length (by omega), List.take_of_length_le (by omega)]

theorem OpaqueID.toList_copy {b} (h : b.length = 16) : (OpaqueID.copy b).toList = b := by
  show (b ++ List.replicate 16 0).take 16 = b
  rw [List.take_append_of_le_length (by omega), List.take_of_length_le (by omega)]

theorem OpaqueID.toList_injective {id id' : OpaqueID} (h : id.toList = id'.toList) : id = id' := by
  rw [← OpaqueID.copy_toList id, h, OpaqueID.copy_toList]

theorem OpaqueID.toList_ne_nil (id : OpaqueID) : id.toList ≠ [] := fun h ↦ by
  have hlength := id.toList_length
  rw [h] at hlength
  exact absurd hlength (by decide)

namespace Protocol

/-! ## Enumerations -/

inductive TrafficClass where
  | unspecified
  | controlAuth
  | regular
  | realtime
  | unknown (value : Int)
  deriving DecidableEq, Repr, Inhabited

inductive Capability where
  | unspecified
  | drain
  | sessionRevocation
  | realtime
  | unknown (value : Int)
  deriving DecidableEq, Repr, Inhabited

/-- The complete destination vocabulary of v1. -/
inductive RouteId where
  | unspecified
  | authRegisterCredentials
  | authLogin
  | authRefreshSession
  | authRevokeSession
  | authSessionAssertion
  | authLogoutAll
  | authStartLoginCodeChange
  | authCompleteLoginCodeChange
  | authChangePassword
  | authStartLogin
  | authCompleteLogin
  | authResendLoginCode
  | authRequestEmailVerification
  | authConfirmEmail
  | authRequestPasswordReset
  | authConfirmPasswordReset
  | authGetCredentials
  | authStartEmailChange
  | authConfirmEmailChange
  | authCancelEmailChange
  | authListSessions
  | authRevokeOwnedSession
  | authRequestAccountDeletion
  | authCancelAccountDeletion
  | userGetMe
  | userUpdateMe
  | userBrowserGetMe
  | userBrowserUpdateMe
  | userBrowserListAddresses
  | userBrowserCreateAddress
  | userBrowserUpdateAddress
  | userBrowserDeleteAddress
  | userBrowserSetDefaultAddress
  | userBrowserGetSettings
  | userBrowserUpdateSettings
  | userBrowserGetAvatar
  | userBrowserSetAvatar
  | userBrowserClearAvatar
  | realtimeChat
  | realtimeNotifications
  | fileCreateUpload
  | fileCompleteUpload
  | fileGetStatus
  | fileCreateDownload
  | fileDelete
  | unknown (value : Int)
  deriving DecidableEq, Repr, Inhabited

inductive MetadataKey where
  | unspecified
  | contentType
  | traceparent
  | tracestate
  | sessionAssertion
  | unknown (value : Int)
  deriving DecidableEq, Repr, Inhabited

inductive CancelReason where
  | unspecified
  | caller
  | deadline
  | drain
  | policy
  | unknown (value : Int)
  deriving DecidableEq, Repr, Inhabited

inductive ResultCode where
  | unspecified
  | ok
  | invalidArgument
  | unauthenticated
  | permissionDenied
  | notFound
  | conflict
  | resourceExhausted
  | deadlineExceeded
  | canceled
  | unavailable
  | internal
  | unknown (value : Int)
  deriving DecidableEq, Repr, Inhabited

inductive DrainReason where
  | unspecified
  | maintenance
  | shutdown
  | overload
  | unknown (value : Int)
  deriving DecidableEq, Repr, Inhabited

/-! ## Messages -/

/-- `google.protobuf.Timestamp`. -/
structure Timestamp where
  seconds : Int
  nanos : Int
  deriving DecidableEq, Repr, Inhabited

/-- `google.protobuf.Duration`. -/
structure Duration where
  seconds : Int
  nanos : Int
  deriving DecidableEq, Repr, Inhabited

/-- A Go `time.Time`, in nanoseconds since the Unix epoch. -/
abbrev Time := Int

/-- `timestamppb.New`: the nanosecond part is never negative. -/
def Timestamp.new (t : Time) : Timestamp := ⟨t / 1000000000, t % 1000000000⟩

/-- `Timestamp.AsTime`. -/
def Timestamp.asTime (t : Timestamp) : Time := t.seconds * 1000000000 + t.nanos

/-- `FrameHeader`. -/
structure FrameHeader where
  protocolVersion : Nat := 0
  tunnelId : Bytes := []
  requestId : Bytes := []
  sequence : Nat := 0
  trafficClass : TrafficClass := .unspecified
  deriving DecidableEq, Repr, Inhabited

/-- The seven negotiated ceilings. -/
structure Limits where
  maxFrameBytes : Nat
  maxDataBytes : Nat
  maxMessageBytes : Nat
  maxInFlightRequests : Nat
  maxMetadataEntries : Nat
  maxMetadataValueBytes : Nat
  maxCreditBytes : Nat
  deriving DecidableEq, Repr, Inhabited

structure Metadata where
  key : MetadataKey
  value : Bytes
  deriving DecidableEq, Repr, Inhabited

/-- `Open`.  Metadata is a slice of pointers, and a caller of gateway-in may pass a nil one. -/
structure Open where
  routeId : RouteId
  deadline : Option Timestamp
  idempotencyKey : Bytes
  metadata : List (Option Metadata)
  deriving DecidableEq, Repr, Inhabited

structure Result where
  code : ResultCode
  retryAfter : Option Duration := none
  metadata : List (Option Metadata) := []
  deriving DecidableEq, Repr, Inhabited

structure Drain where
  deadline : Option Timestamp
  reason : DrainReason
  deriving DecidableEq, Repr, Inhabited

structure GatewayOutHello where
  instanceId : Bytes
  supportedProtocolVersions : List Nat
  capabilities : List Capability
  trafficClasses : List TrafficClass
  routeIds : List RouteId
  limits : Option Limits
  deriving DecidableEq, Repr, Inhabited

structure GatewayInHello where
  instanceId : Bytes
  selectedProtocolVersion : Nat
  capabilities : List Capability
  trafficClasses : List TrafficClass
  routeIds : List RouteId
  limits : Option Limits
  deriving DecidableEq, Repr, Inhabited

/-- The payloads gateway-out may send.  `none` is an unset oneof. -/
inductive RequestPayload where
  | none
  | hello (hello : GatewayOutHello)
  | data (payload : Bytes)
  | halfClose
  | cancel (reason : CancelReason)
  | result (result : Result)
  | credit (bytes : Nat)
  | ping (nonce : Nat)
  | pong (nonce : Nat)
  | drain (drain : Drain)
  | revokeSession (sessionId : Bytes)
  deriving DecidableEq, Repr, Inhabited

/-- The payloads gateway-in may send. -/
inductive ResponsePayload where
  | none
  | hello (hello : GatewayInHello)
  | opened (request : Open)
  | data (payload : Bytes)
  | halfClose
  | cancel (reason : CancelReason)
  | credit (bytes : Nat)
  | ping (nonce : Nat)
  | pong (nonce : Nat)
  | drain (drain : Drain)
  deriving DecidableEq, Repr, Inhabited

/-- A frame from gateway-out to gateway-in. -/
structure ConnectRequest where
  header : FrameHeader
  payload : RequestPayload
  deriving DecidableEq, Repr, Inhabited

/-- A frame from gateway-in to gateway-out. -/
structure ConnectResponse where
  header : FrameHeader
  payload : ResponsePayload
  deriving DecidableEq, Repr, Inhabited

/-! ## What a frame carries

The flow-control arithmetic of both ends only ever looks at the bytes a frame carries or grants. -/

/-- The response bytes a frame carries. -/
def ConnectRequest.data (f : ConnectRequest) : Bytes :=
  match f.payload with
  | .data b => b
  | _ => []

/-- The bytes a frame of gateway-out lets gateway-in send. -/
def ConnectRequest.credit (f : ConnectRequest) : Nat :=
  match f.payload with
  | .credit n => n
  | _ => 0

/-- The request bytes a frame carries. -/
def ConnectResponse.data (f : ConnectResponse) : Bytes :=
  match f.payload with
  | .data b => b
  | _ => []

/-- The bytes a frame of gateway-in lets gateway-out send. -/
def ConnectResponse.credit (f : ConnectResponse) : Nat :=
  match f.payload with
  | .credit n => n
  | _ => 0

/-- The response bytes some frames carry together. -/
def responseBytes (frames : List ConnectRequest) : Bytes := frames.flatMap ConnectRequest.data

/-- The request bytes some frames carry together. -/
def requestBytes (frames : List ConnectResponse) : Bytes := frames.flatMap ConnectResponse.data

@[simp] theorem responseBytes_append (l l' : List ConnectRequest) :
    responseBytes (l ++ l') = responseBytes l ++ responseBytes l' := List.flatMap_append

@[simp] theorem requestBytes_append (l l' : List ConnectResponse) :
    requestBytes (l ++ l') = requestBytes l ++ requestBytes l' := List.flatMap_append

/-- The request bytes some frames of gateway-out let gateway-in send together. -/
def requestCredit (frames : List ConnectRequest) : Nat := (frames.map ConnectRequest.credit).sum

/-- The response bytes some frames of gateway-in let gateway-out send together. -/
def responseCredit (frames : List ConnectResponse) : Nat := (frames.map ConnectResponse.credit).sum

@[simp] theorem requestCredit_append (l l' : List ConnectRequest) :
    requestCredit (l ++ l') = requestCredit l + requestCredit l' := by
  simp [requestCredit]

@[simp] theorem responseCredit_append (l l' : List ConnectResponse) :
    responseCredit (l ++ l') = responseCredit l + responseCredit l' := by
  simp [responseCredit]

@[simp] theorem requestCredit_singleton (f : ConnectRequest) : requestCredit [f] = f.credit := by
  simp [requestCredit]

@[simp] theorem responseCredit_singleton (f : ConnectResponse) : responseCredit [f] = f.credit := by
  simp [responseCredit]

@[simp] theorem requestCredit_nil : requestCredit [] = 0 := rfl

@[simp] theorem responseBytes_singleton (f : ConnectRequest) : responseBytes [f] = f.data :=
  List.flatMap_singleton _ _

@[simp] theorem requestBytes_singleton (f : ConnectResponse) : requestBytes [f] = f.data :=
  List.flatMap_singleton _ _

/-! ## The encoded size of a frame

Both ends compare `proto.Size` of a frame with the negotiated `max_frame_bytes`.  The size is a
property of the proto3 wire format: a scalar or bytes field at its default is left out, a set
message field costs its tag, its length and its body, and a repeated enumeration is packed.  Tags
of the fields 16 and up take two bytes, all the others one. -/

def TrafficClass.number : TrafficClass → Int
  | .unspecified => 0
  | .controlAuth => 1
  | .regular => 2
  | .realtime => 3
  | .unknown n => n

def Capability.number : Capability → Int
  | .unspecified => 0
  | .drain => 1
  | .sessionRevocation => 2
  | .realtime => 3
  | .unknown n => n

def MetadataKey.number : MetadataKey → Int
  | .unspecified => 0
  | .contentType => 1
  | .traceparent => 2
  | .tracestate => 3
  | .sessionAssertion => 4
  | .unknown n => n

def CancelReason.number : CancelReason → Int
  | .unspecified => 0
  | .caller => 1
  | .deadline => 2
  | .drain => 3
  | .policy => 4
  | .unknown n => n

def ResultCode.number : ResultCode → Int
  | .unspecified => 0
  | .ok => 1
  | .invalidArgument => 2
  | .unauthenticated => 3
  | .permissionDenied => 4
  | .notFound => 5
  | .conflict => 6
  | .resourceExhausted => 7
  | .deadlineExceeded => 8
  | .canceled => 9
  | .unavailable => 10
  | .internal => 11
  | .unknown n => n

def DrainReason.number : DrainReason → Int
  | .unspecified => 0
  | .maintenance => 1
  | .shutdown => 2
  | .overload => 3
  | .unknown n => n

def RouteId.number : RouteId → Int
  | .unspecified => 0
  | .authRegisterCredentials => 1
  | .authLogin => 2
  | .authRefreshSession => 3
  | .authRevokeSession => 4
  | .authSessionAssertion => 5
  | .authLogoutAll => 6
  | .authStartLoginCodeChange => 7
  | .authCompleteLoginCodeChange => 8
  | .authChangePassword => 9
  | .authStartLogin => 10
  | .authCompleteLogin => 11
  | .authResendLoginCode => 12
  | .authRequestEmailVerification => 13
  | .authConfirmEmail => 14
  | .authRequestPasswordReset => 15
  | .authConfirmPasswordReset => 16
  | .authGetCredentials => 17
  | .authStartEmailChange => 18
  | .authConfirmEmailChange => 19
  | .authCancelEmailChange => 20
  | .authListSessions => 21
  | .authRevokeOwnedSession => 22
  | .authRequestAccountDeletion => 23
  | .authCancelAccountDeletion => 24
  | .userGetMe => 100
  | .userUpdateMe => 101
  | .userBrowserGetMe => 102
  | .userBrowserUpdateMe => 103
  | .userBrowserListAddresses => 104
  | .userBrowserCreateAddress => 105
  | .userBrowserUpdateAddress => 106
  | .userBrowserDeleteAddress => 107
  | .userBrowserSetDefaultAddress => 108
  | .userBrowserGetSettings => 109
  | .userBrowserUpdateSettings => 110
  | .userBrowserGetAvatar => 111
  | .userBrowserSetAvatar => 112
  | .userBrowserClearAvatar => 113
  | .realtimeChat => 200
  | .realtimeNotifications => 201
  | .fileCreateUpload => 300
  | .fileCompleteUpload => 301
  | .fileGetStatus => 302
  | .fileCreateDownload => 303
  | .fileDelete => 304
  | .unknown n => n

/-! ## Fields -/

/-- Bytes of a varint.  A negative number is sign-extended to 64 bits. -/
def sizeVarint (n : Int) : Nat := if n < 0 then 10 else n.toNat.log2 / 7 + 1

/-- A varint field with a one-byte tag, left out at zero. -/
def sizeScalar (n : Int) : Nat := if n = 0 then 0 else 1 + sizeVarint n

/-- The length prefix and the body of a length-delimited field. -/
def sizeDelimited (body : Nat) : Nat := sizeVarint body + body

/-- A bytes field with a one-byte tag, left out when empty. -/
def sizeBytes (b : Bytes) : Nat := if b = [] then 0 else 1 + sizeDelimited b.length

/-- A set message field whose tag takes `tag` bytes. -/
def sizeMessage (tag body : Nat) : Nat := tag + sizeDelimited body

/-- A packed repeated varint field, left out when empty. -/
def sizePacked (ns : List Int) : Nat :=
  if ns = [] then 0 else 1 + sizeDelimited (ns.map sizeVarint).sum

/-! ## Messages -/

def FrameHeader.size (h : FrameHeader) : Nat :=
  sizeScalar h.protocolVersion + sizeBytes h.tunnelId + sizeBytes h.requestId +
    sizeScalar h.sequence + sizeScalar h.trafficClass.number

def Timestamp.size (t : Timestamp) : Nat := sizeScalar t.seconds + sizeScalar t.nanos

def Duration.size (d : Duration) : Nat := sizeScalar d.seconds + sizeScalar d.nanos

def Metadata.size (m : Metadata) : Nat := sizeScalar m.key.number + sizeBytes m.value

def Limits.size (l : Limits) : Nat :=
  sizeScalar l.maxFrameBytes + sizeScalar l.maxDataBytes + sizeScalar l.maxMessageBytes +
    sizeScalar l.maxInFlightRequests + sizeScalar l.maxMetadataEntries +
    sizeScalar l.maxMetadataValueBytes + sizeScalar l.maxCreditBytes

/-- A repeated message field; a nil entry is encoded as an empty message. -/
def sizeMetadata (entries : List (Option Metadata)) : Nat :=
  (entries.map fun entry ↦ sizeMessage 1 ((entry.map Metadata.size).getD 0)).sum

/-- An optional message field. -/
def sizeOptional {α : Type} (size : α → Nat) (value : Option α) : Nat :=
  (value.map fun v ↦ sizeMessage 1 (size v)).getD 0

def Open.size (o : Open) : Nat :=
  sizeScalar o.routeId.number + sizeOptional Timestamp.size o.deadline +
    sizeBytes o.idempotencyKey + sizeMetadata o.metadata

def Result.size (r : Result) : Nat :=
  sizeScalar r.code.number + sizeOptional Duration.size r.retryAfter + sizeMetadata r.metadata

def Drain.size (d : Drain) : Nat :=
  sizeOptional Timestamp.size d.deadline + sizeScalar d.reason.number

def GatewayOutHello.size (h : GatewayOutHello) : Nat :=
  sizeBytes h.instanceId + sizePacked (h.supportedProtocolVersions.map Int.ofNat) +
    sizePacked (h.capabilities.map Capability.number) +
    sizePacked (h.trafficClasses.map TrafficClass.number) +
    sizePacked (h.routeIds.map RouteId.number) + sizeOptional Limits.size h.limits

def GatewayInHello.size (h : GatewayInHello) : Nat :=
  sizeScalar h.selectedProtocolVersion + sizePacked (h.capabilities.map Capability.number) +
    sizePacked (h.trafficClasses.map TrafficClass.number) +
    sizePacked (h.routeIds.map RouteId.number) + sizeOptional Limits.size h.limits +
    sizeBytes h.instanceId

/-- The payload field of a `ConnectRequest`: `hello` is field 10 and `revoke_session` field 19. -/
def RequestPayload.size : RequestPayload → Nat
  | .none => 0
  | .hello h => sizeMessage 1 h.size
  | .data b => sizeMessage 1 (sizeBytes b)
  | .halfClose => sizeMessage 1 0
  | .cancel r => sizeMessage 1 (sizeScalar r.number)
  | .result r => sizeMessage 1 r.size
  | .credit n => sizeMessage 1 (sizeScalar n)
  | .ping n => sizeMessage 2 (sizeScalar n)
  | .pong n => sizeMessage 2 (sizeScalar n)
  | .drain d => sizeMessage 2 d.size
  | .revokeSession b => sizeMessage 2 (sizeBytes b)

/-- The payload field of a `ConnectResponse`: `hello` is field 10 and `drain` field 18. -/
def ResponsePayload.size : ResponsePayload → Nat
  | .none => 0
  | .hello h => sizeMessage 1 h.size
  | .opened o => sizeMessage 1 o.size
  | .data b => sizeMessage 1 (sizeBytes b)
  | .halfClose => sizeMessage 1 0
  | .cancel r => sizeMessage 1 (sizeScalar r.number)
  | .credit n => sizeMessage 1 (sizeScalar n)
  | .ping n => sizeMessage 2 (sizeScalar n)
  | .pong n => sizeMessage 2 (sizeScalar n)
  | .drain d => sizeMessage 2 d.size

/-- `proto.Size` of a frame from gateway-out. -/
def ConnectRequest.size (f : ConnectRequest) : Nat :=
  sizeMessage 1 f.header.size + f.payload.size

/-- `proto.Size` of a frame from gateway-in. -/
def ConnectResponse.size (f : ConnectResponse) : Nat :=
  sizeMessage 1 f.header.size + f.payload.size

end Protocol
end MarketMesh
