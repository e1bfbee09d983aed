import MarketMesh.Auth.Security

/-!
# The registration event

The fact that an account was registered, and its representation on the wire.  Auth and User each
have a copy of the code; a payload is accepted only if it is the canonical encoding of its event, so
the event and the payload determine each other.
-/

set_option autoImplicit false

namespace MarketMesh.Registration

open Auth

structure Event extends Auth.Registration where
  traceID : ChallengeID := zeroID
  causationID : ChallengeID := zeroID

/-- The protobuf message; `unknown` has the fields that the schema does not have. -/
structure AccountRegisteredEvent where
  eventId : Auth.Bytes
  eventType : String
  schemaVersion : Nat
  occurredAtUnixNano : Int
  producer : String
  traceId : Auth.Bytes
  causationId : Auth.Bytes
  subjectId : Auth.Bytes
  unknown : Auth.Bytes := []
  deriving DecidableEq

/-- The protobuf library: its deterministic encoding, and its decoder. -/
structure Codec where
  encode : AccountRegisteredEvent → Auth.Bytes
  decode : Auth.Bytes → Option AccountRegisteredEvent

def Event.type : String := "auth.account.registered.v1"

def Event.producer : String := "auth"

def Event.schemaVersion : Nat := 1

def maxPayloadBytes : Nat := 8192

/-- An identifier that is zero is not sent. -/
def optionalBytes (id : ChallengeID) : Auth.Bytes :=
  if id = zeroID then [] else id.toList

def Event.message (e : Event) : AccountRegisteredEvent where
  eventId := e.eventID.toList
  eventType := type
  schemaVersion := schemaVersion
  occurredAtUnixNano := e.occurredAt - unixEpoch
  producer := producer
  traceId := optionalBytes e.traceID
  causationId := optionalBytes e.causationID
  subjectId := e.subject.toList

/-- The identifier with these bytes. -/
def readID (raw : Auth.Bytes) : Option ChallengeID :=
  if h : raw.length = 16 then some ⟨raw, h⟩ else none

/-- An identifier that may be missing, and may not be zero. -/
def readOptionalID (raw : Auth.Bytes) : Option ChallengeID :=
  if raw = [] then some zeroID else (readID raw).filter (· ≠ zeroID)

/-- `NewSubjectID` of User. -/
def newSubjectID (raw : Auth.Bytes) : Option SubjectID :=
  (readID raw).filter (· ≠ zeroID)

/-- The event of a message, as far as the fields of the message have the right form.  The two
services differ in how they read a subject: `NewSubjectID` of Auth is `readID`. -/
def AccountRegisteredEvent.event (m : AccountRegisteredEvent)
    (readSubject : Auth.Bytes → Option SubjectID := newSubjectID) : Option Event :=
  if m.unknown ≠ [] ∨ m.eventType ≠ Event.type ∨ m.schemaVersion ≠ Event.schemaVersion ∨
      m.producer ≠ Event.producer then none
  else do
    let eventID ← readID m.eventId
    let subject ← readSubject m.subjectId
    let traceID ← readOptionalID m.traceId
    let causationID ← readOptionalID m.causationId
    pure
      { eventID := eventID
        subject := subject
        occurredAt := unixEpoch + m.occurredAtUnixNano
        traceID := traceID
        causationID := causationID }

variable (codec : Codec)

def marshal (e : Event) : Option Auth.Bytes :=
  if e.Valid then some (codec.encode e.message) else none

def unmarshal (payload : Auth.Bytes) (readSubject : Auth.Bytes → Option SubjectID := newSubjectID) :
    Option Event :=
  if payload = [] ∨ maxPayloadBytes < payload.length then none
  else do
    let message ← codec.decode payload
    let event ← message.event readSubject
    -- `Validate` is the first thing that `Marshal` does
    if marshal codec event = some payload then some event else none

/-- `Unmarshal` of Auth. -/
def authUnmarshal (payload : Auth.Bytes) : Option Event :=
  unmarshal codec payload readID

def validatePayload (payload : Auth.Bytes) (id : ChallengeID) : Bool :=
  (unmarshal codec payload).any (·.eventID = id)

variable {codec} {payload : Auth.Bytes} {e : Event} {readSubject : Auth.Bytes → Option SubjectID}

/-- What is accepted: the canonical payload of its event, which the library decodes. -/
theorem unmarshal_eq_some : unmarshal codec payload readSubject = some e ↔
    (payload ≠ [] ∧ payload.length ≤ maxPayloadBytes ∧
      (codec.decode payload).bind (·.event readSubject) = some e) ∧
    marshal codec e = some payload := by
  unfold unmarshal
  by_cases hsize : payload = [] ∨ maxPayloadBytes < payload.length
  · rw [if_pos hsize]
    simp only [reduceCtorEq, false_iff]
    rintro ⟨⟨hne, hle, -⟩, -⟩
    exact hsize.elim hne hle.not_gt
  · rw [if_neg hsize]
    obtain ⟨hne, hle⟩ := not_or.mp hsize
    simp only [Option.bind_eq_bind, Option.bind_eq_some_iff, Option.ite_none_right_eq_some,
      Option.some.injEq]
    constructor
    · rintro ⟨message, hmessage, event, hevent, hcanonical, rfl⟩
      exact ⟨⟨hne, not_lt.mp hle, message, hmessage, hevent⟩, hcanonical⟩
    · rintro ⟨⟨-, -, message, hmessage, hevent⟩, hcanonical⟩
      exact ⟨message, hmessage, e, hevent, hcanonical, rfl⟩

/-- A payload that is accepted is the canonical one of its event. -/
theorem marshal_of_unmarshal (h : unmarshal codec payload readSubject = some e) :
    marshal codec e = some payload :=
  (unmarshal_eq_some.mp h).2

/-! ## The time of an event -/

/-- `UnixNano`, in 64 bits. -/
def unixNano (t : Time) : Int :=
  (t - unixEpoch).bmod (2 ^ 64)

/-- `Validate`; a time whose nanoseconds overflow is not the one that they stand for. -/
def Event.validate (e : Event) : Bool :=
  e.eventID ≠ zeroID ∧ e.subject ≠ zeroID ∧ e.occurredAt ≠ 0 ∧ 0 < unixNano e.occurredAt ∧
    unixEpoch + unixNano e.occurredAt = e.occurredAt ∧ e.occurredAt % second % 1000 = 0

/-- The nanoseconds since the epoch, where they fit in 64 bits. -/
theorem bmod_sub_eq {epoch t : Int} (hlt : epoch < t) (hle : t - epoch ≤ 2 ^ 63 - 1) :
    (t - epoch).bmod (2 ^ 64) = t - epoch :=
  Int.bmod_eq_of_le (by omega) (by omega)

theorem bmod_sub_iff (epoch t : Int) (hepoch : 0 < epoch) :
    (t ≠ 0 ∧ 0 < (t - epoch).bmod (2 ^ 64) ∧ epoch + (t - epoch).bmod (2 ^ 64) = t ∧
      t % 1000000000 % 1000 = 0) ↔ epoch < t ∧ t - epoch ≤ 2 ^ 63 - 1 ∧ t % 1000 = 0 := by
  have hbound : (t - epoch).bmod (2 ^ 64) < (2 ^ 64 + 1) / 2 := Int.bmod_lt (by decide)
  have heq := @bmod_sub_eq epoch t
  omega

theorem Event.validate_iff (e : Event) : e.validate = true ↔ e.Valid := by
  simp only [validate, decide_eq_true_eq, Registration.Valid]
  exact and_congr_right fun _ ↦ and_congr_right fun _ ↦
    bmod_sub_iff unixEpoch e.occurredAt (by decide)

/-! ## The canonical encoding -/

theorem readID_toList (id : ChallengeID) : readID id.toList = some id :=
  dif_pos id.2

theorem readOptionalID_optionalBytes (id : ChallengeID) :
    readOptionalID (optionalBytes id) = some id := by
  unfold optionalBytes readOptionalID
  split
  · rename_i hid
    rw [if_pos rfl, hid]
  · rename_i hid
    have hne : id.toList ≠ [] := List.ne_nil_of_length_eq_add_one id.toList_length
    rw [if_neg hne, readID_toList, Option.filter_some, if_pos (decide_eq_true hid)]

theorem event_message (h : e.Valid) : e.message.event = some e := by
  have hsubject : newSubjectID e.subject.toList = some e.subject := by
    rw [newSubjectID, readID_toList, Option.filter_some, if_pos (decide_eq_true h.2.1)]
  simp [AccountRegisteredEvent.event, Event.message, hsubject, readID_toList,
    readOptionalID_optionalBytes]

/-- A subject that is not zero is read alike. -/
theorem event_readID {m : AccountRegisteredEvent} (h : e.subject ≠ zeroID) :
    m.event readID = some e ↔ m.event = some e := by
  simp only [AccountRegisteredEvent.event, newSubjectID, Option.ite_none_left_eq_some,
    Option.bind_eq_bind, Option.bind_eq_some_iff, Option.filter_eq_some_iff, decide_eq_true_eq]
  refine and_congr_right fun _ ↦ exists_congr fun _ ↦ and_congr_right fun _ ↦ exists_congr fun x ↦
    and_congr_left ?_
  rintro ⟨_, -, _, -, hpure⟩
  cases hpure
  exact (and_iff_left h).symm

theorem marshal_eq_some :
    marshal codec e = some payload ↔ e.Valid ∧ codec.encode e.message = payload := by
  rw [marshal, Option.ite_none_right_eq_some, Option.some.injEq]

/-- The library decodes the encoding of a message, which has the size of a payload. -/
structure Codec.Reads (codec : Codec) (m : AccountRegisteredEvent) : Prop where
  decode : codec.decode (codec.encode m) = some m
  ne_nil : codec.encode m ≠ []
  length : (codec.encode m).length ≤ maxPayloadBytes

/-- **The events and their payloads correspond.**  A time that passes `Validate` is given by its
nanoseconds; both services accept the same payloads and read the same events; what they accept is
the payload of a valid event, and the payload of every valid event is read as that event; so an
event has one payload, whose hash is the one of the bytes received. -/
theorem canonical_codec (codec : Codec) :
    (∀ e : Event, (e.validate = true ↔ e.Valid) ∧
      (e.Valid → unixNano e.occurredAt = e.message.occurredAtUnixNano)) ∧
    (∀ payload, authUnmarshal codec payload = unmarshal codec payload) ∧
    (∀ payload e, unmarshal codec payload = some e → e.Valid ∧ marshal codec e = some payload) ∧
    (∀ e : Event, e.Valid → codec.Reads e.message →
      ∃ payload, marshal codec e = some payload ∧ unmarshal codec payload = some e) ∧
    (∀ payload payload' e, unmarshal codec payload = some e → unmarshal codec payload' = some e →
      payload = payload') ∧
    ∀ payload e, unmarshal codec payload = some e → ∀ sha256 : Auth.Bytes → Digest,
      (marshal codec e).map sha256 = some (sha256 payload) := by
  refine ⟨fun e ↦ ⟨e.validate_iff, fun hvalid ↦ bmod_sub_eq hvalid.2.2.1 hvalid.2.2.2.1⟩,
    fun payload ↦ Option.ext fun e ↦ ?_, fun payload e he ↦ ?_, fun e hvalid hreads ↦ ?_,
    fun payload payload' e he he' ↦ ?_, fun payload e he sha256 ↦ ?_⟩
  · -- Auth reads a zero subject, too, and then refuses to encode the event
    simp only [authUnmarshal, unmarshal_eq_some, Option.bind_eq_some_iff]
    refine and_congr_left fun hmarshal ↦ ?_
    simp only [event_readID (marshal_eq_some.mp hmarshal).1.2.1]
  · have hmarshal := marshal_of_unmarshal he
    exact ⟨(marshal_eq_some.mp hmarshal).1, hmarshal⟩
  · have hmarshal : marshal codec e = some (codec.encode e.message) := if_pos hvalid
    refine ⟨_, hmarshal, unmarshal_eq_some.mpr ⟨⟨hreads.ne_nil, hreads.length, ?_⟩, hmarshal⟩⟩
    rw [hreads.decode, Option.bind_some, event_message hvalid]
  · exact Option.some_inj.mp ((marshal_of_unmarshal he).symm.trans (marshal_of_unmarshal he'))
  · rw [marshal_of_unmarshal he, Option.map_some]

def sampleEvent : Event where
  eventID := List.Vector.replicate 16 1
  subject := List.Vector.replicate 16 2
  occurredAt := unixEpoch + second

/-- Another event with the same identifier. -/
def sampleOther : Event := { sampleEvent with subject := List.Vector.replicate 16 3 }

/-- A number in groups of seven bits, of which there are at most ten. -/
def varint : Nat → Nat → Auth.Bytes
  | 0, _ => []
  | fuel + 1, n =>
    if n < 128 then [UInt8.ofNat n] else UInt8.ofNat (n % 128 + 128) :: varint fuel (n / 128)

/-- A field of the type `bytes`; an empty one is not sent. -/
def bytesField (number : Nat) (value : Auth.Bytes) : Auth.Bytes :=
  if value = [] then [] else varint 10 (8 * number + 2) ++ varint 10 value.length ++ value

/-- The bytes of a message that is well formed. -/
def sampleEncode (m : AccountRegisteredEvent) : Auth.Bytes :=
  let text (s : String) : Auth.Bytes := s.toList.map fun c ↦ UInt8.ofNat c.toNat
  bytesField 1 m.eventId ++ bytesField 2 (text m.eventType) ++ varint 10 24 ++
    varint 10 m.schemaVersion ++ varint 10 32 ++ varint 10 m.occurredAtUnixNano.toNat ++
    bytesField 5 (text m.producer) ++ bytesField 6 m.traceId ++ bytesField 7 m.causationId ++
    bytesField 8 m.subjectId

/-- A codec that reads two messages. -/
def sampleCodec : Codec where
  encode := sampleEncode
  decode payload :=
    [sampleEvent.message, sampleOther.message].find? fun m ↦ sampleEncode m = payload

theorem canonical_codec_sample :
    ∃ payload, marshal sampleCodec sampleEvent = some payload ∧
      unmarshal sampleCodec payload = some sampleEvent :=
  (canonical_codec sampleCodec).2.2.2.1 sampleEvent (by decide)
    ⟨by decide, by decide, by decide⟩

end MarketMesh.Registration
