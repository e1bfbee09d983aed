import Mathlib.Data.Vector.Basic
import MarketMesh.Lib.Table

/-!
# Sessions and their tables

The canonical state of the sessions is in PostgreSQL: `auth.sessions` with the current version and
refresh digest of each session, `auth.consumed_refresh_digests` with the digests that were rotated
away, and `auth.session_revocation_outbox`.  A transaction of the repository is a function on the
three tables; a transaction that is rolled back leaves them as they were.

Times are nanoseconds since the zero time, in the precision the columns have.
-/

set_option autoImplicit false

namespace MarketMesh.Auth

abbrev SessionID := List.Vector UInt8 16

abbrev SubjectID := List.Vector UInt8 16

abbrev Digest := List.Vector UInt8 32

abbrev Time := Int

abbrev Duration := Int

def zeroID : List.Vector UInt8 16 := List.Vector.replicate 16 0

def maxInt64 : Int := 2 ^ 63 - 1

/-- The errors of the session service. -/
inductive SessionErr where
  | invalidSession
  | refreshReuse
  | unavailable
  deriving DecidableEq, Repr

structure Record where
  id : SessionID
  subjectID : SubjectID
  version : Int
  createdAt : Time
  accessExpiresAt : Time
  refreshExpiresAt : Time
  expiresAt : Time
  revokedAt : Option Time := none
  deriving DecidableEq

def Record.Active (record : Record) (now : Time) : Prop :=
  record.id ≠ zeroID ∧ record.subjectID ≠ zeroID ∧ 0 < record.version ∧ record.revokedAt = none ∧
    record.createdAt ≤ now ∧ now < record.expiresAt
  deriving Decidable

def ValidRecord (record : Record) : Prop :=
  record.id ≠ zeroID ∧ record.subjectID ≠ zeroID ∧ 0 < record.version ∧ record.createdAt ≠ 0 ∧
    record.createdAt < record.accessExpiresAt ∧ record.createdAt < record.refreshExpiresAt ∧
    record.accessExpiresAt ≤ record.expiresAt ∧ record.refreshExpiresAt ≤ record.expiresAt
  deriving Decidable

def minTime (a b : Time) : Time :=
  if a < b then a else b

/-- A row of `auth.sessions`. -/
structure SessionRow where
  record : Record
  refreshDigest : Digest

namespace SessionRow

/-- The primary key `session_id`. -/
def id (row : SessionRow) : SessionID := row.record.id

/-- The `CHECK` constraints of the table. -/
def Checked (row : SessionRow) : Prop :=
  0 < row.record.version ∧ row.record.createdAt < row.record.accessExpiresAt ∧
    row.record.accessExpiresAt ≤ row.record.expiresAt ∧
    row.record.createdAt < row.record.refreshExpiresAt ∧
    row.record.refreshExpiresAt ≤ row.record.expiresAt
  deriving Decidable

/-- `SET revoked_at = now`. -/
def revoked (now : Time) (row : SessionRow) : SessionRow :=
  { row with record := { row.record with revokedAt := some now } }

theorem id_revoked (now : Time) (row : SessionRow) : (row.revoked now).id = row.id := rfl

/-- `SET version, refresh_digest, access_expires_at, refresh_expires_at` of a rotation. -/
def rotated (now : Time) (accessTTL idleTTL : Duration) (next : Digest) (row : SessionRow) :
    SessionRow where
  record :=
    { row.record with
      version := row.record.version + 1
      accessExpiresAt := minTime (now + accessTTL) row.record.expiresAt
      refreshExpiresAt := minTime (now + idleTTL) row.record.expiresAt }
  refreshDigest := next

theorem id_rotated (now : Time) (accessTTL idleTTL : Duration) (next : Digest) (row : SessionRow) :
    (row.rotated now accessTTL idleTTL next).id = row.id := rfl

end SessionRow

/-- A row of `auth.consumed_refresh_digests`. -/
structure ConsumedDigest where
  sessionID : SessionID
  digest : Digest
  consumedAt : Time

/-- The primary key `(session_id, digest)`. -/
def ConsumedDigest.key (row : ConsumedDigest) : SessionID × Digest :=
  (row.sessionID, row.digest)

/-- A row of `auth.session_revocation_outbox`. -/
structure Revocation where
  sessionID : SessionID
  subjectID : SubjectID
  version : Int
  occurredAt : Time
  reason : String
  deriving DecidableEq

def validReason (reason : String) : Bool :=
  reason ∈ ["logout", "logout_all", "refresh_reuse", "credential_change", "administrative",
    "issuance_failed"]

structure SessionTables where
  sessions : Table SessionRow.id := ∅
  consumed : Table ConsumedDigest.key := ∅
  revocations : List Revocation := []

namespace SessionTables

variable (tables : SessionTables)

/-- `INSERT INTO auth.sessions`. -/
def insertSession (record : Record) (digest : Digest) : Option SessionTables :=
  let row : SessionRow := { record := record, refreshDigest := digest }
  if row.Checked then
    (tables.sessions.insert row).map fun sessions ↦ { tables with sessions := sessions }
  else none

def create (record : Record) (digest : Digest) : Except SessionErr SessionTables :=
  if ValidRecord record ∧ record.revokedAt = none ∧ record.version = 1 then
    match tables.insertSession record digest with
    | some tables => .ok tables
    | none => .error .unavailable
  else .error .invalidSession

/-- `scanRecord` of the row that a query returned. -/
def scanRecord : Option SessionRow → Except SessionErr Record
  | none => .error .invalidSession
  | some row => if ValidRecord row.record then .ok row.record else .error .unavailable

def find (id : SessionID) : Except SessionErr Record :=
  scanRecord (tables.sessions.find id)

/-- The statement that every revocation is made of: rows that are not revoked yet are revoked, and
each of them gets a row in the outbox. -/
def revokeWhere (p : SessionRow → Bool) (now : Time) (reason : String) : SessionTables :=
  let q (row : SessionRow) : Bool := p row && row.record.revokedAt.isNone
  { tables with
    sessions := tables.sessions.update q (SessionRow.revoked now) (SessionRow.id_revoked now)
    revocations := tables.revocations ++ (tables.sessions.rows.filter q).map fun row ↦
      { sessionID := row.record.id
        subjectID := row.record.subjectID
        version := row.record.version
        occurredAt := now
        reason := reason } }

/-- The transaction of `Rotate` for a session that is active. -/
def rotateActive (row : SessionRow) (previous next : Digest) (now : Time)
    (accessTTL idleTTL : Duration) : SessionTables × Except SessionErr Record :=
  let id := row.record.id
  if row.refreshDigest ≠ previous then
    if (tables.consumed.find (id, previous)).isSome then
      (tables.revokeWhere (fun r ↦ r.record.id = id) now "refresh_reuse", .error .refreshReuse)
    else (tables, .error .invalidSession)
  else if row.record.refreshExpiresAt ≤ now ∨ row.record.version = maxInt64 then
    (tables, .error .invalidSession)
  else if (tables.consumed.find (id, next)).isSome then (tables, .error .invalidSession)
  else
    match tables.consumed.insert { sessionID := id, digest := previous, consumedAt := now } with
    | none => (tables, .error .unavailable)
    | some consumed =>
      let row' := row.rotated now accessTTL idleTTL next
      if row'.Checked then
        ({ tables with
            consumed := consumed
            sessions := tables.sessions.update (fun r ↦ r.record.id = id)
              (SessionRow.rotated now accessTTL idleTTL next)
              (SessionRow.id_rotated now accessTTL idleTTL next) },
          .ok row'.record)
      else (tables, .error .unavailable)

def rotate (id : SessionID) (previous next : Digest) (now : Time) (accessTTL idleTTL : Duration) :
    SessionTables × Except SessionErr Record :=
  if id = zeroID ∨ accessTTL ≤ 0 ∨ idleTTL ≤ 0 ∨ previous = next then
    (tables, .error .invalidSession)
  else
    match tables.sessions.find id with
    | none => (tables, .error .invalidSession)
    | some row =>
      if ValidRecord row.record then
        if row.record.Active now then
          tables.rotateActive row previous next now accessTTL idleTTL
        else (tables, .error .invalidSession)
      else (tables, .error .unavailable)

def revoke (id : SessionID) (now : Time) (reason : String) : Except SessionErr SessionTables :=
  if validReason reason then .ok (tables.revokeWhere (fun r ↦ r.record.id = id) now reason)
  else .error .invalidSession

def revokeAll (subject : SubjectID) (now : Time) (reason : String) :
    Except SessionErr SessionTables :=
  if validReason reason ∧ subject ≠ zeroID then
    .ok (tables.revokeWhere (fun r ↦ r.record.subjectID = subject) now reason)
  else .error .invalidSession

end SessionTables

end MarketMesh.Auth
