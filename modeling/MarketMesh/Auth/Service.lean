import MarketMesh.Auth.Family
import MarketMesh.Auth.Token

/-!
# The session service

The calls of the session service, one atomic step at a time: a transaction of PostgreSQL, a command
to Redis, or what a call computes in between.  A command that was sent to Redis may be run at any
later time, any number of times and in any order, and Redis may lose an entry at any time.

The calls that mint tokens, `Start` and `Refresh`, are `Issuer`s; the calls that begin with
`Authenticate` are `Reader`s.  `issues` records, for each version of a session that was committed,
the call that minted its tokens.
-/

set_option autoImplicit false

namespace MarketMesh.Auth

/-- The short-lived state in Redis. -/
structure Access where
  digest : Digest
  version : Int
  expiresAt : Time
  deriving DecidableEq

/-- A command of `Put`. -/
structure PutCommand where
  id : SessionID
  access : Access

/-- The decimal form of a version, as `strconv.FormatInt` writes it. -/
def decimal (version : Int) : List Char :=
  (toString version).toList

/-- The script of `Put` on the entry of its key: the new entry, and whether it returns 1. -/
def putScript (entry : Option Access) (new : Access) : Option Access × Bool :=
  match entry with
  | none => (some new, true)
  | some old =>
    let held := decimal old.version
    let given := decimal new.version
    if given.length < held.length ∨ (held.length = given.length ∧ given < held) then
      (some old, false)
    else if held = given then
      (some old, decide (old.digest = new.digest ∧ old.expiresAt = new.expiresAt))
    else (some new, true)

def second : Duration := 1000000000

/-- The lifetimes of the configuration. -/
structure Lifetimes where
  accessTTL : Duration
  idleTTL : Duration
  absoluteTTL : Duration

structure Tokens where
  record : Record
  access : Token
  refresh : Token

inductive IssuerPc where
  /-- `Prepare` has returned. -/
  | prepared
  /-- The session is committed. -/
  | created
  /-- `Activate` has found the record. -/
  | activating (record : Record)
  /-- `Refresh` has minted tokens and read the clock. -/
  | refreshing (previous : Token) (now : Time)
  | rotated (record : Record) (now : Time)
  /-- `Activate` has called `Put`. -/
  | activated (record : Record)
  /-- `Refresh` has called `Put`. -/
  | refreshed (record : Record)
  | ended

structure Issuer where
  tokens : Tokens
  pc : IssuerPc

/-- What a call does once it has authenticated. -/
inductive ReaderPurpose where
  | authenticate
  | revoke
  | revokeAll
  deriving DecidableEq

inductive ReaderPc where
  | started
  | found (record : Record)
  | read (record : Record) (access : Access)
  | succeeded (record : Record)
  /-- `Revoke` or `RevokeAll` has committed. -/
  | revoked (record : Record)
  | failed

structure Reader where
  purpose : ReaderPurpose
  token : Token
  pc : ReaderPc

/-- A committed version of a session, and the call that minted its tokens. -/
structure Issue where
  id : SessionID
  version : Int
  issuer : Nat

structure Service where
  clock : Time := 0
  tables : SessionTables := {}
  redis : SessionID → Option Access := fun _ ↦ none
  commands : List PutCommand := []
  issuers : List Issuer := []
  readers : List Reader := []
  issues : List Issue := []

namespace Service

/-- A step of the service. -/
inductive Action where
  | tick (time : Time)
  /-- `Prepare` draws an identifier and two secrets. -/
  | prepare (subject : SubjectID) (id : SessionID) (secrets : Bytes)
  /-- `Create` of `Start`. -/
  | create (i : Nat)
  /-- `CreateSession` in a transaction of the security service. -/
  | createSession (i : Nat)
  | activate (i : Nat)
  | publish (i : Nat)
  /-- `Activate` revokes a session whose `Put` was not acknowledged. -/
  | discard (i : Nat)
  | refresh (value : Bytes) (secrets : Bytes)
  | rotate (i : Nat)
  /-- Redis runs a command that was sent. -/
  | deliver (n : Nat)
  /-- Redis loses an entry. -/
  | evict (id : SessionID)
  | authenticate (purpose : ReaderPurpose) (value : Bytes)
  | find (r : Nat)
  | get (r : Nat)
  | check (r : Nat)
  | revoke (r : Nat)
  /-- The security service revokes the sessions of an account. -/
  | revokeSessions (subject : SubjectID)
  | revokeSession (id : SessionID) (subject : SubjectID)

variable (lifetimes : Lifetimes) (sha256 : Bytes → Digest) (s : Service)

/-- The clock in whole seconds. -/
def now : Time := s.clock - s.clock % second

def mint (record : Record) (secrets : Bytes) : Option Tokens := do
  if secrets.length = 64 then
    let access ← newToken record.id (secrets.take 32)
    let refresh ← newToken record.id (secrets.drop 32)
    if sha256 access.value = sha256 refresh.value then none
    else some { record := record, access := access, refresh := refresh }
  else none

/-- `Record{ID: id}`. -/
def emptyRecord (id : SessionID) : Record where
  id := id
  subjectID := zeroID
  version := 0
  createdAt := 0
  accessExpiresAt := 0
  refreshExpiresAt := 0
  expiresAt := 0

/-- The record of a session that `Prepare` mints. -/
def preparedRecord (subject : SubjectID) (id : SessionID) : Record where
  id := id
  subjectID := subject
  version := 1
  createdAt := s.now
  accessExpiresAt := s.now + lifetimes.accessTTL
  refreshExpiresAt := s.now + lifetimes.idleTTL
  expiresAt := s.now + lifetimes.absoluteTTL

def setIssuer (i : Nat) (x : Issuer) : Service :=
  { s with issuers := s.issuers.set i x }

def setReader (r : Nat) (x : Reader) : Service :=
  { s with readers := s.readers.set r x }

/-- A call that mints tokens. -/
def enter (pc : IssuerPc) (tokens : Tokens) : Service :=
  { s with issuers := s.issuers ++ [{ tokens := tokens, pc := pc }] }

/-- The call `i` has committed a version of a session. -/
def commit (i : Nat) (x : Issuer) (pc : IssuerPc) (record : Record) (tables : SessionTables) :
    Service :=
  { s.setIssuer i { x with pc := pc } with
    tables := tables
    issues := s.issues ++ [{ id := record.id, version := record.version, issuer := i }] }

/-- The checks of `Put` before it sends its command. -/
def Puttable (record : Record) (now : Time) : Prop :=
  record.Active now ∧ now < record.accessExpiresAt ∧ record.accessExpiresAt ≤ record.expiresAt
  deriving Decidable

/-- The command `Put` sends, if it sends one. -/
def put (tokens : Tokens) (record : Record) (now : Time) : List PutCommand :=
  if Puttable record now then
    [{ id := record.id
       access :=
        { digest := sha256 tokens.access.value
          version := record.version
          expiresAt := record.accessExpiresAt } }]
  else []

/-- The comparison of `Activate`: the record is the one that was prepared. -/
def SameRecord (record prepared : Record) : Prop :=
  record.id = prepared.id ∧ record.subjectID = prepared.subjectID ∧
    record.version = prepared.version ∧ record.createdAt = prepared.createdAt ∧
    record.accessExpiresAt = prepared.accessExpiresAt ∧
    record.refreshExpiresAt = prepared.refreshExpiresAt ∧ record.expiresAt = prepared.expiresAt
  deriving Decidable

def publish (i : Nat) (x : Issuer) : Option Service :=
  match x.pc with
  | .activating record =>
    if SameRecord record x.tokens.record ∧ record.Active s.now then
      some { s.setIssuer i { x with pc := .activated record } with
        commands := s.commands ++ put sha256 x.tokens record s.now }
    else some (s.setIssuer i { x with pc := .ended })
  | .rotated record now =>
    some { s.setIssuer i { x with pc := .refreshed record } with
      commands := s.commands ++ put sha256 x.tokens record now }
  | _ => none

def rotate (i : Nat) (x : Issuer) : Option Service :=
  match x.pc with
  | .refreshing previous now =>
    match s.tables.rotate previous.id (sha256 previous.value) (sha256 x.tokens.refresh.value) now
        lifetimes.accessTTL lifetimes.idleTTL with
    | (tables, .ok record) => some (s.commit i x (.rotated record now) record tables)
    | (tables, .error _) => some { s.setIssuer i { x with pc := .ended } with tables := tables }
  | _ => none

/-- `Get` of the entry of a session. -/
def get (id : SessionID) : Option Access :=
  if id = zeroID then none
  else (s.redis id).filter fun access ↦ 0 < access.version ∧ access.expiresAt ≠ 0

/-- What `active` and `Authenticate` check. -/
def Authentic (token : Token) (record : Record) (access : Access) (now : Time) : Prop :=
  record.Active now ∧ now < record.accessExpiresAt ∧ now < access.expiresAt ∧
    access.version = record.version ∧ access.expiresAt = record.accessExpiresAt ∧
    sha256 token.value = access.digest
  deriving Decidable

def read (r : Nat) (x : Reader) : Action → Option Service
  | .find _ =>
    match x.pc with
    | .started =>
      match s.tables.find x.token.id with
      | .ok record => some (s.setReader r { x with pc := .found record })
      | .error _ => some (s.setReader r { x with pc := .failed })
    | _ => none
  | .get _ =>
    match x.pc with
    | .found record =>
      match s.get x.token.id with
      | some access => some (s.setReader r { x with pc := .read record access })
      | none => some (s.setReader r { x with pc := .failed })
    | _ => none
  | .check _ =>
    match x.pc with
    | .read record access =>
      if Authentic sha256 x.token record access s.now then
        some (s.setReader r { x with pc := .succeeded record })
      else some (s.setReader r { x with pc := .failed })
    | _ => none
  | .revoke _ =>
    match x.pc, x.purpose with
    | .succeeded record, .revoke => (s.tables.revoke record.id s.now "logout").toOption.map
        fun tables ↦ { s.setReader r { x with pc := .revoked record } with tables := tables }
    | .succeeded record, .revokeAll =>
      (s.tables.revokeAll record.subjectID s.now "logout_all").toOption.map
        fun tables ↦ { s.setReader r { x with pc := .revoked record } with tables := tables }
    | _, _ => none
  | _ => none

def step : Action → Option Service
  | .tick time => if s.clock ≤ time then some { s with clock := time } else none
  | .prepare subject id secrets =>
    if subject = zeroID ∨ id = zeroID then none
    else (mint sha256 (s.preparedRecord lifetimes subject id) secrets).map (s.enter .prepared)
  | .create i =>
    match s.issuers[i]? with
    | some x =>
      match x.pc with
      | .prepared =>
        match s.tables.create x.tokens.record (sha256 x.tokens.refresh.value) with
        | .ok tables => some (s.commit i x .created x.tokens.record tables)
        | .error _ => some (s.setIssuer i { x with pc := .ended })
      | _ => none
    | none => none
  | .createSession i =>
    match s.issuers[i]? with
    | some x =>
      match x.pc with
      | .prepared =>
        match s.tables.insertSession x.tokens.record (sha256 x.tokens.refresh.value) with
        | some tables => some (s.commit i x .created x.tokens.record tables)
        | none => some (s.setIssuer i { x with pc := .ended })
      | _ => none
    | none => none
  | .activate i =>
    match s.issuers[i]? with
    | some x =>
      match x.pc with
      | .created =>
        match s.tables.find x.tokens.record.id with
        | .ok record => some (s.setIssuer i { x with pc := .activating record })
        | .error _ => some (s.setIssuer i { x with pc := .ended })
      | _ => none
    | none => none
  | .publish i => (s.issuers[i]?).bind (s.publish sha256 i)
  | .discard i =>
    match s.issuers[i]? with
    | some x =>
      match x.pc with
      | .activated record =>
        (s.tables.revoke record.id s.now "issuance_failed").toOption.map fun tables ↦
          { s.setIssuer i { x with pc := .ended } with tables := tables }
      | _ => none
    | none => none
  | .refresh value secrets =>
    (parseToken value).bind fun previous ↦
      (mint sha256 (emptyRecord previous.id) secrets).map (s.enter (.refreshing previous s.now))
  | .rotate i => (s.issuers[i]?).bind (s.rotate lifetimes sha256 i)
  | .deliver n => (s.commands[n]?).map fun command ↦
      let entry := (putScript (s.redis command.id) command.access).1
      { s with redis := Function.update s.redis command.id entry }
  | .evict id => some { s with redis := Function.update s.redis id none }
  | .authenticate purpose value => (parseToken value).map fun token ↦
      { s with readers := s.readers ++ [{ purpose := purpose, token := token, pc := .started }] }
  | .find r => (s.readers[r]?).bind fun x ↦ s.read sha256 r x (.find r)
  | .get r => (s.readers[r]?).bind fun x ↦ s.read sha256 r x (.get r)
  | .check r => (s.readers[r]?).bind fun x ↦ s.read sha256 r x (.check r)
  | .revoke r => (s.readers[r]?).bind fun x ↦ s.read sha256 r x (.revoke r)
  | .revokeSessions subject =>
    let owned (row : SessionRow) : Bool := row.record.subjectID = subject
    some { s with tables := s.tables.revokeWhere owned s.now "credential_change" }
  | .revokeSession id subject =>
    let named (row : SessionRow) : Bool := row.record.id = id ∧ row.record.subjectID = subject
    some { s with tables := s.tables.revokeWhere named s.now "administrative" }

end Service

end MarketMesh.Auth
