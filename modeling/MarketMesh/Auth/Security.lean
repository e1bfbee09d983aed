import Mathlib.Data.List.Sort
import MarketMesh.Auth.Service
import MarketMesh.Lib.Transaction

/-!
# Accounts and challenges

The state behind the security of an account: its credential, its row in `auth.account_security`, the
challenges that were sent to it, the counters that limit attempts, the queued mail and its sessions.

A call works on a `Work`, the unit of the store: the tables as its transaction sees them, and the
account whose row it has locked, as a value it may change.  `withAccount` takes the lock, runs the
call, and writes the account back when the call has returned without an error.  The locks of an
account serialise the calls, so a transaction is one step.

What the environment decides during a call (the clock, the random source, the hash, a statement of
the database that fails) comes from `Inputs`, one answer for each time the call asks.
-/

set_option autoImplicit false

namespace MarketMesh.Auth

abbrev ChallengeID := List.Vector UInt8 16

scoped instance : LawfulBEq ChallengeID := inferInstance

def zeroDigest : Digest := List.Vector.replicate 32 0

/-- A versioned encoded digest, with the bounds `NewPasswordDigest` checks. -/
abbrev PasswordDigest := { value : String // value ≠ "" ∧ value.utf8ByteSize ≤ 512 }

inductive Purpose where
  | loginCode
  | verifyEmail
  | resetPassword
  | changeEmail
  | cancelEmailChange
  | cancelDeletion
  | enableCode
  | disableCode
  deriving DecidableEq, Repr

def Purpose.text : Purpose → String
  | .loginCode => "login"
  | .verifyEmail => "verify"
  | .resetPassword => "reset"
  | .changeEmail => "change_email"
  | .cancelEmailChange => "cancel_email"
  | .cancelDeletion => "cancel_deletion"
  | .enableCode => "enable_code"
  | .disableCode => "disable_code"

/-- The errors a call returns: the bounded reasons, and the errors of a context. -/
inductive Failure where
  | invalidInput
  | invalidCredentials
  | loginLocked
  | codeMismatch
  | codeReissued
  | codeExpired
  | tokenExpired
  | tokenUsed
  | emailUnverified
  | codeRequired
  | rateLimited
  | newDeviceCooldown
  | unavailable
  | notFound
  | canceled
  | deadlineExceeded
  deriving DecidableEq, Repr

def Failure.isExpected : Failure → Bool
  | .unavailable | .canceled | .deadlineExceeded => false
  | _ => true

/-- An error of the database or of the context, as `sanitize` leaves it. -/
inductive Fault where
  | database
  | canceled
  | deadlineExceeded
  deriving DecidableEq, Repr

def Fault.failure : Fault → Failure
  | .database => .unavailable
  | .canceled => .canceled
  | .deadlineExceeded => .deadlineExceeded

@[simp] theorem Fault.isExpected_failure (f : Fault) : f.failure.isExpected = false := by
  cases f <;> rfl

structure Account where
  subject : SubjectID
  email : String
  passwordDigest : PasswordDigest
  verified : Bool
  codeEnabled : Bool
  revision : Int
  deletionAt : Option Time := none
  deletedAt : Option Time := none
  deriving DecidableEq

structure Challenge where
  id : ChallengeID
  subject : SubjectID
  purpose : Purpose
  digest : Digest := zeroDigest
  /-- The browser that created the account; zero means that there is none. -/
  registrationDigest : Digest := zeroDigest
  revision : Int
  email : String := ""
  expiresAt : Time
  sentAt : Time := 0
  attempts : Int := 0
  sends : Int := 0
  usedAt : Option Time := none
  deriving DecidableEq

namespace Challenge

/-- `Check`: the failure, if there is one. -/
def check (c : Challenge) (account : Account) (purpose : Purpose) (now : Time) : Option Failure :=
  if c.id = zeroID ∨ c.subject ≠ account.subject ∨ c.purpose ≠ purpose ∨
      c.revision ≠ account.revision ∨ account.deletedAt ≠ none then some .tokenExpired
  else if c.usedAt ≠ none then some .tokenUsed
  else if c.expiresAt ≤ now then some .tokenExpired
  else none

/-- The `CHECK` constraints of `auth.security_challenges`. -/
def Checked (c : Challenge) : Prop :=
  0 < c.revision ∧ c.email.utf8ByteSize ≤ 254 ∧ 0 ≤ c.attempts ∧ c.attempts ≤ 3 ∧ 1 ≤ c.sends ∧
    c.sends ≤ 5 ∧ (c.registrationDigest = zeroDigest ∨ c.purpose = .verifyEmail)
  deriving Decidable

/-- `ORDER BY sent_at DESC, challenge_id DESC`. -/
def IsLater (c d : Challenge) : Prop :=
  d.sentAt < c.sentAt ∨ (c.sentAt = d.sentAt ∧ d.id.toList < c.id.toList)
  deriving Decidable

/-- The columns that `ON CONFLICT DO UPDATE` sets. -/
def updated (c old : Challenge) : Challenge :=
  { old with
    digest := c.digest
    expiresAt := c.expiresAt
    sentAt := c.sentAt
    attempts := c.attempts
    sends := c.sends
    usedAt := c.usedAt }

theorem id_updated (c old : Challenge) : (c.updated old).id = old.id := rfl

end Challenge

structure Mail where
  id : ChallengeID
  subject : SubjectID
  kind : String
  email : String
  otherEmail : String := ""
  url : String
  code : Bytes := []
  at' : Time
  expiresAt : Time
  timeZone : String
  deriving DecidableEq

/-! ## The tables -/

/-- A row of `auth.credentials`. -/
structure CredentialRow where
  subject : SubjectID
  identifier : String
  passwordDigest : PasswordDigest

/-- The columns that `WithAccount` writes. -/
def CredentialRow.saved (account : Account) (row : CredentialRow) : CredentialRow :=
  { row with identifier := account.email, passwordDigest := account.passwordDigest }

theorem CredentialRow.subject_saved (account : Account) (row : CredentialRow) :
    (row.saved account).subject = row.subject := rfl

/-- A row of `auth.account_security`, with the defaults of its columns. -/
structure SecurityRow where
  subject : SubjectID
  verified : Bool := false
  codeEnabled : Bool := true
  revision : Int := 1
  deletionAt : Option Time := none
  deletedAt : Option Time := none

def SecurityRow.saved (account : Account) (row : SecurityRow) : SecurityRow :=
  { row with
    verified := account.verified
    codeEnabled := account.codeEnabled
    revision := account.revision
    deletionAt := account.deletionAt
    deletedAt := account.deletedAt }

theorem SecurityRow.subject_saved (account : Account) (row : SecurityRow) :
    (row.saved account).subject = row.subject := rfl

/-- A row of `auth.login_limits`. -/
structure Limit where
  attempts : Int
  expiresAt : Time

/-- A counter whose window has run out begins again. -/
def Limit.current (row : Limit) (now : Time) (window : Duration) : Limit :=
  if row.expiresAt ≤ now then { attempts := 0, expiresAt := now + window } else row

/-- A row of `auth.registration_outbox`. -/
structure Registration where
  eventID : ChallengeID
  subject : SubjectID
  occurredAt : Time

/-- The start of Unix time. -/
def unixEpoch : Time := 62135596800 * second

/-- `Validate`: a positive Unix time in whole microseconds that fits in 64 bits. -/
def Registration.Valid (e : Registration) : Prop :=
  e.eventID ≠ zeroID ∧ e.subject ≠ zeroID ∧ unixEpoch < e.occurredAt ∧
    e.occurredAt - unixEpoch ≤ maxInt64 ∧ e.occurredAt % 1000 = 0
  deriving Decidable

structure Accounts where
  credentials : Table CredentialRow.subject := ∅
  security : Table SecurityRow.subject := ∅
  challenges : Table Challenge.id := ∅

structure Store where
  accounts : Accounts := {}
  sessions : SessionTables := {}
  limits : Digest → Option Limit := fun _ ↦ none
  mails : Table Mail.id := ∅
  registrations : Table Registration.eventID := ∅

/-- How an account is looked up. -/
inductive Selector where
  | email (email : String)
  | subject (subject : SubjectID)

/-- The selector chooses nothing. -/
def Selector.isEmpty : Selector → Bool
  | .email value => value = ""
  | .subject id => id = zeroID

namespace Accounts

variable (t : Accounts)

def lookup : Selector → Option CredentialRow
  | .email email => t.credentials.rows.find? fun row ↦ row.identifier = email
  | .subject subject => t.credentials.find subject

/-- `INSERT INTO auth.account_security(subject_id) … ON CONFLICT DO NOTHING`. -/
def ensureSecurity (subject : SubjectID) : Accounts :=
  match t.security.insert { subject := subject } with
  | some security => { t with security := security }
  | none => t

/-- The account as a credential and its row of `auth.account_security` make it. -/
def assemble (row : CredentialRow) (s : SecurityRow) : Account where
  subject := row.subject
  email := row.identifier
  passwordDigest := row.passwordDigest
  verified := s.verified
  codeEnabled := s.codeEnabled
  revision := s.revision
  deletionAt := s.deletionAt
  deletedAt := s.deletedAt

/-- `UPDATE auth.credentials`; the identifier is unique and has 3 to 254 bytes. -/
def saveCredential (account : Account) : Option Accounts :=
  let size := account.email.utf8ByteSize
  if size < 3 ∨ 254 < size ∨
      t.credentials.rows.any fun row ↦
        row.identifier = account.email ∧ row.subject ≠ account.subject then none
  else
    some { t with
      credentials := t.credentials.update (fun row ↦ row.subject = account.subject)
        (CredentialRow.saved account) (CredentialRow.subject_saved account) }

/-- `UPDATE auth.account_security`. -/
def saveSecurity (account : Account) : Option Accounts :=
  if 0 < account.revision then
    some { t with
      security := t.security.update (fun row ↦ row.subject = account.subject)
        (SecurityRow.saved account) (SecurityRow.subject_saved account) }
  else none

/-- What `WithAccount` writes back. -/
def saveAccount (before after : Account) : Option Accounts :=
  if after.subject ≠ before.subject then none
  else if after.email ≠ before.email ∨ after.passwordDigest ≠ before.passwordDigest then
    (t.saveCredential after).bind fun t ↦ t.saveSecurity after
  else if after ≠ before then t.saveSecurity after
  else some t

/-- `INSERT INTO auth.security_challenges … ON CONFLICT(challenge_id) DO UPDATE … WHERE` the subject
and the purpose are the same. -/
def upsertChallenge (c : Challenge) : Option Accounts :=
  if c.Checked then
    match t.challenges.insert c with
    | some challenges => some { t with challenges := challenges }
    | none =>
      let same (old : Challenge) : Bool :=
        old.id = c.id ∧ old.subject = c.subject ∧ old.purpose = c.purpose
      some { t with challenges := t.challenges.update same c.updated c.id_updated }
  else none

def latestChallenge (subject : SubjectID) (purpose : Purpose) : Option Challenge :=
  (t.challenges.rows.filter fun c ↦ c.subject = subject ∧ c.purpose = purpose).foldl
    (fun latest c ↦
      match latest with
      | none => some c
      | some d => if c.IsLater d then some c else some d) none

end Accounts

/-! ## The unit of work -/

/-- How `COMMIT` ends.  When its answer is lost, the transaction has been committed all the same. -/
inductive Commit where
  | done
  | refused (fault : Fault)
  | lost (fault : Fault)

/-- What the environment answers; the index is the number of questions before. -/
structure Inputs where
  clock : Nat → Time
  faults : Nat → Option Fault := fun _ ↦ none
  ids : Nat → Option ChallengeID := fun _ ↦ none
  secrets : Nat → Option Bytes := fun _ ↦ none
  /-- The codes that are drawn until one is taken. -/
  codes : Nat → List (Fin 1000000) := fun _ ↦ []
  hashes : Nat → Bytes → Option PasswordDigest := fun _ _ ↦ none
  /-- `EqualizeMissing` succeeds. -/
  equalized : Bool := true
  sessionIDs : Nat → Option SessionID := fun _ ↦ none
  sessionSecrets : Nat → Option Bytes := fun _ ↦ none
  timeZone : String := ""
  commit : Commit := .done

/-- The security service: its configuration and its collaborators. -/
structure Security where
  lifetimes : Lifetimes
  sha256 : Bytes → Digest
  /-- HMAC of a purpose, an identifier and a value under the key of the service. -/
  digest : String → ChallengeID → Bytes → Digest
  origin : String
  /-- `domain.Email`. -/
  email : String → Option String
  /-- `credential.NewPassword`, for a password that is to be verified. -/
  password : Bytes → Option Bytes
  /-- `domain.NewPassword`. -/
  newPassword : Bytes → Option Bytes
  /-- Whether the password is the one of the digest, and whether it should be hashed again. -/
  verify : Bytes → PasswordDigest → Option (Bool × Bool)
  /-- The length of a mail as JSON. -/
  payloadSize : Mail → Nat

/-- What a call works on. -/
structure Work where
  store : Store
  account : Option Account
  /-- The tokens of the session that the call has created. -/
  issued : Option Tokens := none
  /-- How often the call has asked the environment. -/
  asked : Nat := 0

abbrev Handler (α : Type) := Txn Work Failure α

namespace Work

/-- Ask the environment; no answer is an error of it. -/
def ask {α : Type} (answers : Nat → Option α) : Handler α := fun w ↦
  match answers w.asked with
  | some a => (.ok a, { w with asked := w.asked + 1 })
  | none => (.error .unavailable, w)

variable (inputs : Inputs)

/-- `now`, in whole seconds. -/
def now : Handler Time := fun w ↦
  (.ok (inputs.clock w.asked - inputs.clock w.asked % second), { w with asked := w.asked + 1 })

/-- A statement of the database, which may fail. -/
def statement : Handler PUnit := fun w ↦
  match inputs.faults w.asked with
  | some fault => (.error fault.failure, w)
  | none => (.ok ⟨⟩, { w with asked := w.asked + 1 })

/-- `Account`. -/
def account? : Handler (Option Account) := fun w ↦ (.ok w.account, w)

/-- The account, where the code knows that there is one. -/
def account! : Handler Account := fun w ↦
  match w.account with
  | some account => (.ok account, w)
  | none => (.error .unavailable, w)

/-- The call changes the account it holds. -/
def setAccount (account : Account) : Handler PUnit := fun w ↦
  (.ok ⟨⟩, { w with account := some account })

/-- New tables, unless a constraint is violated. -/
def write (f : Store → Option Store) : Handler PUnit := fun w ↦
  match f w.store with
  | some store => (.ok ⟨⟩, { w with store := store })
  | none => (.error .unavailable, w)

/-- `Challenge`: the challenge of the account with this identifier. -/
def challenge (id : ChallengeID) : Handler Challenge := do
  match ← account? with
  | none => .fail .tokenExpired
  | some account =>
    statement inputs
    let w ← Txn.get
    match (w.store.accounts.challenges.find id).filter fun c ↦ c.subject = account.subject with
    | some c => pure c
    | none => .fail .tokenExpired

def latestChallenge (purpose : Purpose) : Handler (Option Challenge) := do
  match ← account? with
  | none => pure none
  | some account =>
    statement inputs
    let w ← Txn.get
    pure (w.store.accounts.latestChallenge account.subject purpose)

def saveChallenge (c : Challenge) : Handler PUnit := do
  match ← account? with
  | none => .fail .unavailable
  | some account =>
    if c.subject ≠ account.subject then .fail .unavailable
    else
      statement inputs
      write fun s ↦ (s.accounts.upsertChallenge c).map fun accounts ↦
        { s with accounts := accounts }

def setLimit (bucket : Digest) (row : Option Limit) : Handler PUnit :=
  write fun s ↦ some { s with limits := Function.update s.limits bucket row }

/-- `ReserveBudget`: the number of the attempt, or more than `limit`. -/
def reserveBudget (bucket : Digest) (now : Time) (limit : Int) (window : Duration) :
    Handler Int := do
  if limit < 1 ∨ 100 < limit ∨ window < second then .fail .unavailable
  else
    statement inputs
    let w ← Txn.get
    let stored := (w.store.limits bucket).getD { attempts := 0, expiresAt := now + window }
    setLimit bucket (some stored)
    statement inputs
    let row := stored.current now window
    if limit ≤ row.attempts then pure (limit + 1)
    else
      statement inputs
      setLimit bucket (some { row with attempts := row.attempts + 1 })
      pure (row.attempts + 1)

def reserveAttempt (bucket : Digest) (now : Time) : Handler Int :=
  reserveBudget inputs bucket now 5 (15 * 60 * second)

def resetAttempts (bucket : Digest) : Handler PUnit := do
  statement inputs
  setLimit bucket none

/-- `Queue`; the key of the outbox is the identifier of the mail. -/
def queue (env : Security) (m : Mail) : Handler PUnit := do
  match ← account? with
  | none => .fail .unavailable
  | some account =>
    if m.subject ≠ account.subject ∨ m.id = zeroID ∨ m.email = "" ∨ m.expiresAt ≤ m.at' ∨
        16384 < env.payloadSize m then .fail .unavailable
    else
      statement inputs
      write fun s ↦ (s.mails.insert m).map fun mails ↦ { s with mails := mails }

/-! ### Sessions -/

/-- The row `CheckSession` asks for: active, and at the version the actor has. -/
def IsCurrent (record : Record) (now : Time) (row : SessionRow) : Prop :=
  row.record.subjectID = record.subjectID ∧ row.record.revokedAt = none ∧
    now < row.record.accessExpiresAt ∧ now < row.record.expiresAt ∧
    row.record.version = record.version
  deriving Decidable

/-- The checks of the account that sessions are created and used under. -/
def IsOwner (account : Account) (subject : SubjectID) : Prop :=
  account.subject = subject ∧ account.deletionAt = none ∧ account.deletedAt = none
  deriving Decidable

def checkSession (record : Record) (now : Time) : Handler PUnit := do
  match ← account? with
  | none => .fail .invalidCredentials
  | some account =>
    if IsOwner account record.subjectID then
      statement inputs
      let w ← Txn.get
      match w.store.sessions.sessions.find record.id with
      | some row => if IsCurrent record now row then pure ⟨⟩ else .fail .invalidCredentials
      | none => .fail .invalidCredentials
    else .fail .invalidCredentials

def setIssued (tokens : Tokens) : Handler PUnit := fun w ↦
  (.ok ⟨⟩, { w with issued := some tokens })

def createSession (tokens : Tokens) (digest : Digest) : Handler PUnit := do
  match ← account? with
  | none => .fail .invalidCredentials
  | some account =>
    if IsOwner account tokens.record.subjectID ∧ account.verified then
      statement inputs
      write fun s ↦ (s.sessions.insertSession tokens.record digest).map fun sessions ↦
        { s with sessions := sessions }
      setIssued tokens
    else .fail .invalidCredentials

/-- The statement of `RevokeSessions` and `RevokeSession`. -/
def revokeWhere (p : SessionRow → Bool) (now : Time) (reason : String) : Handler PUnit := do
  match ← account? with
  | none => .fail .invalidCredentials
  | some account =>
    statement inputs
    write fun s ↦
      let owned (row : SessionRow) : Bool := p row && row.record.subjectID = account.subject
      some { s with sessions := s.sessions.revokeWhere owned now reason }

def revokeSessions (now : Time) : Handler PUnit :=
  revokeWhere inputs (fun _ ↦ true) now "credential_change"

def revokeSession (id : SessionID) (now : Time) : Handler PUnit :=
  revokeWhere inputs (fun row ↦ row.record.id = id) now "administrative"

/-- `Sessions`: at most 100, the newest first. -/
def sessions (now : Time) : Handler (List Record) := do
  match ← account? with
  | none => .fail .invalidCredentials
  | some account =>
    statement inputs
    let w ← Txn.get
    let live := w.store.sessions.sessions.rows.filter fun row ↦
      row.record.subjectID = account.subject ∧ row.record.revokedAt = none ∧
        now < row.record.expiresAt ∧ now < row.record.refreshExpiresAt
    let newest := (live.map SessionRow.record).insertionSort fun a b ↦ b.createdAt ≤ a.createdAt
    pure (newest.take 100)

end Work

/-! ## Transactions -/

/-- What a call returns and leaves. -/
structure Outcome (α : Type) where
  result : Except Failure α
  store : Store
  issued : Option Tokens := none

section

variable {α : Type}

/-- Expected rejections are taken as an outcome, and the transaction goes on to be committed. -/
def expected (m : Handler α) : Handler (Except Failure α) := fun w ↦
  match m w with
  | (.ok a, w) => (.ok (.ok a), w)
  | (.error e, w) => if e.isExpected then (.ok (.error e), w) else (.error e, w)

/-- A call that returns an error and changes nothing. -/
def Store.reject (s : Store) (e : Failure) : Outcome α where
  result := .error e
  store := s

/-- The end of the transaction in which a call has returned `out`. -/
def Store.commit (s s' : Store) (commit : Commit) (out : Except Failure α)
    (issued : Option Tokens) : Outcome α :=
  match commit with
  | .done => { result := out, store := s', issued := issued }
  | .refused fault => s.reject fault.failure
  | .lost fault => { result := .error fault.failure, store := s', issued := issued }

/-- `WithAccount`: the call runs with the lock of the account it was looked up by. -/
def withAccount (inputs : Inputs) (selector : Selector) (body : Handler (Except Failure α))
    (s : Store) : Outcome α :=
  if selector.isEmpty then s.reject .invalidInput
  else
    match s.accounts.lookup selector with
    | none =>
      match body { store := s, account := none } with
      | (.error e, _) => s.reject e
      | (.ok out, w) => s.commit w.store inputs.commit out w.issued
    | some row =>
      let accounts := s.accounts.ensureSecurity row.subject
      match accounts.security.find row.subject with
      | none => s.reject .unavailable
      | some security =>
        let before := Accounts.assemble row security
        match body { store := { s with accounts := accounts }, account := some before } with
        | (.error e, _) => s.reject e
        | (.ok out, w) =>
          match w.account.bind (w.store.accounts.saveAccount before) with
          | some accounts =>
            s.commit { w.store with accounts := accounts } inputs.commit out w.issued
          | none => s.reject .unavailable

end

end MarketMesh.Auth
