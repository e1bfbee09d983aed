import MarketMesh.Auth.Handler

/-!
# Calls and deeds

A `Call` is a request to the security service.  A `Deed` is what a call does to the account it has
locked when its transaction is committed: the account it leaves, the challenges it saves and what
becomes of the sessions.  The relation has one constructor for each way in which a call ends, with
what the call has checked before, so that it says once what the calls can do.
-/

set_option autoImplicit false

namespace MarketMesh.Auth

inductive Call where
  | register (email : String) (raw : Bytes) (browser : Bool)
  | login (email : String) (raw : Bytes) (allowChallenge : Bool)
  | completeLogin (id : ChallengeID) (code : Bytes)
  | resendCode (id : ChallengeID)
  | requestToken (email : String) (purpose : Purpose)
  | confirmRegistration (value browserSecret : Bytes)
  | resetPassword (value raw : Bytes)
  | credentials (actor : Record)
  | changePassword (actor : Record) (oldPassword newPassword : Bytes)
  | startEmailChange (actor : Record) (newEmail : String) (password : Bytes)
  | confirmEmailChange (value : Bytes)
  | cancelEmailChange (value : Bytes)
  | startCodeChange (actor : Record) (password : Bytes) (enabled : Bool)
  | completeCodeChange (actor : Record) (id : ChallengeID) (code : Bytes) (enabled : Bool)
  | listSessions (actor : Record)
  | revokeSession (actor : Record) (id : SessionID)
  | logoutAll (actor : Record)

inductive Reply where
  | done
  | secret (secret : Bytes)
  | login (result : LoginResult)
  | tokens (tokens : Option Tokens)
  | ttl (ttl : Duration)
  | account (account : Account)
  | sessions (records : List Record)

def Outcome.map {α β : Type} (f : α → β) (out : Outcome α) : Outcome β where
  result := out.result.map f
  store := out.store
  issued := out.issued

namespace Call

/-- The call, up to the end of its transaction. -/
def run (env : Security) (inputs : Inputs) (s : Store) : Call → Outcome Reply
  | .register email raw browser => (env.register inputs email raw browser s).map .secret
  | .login email raw allow => (env.login inputs email raw allow s).map .login
  | .completeLogin id code => (env.completeLogin inputs id code s).map fun t ↦ .tokens (some t)
  | .resendCode id => (env.resendCode inputs id s).map .ttl
  | .requestToken email purpose => (env.requestToken inputs email purpose s).map fun _ ↦ .done
  | .confirmRegistration value secret =>
    (env.confirmRegistration inputs value secret s).map .tokens
  | .resetPassword value raw => (env.resetPassword inputs value raw s).map fun _ ↦ .done
  | .credentials actor => (Security.credentials inputs actor s).map .account
  | .changePassword actor old new => (env.changePassword inputs actor old new s).map fun _ ↦ .done
  | .startEmailChange actor email password =>
    (env.startEmailChange inputs actor email password s).map fun _ ↦ .done
  | .confirmEmailChange value => (env.confirmEmailChange inputs value s).map fun _ ↦ .done
  | .cancelEmailChange value => (env.cancelEmailChange inputs value s).map fun _ ↦ .done
  | .startCodeChange actor password enabled =>
    (env.startCodeChange inputs actor password enabled s).map .login
  | .completeCodeChange actor id code enabled =>
    (env.completeCodeChange inputs actor id code enabled s).map fun _ ↦ .done
  | .listSessions actor => (Security.listSessions inputs actor s).map .sessions
  | .revokeSession actor id => (Security.revokeSession inputs actor id s).map fun _ ↦ .done
  | .logoutAll actor => (env.logoutAll inputs actor s).map fun _ ↦ .done

/-- The challenge that a call is given to complete. -/
def completes : Call → Option ChallengeID
  | .completeLogin id _ | .completeCodeChange _ id _ _ => some id
  | .confirmRegistration value _ | .resetPassword value _ | .confirmEmailChange value
  | .cancelEmailChange value => (parseLink value).map Prod.fst
  | _ => none

/-- The calls that invalidate the challenges of an account. -/
def isFence : Call → Bool
  | .resetPassword .. | .changePassword .. | .startEmailChange .. | .confirmEmailChange ..
  | .cancelEmailChange .. | .completeCodeChange .. => true
  | _ => false

/-- The calls that may succeed without a change. -/
def isPassive : Call → Bool
  | .register .. | .requestToken .. | .credentials .. | .listSessions .. => true
  | _ => false

/-- The challenge and the purpose of a call that is given a code. -/
def code : Call → Option (ChallengeID × Purpose)
  | .completeLogin id _ => some (id, .loginCode)
  | .completeCodeChange _ id _ enabled => some (id, Security.codePurpose enabled)
  | _ => none

end Call

/-- What a call does to the sessions. -/
inductive SessionEffect where
  | none
  | created (tokens : Tokens)
  | revoked (p : SessionRow → Bool) (subject : SubjectID) (now : Time) (reason : String)

namespace SessionEffect

def apply (sha256 : Bytes → Digest) (tables : SessionTables) :
    SessionEffect → Option SessionTables
  | .none => some tables
  | .created tokens => tables.insertSession tokens.record (sha256 tokens.refresh.value)
  | .revoked p subject now reason =>
    some (tables.revokeWhere (fun row ↦ p row && row.record.subjectID = subject) now reason)

def tokens : SessionEffect → Option Tokens
  | .created tokens => some tokens
  | _ => Option.none

/-- All sessions of an account are revoked. -/
def ended (account : Account) (now : Time) : SessionEffect :=
  .revoked (fun _ ↦ true) account.subject now "credential_change"

end SessionEffect

section

variable (env : Security) (inputs : Inputs)

/-- The password of a call was verified. -/
def Account.Verifies (a : Account) (raw plain : Bytes) : Prop :=
  env.password raw = some plain ∧ ∃ rehash, env.verify plain a.passwordDigest = some (true, rehash)

/-- The same account, its password possibly hashed once more. -/
def Account.Rehash (a a' : Account) (plain : Bytes) : Prop :=
  a' = a ∨ ∃ n digest, inputs.hashes n plain = some digest ∧
    a' = { a with passwordDigest := digest }

/-- The account at the next revision. -/
def Account.next (a : Account) : Account := { a with revision := a.revision + 1 }

namespace Challenge

/-- The challenge passes `Check` when the call reads the clock. -/
def Usable (c : Challenge) (a : Account) (purpose : Purpose) : Prop :=
  ∃ now, inputs.IsNow now ∧ c.check a purpose now = none

/-- Another code was sent for the challenge. -/
def Renewed (c c' : Challenge) : Prop :=
  ∃ digest sentAt, c' = { c with
    digest := digest, attempts := 0, sends := c.sends + 1, sentAt := sentAt }

/-- The challenge after a wrong code. -/
def Missed (c c' : Challenge) : Prop :=
  ∃ digest attempts sends sentAt usedAt, c' = { c with
    digest := digest, attempts := attempts, sends := sends, sentAt := sentAt, usedAt := usedAt }

def used (c : Challenge) (now : Time) : Challenge := { c with usedAt := some now }

/-- A challenge with a code, as `createCode` makes it. -/
def IsNewCode (c : Challenge) (a : Account) (purpose : Purpose) : Prop :=
  ∃ n id expiresAt, inputs.ids n = some id ∧ Renewed
    { id := id
      subject := a.subject
      purpose := purpose
      revision := a.revision
      expiresAt := expiresAt } c

/-- A challenge with a link, as `tokenChallenge` makes it. -/
def IsNewToken (c : Challenge) (a : Account) (purpose : Purpose) (email : String) : Prop :=
  ∃ n m id random now ttl, inputs.ids n = some id ∧ inputs.secrets m = some random ∧ c =
    { id := id
      subject := a.subject
      purpose := purpose
      digest := env.digest purpose.text id (encodeBase64 random)
      revision := a.revision
      email := email
      sentAt := now
      expiresAt := now + ttl
      sends := 1 }

/-- The link of a call names the challenge, and its secret is the one that was sent. -/
def Presented (c : Challenge) (challenges : Table Challenge.id) (a : Account) (value : Bytes)
    (purpose : Purpose) : Prop :=
  ∃ id secret, parseLink value = some (id, secret) ∧ challenges.find id = some c ∧
    c.Usable inputs a purpose ∧ env.digest purpose.text id secret = c.digest

end Challenge

/-- Tokens as `Prepare` mints them. -/
def Tokens.MintedFor (tokens : Tokens) (subject : SubjectID) : Prop :=
  ∃ id secrets now, Service.mint env.sha256
    (Service.preparedRecord env.lifetimes { clock := now } subject id) secrets = some tokens

/-- **What a call does that is committed.**  The call is made in an account `a` with the given
challenges; it returns without a failure or with one, and leaves another account, challenges to save
and an effect on the sessions. -/
inductive Deed (challenges : Table Challenge.id) (a : Account) :
    Call → Bool → Account → List Challenge → SessionEffect → Prop
  | quiet {call ok} (h : ok = true → call.isPassive = true) :
      Deed challenges a call ok a [] .none
  | refused {email raw plain allow a'}
      (hpassword : a.Verifies env raw plain) (hrehash : a.Rehash inputs a' plain) :
      Deed challenges a (.login email raw allow) false a' [] .none
  | codeSent {email raw plain allow a' c}
      (hpassword : a.Verifies env raw plain) (hrehash : a.Rehash inputs a' plain)
      (hc : c.IsNewCode inputs a .loginCode ∨ ∃ old, challenges.find old.id = some old ∧
        old.Usable inputs a .loginCode ∧ old.Renewed c) :
      Deed challenges a (.login email raw allow) true a' [c] .none
  | loggedIn {email raw plain allow a' tokens}
      (hpassword : a.Verifies env raw plain) (hrehash : a.Rehash inputs a' plain)
      (hverified : a.verified = true) (hcode : a.codeEnabled = false)
      (htokens : tokens.MintedFor env a.subject) :
      Deed challenges a (.login email raw allow) true a' [] (.created tokens)
  | resent {id c c'} (hc : challenges.find id = some c)
      (husable : c.Usable inputs a .loginCode) (hrenewed : c.Renewed c') :
      Deed challenges a (.resendCode id) true a [c'] .none
  | missed {call id purpose c c'}
      (hcall : call.code = some (id, purpose)) (hc : challenges.find id = some c)
      (husable : c.Usable inputs a purpose) (hmissed : c.Missed c') :
      Deed challenges a call false a [c'] .none
  | completedLogin {id code c now tokens} (hc : challenges.find id = some c)
      (husable : c.Usable inputs a .loginCode)
      (hcode : env.digest Purpose.loginCode.text id code = c.digest)
      (hverified : a.verified = true) (henabled : a.codeEnabled = true)
      (htokens : tokens.MintedFor env a.subject) :
      Deed challenges a (.completeLogin id code) true a [c.used now] (.created tokens)
  | requested {email email' purpose latest c c' now}
      (hpurpose : purpose = .verifyEmail ∨ purpose = .resetPassword)
      (hlatest : ∀ old, latest = some old → challenges.find old.id = some old)
      (hnew : c.IsNewToken env inputs a purpose email')
      (hc : c' = c ∨ ∃ old, latest = some old ∧ purpose = .verifyEmail ∧
        old.Usable inputs a .verifyEmail ∧ c' = { c with
          registrationDigest := old.registrationDigest, expiresAt := old.expiresAt }) :
      Deed challenges a (.requestToken email purpose) true a
        ((latest.map (Challenge.used · now)).toList ++ [c']) .none
  | confirmedRegistration {value browserSecret : Bytes} {c : Challenge} {now : Time}
      {effect : SessionEffect} (hc : c.Presented env inputs challenges a value .verifyEmail)
      (hemail : a.email = c.email) (hverified : a.verified = false)
      (heffect : effect = .none ∨ ∃ tokens, effect = .created tokens ∧
        tokens.MintedFor env a.subject ∧ c.registrationDigest ≠ zeroDigest ∧
        env.digest "registration-browser" a.subject browserSecret = c.registrationDigest) :
      Deed challenges a (.confirmRegistration value browserSecret) true
        { a with verified := true } [c.used now] effect
  | reset {value raw : Bytes} {c : Challenge} {now now' : Time} {digest : PasswordDigest}
      (hc : c.Presented env inputs challenges a value .resetPassword) :
      Deed challenges a (.resetPassword value raw) true
        { a.next with passwordDigest := digest, verified := true } [c.used now] (.ended a now')
  | changedPassword {actor old new now digest} (howner : a.subject = actor.subjectID) :
      Deed challenges a (.changePassword actor old new) true
        { a.next with passwordDigest := digest } [] (.ended a now)
  | startedEmailChange {actor email email' password confirm cancel}
      (howner : a.subject = actor.subjectID)
      (hconfirm : confirm.IsNewToken env inputs a.next .changeEmail email')
      (hcancel : cancel.IsNewToken env inputs a.next .cancelEmailChange a.email) :
      Deed challenges a (.startEmailChange actor email password) true a.next [confirm, cancel] .none
  | confirmedEmailChange {value : Bytes} {c : Challenge} {now now' : Time}
      (hc : c.Presented env inputs challenges a value .changeEmail) :
      Deed challenges a (.confirmEmailChange value) true
        { a.next with email := c.email, verified := true } [c.used now] (.ended a now')
  | cancelledEmailChange {value : Bytes} {c : Challenge} {now : Time}
      (hc : c.Presented env inputs challenges a value .cancelEmailChange) :
      Deed challenges a (.cancelEmailChange value) true a.next [c.used now] .none
  | startedCodeChange {actor password enabled c}
      (hc : c.IsNewCode inputs a (Security.codePurpose enabled) ∨
        ∃ old, challenges.find old.id = some old ∧
          old.Usable inputs a (Security.codePurpose enabled) ∧ old.Renewed c) :
      Deed challenges a (.startCodeChange actor password enabled) true a [c] .none
  | completedCodeChange {actor id code enabled c now} (howner : a.subject = actor.subjectID)
      (hc : challenges.find id = some c)
      (husable : c.Usable inputs a (Security.codePurpose enabled)) :
      Deed challenges a (.completeCodeChange actor id code enabled) true
        { a.next with codeEnabled := enabled } [c.used now] (.ended a now)
  | revokedSession {actor id now} (howner : a.subject = actor.subjectID) :
      Deed challenges a (.revokeSession actor id) true a []
        (.revoked (fun row ↦ row.record.id = id) a.subject now "administrative")
  | loggedOut {actor now} (howner : a.subject = actor.subjectID) :
      Deed challenges a (.logoutAll actor) true a [] (.ended a now)

end

/-- The core after a deed. -/
structure Did (env : Security) (k : Core) (a' : Account) (saves : List Challenge)
    (effect : SessionEffect) (k' : Core) : Prop where
  account : k'.account = some a'
  accounts : saves.foldlM Accounts.upsertChallenge k.accounts = some k'.accounts
  sessions : effect.apply env.sha256 k.sessions = some k'.sessions
  registrations : k'.registrations = k.registrations
  issued : k'.issued = effect.tokens

/-- What a call has done to the core it started in: nothing without an account, and otherwise a
deed. -/
def Ended {α : Type} (env : Security) (inputs : Inputs) (call : Call) (k : Core)
    (r : Except Failure α) (k' : Core) : Prop :=
  match k.account with
  | none => k' = k ∧ (r.isOk = true → call.isPassive = true)
  | some a => ∃ a' saves effect,
    Deed env inputs k.accounts.challenges a call r.isOk a' saves effect ∧
      Did env k a' saves effect k'

/-- A core in which a call starts: the account it was looked up by is locked, or there is none. -/
inductive Store.Opens (s : Store) : Core → Prop
  | missing :
      s.Opens
        { accounts := s.accounts
          sessions := s.sessions
          registrations := s.registrations
          account := none }
  | locked {row security} (hrow : s.accounts.credentials.find row.subject = some row)
      (hsecurity : (s.accounts.ensureSecurity row.subject).security.find row.subject =
        some security) :
      s.Opens
        { accounts := s.accounts.ensureSecurity row.subject
          sessions := s.sessions
          registrations := s.registrations
          account := some (Accounts.assemble row security) }

/-- The tables after the account was written back. -/
def Core.Closes (k k' : Core) (accounts : Accounts) : Prop :=
  match k.account with
  | none => accounts = k'.accounts
  | some a => ∃ a', k'.account = some a' ∧ k'.accounts.saveAccount a a' = some accounts

/-- The failure of an outcome is an expected one. -/
def Reported {α : Type} (r : Except Failure α) : Prop :=
  ∀ e, r = .error e → e.isExpected = true

/-- What a call returns and leaves: it was rejected and has changed nothing, or it has ended under
the lock and goes on to `COMMIT`. -/
inductive Settled {α : Type} (env : Security) (inputs : Inputs) (call : Call) (s : Store) :
    Outcome α → Prop
  | rejected (e : Failure) : Settled env inputs call s (s.reject e)
  | closed {k k' r s'} (hopens : s.Opens k)
      (hended : Ended env inputs call k r k') (hreported : Reported r)
      (hcloses : k.Closes k' s'.accounts) (hsessions : s'.sessions = k'.sessions)
      (hregistrations : s'.registrations = k'.registrations) :
      Settled env inputs call s (s.commit s' inputs.commit r k'.issued)

end MarketMesh.Auth
