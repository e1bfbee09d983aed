import MarketMesh.Auth.Security

/-!
# The calls of the security service

The calls that register and confirm an account, log in with a password and a code, and change what
an account logs in with.  Each of them is a transaction on the store.  A call that was given a
challenge takes the lock of the account the challenge belongs to (`withChallenge`); a call of an
account's owner checks the session it was authenticated with once more under the lock (`withOwner`).
-/

set_option autoImplicit false

namespace MarketMesh.Auth

def minute : Duration := 60 * second

def hour : Duration := 60 * minute

def codeTTL : Duration := 10 * minute

def resendDelay : Duration := minute

/-! ## Secrets -/

/-- Digits to bytes, as the decoder that ignores left-over bits does. -/
def decodeLoose : List Nat → Option Bytes
  | [] => some []
  | [_] => none
  | [w, x] => some [.ofNat ((w * 64 + x) / 16)]
  | [w, x, y] =>
    let n := w * 4096 + x * 64 + y
    some [.ofNat (n / 1024), .ofNat (n / 4 % 256)]
  | w :: x :: y :: z :: rest => do
    let n := w * 262144 + x * 4096 + y * 64 + z
    let bytes ← decodeLoose rest
    some (.ofNat (n / 65536) :: .ofNat (n / 256 % 256) :: .ofNat (n % 256) :: bytes)

/-- `parseToken`: the challenge that a link names, and its secret. -/
def parseLink (value : Bytes) : Option (ChallengeID × Bytes) :=
  match value.splitOn 46 with
  | [id, secret] =>
    if id.length = 32 ∧ secret.length = 43 then do
      let decoded ← decodeHex id
      let digits ← (secret.filter fun c ↦ c ≠ 10 ∧ c ≠ 13).mapM fromBase64Digit
      let bytes ← decodeLoose digits
      if h : decoded.length = 16 then
        if bytes.length = 32 then some (⟨decoded, h⟩, secret) else none
      else none
    else none
  | _ => none

/-- `token`. -/
def formatLink (id : ChallengeID) (secret : Bytes) : Bytes :=
  encodeHex id.toList ++ 46 :: secret

/-- A code of six digits. -/
def formatCode (n : Fin 1000000) : Bytes :=
  [100000, 10000, 1000, 100, 10, 1].map fun unit ↦ .ofNat (48 + n.val / unit % 10)

/-- Six decimal digits. -/
def IsCode (code : Bytes) : Prop :=
  code.length = 6 ∧ ∀ c ∈ code, 48 ≤ c ∧ c ≤ 57
  deriving Decidable

def ascii (bytes : Bytes) : String :=
  String.ofList (bytes.map fun b ↦ Char.ofNat b.toNat)

def utf8 (s : String) : Bytes := s.toUTF8.toList

structure LoginResult where
  challengeID : ChallengeID := zeroID
  expiresIn : Duration := 0
  tokens : Option Tokens := none

namespace Security

variable (env : Security) (inputs : Inputs)

open Work

/-- `link`; the token has no character that a query escapes. -/
def link (action : String) (token : Bytes) : String :=
  env.origin ++ "/account/security/" ++ action ++ "#token=" ++ ascii token

def newSecret : Handler Bytes := do
  let random ← ask inputs.secrets
  pure (encodeBase64 random)

def hash (plain : Bytes) : Handler PasswordDigest :=
  ask fun n ↦ inputs.hashes n plain

/-- The first code that is drawn and whose digest is not the one the challenge has. -/
def newCode (c : Challenge) : Handler Bytes :=
  ask fun n ↦ ((inputs.codes n).map formatCode).find? fun code ↦
    env.digest c.purpose.text c.id code ≠ c.digest

/-! ## Parts of the calls -/

def notice (kind : String) : Handler PUnit := do
  let id ← ask inputs.ids
  let account ← account!
  let queued ← now inputs
  let expires ← now inputs
  queue inputs env
    { id := id
      subject := account.subject
      kind := kind
      email := account.email
      url := env.origin ++ "/account/security/reset"
      at' := queued
      expiresAt := expires + 24 * hour
      timeZone := inputs.timeZone }

def tokenChallenge (account : Account) (purpose : Purpose) (email : String) (ttl : Duration) :
    Handler (Challenge × Mail) := do
  let id ← ask inputs.ids
  let secret ← newSecret inputs
  let mailID ← ask inputs.ids
  let now ← now inputs
  let c : Challenge :=
    { id := id
      subject := account.subject
      purpose := purpose
      digest := env.digest purpose.text id secret
      revision := account.revision
      email := email
      sentAt := now
      expiresAt := now + ttl
      sends := 1 }
  let m : Mail :=
    { id := mailID
      subject := account.subject
      kind := purpose.text
      email := email
      url := env.link purpose.text (formatLink id secret)
      at' := now
      expiresAt := now + ttl
      timeZone := inputs.timeZone }
  pure (c, m)

/-- A new code for a challenge, which is sent to the account. -/
def replaceCode (c : Challenge) : Handler Challenge := do
  if 5 ≤ c.sends then .fail .codeExpired
  else
    let now₁ ← now inputs
    let budget := env.digest "code-mail-budget" c.subject (utf8 c.purpose.text)
    let n ← reserveBudget inputs budget now₁ 5 codeTTL
    if 5 < n then .fail .rateLimited
    else
      let code ← env.newCode inputs c
      let sentAt ← now inputs
      let c : Challenge :=
        { c with
          digest := env.digest c.purpose.text c.id code
          attempts := 0
          sends := c.sends + 1
          sentAt := sentAt }
      saveChallenge inputs c
      let id ← ask inputs.ids
      let account ← account!
      let queued ← now inputs
      queue inputs env
        { id := id
          subject := c.subject
          kind := "code"
          email := account.email
          code := code
          url := env.origin ++ "/account/security/reset"
          at' := queued
          expiresAt := c.expiresAt
          timeZone := inputs.timeZone }
      pure c

def createCode (purpose : Purpose) : Handler Challenge := do
  let id ← ask inputs.ids
  let account ← account!
  let now ← now inputs
  env.replaceCode inputs
    { id := id
      subject := account.subject
      purpose := purpose
      revision := account.revision
      expiresAt := now + codeTTL }

/-- The answer to a code that is not the one of the challenge. -/
def mismatch (c : Challenge) : Handler PUnit := do
  let c := { c with attempts := c.attempts + 1 }
  if 3 ≤ c.attempts then
    if 5 ≤ c.sends then
      let now ← now inputs
      saveChallenge inputs { c with usedAt := some now }
      .fail .codeExpired
    else
      let _ ← env.replaceCode inputs c
      .fail .codeReissued
  else
    saveChallenge inputs c
    .fail .codeMismatch

def checkCode (c : Challenge) (purpose : Purpose) (code : Bytes) : Handler PUnit := do
  let account ← account!
  let now₁ ← now inputs
  if c.check account purpose now₁ ≠ none then .fail .codeExpired
  else if IsCode code then
    let now₂ ← now inputs
    let budget := env.digest "code-attempt-budget" c.subject (utf8 purpose.text)
    let n ← reserveBudget inputs budget now₂ 15 codeTTL
    if 15 < n then .fail .rateLimited
    else if env.digest purpose.text c.id code = c.digest then pure ⟨⟩
    else env.mismatch inputs c
  else .fail .codeMismatch

/-- `Prepare` of the session service. -/
def prepare (subject : SubjectID) : Handler Tokens := do
  let id ← ask inputs.sessionIDs
  let secrets ← ask inputs.sessionSecrets
  let now ← now inputs
  if subject = zeroID ∨ id = zeroID then .fail .unavailable
  else
    let record := Service.preparedRecord env.lifetimes { clock := now } subject id
    match Service.mint env.sha256 record secrets with
    | some tokens => pure tokens
    | none => .fail .unavailable

def issue : Handler Tokens := do
  let account ← account!
  let tokens ← env.prepare inputs account.subject
  createSession inputs tokens (env.sha256 tokens.refresh.value)
  env.notice inputs "new_login"
  pure tokens

def increment : Handler PUnit := do
  let account ← account!
  if account.revision = maxInt64 then .fail .unavailable
  else setAccount { account with revision := account.revision + 1 }

def verifyPassword (raw : Bytes) : Handler PUnit := do
  let account ← account!
  let bucket := env.digest "reauth-limit" account.subject []
  let now ← now inputs
  let attempt ← reserveAttempt inputs bucket now
  if 5 < attempt then .fail .loginLocked
  else
    match env.password raw with
    | none => .fail .invalidCredentials
    | some plain =>
      match env.verify plain account.passwordDigest with
      | none => .fail .unavailable
      | some (valid, _) =>
        if valid then resetAttempts inputs bucket
        else if attempt = 5 then .fail .loginLocked
        else .fail .invalidCredentials

/-! ## Transactions of the calls -/

section

variable {α : Type}

def withChallenge (id : ChallengeID) (apply : Challenge → Handler α) (s : Store) : Outcome α :=
  if id = zeroID then s.reject .tokenExpired
  else
    -- `ChallengeSubject`; a challenge keeps its subject
    match s.accounts.challenges.find id with
    | none => s.reject .tokenExpired
    | some c =>
      let body : Handler (Except Failure α) := do
        match ← account? with
        | none => pure (.error .tokenExpired)
        | some _ =>
          let c ← challenge inputs id
          expected (apply c)
      withAccount inputs (.subject c.subject) body s

def withOwner (actor : Record) (apply : Handler α) (s : Store) : Outcome α :=
  if actor.subjectID = zeroID ∨ actor.id = zeroID then s.reject .invalidCredentials
  else
    let body : Handler (Except Failure α) := do
      let now ← now inputs
      checkSession inputs actor now
      expected apply
    withAccount inputs (.subject actor.subjectID) body s

def confirmToken (value : Bytes) (purpose : Purpose) (apply : Challenge → Handler α) (s : Store) :
    Outcome α :=
  match parseLink value with
  | none => s.reject .tokenExpired
  | some (id, secret) =>
    let body (c : Challenge) : Handler α := do
      let account ← account!
      let now₁ ← now inputs
      match c.check account purpose now₁ with
      | some e => .fail e
      | none =>
        if env.digest purpose.text id secret ≠ c.digest then .fail .tokenExpired
        else
          let a ← apply c
          let now₂ ← now inputs
          saveChallenge inputs { c with usedAt := some now₂ }
          pure a
    withChallenge inputs id body s

end

/-! ## Registration -/

/-- The event, the challenge and the mail of a new account. -/
def saveRegistration (c : Challenge) (m : Mail) : Handler PUnit := do
  statement inputs
  saveChallenge inputs c
  queue inputs env m

/-- The transaction of `Store.Register`; a duplicate identifier changes nothing. -/
def registerStore (row : CredentialRow) (event : Registration) (c : Challenge) (m : Mail)
    (s : Store) : Outcome PUnit :=
  let size := row.identifier.utf8ByteSize
  if ¬ event.Valid ∨ event.subject ≠ row.subject ∨ c.subject ≠ row.subject ∨
      m.subject ≠ row.subject then s.reject .invalidInput
  else if size < 3 ∨ 254 < size then s.reject .unavailable
  else if s.accounts.credentials.rows.any fun old ↦ old.identifier = row.identifier then
    s.commit s inputs.commit (.ok ⟨⟩) none
  else
    let accounts : Option Accounts := do
      let credentials ← s.accounts.credentials.insert row
      let security ← s.accounts.security.insert { subject := row.subject, codeEnabled := true }
      some { s.accounts with credentials := credentials, security := security }
    match accounts, s.registrations.insert event with
    | some accounts, some registrations =>
      let account : Account :=
        { subject := row.subject
          email := row.identifier
          passwordDigest := row.passwordDigest
          verified := false
          codeEnabled := true
          revision := 1 }
      let work : Work :=
        { store := { s with accounts := accounts, registrations := registrations }
          account := some account }
      match env.saveRegistration inputs c m work with
      | (.ok _, w) => s.commit w.store inputs.commit (.ok ⟨⟩) none
      | (.error e, _) => s.reject e
    | _, _ => s.reject .unavailable

/-- What `register` draws before its transaction. -/
def newRegistration (email : String) (plain : Bytes) (browserSecret : Bytes) :
    Handler (CredentialRow × Registration × Challenge × Mail) := do
  let passwordDigest ← hash inputs plain
  let subject ← ask inputs.ids
  let eventID ← ask inputs.ids
  let occurredAt ← ask fun n ↦ some (inputs.clock n - inputs.clock n % 1000)
  let account : Account :=
    { subject := subject
      email := email
      passwordDigest := passwordDigest
      verified := false
      codeEnabled := true
      revision := 1 }
  let (c, m) ← env.tokenChallenge inputs account .verifyEmail email (24 * hour)
  let c : Challenge :=
    if browserSecret ≠ [] then
      { c with registrationDigest := env.digest "registration-browser" subject browserSecret }
    else c
  let row : CredentialRow :=
    { subject := subject, identifier := email, passwordDigest := passwordDigest }
  let event : Registration := { eventID := eventID, subject := subject, occurredAt := occurredAt }
  -- the factory returns no other event
  if event.Valid then pure (row, event, c, m) else .fail .unavailable

/-- The secret of the browser, where the registration is bound to one. -/
def browserSecret (browser : Bool) : Handler Bytes :=
  if browser then newSecret inputs else pure []

def drawRegistration (email : String) (raw : Bytes) (browser : Bool) :
    Handler (Bytes × CredentialRow × Registration × Challenge × Mail) := do
  let secret ← browserSecret inputs browser
  match env.email email, env.newPassword raw with
  | some email, some plain =>
    let values ← env.newRegistration inputs email plain secret
    pure (secret, values)
  | _, _ => .fail .invalidInput

/-- `register`, for `Register` and `RegisterBrowser`; the secret of the browser is drawn first. -/
def register (email : String) (raw : Bytes) (browser : Bool) (s : Store) : Outcome Bytes :=
  match env.drawRegistration inputs email raw browser { store := s, account := none } with
  | (.error e, _) => s.reject e
  | (.ok (secret, row, event, c, m), _) =>
    let out := env.registerStore inputs row event c m s
    { result := out.result.map fun _ ↦ secret, store := out.store }

/-! ## Login -/

def refuseLogin (attempt : Int) (account : Option Account) :
    Handler (Except Failure LoginResult) := do
  if attempt = 5 then
    if account.any fun a ↦ a.deletedAt = none then env.notice inputs "account_locked"
    pure (.error .loginLocked)
  else pure (.error .invalidCredentials)

/-- The code that completes a login whose password was verified. -/
def loginCode (now₀ : Time) : Handler (Except Failure LoginResult) := do
  let account ← account!
  let latest ← latestChallenge inputs .loginCode
  match latest.filter fun c ↦ c.check account .loginCode now₀ = none with
  | some c =>
    if now₀ - c.sentAt < resendDelay then pure (.error .rateLimited)
    else
      match ← expected (env.replaceCode inputs c) with
      | .error e => pure (.error e)
      | .ok c => pure (.ok { challengeID := c.id, expiresIn := c.expiresAt - now₀ })
  | none =>
    let c ← env.createCode inputs .loginCode
    pure (.ok { challengeID := c.id, expiresIn := c.expiresAt - now₀ })

/-- The password is hashed once more where the parameters of its digest are outdated. -/
def rehashPassword (plain : Bytes) (account : Account) (rehash : Bool) : Handler PUnit := do
  if rehash then
    let digest ← hash inputs plain
    setAccount { account with passwordDigest := digest }
  else pure ⟨⟩

/-- A login of a verified account whose password was verified. -/
def finishLogin (now₀ : Time) (account : Account) (allowChallenge : Bool) :
    Handler (Except Failure LoginResult) := do
  if account.codeEnabled then
    if allowChallenge then env.loginCode inputs now₀
    else pure (.error .codeRequired)
  else
    let tokens ← env.issue inputs
    pure (.ok { tokens := some tokens })

/-- A login whose password was verified. -/
def admitLogin (bucket : Digest) (now₀ : Time) (plain : Bytes) (account : Account) (rehash : Bool)
    (allowChallenge : Bool) : Handler (Except Failure LoginResult) := do
  resetAttempts inputs bucket
  if account.verified then
    rehashPassword inputs plain account rehash
    env.finishLogin inputs now₀ account allowChallenge
  else pure (.error .emailUnverified)

def loginBody (email : String) (plain : Bytes) (allowChallenge : Bool) :
    Handler (Except Failure LoginResult) := do
  let now₀ ← now inputs
  let bucket := env.digest "login-limit" zeroID (utf8 email)
  let attempt ← reserveAttempt inputs bucket now₀
  if 5 < attempt then pure (.error .loginLocked)
  else
    match ← account? with
    | none =>
      if inputs.equalized then env.refuseLogin inputs attempt none
      else .fail .unavailable
    | some account =>
      match env.verify plain account.passwordDigest with
      | none => .fail .unavailable
      | some (valid, rehash) =>
        if valid ∧ account.deletionAt = none ∧ account.deletedAt = none then
          env.admitLogin inputs bucket now₀ plain account rehash allowChallenge
        else env.refuseLogin inputs attempt (some account)

def login (email : String) (raw : Bytes) (allowChallenge : Bool) (s : Store) :
    Outcome LoginResult :=
  match env.email email with
  | none => s.reject .invalidCredentials
  | some email =>
    match env.password raw with
    | none => s.reject .invalidCredentials
    | some plain =>
      withAccount inputs (.email email) (env.loginBody inputs email plain allowChallenge) s

def completeLogin (id : ChallengeID) (code : Bytes) (s : Store) : Outcome Tokens :=
  let body (c : Challenge) : Handler Tokens := do
    env.checkCode inputs c .loginCode code
    let account ← account!
    if account.verified ∧ account.codeEnabled ∧ account.deletionAt = none then
      let now ← now inputs
      saveChallenge inputs { c with usedAt := some now }
      env.issue inputs
    else .fail .codeExpired
  withChallenge inputs id body s

def resendCode (id : ChallengeID) (s : Store) : Outcome Duration :=
  let body (c : Challenge) : Handler Duration := do
    let account ← account!
    let now₁ ← now inputs
    if c.check account .loginCode now₁ ≠ none then .fail .codeExpired
    else
      let now₂ ← now inputs
      if now₂ - c.sentAt < resendDelay then .fail .rateLimited
      else
        let c ← env.replaceCode inputs c
        let now₃ ← now inputs
        pure (c.expiresAt - now₃)
  withChallenge inputs id body s

/-! ## Links -/

/-- The latest link cannot be used any more. -/
def supersede : Option Challenge → Handler PUnit
  | some c => do
    let now ← now inputs
    saveChallenge inputs { c with usedAt := some now }
  | none => pure ⟨⟩

/-- A new link in the place of the latest one. -/
def resendToken (account : Account) (purpose : Purpose) (email : String)
    (latest : Option Challenge) : Handler PUnit := do
  let now₁ ← now inputs
  let carried :=
    latest.filter fun c ↦ purpose = .verifyEmail ∧ c.check account purpose now₁ = none
  supersede inputs latest
  let ttl := if purpose = .resetPassword then 30 * minute else 24 * hour
  let (c, m) ← env.tokenChallenge inputs account purpose email ttl
  match carried.filter fun c ↦ c.registrationDigest ≠ zeroDigest with
  | some old =>
    saveChallenge inputs
      { c with registrationDigest := old.registrationDigest, expiresAt := old.expiresAt }
    queue inputs env { m with expiresAt := old.expiresAt }
  | none =>
    saveChallenge inputs c
    queue inputs env m

def requestToken (email : String) (purpose : Purpose) (s : Store) : Outcome PUnit :=
  if purpose ≠ .verifyEmail ∧ purpose ≠ .resetPassword then s.reject .invalidInput
  else
    match env.email email with
    | none => s.reject .invalidInput
    | some email =>
      let body : Handler (Except Failure PUnit) := do
        match ← account? with
        | none => pure (.ok ⟨⟩)
        | some account =>
          if account.deletedAt ≠ none ∨ account.deletionAt ≠ none ∨
              (purpose = .verifyEmail ∧ account.verified) then pure (.ok ⟨⟩)
          else
            let latest ← latestChallenge inputs purpose
            let now ← now inputs
            if latest.any fun c ↦ now - c.sentAt < resendDelay then pure (.ok ⟨⟩)
            else
              env.resendToken inputs account purpose email latest
              pure (.ok ⟨⟩)
      withAccount inputs (.email email) body s

/-- `ConfirmRegistration`; `ConfirmEmail` calls it without a secret. -/
def confirmRegistration (value browserSecret : Bytes) (s : Store) : Outcome (Option Tokens) :=
  let apply (c : Challenge) : Handler (Option Tokens) := do
    let account ← account!
    if account.email ≠ c.email ∨ account.deletionAt ≠ none ∨ account.verified then
      .fail .tokenExpired
    else
      setAccount { account with verified := true }
      if browserSecret.length = 43 ∧ c.registrationDigest ≠ zeroDigest ∧
          env.digest "registration-browser" account.subject browserSecret =
            c.registrationDigest then
        let tokens ← env.issue inputs
        pure (some tokens)
      else pure none
  env.confirmToken inputs value .verifyEmail apply s

def resetPassword (value raw : Bytes) (s : Store) : Outcome PUnit :=
  match env.newPassword raw with
  | none => s.reject .invalidInput
  | some plain =>
    let apply (c : Challenge) : Handler PUnit := do
      let account ← account!
      if account.email ≠ c.email ∨ account.deletionAt ≠ none then .fail .tokenExpired
      else
        increment
        let digest ← hash inputs plain
        let account ← account!
        setAccount { account with passwordDigest := digest, verified := true }
        let now ← now inputs
        revokeSessions inputs now
        env.notice inputs "password_changed"
    env.confirmToken inputs value .resetPassword apply s

def confirmEmailChange (value : Bytes) (s : Store) : Outcome PUnit :=
  let apply (c : Challenge) : Handler PUnit := do
    let account ← account!
    if account.deletionAt ≠ none then .fail .tokenExpired
    else
      increment
      let account ← account!
      setAccount { account with email := c.email, verified := true }
      let now ← now inputs
      revokeSessions inputs now
  env.confirmToken inputs value .changeEmail apply s

def cancelEmailChange (value : Bytes) (s : Store) : Outcome PUnit :=
  env.confirmToken inputs value .cancelEmailChange (fun _ ↦ increment) s

/-! ## The owner of an account -/

def credentials (actor : Record) (s : Store) : Outcome Account :=
  withOwner inputs actor account! s

def changePassword (actor : Record) (oldPassword newPassword : Bytes) (s : Store) :
    Outcome PUnit :=
  match env.newPassword newPassword with
  | none => s.reject .invalidInput
  | some plain =>
    let apply : Handler PUnit := do
      env.verifyPassword inputs oldPassword
      increment
      let digest ← hash inputs plain
      let account ← account!
      setAccount { account with passwordDigest := digest }
      let now ← now inputs
      revokeSessions inputs now
      env.notice inputs "password_changed"
    withOwner inputs actor apply s

def startEmailChange (actor : Record) (newEmail : String) (password : Bytes) (s : Store) :
    Outcome PUnit :=
  match env.email newEmail with
  | none => s.reject .invalidInput
  | some newEmail =>
    let apply : Handler PUnit := do
      env.verifyPassword inputs password
      let account ← account!
      if newEmail = account.email then .fail .invalidInput
      else if account.verified then
        let previous ← latestChallenge inputs .changeEmail
        let now ← now inputs
        if previous.any fun c ↦ now - c.sentAt < resendDelay then .fail .rateLimited
        else
          increment
          let account ← account!
          let (confirm, letter) ←
            env.tokenChallenge inputs account .changeEmail newEmail (30 * minute)
          let (cancel, alert) ←
            env.tokenChallenge inputs account .cancelEmailChange account.email (30 * minute)
          saveChallenge inputs confirm
          saveChallenge inputs cancel
          queue inputs env { letter with otherEmail := account.email }
          queue inputs env { alert with otherEmail := newEmail }
      else .fail .emailUnverified
    withOwner inputs actor apply s

/-- The purpose of the code that turns the login code on or off. -/
def codePurpose (enabled : Bool) : Purpose :=
  if enabled then .enableCode else .disableCode

/-- A code for the latest challenge of a purpose, or for a new one. -/
def sendCode (account : Account) (purpose : Purpose) : Handler Challenge := do
  let latest ← latestChallenge inputs purpose
  let now₁ ← now inputs
  match latest.filter fun c ↦ c.check account purpose now₁ = none with
  | some c =>
    let now₂ ← now inputs
    if now₂ - c.sentAt < resendDelay then .fail .rateLimited
    else env.replaceCode inputs c
  | none => env.createCode inputs purpose

def startCodeChange (actor : Record) (password : Bytes) (enabled : Bool) (s : Store) :
    Outcome LoginResult :=
  let apply : Handler LoginResult := do
    env.verifyPassword inputs password
    let account ← account!
    if account.verified then
      if account.codeEnabled = enabled then .fail .invalidInput
      else
        let c ← env.sendCode inputs account (codePurpose enabled)
        let now ← now inputs
        pure { challengeID := c.id, expiresIn := c.expiresAt - now }
    else .fail .emailUnverified
  withOwner inputs actor apply s

def completeCodeChange (actor : Record) (id : ChallengeID) (code : Bytes) (enabled : Bool)
    (s : Store) : Outcome PUnit :=
  let apply : Handler PUnit := do
    let c ← challenge inputs id
    -- an expected failure is the outcome of the call, as `withOwner` makes it one
    env.checkCode inputs c (codePurpose enabled) code
    increment
    let account ← account!
    setAccount { account with codeEnabled := enabled }
    let now ← now inputs
    saveChallenge inputs { c with usedAt := some now }
    revokeSessions inputs now
    env.notice inputs (if enabled then "two_factor_on" else "two_factor_off")
  withOwner inputs actor apply s

def listSessions (actor : Record) (s : Store) : Outcome (List Record) :=
  let apply : Handler (List Record) := do
    let now ← now inputs
    sessions inputs now
  withOwner inputs actor apply s

def revokeSession (actor : Record) (id : SessionID) (s : Store) : Outcome PUnit :=
  let apply : Handler PUnit := do
    let now₁ ← now inputs
    if actor.id ≠ id ∧ now₁ < actor.createdAt + 24 * hour then .fail .newDeviceCooldown
    else
      let now₂ ← now inputs
      Work.revokeSession inputs id now₂
  withOwner inputs actor apply s

def logoutAll (actor : Record) (s : Store) : Outcome PUnit :=
  let apply : Handler PUnit := do
    let now₁ ← now inputs
    if now₁ < actor.createdAt + 24 * hour then .fail .newDeviceCooldown
    else
      let now₂ ← now inputs
      revokeSessions inputs now₂
      env.notice inputs "sessions_closed"
  withOwner inputs actor apply s

end Security

end MarketMesh.Auth
