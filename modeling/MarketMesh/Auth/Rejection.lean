import MarketMesh.Auth.Authority
import MarketMesh.Auth.Challenges

/-!
# Rejected calls

A call that is rejected is still committed, so that attempts are counted and codes are used up.  The
handlers change the account they hold before their last checks; what keeps a rejected call from
writing such a change back is that every check a handler makes after it can only fail with an
infrastructure error, which rolls the transaction back.
-/

set_option autoImplicit false

namespace MarketMesh.Auth

/-! ## What a rejected call may change -/

/-- What a rejected call leaves: a password that was just verified may have been hashed again, the
row of `auth.account_security` may have been created with its defaults, and a challenge may have
been changed as a wrong code changes it. -/
structure Spared (env : Security) (inputs : Inputs) (call : Call) (s s' : Store) : Prop where
  sessions : s'.sessions = s.sessions
  registrations : s'.registrations = s.registrations
  security : s'.accounts.security = s.accounts.security ∨ ∃ subject,
    s.accounts.security.insert { subject := subject } = some s'.accounts.security
  credentials : s'.accounts.credentials = s.accounts.credentials ∨
    ∃ (email : String) (raw plain : Bytes) (allow : Bool) (row : CredentialRow) (rehash : Bool)
      (n : Nat) (digest : PasswordDigest),
      call = .login email raw allow ∧ row ∈ s.accounts.credentials.rows ∧
      env.password raw = some plain ∧ env.verify plain row.passwordDigest = some (true, rehash) ∧
      inputs.hashes n plain = some digest ∧
      s'.accounts.credentials.rows = s.accounts.credentials.rows.map fun r ↦
        if r.subject = row.subject then { r with passwordDigest := digest } else r
  challenge : ∀ id c, s.accounts.challenges.find id = some c →
    ∃ c', s'.accounts.challenges.find id = some c' ∧ c.Missed c'
  noChallenge : ∀ id, s.accounts.challenges.find id = none →
    s'.accounts.challenges.find id = none

section

variable {env : Security} {inputs : Inputs} {call : Call} {s s' : Store}

/-- Credentials and challenges as they were. -/
theorem Spared.of_eq (hsessions : s'.sessions = s.sessions)
    (hregistrations : s'.registrations = s.registrations)
    (hcredentials : s'.accounts.credentials = s.accounts.credentials)
    (hchallenges : s'.accounts.challenges = s.accounts.challenges)
    (hsecurity : s'.accounts.security = s.accounts.security ∨ ∃ subject,
      s.accounts.security.insert { subject := subject } = some s'.accounts.security) :
    Spared env inputs call s s' where
  sessions := hsessions
  registrations := hregistrations
  security := hsecurity
  credentials := .inl hcredentials
  challenge _ c hc := ⟨c, hchallenges ▸ hc, .refl c⟩
  noChallenge _ h := hchallenges ▸ h

theorem Spared.refl (s : Store) : Spared env inputs call s s :=
  .of_eq rfl rfl rfl rfl (.inl rfl)

/-- A deed that failed has changed nothing but what a rejected call may change. -/
theorem Deed.spared {row security a' k' saves effect}
    (hrow : s.accounts.credentials.find row.subject = some row)
    (hsecurity : (s.accounts.ensureSecurity row.subject).security.find row.subject = some security)
    (hdeed : Deed env inputs (s.accounts.ensureSecurity row.subject).challenges
      (Accounts.assemble row security) call false a' saves effect)
    (hdid : Did env
      { accounts := s.accounts.ensureSecurity row.subject
        sessions := s.sessions
        registrations := s.registrations
        account := some (Accounts.assemble row security) } a' saves effect k')
    (hsave : k'.accounts.saveAccount (Accounts.assemble row security) a' = some s'.accounts)
    (hsessions : s'.sessions = k'.sessions) (hregistrations : s'.registrations = k'.registrations) :
    Spared env inputs call s s' := by
  obtain ⟨hcredentials, hchallenges, hensured⟩ := s.accounts.ensureSecurity_cases row.subject
  have hregistrations : s'.registrations = s.registrations :=
    hregistrations.trans hdid.registrations
  have haccounts := hdid.accounts
  have hfound : (s.accounts.ensureSecurity row.subject).credentials.find row.subject = some row :=
    hcredentials ▸ hrow
  dsimp only at haccounts
  generalize s.accounts.ensureSecurity row.subject = t at *
  have hensured : t.security = s.accounts.security ∨ ∃ subject,
      s.accounts.security.insert { subject := subject } = some t.security :=
    hensured.imp_right fun h ↦ ⟨row.subject, h⟩
  have hquiet (h : effect = .none) : s'.sessions = s.sessions := by
    subst h
    exact hsessions.trans (Option.some.inj hdid.sessions).symm
  have hsame (heffect : effect = .none) (hs' : s'.accounts = t) : Spared env inputs call s s' :=
    .of_eq (hquiet heffect) hregistrations (hs' ▸ hcredentials) (hs' ▸ hchallenges) (hs' ▸ hensured)
  cases hdeed with
  | quiet =>
    rw [← Option.some.inj haccounts, Accounts.saveAccount_self] at hsave
    exact hsame rfl (Option.some.inj hsave).symm
  | @refused email raw plain allow _ hpassword hrehash =>
    rw [← Option.some.inj haccounts] at hsave
    rcases hrehash with rfl | ⟨n, digest, hhash, ha'⟩
    · rw [Accounts.saveAccount_self] at hsave
      exact hsame rfl (Option.some.inj hsave).symm
    · obtain ⟨hs, hc, hrows⟩ := Accounts.saveAccount_passwordDigest hfound hsecurity ha' hsave
      obtain ⟨hplain, rehash, hverify⟩ := hpassword
      exact
        { sessions := hquiet rfl
          registrations := hregistrations
          security := hs ▸ hensured
          credentials := .inr ⟨email, raw, plain, allow, row, rehash, n, digest, rfl,
            Table.mem_rows_of_find hrow, hplain, hverify, hhash, hcredentials ▸ hrows⟩
          challenge := fun id c h ↦ ⟨c, by rw [hc, hchallenges, h], .refl c⟩
          noChallenge := fun id h ↦ by rw [hc, hchallenges, h] }
  | @missed _ id purpose c c' hcall hc husable hmissed =>
    rw [Accounts.saveAccount_self] at hsave
    have hsaved : t.upsertChallenge c' = some s'.accounts := by
      rw [← Option.some.inj hsave]
      simpa using haccounts
    obtain ⟨challenges, hs', hfind⟩ := Accounts.upsertChallenge_eq_some hsaved
    have hid : c.id = id := Table.key_eq_of_find hc
    refine
      { sessions := hquiet rfl
        registrations := hregistrations
        security := by rw [hs']; exact hensured
        credentials := .inl (by rw [hs']; exact hcredentials)
        challenge := fun id' old hold ↦ ?_
        noChallenge := fun id' h ↦ ?_ }
    · rw [← hchallenges] at hold
      rw [hs']
      dsimp only
      rw [hfind, hold, Challenge.upserted]
      split
      · rename_i hsame
        have hold' : old.id = id' := Table.key_eq_of_find hold
        have : id' = id := by rw [← hold', hsame.1, hmissed.id_eq, hid]
        subst this
        cases hc.symm.trans hold
        exact ⟨_, rfl, hmissed.updated ▸ hmissed⟩
      · exact ⟨old, rfl, .refl old⟩
    · rw [← hchallenges] at h
      rw [hs']
      dsimp only
      rw [hfind, h, Challenge.upserted, if_neg]
      rintro rfl
      rw [hmissed.id_eq, hid, hc] at h
      cases h

/-- A call that is committed with an expected failure. -/
theorem Ended.spared {α : Type} {k k' e} (hopens : s.Opens k)
    (hended : Ended env inputs call k (.error e : Except Failure α) k')
    (hcloses : k.Closes k' s'.accounts) (hsessions : s'.sessions = k'.sessions)
    (hregistrations : s'.registrations = k'.registrations) : Spared env inputs call s s' := by
  cases hopens with
  | missing =>
    obtain ⟨rfl, -⟩ := hended
    have haccounts : s'.accounts = s.accounts := hcloses
    exact .of_eq hsessions hregistrations (by rw [haccounts]) (by rw [haccounts])
      (.inl (by rw [haccounts]))
  | locked hrow hsecurity =>
    obtain ⟨a', saves, effect, hdeed, hdid⟩ := hended
    obtain ⟨a'', ha'', hsave⟩ := hcloses
    cases hdid.account.symm.trans ha''
    exact hdeed.spared hrow hsecurity hdid hsave hsessions hregistrations

/-- A registration is rejected and changes nothing, or it succeeds and goes on to `COMMIT`. -/
theorem Security.register_cases (env : Security) (inputs : Inputs) (email : String) (raw : Bytes)
    (browser : Bool) (s : Store) :
    (∃ e, env.register inputs email raw browser s = s.reject e) ∨ ∃ s' secret,
      env.register inputs email raw browser s = s.commit s' inputs.commit (.ok secret) none := by
  rw [register]
  split
  · exact .inl ⟨_, rfl⟩
  · rename_i secret row event c m w hbody
    rcases registerStore_change env inputs s row event c m with ⟨e, h⟩ | h | ⟨s', t, t', h, -⟩
    · exact .inl ⟨e, by rw [h]; rfl⟩
    · refine .inr ⟨s, secret, ?_⟩
      rw [h]
      cases inputs.commit <;> rfl
    · refine .inr ⟨s', secret, ?_⟩
      rw [h]
      cases inputs.commit <;> rfl

end

/-- A call that goes on to `COMMIT` and returns an error. -/
theorem Store.commit_error {α : Type} {s s' : Store} {commit : Commit} {r : Except Failure α}
    {issued : Option Tokens} {e : Failure} (h : (s.commit s' commit r issued).result = .error e) :
    (r = .error e ∧ (s.commit s' commit r issued).store = s') ∨
      (e.isExpected = false ∧
        ((s.commit s' commit r issued).store = s ∨ ∃ fault, commit = .lost fault)) := by
  cases commit with
  | done => exact .inl ⟨h, rfl⟩
  | refused fault =>
    cases h
    exact .inr ⟨fault.isExpected_failure, .inl rfl⟩
  | lost fault =>
    cases h
    exact .inr ⟨fault.isExpected_failure, .inr ⟨fault, rfl⟩⟩

/-- **Rejected calls spare the account.**  A call that returns an expected failure leaves the
sessions, the e-mail address, the flags and the revision of every account as they were.  A call that
fails with an infrastructure error in its transaction changes nothing; only when the answer to
`COMMIT` itself is lost may the transaction have taken effect. -/
theorem Call.rejected_spared (env : Security) (inputs : Inputs) (s : Store) (call : Call)
    (e : Failure) (h : (call.run env inputs s).result = .error e) :
    (e.isExpected = true → Spared env inputs call s (call.run env inputs s).store) ∧
      (e.isExpected = false → (∀ fault, inputs.commit ≠ .lost fault) →
        (call.run env inputs s).store = s) := by
  -- a call that goes on to `COMMIT` has changed something only if it reports an expected failure
  have hcommit : ∀ {s' : Store} {r : Except Failure Reply} {issued : Option Tokens},
      (Reported r) → (∀ e, r = .error e → Spared env inputs call s s') →
      (s.commit s' inputs.commit r issued).result = .error e →
      (e.isExpected = true → Spared env inputs call s (s.commit s' inputs.commit r issued).store) ∧
        (e.isExpected = false → (∀ fault, inputs.commit ≠ .lost fault) →
          (s.commit s' inputs.commit r issued).store = s) := by
    intro s' r issued hreported hspared h
    rcases Store.commit_error h with ⟨hr, hstore⟩ | ⟨hunexpected, hstore⟩
    · refine ⟨fun _ ↦ by rw [hstore]; exact hspared e hr, fun hunexpected ↦ ?_⟩
      cases (hreported e hr).symm.trans hunexpected
    · refine ⟨fun he ↦ (nomatch he.symm.trans hunexpected), fun _ hlost ↦ ?_⟩
      exact hstore.resolve_right fun ⟨fault, h⟩ ↦ hlost fault h
  by_cases hcall : ∃ email raw browser, call = .register email raw browser
  · obtain ⟨email, raw, browser, rfl⟩ := hcall
    rcases env.register_cases inputs email raw browser s with ⟨e', hrun⟩ | ⟨s', secret, hrun⟩
    · have hstore : (Call.run env inputs s (.register email raw browser)).store = s := by
        rw [Call.run, hrun]
        rfl
      exact ⟨fun _ ↦ by rw [hstore]; exact .refl s, fun _ _ ↦ hstore⟩
    · have hout : Call.run env inputs s (.register email raw browser) =
          s.commit s' inputs.commit (.ok (.secret secret)) none := by
        rw [Call.run, hrun]
        cases inputs.commit <;> rfl
      rw [hout] at h ⊢
      exact hcommit nofun nofun h
  · have hsettled := Call.run_settled env inputs s call
      fun email raw browser h ↦ hcall ⟨email, raw, browser, h⟩
    generalize call.run env inputs s = out at h hsettled ⊢
    cases hsettled with
    | rejected => exact ⟨fun _ ↦ .refl s, fun _ _ ↦ rfl⟩
    | closed hopens hended hreported hcloses hsessions hregistrations =>
      refine hcommit hreported (fun e he ↦ ?_) h
      subst he
      exact hended.spared hopens hcloses hsessions hregistrations

/-- A security service for examples: digests are the values themselves, and every account has the
password `p`. -/
def sampleSecurity : Security where
  lifetimes := Service.sampleLifetimes
  sha256 := Service.sampleSha
  digest _ _ value := List.Vector.ofFn fun i ↦ value.getD i 0
  origin := ""
  email value := some value
  password value := some value
  newPassword value := some value
  verify plain _ := some (plain = [112], false)
  payloadSize _ := 0

def samplePassword : PasswordDigest := ⟨"h", by decide⟩

def sampleID (n : UInt8) : List.Vector UInt8 16 := List.Vector.replicate 16 n

/-- An account and its verified address. -/
def sampleStore : Store where
  accounts :=
    { credentials := ⟨[⟨sampleID 1, "a@b", samplePassword⟩], by decide⟩
      security := ⟨[{ subject := sampleID 1, verified := true }], by decide⟩ }

/-- A login with a wrong password is rejected, and is counted. -/
theorem Call.rejected_spared_sample :
    Spared sampleSecurity { clock := fun _ ↦ 0 } (.login "a@b" [113] true) sampleStore
      ((Call.login "a@b" [113] true).run sampleSecurity { clock := fun _ ↦ 0 } sampleStore).store :=
  (Call.rejected_spared sampleSecurity { clock := fun _ ↦ 0 } sampleStore (.login "a@b" [113] true)
    .invalidCredentials rfl).1 rfl

end MarketMesh.Auth
