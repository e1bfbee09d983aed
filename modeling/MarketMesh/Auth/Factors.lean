import MarketMesh.Auth.Fence
import MarketMesh.Auth.Rows

/-!
# What a session was granted for

A session is created by a login with a password alone, by a login that a code completes, or by the
registration of the account.  The second and the third rest on calls that were made before, and all
that ties them together is a challenge: `exists_challenge` finds the call that created it, and
`bound` follows the secret of the browser through the links that were sent again.
-/

set_option autoImplicit false

namespace MarketMesh.Auth

/-! ## The challenges that a call creates -/

section

variable {env : Security} {inputs : Inputs} {challenges : Table Challenge.id} {a a' : Account}
  {call : Call} {ok : Bool} {saves : List Challenge} {effect : SessionEffect} {c o : Challenge}

/-- A challenge that was saved under an identifier that was not taken is not an old one. -/
theorem Challenge.Missed.find_ne_none {id} (h : c.Missed o)
    (hc : challenges.find id = some c) : challenges.find o.id ≠ none := by
  have hid : c.id = id := Table.key_eq_of_find hc
  rw [h.id_eq, hid, hc]
  simp

theorem Challenge.used_missed (c : Challenge) (now : Time) : c.Missed (c.used now) :=
  ⟨c.digest, c.attempts, c.sends, c.sentAt, some now, rfl⟩

/-- **The challenges that a call creates**: a code of a login whose password was verified, a code
that the owner asked for, or a link. -/
theorem Deed.creates (h : Deed env inputs challenges a call ok a' saves effect) (ho : o ∈ saves)
    (hnone : challenges.find o.id = none) :
    (∃ email raw plain allow, call = .login email raw allow ∧ a.Verifies env raw plain ∧
      o.IsNewCode inputs a .loginCode) ∨
    (∃ enabled, o.IsNewCode inputs a (Security.codePurpose enabled)) ∨
    ∃ c purpose email, purpose.isCode = false ∧ c.IsNewToken env inputs a' purpose email ∧
      (o = c ∨ ∃ old, challenges.find old.id = some old ∧ old.Usable inputs a' .verifyEmail ∧
        o = { c with
          registrationDigest := old.registrationDigest, expiresAt := old.expiresAt }) := by
  have hold {c : Challenge} {id : ChallengeID} (hc : challenges.find id = some c)
      (hmissed : c.Missed o) {P : Prop} : P := absurd hnone (hmissed.find_ne_none hc)
  cases h with
  | quiet | refused | loggedIn | changedPassword | revokedSession | loggedOut => cases ho
  | codeSent hpassword hrehash hc =>
    cases List.mem_singleton.mp ho
    rcases hc with hnew | ⟨old, hfind, -, hrenewed⟩
    · exact .inl ⟨_, _, _, _, rfl, hpassword, hnew⟩
    · exact hold hfind hrenewed.missed
  | resent hc _ hrenewed =>
    cases List.mem_singleton.mp ho
    exact hold hc hrenewed.missed
  | missed _ hc _ hmissed =>
    cases List.mem_singleton.mp ho
    exact hold hc hmissed
  | completedLogin hc | completedCodeChange _ hc =>
    cases List.mem_singleton.mp ho
    exact hold hc (Challenge.used_missed _ _)
  | confirmedRegistration hc | reset hc | confirmedEmailChange hc | cancelledEmailChange hc =>
    cases List.mem_singleton.mp ho
    obtain ⟨id, hfind⟩ := hc.find
    exact hold hfind (Challenge.used_missed _ _)
  | @requested email email' purpose latest c c' now hpurpose hlatest hnew hc =>
    rcases List.mem_append.mp ho with ho | ho
    · obtain ⟨old, hlast, rfl⟩ : ∃ old, latest = some old ∧ old.used now = o := by
        simpa using ho
      exact hold (hlatest old hlast) (Challenge.used_missed _ _)
    · cases List.mem_singleton.mp ho
      refine .inr (.inr ⟨c, purpose, email', ?_, hnew, hc.imp_right ?_⟩)
      · rcases hpurpose with rfl | rfl <;> rfl
      · rintro ⟨old, hlast, -, husable, rfl⟩
        exact ⟨old, hlatest old hlast, husable, rfl⟩
  | startedEmailChange _ hconfirm hcancel =>
    simp only [List.mem_cons, List.not_mem_nil, or_false] at ho
    rcases ho with rfl | rfl
    · exact .inr (.inr ⟨_, _, _, rfl, hconfirm, .inl rfl⟩)
    · exact .inr (.inr ⟨_, _, _, rfl, hcancel, .inl rfl⟩)
  | startedCodeChange hc =>
    cases List.mem_singleton.mp ho
    rcases hc with hnew | ⟨old, hfind, -, hrenewed⟩
    · exact .inr (.inl ⟨_, hnew⟩)
    · exact hold hfind hrenewed.missed

end

namespace System

variable {env : Security} {inputs : Inputs} {x y z b : System} {call : Call} {action : Action}
  {as pre : List Action} {id : ChallengeID} {c : Challenge}

/-- How a call made in `b` creates a challenge, by what the challenge keeps. -/
inductive Creates (env : Security) (b : System) (inputs : Inputs) : Call → Origin → Prop
  | deed {call a a' ok saves effect o} (haccount : b.accounts.account a.subject = some a)
      (hdeed : Deed env inputs b.accounts.challenges a call ok a' saves effect) (ho : o ∈ saves)
      (hnew : o.IsNew inputs a') : Creates env b inputs call o.origin
  | registered {email : String} {raw secret : Bytes} {browser : Bool} {a : Account}
      {c c' : Challenge} (hnone : b.accounts.account a.subject = none)
      (hsome :
        ((b.settle ((Call.register email raw browser).run env inputs b.store)).accounts.account
          a.subject) = some a)
      (hrevision : a.revision = 1) (hnew : c.IsNewToken env inputs a .verifyEmail a.email)
      (hc : c' = c ∨ browser = true ∧ c' = { c with
        registrationDigest := env.digest "registration-browser" a.subject secret })
      (hresult : ∀ reply, ((Call.register email raw browser).run env inputs b.store).result =
        .ok reply → reply = .secret secret) :
      Creates env b inputs (.register email raw browser) c'.origin

theorem step_creates (hfresh : x.Fresh action) (h : x.step env action = some y)
    (hnone : x.accounts.challenges.find id = none) (hc : y.accounts.challenges.find id = some c) :
    ∃ call inputs, action = .call call inputs ∧ Creates env x inputs call c.origin := by
  cases Step.of_step h with
  | @call call inputs =>
    refine ⟨call, inputs, rfl, ?_⟩
    have hchange := call.run_change env inputs x.store
    generalize hout : call.run env inputs x.store = out at hchange hc
    cases hchange with
    | unchanged _ hchallenges =>
      cases hc.symm.trans (hchallenges ▸ hnone)
    | deed haccount hdeed _ hsaves =>
      have hchurn := Accounts.churn_of_saves hdeed.admissible
        (fun n id hid ↦ (hfresh n id hid).1) hsaves
      obtain ⟨o, ho, hnew, horigin⟩ := hchurn.fresh id c hc hnone
      exact horigin ▸ .deed haccount hdeed ho hnew
    | @registered _ _ _ _ _ a c₀ c' hnone' ha hnew hc' haccount hsaves _ _ hresult =>
      have hnew' : c'.IsNew inputs a := by
        rcases hc' with rfl | ⟨-, rfl⟩ <;> exact hnew.isNew
      have hchurn := Accounts.churn_of_saves (.new hnew')
        (fun n id hid ↦ (hfresh n id hid).1) hsaves
      obtain ⟨o, ho, -, horigin⟩ := hchurn.fresh id c hc hnone
      cases List.mem_singleton.mp ho
      refine horigin ▸ .registered hnone' ?_ ha.1 hnew hc' (hout ▸ hresult)
      rw [hout]
      exact (haccount a.subject).trans (if_pos rfl)
  | service | enroll => cases hc.symm.trans hnone
  | @sweep now ids =>
    have hc' := (x.accounts.challenges.find_delete (fun id ↦ decide (id ∈ ids)) id).symm.trans hc
    rw [hnone] at hc'
    split at hc' <;> cases hc'

/-- A challenge is created by a call. -/
theorem exists_challenge (h : Runs env z as x) (hz : z.accounts.challenges.find id = none)
    (hc : x.accounts.challenges.find id = some c) : ∃ pre b call inputs,
      Makes env z as x pre b call inputs ∧ b.accounts.challenges.find id = none ∧
      (b.settle (call.run env inputs b.store)).accounts.challenges.find id ≠ none ∧
      Creates env b inputs call c.origin := by
  obtain ⟨pre, action, post, b, b', has, hb, hfresh, hstep, hnone, hsome, hafter⟩ :=
    h.exists_turn (P := fun y ↦ y.accounts.challenges.find id ≠ none) (not_not.mpr hz)
      (by rw [hc]; simp)
  have hnone := not_not.mp hnone
  obtain ⟨c₀, hc₀⟩ := Option.ne_none_iff_exists'.mp hsome
  obtain ⟨call, inputs, rfl, hcreates⟩ := step_creates hfresh hstep hnone hc₀
  cases hstep
  have horigin := (origin_eq hafter.reach hc₀ hc).1
  exact ⟨pre, b, call, inputs, ⟨hb, hfresh, post, has, hafter⟩, hnone, hsome, horigin ▸ hcreates⟩

theorem Makes.next (h : Makes env z as x pre b call inputs) (hfresh : x.Fresh action)
    (hstep : x.step env action = some y) : Makes env z (as ++ [action]) y pre b call inputs := by
  obtain ⟨post, rfl, hafter⟩ := h.after
  exact ⟨h.before, h.fresh, post ++ [action], by rw [List.append_assoc, List.cons_append],
    hafter.next hfresh hstep⟩

/-! ## The password of a login -/

/-- In the run from `z` to `x`, a login has verified the password of the account at the revision of
the challenge, and has created the challenge. -/
def LoggedIn (env : Security) (z : System) (as : List Action) (x : System) (c : Challenge) : Prop :=
  ∃ pre b email raw plain allow inputs a, Makes env z as x pre b (.login email raw allow) inputs ∧
    b.accounts.challenges.find c.id = none ∧
    (b.settle ((Call.login email raw allow).run env inputs b.store)).accounts.challenges.find c.id ≠
      none ∧
    b.accounts.account c.subject = some a ∧ a.Verifies env raw plain ∧ a.revision = c.revision

/-- The code of a login is created by a login that has verified the password. -/
theorem Creates.login {o} (h : Creates env b inputs call o)
    (hpurpose : o.purpose = .loginCode) (hnone : b.accounts.challenges.find o.id = none) :
    ∃ email raw plain allow a, call = .login email raw allow ∧
      b.accounts.account o.subject = some a ∧ a.Verifies env raw plain ∧
      a.revision = o.revision := by
  cases h with
  | @deed _ a a' _ _ _ c haccount hdeed hmem =>
    rcases hdeed.creates hmem hnone with ⟨email, raw, plain, allow, rfl, hpassword, hcode⟩ |
      ⟨enabled, _, _, _, -, _, _, rfl⟩ | ⟨d, purpose, email, hkind, hd, hc⟩
    · obtain ⟨_, _, _, -, _, _, rfl⟩ := hcode
      exact ⟨email, raw, plain, allow, a, rfl, haccount, hpassword, rfl⟩
    · cases enabled <;> cases hpurpose
    · -- a link is not a code
      have hc' : c.purpose = purpose := by
        obtain ⟨_, _, _, _, _, _, -, -, rfl⟩ := hd
        rcases hc with rfl | ⟨old, -, -, rfl⟩ <;> rfl
      cases hc'.symm.trans hpurpose
      cases hkind
  | @registered _ _ _ _ a d d' _ _ _ hnew hd =>
    obtain ⟨_, _, _, _, _, _, -, -, rfl⟩ := hnew
    rcases hd with rfl | ⟨-, rfl⟩ <;> cases hpurpose

theorem loggedIn (h : Runs env z as x) (hz : z.accounts.challenges.find id = none)
    (hc : x.accounts.challenges.find id = some c) (hpurpose : c.purpose = .loginCode) :
    LoggedIn env z as x c := by
  obtain ⟨pre, b, call, inputs, hmakes, hnone, hsome, hcreates⟩ := exists_challenge h hz hc
  have hid : c.id = id := Table.key_eq_of_find hc
  rw [← hid] at hnone hsome
  obtain ⟨email, raw, plain, allow, a, rfl, h⟩ := hcreates.login hpurpose hnone
  exact ⟨pre, b, email, raw, plain, allow, inputs, a, hmakes, hnone, hsome, h⟩

/-! ## The secret of a browser -/

/-- The call made in `x` registers the account, from a browser, and makes the secret that the digest
is of. -/
def Registers (env : Security) (x : System) (inputs : Inputs) (subject : SubjectID)
    (digest : Digest) (call : Call) : Prop :=
  ∃ email raw secret, call = .register email raw true ∧ x.accounts.account subject = none ∧
    (x.settle (call.run env inputs x.store)).accounts.account subject ≠ none ∧
    (∀ reply, (call.run env inputs x.store).result = .ok reply → reply = .secret secret) ∧
    digest = env.digest "registration-browser" subject secret

/-- **A challenge that is bound to a browser** was so before the step, it took the digest over from
the link before, or it was made by the registration of the account. -/
theorem step_bound (hfresh : x.Fresh action) (hstep : x.step env action = some y)
    (hc : y.accounts.challenges.find id = some c) (hne : c.registrationDigest ≠ zeroDigest) :
    (∃ id' o, x.accounts.challenges.find id' = some o ∧ o.subject = c.subject ∧
      o.registrationDigest = c.registrationDigest ∧ o.revision = c.revision) ∨
    ∃ call inputs, action = .call call inputs ∧
      Registers env x inputs c.subject c.registrationDigest call := by
  cases hold : x.accounts.challenges.find id with
  | some o =>
    have horigin := (origin_eq (.next .start hfresh hstep) hold hc).1
    exact .inl ⟨id, o, hold, (congrArg Origin.subject horigin).symm,
      (congrArg Origin.registrationDigest horigin).symm, (congrArg Origin.revision horigin).symm⟩
  | none =>
    obtain ⟨call, inputs, rfl, hcreates⟩ := step_creates hfresh hstep hold hc
    have hid : c.id = id := Table.key_eq_of_find hc
    generalize horigin : c.origin = origin at hcreates
    have hdigest : c.registrationDigest = origin.registrationDigest :=
      congrArg Origin.registrationDigest horigin
    have hsubject : c.subject = origin.subject := congrArg Origin.subject horigin
    have hrevision : c.revision = origin.revision := congrArg Origin.revision horigin
    rw [hdigest] at hne
    rw [hdigest, hsubject, hrevision]
    cases hcreates with
    | @deed _ a a' _ _ _ o haccount hdeed ho =>
      have hoid : o.id = id := (congrArg Origin.id horigin).symm.trans hid
      rcases hdeed.creates ho (hoid ▸ hold) with ⟨_, _, _, _, -, -, _, _, _, -, _, _, rfl⟩ |
        ⟨_, _, _, _, -, _, _, rfl⟩ | ⟨d, purpose, email, -, hd, ho⟩
      · exact absurd rfl hne
      · exact absurd rfl hne
      · obtain ⟨_, _, _, _, _, _, -, -, rfl⟩ := hd
        rcases ho with rfl | ⟨old, hfind, husable, rfl⟩
        · exact absurd rfl hne
        · exact .inl ⟨old.id, old, hfind, husable.subject_eq, rfl, husable.revision_eq⟩
    | @registered email raw secret browser a d d' hnone hsome hone hnew hd hresult =>
      obtain ⟨_, _, _, _, _, _, -, -, rfl⟩ := hnew
      rcases hd with rfl | ⟨rfl, rfl⟩
      · exact absurd rfl hne
      · exact .inr ⟨_, inputs, rfl, ⟨email, raw, secret, rfl, hnone,
          fun hgone ↦ (nomatch hsome.symm.trans hgone), hresult, rfl⟩⟩

/-- In the run to `x`, the account was registered from a browser with a secret of that digest. -/
def RegisteredWith (env : Security) (as : List Action) (x : System) (subject : SubjectID)
    (digest : Digest) : Prop :=
  ∃ pre b call inputs, Makes env {} as x pre b call inputs ∧
    Registers env b inputs subject digest call

/-- A challenge that is bound to a browser is of the registration. -/
theorem bound (h : Runs env {} as x) : ∀ id c, x.accounts.challenges.find id = some c →
    c.registrationDigest ≠ zeroDigest →
    RegisteredWith env as x c.subject c.registrationDigest := by
  induction h with
  | start => exact nofun
  | @next as x y action hpath hfresh hstep ih =>
    intro id c hc hne
    rcases step_bound hfresh hstep hc hne with ⟨id', o, ho, hsubject, hdigest, -⟩ |
      ⟨call, inputs, rfl, hregisters⟩
    · obtain ⟨pre, b, call, inputs, hmakes, hregisters⟩ := ih id' o ho (hdigest ▸ hne)
      rw [hsubject, hdigest] at hregisters
      exact ⟨pre, b, call, inputs, hmakes.next hfresh hstep, hregisters⟩
    · cases hstep
      exact ⟨as, x, call, inputs, ⟨hpath, hfresh, [], rfl, .start⟩, hregisters⟩

/-! ## The secret of a link -/

/-- The secret of the link was drawn by the call that has created the challenge. -/
def DrawnFor (env : Security) (as : List Action) (x : System) (c : Challenge) : Prop :=
  ∃ pre b call inputs n random, Makes env {} as x pre b call inputs ∧
    b.accounts.challenges.find c.id = none ∧ inputs.secrets n = some random ∧
    c.digest = env.digest c.purpose.text c.id (encodeBase64 random)

theorem drawnFor (h : Runs env {} as x) (hc : x.accounts.challenges.find id = some c)
    (hpurpose : c.purpose.isCode = false) : DrawnFor env as x c := by
  obtain ⟨pre, b, call, inputs, hmakes, hnone, -, hcreates⟩ := exists_challenge h rfl hc
  have hid : c.id = id := Table.key_eq_of_find hc
  rw [← hid] at hnone
  generalize horigin : c.origin = origin at hcreates
  have hcid : c.id = origin.id := congrArg Origin.id horigin
  have hcpurpose : c.purpose = origin.purpose := congrArg Origin.purpose horigin
  have htoken : some c.digest = origin.tokenDigest := by
    rw [← horigin, Challenge.origin, hpurpose]
    rfl
  -- a link that is saved keeps its identifier, its purpose and its digest
  have hdrawn {d o : Challenge} {a : Account} {purpose : Purpose} {email : String}
      (hd : d.IsNewToken env inputs a purpose email) (ho : o.origin = origin)
      (hids : d.id = o.id) (hpurposes : d.purpose = o.purpose) (hdigest : d.digest = o.digest) :
      DrawnFor env as x c := by
    obtain ⟨n, m, _, random, _, _, -, hrandom, rfl⟩ := hd
    have hopurpose : c.purpose = o.purpose := hcpurpose.trans (congrArg Origin.purpose ho).symm
    have hoid : c.id = o.id := hcid.trans (congrArg Origin.id ho).symm
    refine ⟨pre, b, call, inputs, m, random, hmakes, hnone, hrandom, ?_⟩
    rw [← ho, Challenge.origin, ← hopurpose, hpurpose] at htoken
    rw [Option.some.inj htoken, ← hdigest, hopurpose, hoid, ← hpurposes, ← hids]
  cases hcreates with
  | @deed _ a a' _ _ _ o haccount hdeed ho =>
    have hoid : c.id = o.id := hcid
    rcases hdeed.creates ho (hoid ▸ hnone) with ⟨_, _, _, _, -, -, _, _, _, -, _, _, rfl⟩ |
      ⟨enabled, _, _, _, -, _, _, rfl⟩ | ⟨d, purpose, email, hkind, hd, ho⟩
    · rw [hcpurpose] at hpurpose
      cases hpurpose
    · rw [hcpurpose] at hpurpose
      cases hpurpose.symm.trans (isCode_codePurpose enabled)
    · refine hdrawn (o := o) hd rfl ?_ ?_ ?_ <;> rcases ho with rfl | ⟨old, -, -, rfl⟩ <;> rfl
  | @registered _ _ _ _ a d d' _ _ _ hnew hd =>
    refine hdrawn (o := d') hnew rfl ?_ ?_ ?_ <;> rcases hd with rfl | ⟨-, rfl⟩ <;> rfl

/-! ## Sessions -/

/-- **What a call creates a session for**, made in the state `b` of a run from `z`, after the
actions `pre`. -/
inductive Grounds (env : Security) (z : System) (pre : List Action) (b : System) (inputs : Inputs)
    (a : Account) : Call → Prop
  /-- A login with the password of a verified account that asks for no code. -/
  | password {email raw plain allow}
      (hpassword : a.Verifies env raw plain) (hverified : a.verified = true)
      (hcode : a.codeEnabled = false) : Grounds env z pre b inputs a (.login email raw allow)
  /-- The code of a login of the same revision that has verified the password. -/
  | code {id code c}
      (hc : b.accounts.challenges.find id = some c) (husable : c.Usable inputs a .loginCode)
      (hdigest : env.digest Purpose.loginCode.text id code = c.digest)
      (hverified : a.verified = true) (hcode : a.codeEnabled = true)
      (hlogin : LoggedIn env z pre b c) : Grounds env z pre b inputs a (.completeLogin id code)

/-- The link and the browser of a registration that is not confirmed. -/
structure Confirms (env : Security) (pre : List Action) (b : System) (inputs : Inputs)
    (a : Account) (value secret : Bytes) (c : Challenge) : Prop where
  presented : c.Presented env inputs b.accounts.challenges a value .verifyEmail
  drawn : DrawnFor env pre b c
  verified : a.verified = false
  digest : env.digest "registration-browser" a.subject secret = c.registrationDigest
  registered : RegisteredWith env pre b a.subject c.registrationDigest

/-- **No session without every required factor.**  Each session of a state was created, in every run
to that state, by a call that had grounds for it or that has confirmed a registration. -/
theorem session_grounds {id : SessionID} {row : SessionRow} (h : Runs env {} as x)
    (hrow : x.service.tables.sessions.find id = some row) :
    ∃ pre b call inputs a, Makes env {} as x pre b call inputs ∧
      b.service.tables.sessions.find id = none ∧
      (b.settle (call.run env inputs b.store)).service.tables.sessions.find id ≠ none ∧
      b.accounts.account a.subject = some a ∧ a.subject = row.record.subjectID ∧
      (Grounds env {} pre b inputs a call ∨ ∃ value secret c,
        call = .confirmRegistration value secret ∧
        Confirms env pre b inputs a value secret c) := by
  obtain ⟨pre, b, call, inputs, a, a', ok, saves, tokens, hmakes, hnone, hsome, haccount, hsubject,
    hdeed⟩ := exists_created h rfl hrow
  refine ⟨pre, b, call, inputs, a, hmakes, hnone, hsome, haccount, hsubject, ?_⟩
  cases hdeed with
  | loggedIn hpassword _ hverified hcode => exact .inl (.password hpassword hverified hcode)
  | completedLogin hc husable hdigest hverified hcode =>
    exact .inl (.code hc husable hdigest hverified hcode
      (loggedIn hmakes.before rfl hc husable.purpose_eq))
  | @confirmedRegistration value secret c _ _ hc _ hverified heffect =>
    rcases heffect with heffect | ⟨_, heffect, -, hne, hdigest⟩ <;> cases heffect
    obtain ⟨id', secret', hvalue, hfind, husable, hsecret⟩ := hc
    have hregistered := bound hmakes.before id' c hfind hne
    rw [husable.subject_eq] at hregistered
    refine .inr ⟨value, secret, c, rfl, ⟨id', secret', hvalue, hfind, husable, hsecret⟩,
      drawnFor hmakes.before hfind ?_, hverified, hdigest, hregistered⟩
    rw [husable.purpose_eq]
    rfl

/-! An account is registered from a browser, which confirms the registration. -/

def sampleJoined : System :=
  ({} : System).settle ((Call.register "a@b" [112] true).run sampleSecurity (sampleInputs 1) {})

def sampleConfirm : Call :=
  .confirmRegistration (formatLink (sampleID 1) (encodeBase64 (List.replicate 32 1)))
    (encodeBase64 (List.replicate 32 1))

def sampleGrant : Inputs :=
  { sampleInputs 2 with
    sessionIDs := fun _ ↦ some (sampleID 3)
    sessionSecrets := fun _ ↦ some Service.sampleSecrets }

def sampleConfirmed : System :=
  sampleJoined.settle (sampleConfirm.run sampleSecurity sampleGrant sampleJoined.store)

theorem runs_sampleConfirmed : Runs sampleSecurity {}
    [.call (.register "a@b" [112] true) (sampleInputs 1), .call sampleConfirm sampleGrant]
    sampleConfirmed := by
  refine Machine.Path.next (a := Action.call sampleConfirm sampleGrant)
    (Machine.Path.next (a := Action.call (.register "a@b" [112] true) (sampleInputs 1))
      .start ?_ rfl)
    ?_ rfl
  · exact fun _ _ _ ↦ ⟨rfl, List.not_mem_nil⟩
  · rintro n id h
    cases h
    decide +kernel

theorem session_grounds_sample : ∃ row pre b call inputs a,
    sampleConfirmed.service.tables.sessions.find (sampleID 3) = some row ∧
      Makes sampleSecurity {}
        [.call (.register "a@b" [112] true) (sampleInputs 1), .call sampleConfirm sampleGrant]
        sampleConfirmed pre b call inputs ∧
      a.subject = row.record.subjectID ∧ (Grounds sampleSecurity {} pre b inputs a call ∨
        ∃ value secret c, call = .confirmRegistration value secret ∧
          Confirms sampleSecurity pre b inputs a value secret c) := by
  obtain ⟨row, hrow⟩ := Option.isSome_iff_exists.mp
    (show (sampleConfirmed.service.tables.sessions.find (sampleID 3)).isSome = true by
      decide +kernel)
  obtain ⟨pre, b, call, inputs, a, hmakes, -, -, -, hsubject, hgrounds⟩ :=
    session_grounds runs_sampleConfirmed hrow
  exact ⟨row, pre, b, call, inputs, a, hrow, hmakes, hsubject, hgrounds⟩

end System

end MarketMesh.Auth
