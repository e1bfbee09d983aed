import MarketMesh.Auth.System

/-!
# Challenges are used once, and not after a fence

A challenge that has completed a call is used, and stays so.  A change of what an account logs in
with raises the revision of the account, and a challenge is only accepted at the revision it was
made at; so the change is a fence that no challenge from before it passes.

A call asks for `COMMIT` last, so that the answer to it decides nothing of what the call has done.
When the answer is lost the call reports a failure, but its transaction has been committed:
`Call.Commits` says that a call has had its effect, whether or not its caller knows.
-/

set_option autoImplicit false

namespace MarketMesh.Auth

/-! ## The end of a transaction -/

/-- The same environment, in which `COMMIT` is answered. -/
def Inputs.answered (inputs : Inputs) : Inputs := { inputs with commit := .done }

/-- The call ends without a failure and its transaction is committed, even if the answer to `COMMIT`
is lost. -/
def Call.Commits (env : Security) (inputs : Inputs) (s : Store) (call : Call) : Prop :=
  (∀ fault, inputs.commit ≠ .refused fault) ∧
    (call.run env inputs.answered s).result.isOk = true

/-- What the answer to `COMMIT` changes of an outcome, `out'` being the one with an answer. -/
structure Answered {α : Type} (commit : Commit) (out out' : Outcome α) : Prop where
  commits : out.result.isOk = true →
    (∀ fault, commit ≠ .refused fault) ∧ out'.result.isOk = true
  store_eq : (∀ fault, commit ≠ .refused fault) → out'.result.isOk = true →
    out.store = out'.store
  issued_eq : (∀ fault, commit ≠ .refused fault) → out'.result.isOk = true →
    out.issued = out'.issued

namespace Answered

variable {α β : Type} {commit : Commit} {inputs : Inputs} {out out' : Outcome α} {s s' : Store}

theorem reject (e : Failure) : Answered commit (s.reject e : Outcome α) (s.reject e) where
  commits h := by cases h
  store_eq _ h := by cases h
  issued_eq _ h := by cases h

theorem of_commit (r : Except Failure α) (issued : Option Tokens) :
    Answered commit (s.commit s' commit r issued) (s.commit s' .done r issued) := by
  cases commit with
  | done => exact ⟨fun h ↦ ⟨nofun, h⟩, fun _ _ ↦ rfl, fun _ _ ↦ rfl⟩
  | refused fault =>
    exact ⟨nofun, fun h _ ↦ absurd rfl (h fault), fun h _ ↦ absurd rfl (h fault)⟩
  | lost => exact ⟨nofun, fun _ _ ↦ rfl, fun _ _ ↦ rfl⟩

theorem map (f : α → β) (h : Answered commit out out') :
    Answered commit (out.map f) (out'.map f) := by
  have hok : ∀ o : Outcome α, (o.map f).result.isOk = o.result.isOk := by
    rintro ⟨_ | _, _, _⟩ <;> rfl
  refine ⟨fun hout ↦ ?_, fun hc hout ↦ ?_, fun hc hout ↦ ?_⟩
  · rw [hok] at hout ⊢
    exact h.commits hout
  · exact h.store_eq hc (hok out' ▸ hout)
  · exact h.issued_eq hc (hok out' ▸ hout)

theorem withAccount (selector : Selector) (body : Handler (Except Failure α)) :
    Answered inputs.commit (withAccount inputs selector body s)
      (withAccount inputs.answered selector body s) := by
  unfold Auth.withAccount
  split
  · exact reject _
  · split
    · split
      · exact reject _
      · exact of_commit _ _
    · dsimp only
      split
      · exact reject _
      · split
        · exact reject _
        · split
          · exact of_commit _ _
          · exact reject _

theorem withChallenge (id : ChallengeID) (apply : Challenge → Handler α) :
    Answered inputs.commit (Security.withChallenge inputs id apply s)
      (Security.withChallenge inputs.answered id apply s) := by
  unfold Security.withChallenge
  split
  · exact reject _
  · split
    · exact reject _
    · exact withAccount _ _

theorem withOwner (actor : Record) (apply : Handler α) :
    Answered inputs.commit (Security.withOwner inputs actor apply s)
      (Security.withOwner inputs.answered actor apply s) := by
  unfold Security.withOwner
  split
  · exact reject _
  · exact withAccount _ _

theorem confirmToken (env : Security) (value : Bytes) (purpose : Purpose)
    (apply : Challenge → Handler α) :
    Answered inputs.commit (env.confirmToken inputs value purpose apply s)
      (env.confirmToken inputs.answered value purpose apply s) := by
  unfold Security.confirmToken
  split
  · exact reject _
  · exact withChallenge _ _

theorem registerStore (env : Security) (row : CredentialRow) (event : Registration)
    (c : Challenge) (m : Mail) : Answered inputs.commit (env.registerStore inputs row event c m s)
      (env.registerStore inputs.answered row event c m s) := by
  unfold Security.registerStore
  dsimp only
  split
  · exact reject _
  · split
    · exact reject _
    · split
      · exact of_commit _ _
      · split
        · have hsave :
              env.saveRegistration inputs.answered c m = env.saveRegistration inputs c m := rfl
          rw [hsave]
          split
          · exact of_commit _ _
          · exact reject _
        · exact reject _

end Answered

section

variable {env : Security} {inputs : Inputs} {s : Store}

/-- A call gives the same outcome whatever the answer to `COMMIT`, up to what it reports. -/
theorem Call.answered (env : Security) (inputs : Inputs) (s : Store) (call : Call) :
    Answered inputs.commit (call.run env inputs s) (call.run env inputs.answered s) := by
  cases call with
  | register email raw browser =>
    refine .map _ ?_
    unfold Security.register
    have hdraw : env.drawRegistration inputs.answered email raw browser =
        env.drawRegistration inputs email raw browser := rfl
    rw [hdraw]
    split
    · exact .reject _
    · rename_i secret row event c m _ _
      have h : Answered inputs.commit _ _ :=
        (Answered.registerStore (s := s) env row event c m).map fun _ ↦ secret
      exact ⟨h.commits, h.store_eq, fun _ _ ↦ rfl⟩
  | login =>
    refine .map _ ?_
    unfold Security.login
    split
    · exact .reject _
    · split
      · exact .reject _
      · exact .withAccount _ _
  | requestToken =>
    refine .map _ ?_
    unfold Security.requestToken
    split
    · exact .reject _
    · split
      · exact .reject _
      · exact .withAccount _ _
  | resetPassword =>
    refine .map _ ?_
    unfold Security.resetPassword
    split
    · exact .reject _
    · exact .confirmToken env _ _ _
  | changePassword =>
    refine .map _ ?_
    unfold Security.changePassword
    split
    · exact .reject _
    · exact .withOwner _ _
  | startEmailChange =>
    refine .map _ ?_
    unfold Security.startEmailChange
    split
    · exact .reject _
    · exact .withOwner _ _
  | completeLogin | resendCode => exact .map _ (.withChallenge _ _)
  | confirmRegistration | confirmEmailChange | cancelEmailChange =>
    exact .map _ (.confirmToken env _ _ _)
  | credentials | startCodeChange | completeCodeChange | listSessions | revokeSession | logoutAll =>
    exact .map _ (.withOwner _ _)

theorem Call.Commits.store_eq {call : Call} (h : call.Commits env inputs s) :
    (call.run env inputs s).store = (call.run env inputs.answered s).store :=
  (call.answered env inputs s).store_eq h.1 h.2

end

/-! ## The account of a call -/

/-- The account a call is about: that of the actor, or the one the challenge belongs to. -/
def Call.owner (s : Store) : Call → Option SubjectID
  | .changePassword actor .. | .startEmailChange actor .. | .startCodeChange actor ..
  | .completeCodeChange actor .. | .revokeSession actor .. | .logoutAll actor =>
      some actor.subjectID
  | call => call.completes.bind fun id ↦ (s.accounts.challenges.find id).map Challenge.subject

section

variable {env : Security} {inputs : Inputs} {s : Store} {a a' : Account} {call : Call}
  {saves : List Challenge} {effect : SessionEffect}

/-- The account whose lock a call holds is the one it is about. -/
theorem Deed.owner_eq (h : Deed env inputs s.accounts.challenges a call true a' saves effect)
    (hcall : call.isFence = true ∨ call.completes.isSome = true) :
    call.owner s = some a.subject := by
  have hfound {id : ChallengeID} {c : Challenge} {purpose : Purpose}
      (hc : s.accounts.challenges.find id = some c) (husable : c.Usable inputs a purpose) :
      (s.accounts.challenges.find id).map Challenge.subject = some a.subject := by
    rw [hc, Option.map_some, husable.subject_eq]
  have hpresented {value : Bytes} {c : Challenge} {purpose : Purpose}
      (hc : c.Presented env inputs s.accounts.challenges a value purpose) :
      ((parseLink value).map Prod.fst).bind (fun id ↦
        (s.accounts.challenges.find id).map Challenge.subject) = some a.subject := by
    obtain ⟨id, secret, hvalue, hc, husable, -⟩ := hc
    rw [hvalue, Option.map_some, Option.bind_some, hfound hc husable]
  cases h with
  | quiet hpassive => cases (Call.not_isPassive hcall).symm.trans (hpassive rfl)
  | completedLogin hc husable => exact hfound hc husable
  | confirmedRegistration hc | reset hc | confirmedEmailChange hc | cancelledEmailChange hc =>
    exact hpresented hc
  | changedPassword h | startedEmailChange h | completedCodeChange h => rw [Call.owner, h]
  | _ => rcases hcall with h | h <;> cases h

/-- A call that commits, and may not succeed without a change, has done a deed. -/
theorem Call.Commits.deed (h : call.Commits env inputs s) (hcall : call.isPassive = false) :
    ∃ a a' saves effect, s.accounts.account a.subject = some a ∧
      Deed env inputs.answered s.accounts.challenges a call true a' saves effect ∧
      (∀ subject, (call.run env inputs s).store.accounts.account subject =
        if a.subject = subject then some a' else s.accounts.account subject) ∧
      (∃ t t', t.challenges = s.accounts.challenges ∧
        saves.foldlM Accounts.upsertChallenge t = some t' ∧
        t'.challenges = (call.run env inputs s).store.accounts.challenges) ∧
      effect.apply env.sha256 s.sessions = some (call.run env inputs s).store.sessions := by
  rw [h.store_eq]
  have hok := h.2
  have hchange := call.run_change env inputs.answered s
  generalize call.run env inputs.answered s = out at hok hchange ⊢
  cases hchange with
  | unchanged _ _ _ _ hpassive => cases hcall.symm.trans (hpassive hok)
  | deed haccount hdeed haccount' hsaves hsessions _ hdeedOk =>
    cases hdeedOk hok
    exact ⟨_, _, _, _, haccount, hdeed, haccount', hsaves, hsessions⟩
  | registered => cases hcall

end

namespace System

variable {env : Security} {inputs : Inputs} {x b : System} {call : Call} {id : ChallengeID}
  {c : Challenge}

/-- A call that succeeds with a challenge was given one that is not used and belongs to the revision
of its account, and has used it. -/
theorem completed (h : call.Commits env inputs x.store) (hcall : call.completes = some id) :
    ∃ c a purpose, x.accounts.challenges.find id = some c ∧
      x.accounts.account c.subject = some a ∧ c.Usable inputs a purpose ∧
      call.owner x.store = some c.subject ∧
      (call.isFence = true ∨ purpose = .loginCode ∨ purpose = .verifyEmail) ∧
      ∃ c', (x.settle (call.run env inputs x.store)).accounts.challenges.find id = some c' ∧
        c'.usedAt.isSome = true := by
  have hcompletes : call.completes.isSome = true := by rw [hcall]; rfl
  obtain ⟨a, a', saves, effect, haccount, hdeed, -, ⟨t, t', ht, hfold, ht'⟩, -⟩ :=
    h.deed (Call.not_isPassive (.inr hcompletes))
  obtain ⟨c, now, purpose, hc, husable, rfl, hkind⟩ := hdeed.completes hcall
  have hupsert : t.upsertChallenge (c.used now) = some t' := by simpa using hfold
  obtain ⟨-, c', hc', hused⟩ := Accounts.upsertChallenge_old (N := fun _ ↦ True)
    (ht.symm ▸ Challenge.IsOld.used hc now) hupsert
  have hid : c.id = id := Table.key_eq_of_find hc
  have howner := hdeed.owner_eq (.inr hcompletes)
  refine ⟨c, a, purpose, hc, husable.subject_eq ▸ haccount, husable,
    husable.subject_eq ▸ howner, hkind, c', ?_, ?_⟩
  · rw [← hid]
    exact ht' ▸ hc'
  · rw [hused]
    rfl

/-- A call that is a fence raises the revision of its account. -/
theorem fenced {subject} (h : call.Commits env inputs x.store)
    (hcall : call.isFence = true) (howner : call.owner x.store = some subject) : ∃ a a',
      x.accounts.account subject = some a ∧
      (x.settle (call.run env inputs x.store)).accounts.account subject = some a' ∧
      a'.revision = a.revision + 1 := by
  obtain ⟨a, a', saves, effect, haccount, hdeed, haccount', -⟩ :=
    h.deed (Call.not_isPassive (.inl hcall))
  cases howner.symm.trans (hdeed.owner_eq (.inl hcall))
  exact ⟨a, a', haccount, (haccount' a.subject).trans (if_pos rfl), hdeed.fence hcall⟩

/-- A used challenge completes no call in any later state. -/
theorem not_commits_of_used (hc : b.accounts.challenges.find id = some c)
    (hused : c.usedAt.isSome = true) (hreach : Reaches env b x) (hcall : call.completes = some id) :
    ¬ call.Commits env inputs x.store := by
  intro h
  obtain ⟨d, a, purpose, hd, -, husable, -⟩ := completed h hcall
  have := (origin_eq hreach hc hd).2 hused
  rw [husable.eq_none] at this
  cases this

/-- The challenges that an account has had before a fence complete no call after it. -/
theorem not_commits_of_fence {b₀ : System} {call' : Call} {inputs' : Inputs}
    (hreach : Reaches env {} b₀) (hc : b₀.accounts.challenges.find id = some c)
    (hb : Reaches env b₀ b) (hfresh : b.Fresh (.call call inputs))
    (h : call.Commits env inputs b.store) (hfence : call.isFence = true)
    (howner : call.owner b.store = some c.subject)
    (hlater : Reaches env (b.settle (call.run env inputs b.store)) x)
    (hcall : call'.completes = some id) : ¬ call'.Commits env inputs' x.store := by
  intro h'
  obtain ⟨d, a₁, purpose, hd, ha₁, husable, -⟩ := completed h' hcall
  obtain ⟨a, a', ha, ha', hraised⟩ := fenced h hfence howner
  -- the revision of the challenge, of the account before the fence, after it, and in the end
  obtain ⟨a₀, ha₀, hle₀⟩ := dated hreach id c hc
  obtain ⟨_, hmid, hle⟩ := (kept hb).account _ _ ha₀
  cases ha.symm.trans hmid
  obtain ⟨_, hend, hle'⟩ := (kept hlater).account _ _ ha'
  have horigin := (origin_eq ((hb.next hfresh rfl).trans hlater) hc hd).1
  have hsubject : d.subject = c.subject := congrArg Origin.subject horigin
  have hrevision : d.revision = c.revision := congrArg Origin.revision horigin
  rw [hsubject] at ha₁
  cases ha₁.symm.trans hend
  have := husable.revision_eq
  omega

/-- The challenges that a change of the address creates. -/
theorem emailChange_created {actor email password}
    (h : (Call.startEmailChange actor email password).Commits env inputs b.store)
    (hfresh : b.Fresh (.call (.startEmailChange actor email password) inputs))
    (hnone : b.accounts.challenges.find id = none)
    (hc : (b.settle ((Call.startEmailChange actor email password).run env inputs
      b.store)).accounts.challenges.find id = some c) :
    c.subject = actor.subjectID ∧ (c.purpose = .changeEmail ∨ c.purpose = .cancelEmailChange) := by
  obtain ⟨a, a', saves, effect, haccount, hdeed, -, hsaves, -⟩ := h.deed rfl
  have hchurn := Accounts.churn_of_saves hdeed.admissible
    (fun n id hid ↦ (hfresh n id hid).1) hsaves
  obtain ⟨d, hd, -, horigin⟩ := hchurn.fresh id c hc hnone
  have hsubject : d.subject = c.subject := congrArg Origin.subject horigin
  have hpurpose : d.purpose = c.purpose := congrArg Origin.purpose horigin
  cases hdeed with
  | quiet hpassive => cases hpassive rfl
  | startedEmailChange howner hconfirm hcancel =>
    obtain ⟨_, _, _, _, _, _, -, -, rfl⟩ := hconfirm
    obtain ⟨_, _, _, _, _, _, -, -, rfl⟩ := hcancel
    simp only [List.mem_cons, List.not_mem_nil, or_false] at hd
    rcases hd with rfl | rfl
    · exact ⟨hsubject ▸ howner, .inl hpurpose.symm⟩
    · exact ⟨hsubject ▸ howner, .inr hpurpose.symm⟩

/-- From here on no call is completed by the challenge. -/
def Spent (env : Security) (x : System) (id : ChallengeID) : Prop :=
  ∀ y, Reaches env x y → ∀ (call : Call) (inputs : Inputs), call.completes = some id →
    ¬ call.Commits env inputs y.store

/-- **A challenge completes at most one call, and none after a fence.**  In every state that is
reached: a used challenge stays used as long as it is there; a call spends the challenge it
completes, and a fence all challenges its account had before; and of the links of one change of the
address, the first that completes a call spends the other. -/
theorem spent_of_commits (hreach : Reaches env {} b) :
    (∀ id c, b.accounts.challenges.find id = some c → c.usedAt.isSome = true →
      Spent env b id ∧ ∀ x, Reaches env b x →
        ∀ c', x.accounts.challenges.find id = some c' → c'.usedAt.isSome = true) ∧
    (∀ (call : Call) (inputs : Inputs), b.Fresh (.call call inputs) →
      call.Commits env inputs b.store →
      (∀ id, call.completes = some id →
        Spent env (b.settle (call.run env inputs b.store)) id) ∧
      (call.isFence = true → ∀ id c, b.accounts.challenges.find id = some c →
        call.owner b.store = some c.subject →
        Spent env (b.settle (call.run env inputs b.store)) id)) ∧
    ∀ (actor : Record) (email : String) (password : Bytes) (inputs : Inputs) (started : System),
      b.Fresh (.call (.startEmailChange actor email password) inputs) →
      (Call.startEmailChange actor email password).Commits env inputs b.store →
      started = b.settle ((Call.startEmailChange actor email password).run env inputs b.store) →
      ∀ id id', b.accounts.challenges.find id = none → b.accounts.challenges.find id' = none →
        started.accounts.challenges.find id ≠ none → started.accounts.challenges.find id' ≠ none →
        ∀ x, Reaches env started x → ∀ (call : Call) (inputs : Inputs),
          x.Fresh (.call call inputs) → call.completes = some id →
          call.Commits env inputs x.store →
          Spent env (x.settle (call.run env inputs x.store)) id' := by
  refine ⟨fun id c hc hused ↦ ⟨fun y hy call inputs hcall ↦ not_commits_of_used hc hused hy hcall,
      fun x hx c' hc' ↦ (origin_eq hx hc hc').2 hused⟩,
    fun call inputs hfresh h ↦ ⟨fun id hcall y hy call' inputs' hcall' ↦ ?_,
      fun hfence id c hc howner y hy call' inputs' hcall' ↦
        not_commits_of_fence hreach hc .start hfresh h hfence howner hy hcall'⟩, ?_⟩
  · obtain ⟨-, -, -, -, -, -, -, -, c', hc', hused⟩ := completed h hcall
    exact not_commits_of_used hc' hused hy hcall'
  · rintro actor email password inputs _ hfresh h rfl id id' hnone hnone' hid hid' x hx call inputs₁
      hfresh₁ hcall h₁ y hy call' inputs' hcall'
    obtain ⟨c, hc⟩ := Option.ne_none_iff_exists'.mp hid
    obtain ⟨c', hc'⟩ := Option.ne_none_iff_exists'.mp hid'
    obtain ⟨hsubject, hpurpose⟩ := emailChange_created h hfresh hnone hc
    obtain ⟨hsubject', -⟩ := emailChange_created h hfresh hnone' hc'
    obtain ⟨d, a, purpose, hd, ha, husable, howner, hkind, -⟩ := completed h₁ hcall
    have horigin := (origin_eq hx hc hd).1
    have hdsubject : d.subject = c.subject := congrArg Origin.subject horigin
    have hdpurpose : d.purpose = c.purpose := congrArg Origin.purpose horigin
    rw [← hdpurpose, husable.purpose_eq] at hpurpose
    have hfence : call.isFence = true := by
      rcases hkind with hkind | rfl | rfl
      · exact hkind
      · rcases hpurpose with h | h <;> cases h
      · rcases hpurpose with h | h <;> cases h
    refine not_commits_of_fence (hreach.next hfresh rfl) hc' hx hfresh₁ h₁ hfence ?_ hy hcall'
    rw [howner, hdsubject, hsubject, hsubject']

/-! An account is registered, and asks for a link that resets its password. -/

/-- The environment of a call that draws one identifier. -/
def sampleInputs (n : UInt8) : Inputs where
  clock _ := unixEpoch + 1000
  ids _ := some (sampleID n)
  secrets _ := some (List.replicate 32 n)
  hashes _ _ := some samplePassword

def sampleRegistered : System :=
  ({} : System).settle ((Call.register "a@b" [112] false).run sampleSecurity (sampleInputs 1) {})

def sampleRequested : System :=
  sampleRegistered.settle ((Call.requestToken "a@b" .resetPassword).run sampleSecurity
    (sampleInputs 2) sampleRegistered.store)

theorem reaches_sampleRequested : Reaches sampleSecurity {} sampleRequested := by
  refine Machine.Reach.next (a := .call (.requestToken "a@b" .resetPassword) (sampleInputs 2))
    (Machine.Reach.next (a := .call (.register "a@b" [112] false) (sampleInputs 1)) .start ?_ rfl)
    ?_ rfl
  · exact fun _ _ _ ↦ ⟨rfl, List.not_mem_nil⟩
  · rintro n id h
    cases h
    decide +kernel

/-- The call that resets the password with the link that was sent. -/
def sampleReset : Call :=
  .resetPassword (formatLink (sampleID 2) (encodeBase64 (List.replicate 32 2))) [112]

/-- After the password was reset, the link that verifies the address is of no use. -/
theorem spent_of_commits_sample : Spent sampleSecurity
    (sampleRequested.settle (sampleReset.run sampleSecurity (sampleInputs 3) sampleRequested.store))
    (sampleID 1) := by
  have hc : ∃ c, sampleRequested.accounts.challenges.find (sampleID 1) = some c ∧
      sampleReset.owner sampleRequested.store = some c.subject :=
    ⟨_, rfl, by decide +kernel⟩
  obtain ⟨c, hc, howner⟩ := hc
  refine ((spent_of_commits reaches_sampleRequested).2.1 _ _ ?_ ⟨?_, ?_⟩).2 rfl _ c hc howner
  · rintro n id h
    cases h
    decide +kernel
  · rintro fault h
    cases h
  · decide +kernel

end System

end MarketMesh.Auth
