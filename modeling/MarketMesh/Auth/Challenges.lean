import MarketMesh.Auth.Deeds

/-!
# Challenges through a call

What a challenge is for never changes: its subject, purpose, revision and address, the browser it is
bound to, and the secret of its link, which is what `Challenge.origin` collects.  `Churn` says what
a call does to the challenges: those that were there keep their origin and stay used, and those that
are new are the ones the call has saved.

An account is kept in two rows; `Accounts.account` is the account they make.  A transaction changes
at most the account it has locked (`account_saveAccount`).
-/

set_option autoImplicit false

namespace MarketMesh.Auth

/-! ## What the writes leave -/

/-- What a `SELECT` of an identifier finds after the challenge was saved. -/
def Challenge.upserted (c : Challenge) (id : ChallengeID) : Option Challenge → Option Challenge
  | none => if c.id = id then some c else none
  | some old =>
    if old.id = c.id ∧ old.subject = c.subject ∧ old.purpose = c.purpose then
      some (c.updated old)
    else some old

theorem Challenge.Missed.refl (c : Challenge) : c.Missed c :=
  ⟨c.digest, c.attempts, c.sends, c.sentAt, c.usedAt, rfl⟩

theorem Challenge.Missed.updated {c c' : Challenge} (h : c.Missed c') : c'.updated c = c' := by
  obtain ⟨_, _, _, _, _, rfl⟩ := h
  rfl

theorem Challenge.Missed.id_eq {c c' : Challenge} (h : c.Missed c') : c'.id = c.id := by
  obtain ⟨_, _, _, _, _, rfl⟩ := h
  rfl

/-! ## Writing the account back -/

namespace Accounts

variable {t t' : Accounts} {a : Account} {security : SecurityRow} {row : CredentialRow}

theorem saveAccount_self : t.saveAccount a a = some t := by
  simp [saveAccount]

theorem saveCredential_eq_some (h : t.saveCredential a = some t') :
    t' = { t with
      credentials := t.credentials.update (fun row ↦ row.subject = a.subject)
        (CredentialRow.saved a) (CredentialRow.subject_saved a) } := by
  rw [saveCredential] at h
  split at h
  · cases h
  · exact (Option.some.inj h).symm

theorem saveSecurity_eq_some (h : t.saveSecurity a = some t') :
    t' = { t with
      security := t.security.update (fun row ↦ row.subject = a.subject)
        (SecurityRow.saved a) (SecurityRow.subject_saved a) } := by
  rw [saveSecurity] at h
  split at h
  · exact (Option.some.inj h).symm
  · cases h

/-- Writing an account back sets the columns of its two rows, whether or not a statement is
made. -/
theorem saveAccount_eq_some (hrow : t.credentials.find row.subject = some row)
    (hsecurity : t.security.find row.subject = some security)
    (h : t.saveAccount (assemble row security) a = some t') :
    a.subject = row.subject ∧ t' = { t with
      credentials := t.credentials.update (fun row ↦ row.subject = a.subject)
        (CredentialRow.saved a) (CredentialRow.subject_saved a)
      security := t.security.update (fun row ↦ row.subject = a.subject)
        (SecurityRow.saved a) (SecurityRow.subject_saved a) } := by
  rw [saveAccount] at h
  split at h
  · cases h
  rename_i hsubject
  have hsubject : a.subject = row.subject := not_not.mp hsubject
  refine ⟨hsubject, ?_⟩
  -- a table whose row says what the account says is not changed by the update
  have hcredentials (hemail : a.email = row.identifier)
      (hpassword : a.passwordDigest = row.passwordDigest) :
      t.credentials.update (fun row ↦ row.subject = a.subject) (CredentialRow.saved a)
        (CredentialRow.subject_saved a) = t.credentials := by
    refine Table.update_eq_self _ fun r hr hr' ↦ ?_
    have hr' : r.subject = row.subject := (of_decide_eq_true hr').trans hsubject
    rw [Table.eq_of_mem_of_find hr (hr' ▸ hrow), CredentialRow.saved, hemail, hpassword]
  have hsame (ha : a = assemble row security) :
      t.security.update (fun row ↦ row.subject = a.subject) (SecurityRow.saved a)
        (SecurityRow.subject_saved a) = t.security := by
    refine Table.update_eq_self _ fun r hr hr' ↦ ?_
    have hr' : r.subject = row.subject := (of_decide_eq_true hr').trans hsubject
    rw [Table.eq_of_mem_of_find hr (hr' ▸ hsecurity), ha]
    rfl
  split at h
  · obtain ⟨t₁, h₁, h₂⟩ := Option.bind_eq_some_iff.mp h
    rw [saveSecurity_eq_some h₂, saveCredential_eq_some h₁]
  rename_i hcolumns
  obtain ⟨hemail, hpassword⟩ : a.email = row.identifier ∧
    a.passwordDigest = row.passwordDigest := by
    rw [not_or, not_not, not_not] at hcolumns
    exact hcolumns
  split at h
  · rw [saveSecurity_eq_some h, hcredentials hemail hpassword]
  · rename_i ha
    cases h
    rw [hcredentials hemail hpassword, hsame (not_not.mp ha)]

/-- An account whose password digest alone has changed. -/
theorem saveAccount_passwordDigest
    {digest} (hrow : t.credentials.find row.subject = some row)
    (hsecurity : t.security.find row.subject = some security)
    (ha : a = { assemble row security with passwordDigest := digest })
    (h : t.saveAccount (assemble row security) a = some t') :
    t'.security = t.security ∧ t'.challenges = t.challenges ∧
      t'.credentials.rows = t.credentials.rows.map fun r ↦
        if r.subject = row.subject then { r with passwordDigest := digest } else r := by
  obtain ⟨hsubject, rfl⟩ := saveAccount_eq_some hrow hsecurity h
  refine ⟨Table.update_eq_self (SecurityRow.subject_saved a) fun r hr hr' ↦ ?_, rfl,
    List.map_congr_left fun r hr ↦ ?_⟩
  · have hr' : r.subject = row.subject := (of_decide_eq_true hr').trans hsubject
    rw [Table.eq_of_mem_of_find hr (hr' ▸ hsecurity), ha]
    rfl
  · simp only [hsubject, decide_eq_true_eq]
    split
    · rename_i hr'
      rw [Table.eq_of_mem_of_find hr (hr' ▸ hrow), ha]
      rfl
    · rfl

/-! ## Challenges -/

theorem upsertChallenge_eq_some {c} (h : t.upsertChallenge c = some t') :
    ∃ challenges, t' = { t with challenges := challenges } ∧
      ∀ id, challenges.find id = c.upserted id (t.challenges.find id) := by
  rw [upsertChallenge] at h
  split at h
  swap
  · cases h
  cases hinsert : t.challenges.insert c with
  | some challenges =>
    rw [hinsert] at h
    cases h
    refine ⟨challenges, rfl, fun id ↦ ?_⟩
    rw [Table.find_insert hinsert]
    obtain ⟨hnone, -⟩ := Table.insert_eq_some hinsert
    by_cases hid : c.id = id
    · subst hid
      rw [hnone, if_pos rfl, Challenge.upserted, if_pos rfl]
    · rw [if_neg hid]
      cases hfind : t.challenges.find id with
      | none => rw [Challenge.upserted, if_neg hid]
      | some old =>
        have hold : old.id = id := Table.key_eq_of_find hfind
        rw [Challenge.upserted, if_neg fun h ↦ hid (h.1.symm.trans hold)]
  | none =>
    rw [hinsert] at h
    cases h
    refine ⟨_, rfl, fun id ↦ ?_⟩
    rw [Table.find_update]
    cases hfind : t.challenges.find id with
    | none =>
      rw [Option.map_none, Challenge.upserted, if_neg]
      rintro rfl
      obtain ⟨t', ht'⟩ := Table.exists_insert hfind
      cases hinsert.symm.trans ht'
    | some =>
      rw [Option.map_some, Challenge.upserted]
      simp only [decide_eq_true_eq]
      split <;> rfl


theorem ensureSecurity_cases (t : Accounts) (subject : SubjectID) :
    (t.ensureSecurity subject).credentials = t.credentials ∧
      (t.ensureSecurity subject).challenges = t.challenges ∧
      ((t.ensureSecurity subject).security = t.security ∨
        t.security.insert { subject := subject } = some (t.ensureSecurity subject).security) := by
  rw [ensureSecurity]
  cases h : t.security.insert { subject := subject } with
  | none => exact ⟨rfl, rfl, .inl rfl⟩
  | some => exact ⟨rfl, rfl, .inr rfl⟩

/-! ## Accounts -/

/-- The account of a subject; a row that is missing in `auth.account_security` has its defaults. -/
def account (t : Accounts) (subject : SubjectID) : Option Account :=
  (t.credentials.find subject).map fun row ↦
    assemble row ((t.security.find subject).getD { subject := subject })

theorem account_congr (hcredentials : t'.credentials = t.credentials)
    (hsecurity : t'.security = t.security) : t'.account = t.account := by
  funext subject
  rw [account, account, hcredentials, hsecurity]

theorem account_ensureSecurity (t : Accounts) (subject : SubjectID) :
    (t.ensureSecurity subject).account = t.account := by
  obtain ⟨hcredentials, -, hsecurity | hinsert⟩ := t.ensureSecurity_cases subject
  · exact account_congr hcredentials hsecurity
  · funext subject'
    rw [account, account, hcredentials, Table.find_insert hinsert]
    obtain ⟨hnone, -⟩ := Table.insert_eq_some hinsert
    by_cases h : subject = subject'
    · subst h
      rw [if_pos rfl, hnone]
      rfl
    · rw [if_neg h]

/-- The account whose rows are there. -/
theorem account_of_find (hrow : t.credentials.find row.subject = some row)
    (hsecurity : t.security.find row.subject = some security) :
    t.account row.subject = some (assemble row security) := by
  rw [account, hrow, hsecurity]
  rfl

/-- Writing an account back changes this account only. -/
theorem account_saveAccount (hrow : t.credentials.find row.subject = some row)
    (hsecurity : t.security.find row.subject = some security)
    (h : t.saveAccount (assemble row security) a = some t') (subject : SubjectID) :
    t'.account subject = if a.subject = subject then some a else t.account subject := by
  obtain ⟨hsubject, rfl⟩ := saveAccount_eq_some hrow hsecurity h
  rw [account, Table.find_update, Table.find_update]
  by_cases heq : a.subject = subject
  · have heq' : row.subject = subject := hsubject.symm.trans heq
    have hs : security.subject = row.subject := Table.key_eq_of_find hsecurity
    subst heq'
    rw [if_pos heq, hrow, hsecurity]
    simp only [Option.map_some, Option.getD_some, hsubject, hs, decide_true, if_true]
    obtain ⟨subject, email, passwordDigest, verified, codeEnabled, revision, deletionAt,
      deletedAt⟩ := a
    cases hsubject
    rfl
  · rw [if_neg heq, account]
    cases hfind : t.credentials.find subject with
    | none => rfl
    | some r =>
      have hr : r.subject = subject := Table.key_eq_of_find hfind
      cases hfind' : t.security.find subject with
      | none => simp [hr, Ne.symm heq]
      | some r' =>
        have hr' : r'.subject = subject := Table.key_eq_of_find hfind'
        simp [hr, hr', Ne.symm heq]

end Accounts

/-! ## What a challenge keeps -/

/-- The purposes whose secret is a code, which may be replaced. -/
def Purpose.isCode : Purpose → Bool
  | .loginCode | .enableCode | .disableCode => true
  | _ => false

theorem isCode_codePurpose (enabled : Bool) : (Security.codePurpose enabled).isCode = true := by
  cases enabled <;> rfl

/-- What a challenge keeps. -/
structure Origin where
  id : ChallengeID
  subject : SubjectID
  purpose : Purpose
  revision : Int
  email : String
  registrationDigest : Digest
  /-- The digest of a secret that is not a code. -/
  tokenDigest : Option Digest

namespace Challenge

variable {inputs : Inputs} {c c' o : Challenge} {a : Account} {purpose : Purpose}

def origin (c : Challenge) : Origin where
  id := c.id
  subject := c.subject
  purpose := c.purpose
  revision := c.revision
  email := c.email
  registrationDigest := c.registrationDigest
  tokenDigest := if c.purpose.isCode then none else some c.digest

theorem Usable.eq_none (h : c.Usable inputs a purpose) : c.usedAt = none := by
  obtain ⟨now, -, h⟩ := h
  exact (check_eq_none h).2.2.2.2.1

theorem Usable.purpose_eq (h : c.Usable inputs a purpose) : c.purpose = purpose := by
  obtain ⟨now, -, h⟩ := h
  exact (check_eq_none h).2.1

theorem Usable.subject_eq (h : c.Usable inputs a purpose) : c.subject = a.subject := by
  obtain ⟨now, -, h⟩ := h
  exact (check_eq_none h).1

theorem Usable.revision_eq (h : c.Usable inputs a purpose) : c.revision = a.revision := by
  obtain ⟨now, -, h⟩ := h
  exact (check_eq_none h).2.2.1

theorem Missed.origin_eq (h : c.Missed c') (hcode : c.purpose.isCode = true) :
    c'.origin = c.origin := by
  obtain ⟨_, _, _, _, _, rfl⟩ := h
  simp only [origin, hcode, if_true]

theorem Renewed.missed (h : c.Renewed c') : c.Missed c' := by
  obtain ⟨digest, sentAt, rfl⟩ := h
  exact ⟨digest, 0, c.sends + 1, sentAt, c.usedAt, rfl⟩

/-- A challenge that is saved with its origin keeps it. -/
theorem origin_updated (h : c.origin = o.origin) : (c.updated o).origin = o.origin := by
  have hpurpose : c.purpose = o.purpose := congrArg Origin.purpose h
  have htoken : (if c.purpose.isCode then none else some c.digest) =
      if o.purpose.isCode then none else some o.digest := congrArg Origin.tokenDigest h
  rw [hpurpose] at htoken
  rw [origin, origin, Origin.mk.injEq]
  exact ⟨rfl, rfl, rfl, rfl, rfl, rfl, htoken⟩

/-- A challenge that was in the table. -/
def IsOld (challenges : Table Challenge.id) (c : Challenge) : Prop :=
  ∃ o, challenges.find c.id = some o ∧ c.origin = o.origin ∧
    (o.usedAt.isSome = true → c.usedAt.isSome = true)

/-- A challenge that was made for the account as the call leaves it. -/
def IsNew (inputs : Inputs) (a : Account) (c : Challenge) : Prop :=
  (∃ n, inputs.ids n = some c.id) ∧ c.subject = a.subject ∧ c.revision = a.revision ∧
    c.usedAt = none

end Challenge

/-! ## What a call saves -/

/-- The challenges a call saves: at most one that was there, and new ones. -/
inductive Saves (inputs : Inputs) (challenges : Table Challenge.id) (a : Account) :
    List Challenge → Prop
  | nothing : Saves inputs challenges a []
  | old {c} (h : c.IsOld challenges) : Saves inputs challenges a [c]
  | new {c} (h : c.IsNew inputs a) : Saves inputs challenges a [c]
  | replaced {c d} (h : c.IsOld challenges) (h' : d.IsNew inputs a) :
      Saves inputs challenges a [c, d]
  | pair {c d} (h : c.IsNew inputs a) (h' : d.IsNew inputs a)
      (hne : c.purpose ≠ d.purpose) : Saves inputs challenges a [c, d]

section

variable {env : Security} {inputs : Inputs} {challenges : Table Challenge.id} {a a' : Account}
  {call : Call} {ok : Bool} {saves : List Challenge} {effect : SessionEffect} {c : Challenge}
  {purpose : Purpose} {id : ChallengeID} {c' : Challenge}

theorem Challenge.IsOld.used (h : challenges.find id = some c) (now : Time) :
    (c.used now).IsOld challenges :=
  ⟨c, (show c.id = id from Table.key_eq_of_find h) ▸ h, rfl, fun _ ↦ rfl⟩

theorem Challenge.IsOld.missed (h : challenges.find id = some c)
    (husable : c.Usable inputs a purpose) (hcode : purpose.isCode = true) (hm : c.Missed c') :
    c'.IsOld challenges := by
  have hid : c.id = id := Table.key_eq_of_find h
  refine ⟨c, ?_, hm.origin_eq (husable.purpose_eq ▸ hcode), fun hused ↦ ?_⟩
  · rw [hm.id_eq, hid, h]
  · rw [husable.eq_none] at hused
    cases hused

theorem Challenge.IsNewCode.isNew (h : c.IsNewCode inputs a purpose)
    (hsubject : a'.subject = a.subject) (hrevision : a'.revision = a.revision) :
    c.IsNew inputs a' := by
  obtain ⟨n, id, expiresAt, hid, hr⟩ := h
  obtain ⟨_, _, rfl⟩ := hr
  exact ⟨⟨n, hid⟩, hsubject.symm, hrevision.symm, rfl⟩

theorem Challenge.IsNewToken.isNew {email} (h : c.IsNewToken env inputs a purpose email) :
    c.IsNew inputs a := by
  obtain ⟨n, m, id, random, now, ttl, hid, -, rfl⟩ := h
  exact ⟨⟨n, hid⟩, rfl, rfl, rfl⟩

theorem Challenge.Presented.find {value} (h : c.Presented env inputs challenges a value purpose) :
    ∃ id, challenges.find id = some c := by
  obtain ⟨id, -, -, hc, -⟩ := h
  exact ⟨id, hc⟩

theorem Challenge.Presented.usable {value} (h : c.Presented env inputs challenges a value purpose)
    (hvalue : (parseLink value).map Prod.fst = some id) :
    challenges.find id = some c ∧ c.Usable inputs a purpose := by
  obtain ⟨id', secret, hparse, hfind, husable, -⟩ := h
  rw [hparse] at hvalue
  cases hvalue
  exact ⟨hfind, husable⟩

theorem Account.Rehash.revision_eq {plain} (h : a.Rehash inputs a' plain) :
    a'.revision = a.revision := by
  rcases h with rfl | ⟨n, digest, -, rfl⟩ <;> rfl

theorem Call.isCode_of_code {purpose} (h : call.code = some (id, purpose)) :
    purpose.isCode = true := by
  cases call <;> cases h
  · rfl
  · exact isCode_codePurpose _

theorem Deed.admissible (h : Deed env inputs challenges a call ok a' saves effect) :
    Saves inputs challenges a' saves := by
  have hpresented {c : Challenge} {value : Bytes} {purpose : Purpose} {a' : Account} (now : Time)
      (h : c.Presented env inputs challenges a value purpose) :
      Saves inputs challenges a' [c.used now] := by
    obtain ⟨id, hc⟩ := h.find
    exact .old (.used hc now)
  cases h with
  | quiet | refused | loggedIn | changedPassword | revokedSession | loggedOut => exact .nothing
  | codeSent hpassword hrehash hc =>
    rcases hc with hnew | ⟨old, hold, husable, hrenewed⟩
    · exact .new (hnew.isNew hrehash.subject_eq hrehash.revision_eq)
    · exact .old (.missed hold husable rfl hrenewed.missed)
  | resent hc husable hrenewed => exact .old (.missed hc husable rfl hrenewed.missed)
  | missed hcall hc husable hmissed =>
    exact .old (.missed hc husable (Call.isCode_of_code hcall) hmissed)
  | completedLogin hc | completedCodeChange _ hc => exact .old (.used hc _)
  | @requested _ _ purpose latest c c' now _ hlatest hnew hc =>
    have hnew : c'.IsNew inputs a := by
      rcases hc with rfl | ⟨old, -, -, -, rfl⟩ <;> exact hnew.isNew
    cases latest with
    | none => exact .new hnew
    | some old => exact .replaced (.used (hlatest old rfl) now) hnew
  | confirmedRegistration hc | reset hc | confirmedEmailChange hc | cancelledEmailChange hc =>
    exact hpresented _ hc
  | startedEmailChange _ hconfirm hcancel =>
    refine .pair hconfirm.isNew hcancel.isNew ?_
    obtain ⟨_, _, _, _, _, _, -, -, rfl⟩ := hconfirm
    obtain ⟨_, _, _, _, _, _, -, -, rfl⟩ := hcancel
    exact nofun
  | startedCodeChange hc =>
    rcases hc with hnew | ⟨old, hold, husable, hrenewed⟩
    · exact .new (hnew.isNew rfl rfl)
    · exact .old (.missed hold husable (isCode_codePurpose _) hrenewed.missed)

end

/-! ## What a call leaves -/

/-- What a call does to the challenges; those that are new have an origin with `N`. -/
structure Churn (N : Origin → Prop) (t t' : Table Challenge.id) : Prop where
  kept : ∀ id o, t.find id = some o → ∃ c, t'.find id = some c ∧ c.origin = o.origin ∧
    (o.usedAt.isSome = true → c.usedAt.isSome = true)
  fresh : ∀ id c, t'.find id = some c → t.find id = none → N c.origin

namespace Churn

variable {N N' : Origin → Prop} {t t' t'' : Table Challenge.id}

theorem refl (t : Table Challenge.id) : Churn N t t where
  kept _ o ho := ⟨o, ho, rfl, fun h ↦ h⟩
  fresh _ _ hc hnone := nomatch hc.symm.trans hnone

theorem mono (h : Churn N t t') (hN : ∀ o, N o → N' o) : Churn N' t t' where
  kept := h.kept
  fresh id c hc hnone := hN _ (h.fresh id c hc hnone)

theorem trans (h : Churn N t t') (h' : Churn N t' t'') : Churn N t t'' where
  kept id o ho := by
    obtain ⟨c, hc, horigin, hused⟩ := h.kept id o ho
    obtain ⟨d, hd, horigin', hused'⟩ := h'.kept id c hc
    exact ⟨d, hd, horigin'.trans horigin, fun hu ↦ hused' (hused hu)⟩
  fresh id d hd hnone := by
    cases hc : t'.find id with
    | none => exact h'.fresh id d hd hc
    | some c =>
      obtain ⟨d', hd', horigin, -⟩ := h'.kept id c hc
      cases hd.symm.trans hd'
      exact horigin ▸ h.fresh id c hc hnone

end Churn

namespace Accounts

variable {t t' : Accounts} {c : Challenge} {N : Origin → Prop}

/-- Saving a challenge that was there. -/
theorem upsertChallenge_old (hc : c.IsOld t.challenges) (h : t.upsertChallenge c = some t') :
    Churn N t.challenges t'.challenges ∧
      ∃ c', t'.challenges.find c.id = some c' ∧ c'.usedAt = c.usedAt := by
  obtain ⟨o, ho, horigin, hused⟩ := hc
  obtain ⟨challenges, rfl, hfind⟩ := upsertChallenge_eq_some h
  have hid : o.id = c.id := Table.key_eq_of_find ho
  have hself : challenges.find c.id = some (c.updated o) := by
    rw [hfind, ho, Challenge.upserted, if_pos]
    exact ⟨hid, (congrArg Origin.subject horigin).symm, (congrArg Origin.purpose horigin).symm⟩
  have hother : ∀ id, id ≠ c.id → challenges.find id = t.challenges.find id := by
    intro id hne
    rw [hfind]
    cases hfound : t.challenges.find id with
    | none => rw [Challenge.upserted, if_neg fun h ↦ hne h.symm]
    | some d =>
      have hd : d.id = id := Table.key_eq_of_find hfound
      rw [Challenge.upserted, if_neg fun h ↦ hne (hd.symm.trans h.1)]
  refine ⟨⟨fun id d hd ↦ ?_, fun id d hd hnone ↦ ?_⟩, _, hself, rfl⟩
  · by_cases heq : id = c.id
    · subst heq
      cases ho.symm.trans hd
      exact ⟨_, hself, Challenge.origin_updated horigin, hused⟩
    · exact ⟨d, (hother id heq).trans hd, rfl, fun h ↦ h⟩
  · by_cases heq : id = c.id
    · subst heq
      cases ho.symm.trans hnone
    · cases hd.symm.trans ((hother id heq).trans hnone)

/-- Saving a challenge whose identifier is new, or taken for another purpose. -/
theorem upsertChallenge_new
    (hc : ∀ o, t.challenges.find c.id = some o → o.purpose ≠ c.purpose) (hN : N c.origin)
    (h : t.upsertChallenge c = some t') : Churn N t.challenges t'.challenges := by
  obtain ⟨challenges, rfl, hfind⟩ := upsertChallenge_eq_some h
  refine ⟨fun id d hd ↦ ⟨d, ?_, rfl, fun h ↦ h⟩, fun id d hd hnone ↦ ?_⟩
  · rw [hfind, hd, Challenge.upserted, if_neg]
    rintro ⟨hid, -, hpurpose⟩
    have hd' : d.id = id := Table.key_eq_of_find hd
    exact hc d (by rw [← hid, hd', hd]) hpurpose
  · rw [hfind, hnone, Challenge.upserted] at hd
    split at hd
    · cases hd
      exact hN
    · cases hd

theorem upsertChallenge_accounts (h : t.upsertChallenge c = some t') :
    t'.credentials = t.credentials ∧ t'.security = t.security := by
  obtain ⟨challenges, rfl, -⟩ := upsertChallenge_eq_some h
  exact ⟨rfl, rfl⟩

/-- The saves of a call touch neither row of the account. -/
theorem accounts_of_saves {saves : List Challenge} (h : saves.foldlM upsertChallenge t = some t') :
    t'.credentials = t.credentials ∧ t'.security = t.security := by
  induction saves generalizing t with
  | nil =>
    cases h
    exact ⟨rfl, rfl⟩
  | cons c saves ih =>
    obtain ⟨t₁, h₁, h₂⟩ := Option.bind_eq_some_iff.mp h
    obtain ⟨hcredentials, hsecurity⟩ := upsertChallenge_accounts h₁
    exact ⟨(ih h₂).1.trans hcredentials, (ih h₂).2.trans hsecurity⟩

/-- What the saves of a call leave, when the identifiers it has drawn are new. -/
theorem churn_of_saves {inputs a saves before after} (hsaves : Saves inputs before a saves)
    (hfresh : ∀ n id, inputs.ids n = some id → before.find id = none)
    (h : ∃ t t', t.challenges = before ∧ saves.foldlM upsertChallenge t = some t' ∧
      t'.challenges = after) :
    Churn (fun o ↦ ∃ c ∈ saves, c.IsNew inputs a ∧ c.origin = o) before after := by
  obtain ⟨t, t', rfl, h, rfl⟩ := h
  have hnone {c : Challenge} (hnew : c.IsNew inputs a) : t.challenges.find c.id = none := by
    obtain ⟨⟨n, hn⟩, -⟩ := hnew
    exact hfresh n c.id hn
  have hc {c : Challenge} (hnew : c.IsNew inputs a) o (ho : t.challenges.find c.id = some o) :
      o.purpose ≠ c.purpose := nomatch ho.symm.trans (hnone hnew)
  cases hsaves with
  | nothing =>
    cases h
    exact .refl _
  | @old c hold =>
    have h : t.upsertChallenge c = some t' := by simpa using h
    exact (upsertChallenge_old hold h).1
  | @new c hnew =>
    have h : t.upsertChallenge c = some t' := by simpa using h
    exact upsertChallenge_new (hc hnew) ⟨c, List.mem_singleton_self c, hnew, rfl⟩ h
  | @replaced c d hold hnew =>
    obtain ⟨t₁, h₁, h₂⟩ : ∃ t₁, t.upsertChallenge c = some t₁ ∧ t₁.upsertChallenge d = some t' := by
      simpa [List.foldlM, Option.bind_eq_some_iff] using h
    refine (upsertChallenge_old hold h₁).1.trans
      (upsertChallenge_new (fun o ho ↦ ?_) ⟨d, by simp, hnew, rfl⟩ h₂)
    exact ((upsertChallenge_old (N := fun _ ↦ False) hold h₁).1.fresh _ o ho (hnone hnew)).elim
  | @pair c d hnew hnew' hne =>
    obtain ⟨t₁, h₁, h₂⟩ : ∃ t₁, t.upsertChallenge c = some t₁ ∧ t₁.upsertChallenge d = some t' := by
      simpa [List.foldlM, Option.bind_eq_some_iff] using h
    refine (upsertChallenge_new (hc hnew) ⟨c, by simp, hnew, rfl⟩ h₁).trans
      (upsertChallenge_new (fun o ho ↦ ?_) ⟨d, by simp, hnew', rfl⟩ h₂)
    -- two new challenges with one identifier are of two purposes, and the second is not saved
    have horigin : o.origin = c.origin :=
      (upsertChallenge_new (N := fun x ↦ x = c.origin) (hc hnew) rfl h₁).fresh _ o ho (hnone hnew')
    exact (congrArg Origin.purpose horigin).trans_ne hne

end Accounts

/-! ## What a call does to the tables -/

section

variable {env : Security} {inputs : Inputs} {challenges : Table Challenge.id} {a a' : Account}
  {call : Call} {ok : Bool} {saves : List Challenge} {effect : SessionEffect} {s : Store}
  {out : Outcome Reply} {k : Core}

theorem Deed.subject_eq (h : Deed env inputs challenges a call ok a' saves effect) :
    a'.subject = a.subject := by
  cases h with
  | refused _ hrehash | codeSent _ hrehash | loggedIn _ hrehash => exact hrehash.subject_eq
  | _ => rfl

theorem Deed.revision_le (h : Deed env inputs challenges a call ok a' saves effect) :
    a.revision ≤ a'.revision := by
  have hnext : a.revision ≤ a.next.revision := Int.le_add_of_nonneg_right (by decide)
  cases h with
  | refused _ hrehash | codeSent _ hrehash | loggedIn _ hrehash => exact hrehash.revision_eq.ge
  | reset | changedPassword | startedEmailChange | confirmedEmailChange | cancelledEmailChange
  | completedCodeChange => exact hnext
  | _ => exact le_rfl

theorem Call.not_isPassive (h : call.isFence = true ∨ call.completes.isSome = true) :
    call.isPassive = false := by
  cases call <;> first | rfl | (rcases h with h | h <;> cases h)

/-- A call that invalidates the challenges has raised the revision. -/
theorem Deed.fence (h : Deed env inputs challenges a call true a' saves effect)
    (hcall : call.isFence = true) : a'.revision = a.revision + 1 := by
  cases h with
  | quiet hpassive => cases (Call.not_isPassive (.inl hcall)).symm.trans (hpassive rfl)
  | reset | changedPassword | startedEmailChange | confirmedEmailChange | cancelledEmailChange
  | completedCodeChange => rfl
  | _ => cases hcall

/-- A call that completes a challenge was given one that is not used and belongs to the revision of
the account, and uses it. -/
theorem Deed.completes {id} (h : Deed env inputs challenges a call true a' saves effect)
    (hcall : call.completes = some id) : ∃ c now purpose, challenges.find id = some c ∧
      c.Usable inputs a purpose ∧ saves = [c.used now] ∧
      (call.isFence = true ∨ purpose = .loginCode ∨ purpose = .verifyEmail) := by
  cases h with
  | quiet hpassive =>
    cases (Call.not_isPassive (.inr (by rw [hcall]; rfl))).symm.trans (hpassive rfl)
  | completedLogin hc husable =>
    cases hcall
    exact ⟨_, _, _, hc, husable, rfl, .inr (.inl rfl)⟩
  | completedCodeChange _ hc husable =>
    cases hcall
    exact ⟨_, _, _, hc, husable, rfl, .inl rfl⟩
  | confirmedRegistration hc =>
    obtain ⟨hfind, husable⟩ := hc.usable hcall
    exact ⟨_, _, _, hfind, husable, rfl, .inr (.inr rfl)⟩
  | reset hc | confirmedEmailChange hc | cancelledEmailChange hc =>
    obtain ⟨hfind, husable⟩ := hc.usable hcall
    exact ⟨_, _, _, hfind, husable, rfl, .inl rfl⟩
  | _ => cases hcall

/-- **What a call does to the tables.**  It leaves the accounts, the challenges and the sessions as
they were, it does a deed of one account, or it registers an account. -/
inductive Call.Change (env : Security) (inputs : Inputs) (s : Store) : Call → Outcome Reply → Prop
  | unchanged {call : Call} {out : Outcome Reply}
      (haccount : out.store.accounts.account = s.accounts.account)
      (hchallenges : out.store.accounts.challenges = s.accounts.challenges)
      (hsessions : out.store.sessions = s.sessions) (hissued : out.issued = none)
      (hok : out.result.isOk = true → call.isPassive = true) : Change env inputs s call out
  | deed {call : Call} {out : Outcome Reply} {a a' : Account} {ok : Bool} {saves : List Challenge}
      {effect : SessionEffect} (haccount : s.accounts.account a.subject = some a)
      (hdeed : Deed env inputs s.accounts.challenges a call ok a' saves effect)
      (haccount' : ∀ subject, out.store.accounts.account subject =
        if a.subject = subject then some a' else s.accounts.account subject)
      (hsaves : ∃ t t', t.challenges = s.accounts.challenges ∧
        saves.foldlM Accounts.upsertChallenge t = some t' ∧
        t'.challenges = out.store.accounts.challenges)
      (hsessions : effect.apply env.sha256 s.sessions = some out.store.sessions)
      (hissued : out.issued = effect.tokens) (hok : out.result.isOk = true → ok = true) :
      Change env inputs s call out
  | registered {email raw secret browser out a c c'} (hnone : s.accounts.account a.subject = none)
      (ha : a.revision = 1 ∧ a.verified = false)
      (hnew : c.IsNewToken env inputs a .verifyEmail a.email)
      (hc : c' = c ∨ browser = true ∧ c' = { c with
        registrationDigest := env.digest "registration-browser" a.subject secret })
      (haccount' : ∀ subject, out.store.accounts.account subject =
        if a.subject = subject then some a else s.accounts.account subject)
      (hsaves : ∃ t t', t.challenges = s.accounts.challenges ∧
        [c'].foldlM Accounts.upsertChallenge t = some t' ∧
        t'.challenges = out.store.accounts.challenges)
      (hsessions : out.store.sessions = s.sessions) (hissued : out.issued = none)
      (hresult : ∀ reply, out.result = .ok reply → reply = .secret secret) :
      Change env inputs s (.register email raw browser) out

/-- A call that has ended and is committed. -/
theorem Ended.change {k' : Core} {r : Except Failure Reply} (hopens : s.Opens k)
    (hended : Ended env inputs call k r k') (hcloses : k.Closes k' out.store.accounts)
    (hsessions : out.store.sessions = k'.sessions) (hissued : out.issued = k'.issued)
    (hok : out.result.isOk = true → r.isOk = true) : Call.Change env inputs s call out := by
  cases hopens with
  | missing =>
    obtain ⟨rfl, hpassive⟩ := hended
    have haccounts : out.store.accounts = s.accounts := hcloses
    exact .unchanged (by rw [haccounts]) (by rw [haccounts]) hsessions hissued
      fun h ↦ hpassive (hok h)
  | @locked row security hrow hsecurity =>
    obtain ⟨a', saves, effect, hdeed, hdid⟩ := hended
    obtain ⟨a'', ha'', hsave⟩ := hcloses
    cases hdid.account.symm.trans ha''
    obtain ⟨hcredentials, hchallenges, -⟩ := s.accounts.ensureSecurity_cases row.subject
    have haccounts := hdid.accounts
    dsimp only at haccounts hdeed
    rw [hchallenges] at hdeed
    obtain ⟨hcredentials', hsecurity'⟩ := Accounts.accounts_of_saves haccounts
    have hview : k'.accounts.account = s.accounts.account :=
      (Accounts.account_congr hcredentials' hsecurity').trans
        (s.accounts.account_ensureSecurity row.subject)
    have hrow' : k'.accounts.credentials.find row.subject = some row := by
      rw [hcredentials', hcredentials, hrow]
    have hsecurity'' : k'.accounts.security.find row.subject = some security := by
      rw [hsecurity', hsecurity]
    have hsubject : a'.subject = row.subject := hdeed.subject_eq
    refine .deed (a := Accounts.assemble row security) ?_ hdeed (fun subject ↦ ?_)
      ⟨_, _, hchallenges, haccounts, ?_⟩ ?_ (hissued.trans hdid.issued) hok
    · exact hview ▸ Accounts.account_of_find hrow' hsecurity''
    · rw [Accounts.account_saveAccount hrow' hsecurity'' hsave, hview, hsubject]
      rfl
    · obtain ⟨-, heq⟩ := Accounts.saveAccount_eq_some hrow' hsecurity'' hsave
      rw [heq]
    · exact hsessions ▸ hdid.sessions

theorem Settled.change (h : Settled env inputs call s out) : Call.Change env inputs s call out := by
  cases h with
  | rejected => exact .unchanged rfl rfl rfl rfl nofun
  | @closed k k' r s' hopens hended hreported hcloses hsessions =>
    cases hcommit : inputs.commit with
    | done => exact hended.change hopens hcloses hsessions rfl fun h ↦ h
    | refused => exact .unchanged rfl rfl rfl rfl nofun
    | lost => exact hended.change hopens hcloses hsessions rfl nofun

/-! ### Registration -/

theorem Security.meets_newRegistration {R : Failure → Core → Prop} (email : String)
    (plain secret : Bytes) :
    Meets (env.newRegistration inputs email plain secret) k
      (fun v _ ↦ ∃ c, c.IsNewToken env inputs (Accounts.assemble v.1 { subject := v.1.subject })
          .verifyEmail v.1.identifier ∧
        v.2.2.1 = if secret ≠ [] then
          { c with registrationDigest := env.digest "registration-browser" v.1.subject secret }
        else c) R := by
  refine Work.ask_bind fun _ passwordDigest _ ↦ Work.ask_bind fun _ subject _ ↦
    Work.ask_bind fun _ eventID _ ↦ Work.ask_bind fun _ occurredAt _ ↦ ?_
  refine (meets_tokenChallenge _ _ _ _).bind ?_
  rintro ⟨c, m⟩ k ⟨rfl, hnew⟩
  dsimp only
  split
  · exact meets_pure ⟨c, hnew, rfl⟩
  · exact meets_fail nofun

theorem Security.meets_saveRegistration (c : Challenge) (m : Mail) :
    Meets (env.saveRegistration inputs c m) k (fun _ k' ↦ Work.Saved c k k') fun _ _ ↦ True := by
  refine Work.quiet_statement.meets fun _ ↦ (Work.meets_saveChallenge c).bind
    fun _ k' hsaved ↦ (Work.quiet_queue _ _ _).mono ?_ fun _ _ h ↦ h.elim
  rintro _ k'' rfl
  exact hsaved

/-- The transaction of a registration is rolled back, finds the address taken, or has added an
account. -/
theorem Security.registerStore_change (env : Security) (inputs : Inputs) (s : Store)
    (row : CredentialRow) (event : Registration) (c : Challenge) (m : Mail) :
      (∃ e, env.registerStore inputs row event c m s = s.reject e) ∨
      env.registerStore inputs row event c m s = s.commit s inputs.commit (.ok ⟨⟩) none ∨
      ∃ (s' : Store) (t t' : Accounts), env.registerStore inputs row event c m s =
          s.commit s' inputs.commit (.ok ⟨⟩) none ∧
        s.accounts.credentials.insert row = some s'.accounts.credentials ∧
        s.accounts.security.insert { subject := row.subject } = some s'.accounts.security ∧
        t.challenges = s.accounts.challenges ∧ t.upsertChallenge c = some t' ∧
        t'.challenges = s'.accounts.challenges ∧ s'.sessions = s.sessions := by
  rw [registerStore]
  dsimp only
  split
  · exact .inl ⟨_, rfl⟩
  split
  · exact .inl ⟨_, rfl⟩
  split
  · exact .inr (.inl rfl)
  split
  · rename_i accounts registrations haccounts hregistrations
    simp only [Option.bind_eq_bind, Option.bind_eq_some_iff, Option.some.injEq] at haccounts
    obtain ⟨credentials, hcredentials, security, hsecurity, rfl⟩ := haccounts
    split
    · rename_i w hsave
      rcases (meets_saveRegistration c m _ rfl).elim hsave with
        ⟨_, -, -, accounts, hupsert, hcore⟩ | ⟨_, he, -⟩
      · have haccounts : w.store.accounts = accounts := congrArg Core.accounts hcore
        obtain ⟨hcredentials', hsecurity'⟩ := Accounts.upsertChallenge_accounts hupsert
        refine .inr
          (.inr ⟨w.store, { s.accounts with credentials := credentials, security := security },
          accounts, rfl, ?_, ?_, rfl, hupsert, ?_, ?_⟩)
        · rw [haccounts, hcredentials', hcredentials]
          rfl
        · rw [haccounts, hsecurity', hsecurity]
          rfl
        · rw [haccounts]
        · exact congrArg Core.sessions hcore
      · cases he
    · exact .inl ⟨_, rfl⟩
  · exact .inl ⟨_, rfl⟩

theorem Accounts.account_insert {t t' : Accounts} {row : CredentialRow}
    (hcredentials : t.credentials.insert row = some t'.credentials)
    (hsecurity : t.security.insert { subject := row.subject } = some t'.security) :
    t.account row.subject = none ∧ ∀ subject, t'.account subject =
      if row.subject = subject then some (assemble row { subject := row.subject })
      else t.account subject := by
  obtain ⟨hnone, -⟩ := Table.insert_eq_some hcredentials
  refine ⟨by rw [account, hnone]; rfl, fun subject ↦ ?_⟩
  rw [account, Table.find_insert hcredentials, Table.find_insert hsecurity]
  by_cases h : row.subject = subject
  · subst h
    simp only [if_true]
    rfl
  · simp only [h, if_false]
    rfl

theorem Security.meets_drawRegistration (email : String) (raw : Bytes) (browser : Bool) :
    Meets (env.drawRegistration inputs email raw browser) k
      (fun v _ ↦ ∃ c, c.IsNewToken env inputs (Accounts.assemble v.2.1 { subject := v.2.1.subject })
          .verifyEmail v.2.1.identifier ∧
        (v.2.2.2.1 = c ∨ browser = true ∧ v.2.2.2.1 = { c with
          registrationDigest := env.digest "registration-browser" v.2.1.subject v.1 }))
      fun _ _ ↦ True := by
  refine Meets.bind (Q := fun secret _ ↦ browser = true ∨ secret = []) ?_ fun secret k' hsecret ↦ ?_
  · rw [browserSecret]
    split
    · rename_i hbrowser
      exact (quiet_newSecret _).mono (fun _ _ _ ↦ .inl hbrowser) fun _ _ h ↦ h.elim
    · exact meets_pure (.inr rfl)
  · cases env.email email with
    | none => exact meets_fail fun _ ↦ trivial
    | some value =>
      cases env.newPassword raw with
      | none => exact meets_fail fun _ ↦ trivial
      | some plain =>
        refine (meets_newRegistration value plain secret).bind ?_
        rintro v _ ⟨c, hnew, hc⟩
        refine meets_pure ⟨c, hnew, ?_⟩
        split at hc
        · rename_i hne
          exact .inr ⟨hsecret.resolve_right hne, hc⟩
        · exact .inl hc

theorem Security.register_change (email : String) (raw : Bytes) (browser : Bool) :
    Call.Change env inputs s (.register email raw browser)
      ((env.register inputs email raw browser s).map .secret) := by
  rw [register]
  split
  · exact .unchanged rfl rfl rfl rfl nofun
  · rename_i secret row event c m w hdraw
    rcases (meets_drawRegistration email raw browser _ rfl).elim hdraw with
      ⟨_, hv, c₀, hnew, hc⟩ | ⟨_, he, -⟩
    swap
    · cases he
    cases hv
    rcases registerStore_change env inputs s row event c m with ⟨e, h⟩ | h | ⟨s', t, t', h,
      hcredentials, hsecurity, ht, hupsert, ht', hsessions⟩
    · rw [h]
      exact .unchanged rfl rfl rfl rfl nofun
    · rw [h]
      cases inputs.commit <;> exact .unchanged rfl rfl rfl rfl fun _ ↦ rfl
    · rw [h]
      obtain ⟨hnone, haccount⟩ := Accounts.account_insert hcredentials hsecurity
      have hsaves : [c].foldlM Accounts.upsertChallenge t = some t' := by simpa using hupsert
      -- the account is there whether or not the answer to the commit arrives
      have hregistered : ∀ out : Outcome Reply, out.store = s' → out.issued = none →
          (∀ reply, out.result = .ok reply → reply = .secret secret) →
          Call.Change env inputs s (.register email raw browser) out := by
        rintro out rfl hissued hresult
        exact .registered (a := Accounts.assemble row { subject := row.subject }) hnone ⟨rfl, rfl⟩
          hnew hc haccount ⟨t, t', ht, hsaves, ht'⟩ hsessions hissued hresult
      cases inputs.commit with
      | done => exact hregistered _ rfl rfl fun reply h ↦ (Except.ok.inj h).symm
      | refused => exact .unchanged rfl rfl rfl rfl nofun
      | lost => exact hregistered _ rfl rfl nofun

/-- **What a call does**, whichever call it is. -/
theorem Call.run_change (env : Security) (inputs : Inputs) (s : Store) (call : Call) :
    Call.Change env inputs s call (call.run env inputs s) := by
  by_cases h : ∃ email raw browser, call = .register email raw browser
  · obtain ⟨email, raw, browser, rfl⟩ := h
    exact Security.register_change email raw browser
  · exact (Call.run_settled env inputs s call
      fun email raw browser heq ↦ h ⟨email, raw, browser, heq⟩).change

end

end MarketMesh.Auth
