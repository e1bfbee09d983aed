import MarketMesh.Auth.Call

/-!
# Every call is a deed

One specification for each part of a call and one for each call; the last say that what the call
leaves under the lock of an account is one of its deeds.
-/

set_option autoImplicit false

namespace MarketMesh.Auth

open Work

namespace Security

variable {env : Security} {inputs : Inputs} {k : Core} {R : Failure → Core → Prop} {a : Account}

/-! ## Parts of the calls -/

theorem quiet_notice (kind : String) : Quiet (env.notice inputs kind) :=
  (quiet_ask _).bind fun _ _ ↦ account!_bind fun _ _ ↦ quiet_now.meets fun _ ↦
    quiet_now.meets fun _ ↦ quiet_queue _ _ _

theorem quiet_newSecret : Quiet (newSecret inputs) :=
  (quiet_ask _).bind fun _ ↦ .pure _

theorem meets_tokenChallenge (a : Account) (purpose : Purpose) (email : String) (ttl : Duration) :
    Meets (env.tokenChallenge inputs a purpose email ttl) k
      (fun cm k' ↦ k' = k ∧ cm.1.IsNewToken env inputs a purpose email) R := by
  refine ask_bind fun n id hid ↦ ?_
  refine Meets.bind (Q := fun secret k' ↦ k' = k ∧
    ∃ m random, inputs.secrets m = some random ∧ secret = encodeBase64 random) ?_ ?_
  · exact ask_bind fun m random hrandom ↦ meets_pure ⟨rfl, m, random, hrandom, rfl⟩
  · rintro secret k ⟨rfl, m, random, hrandom, rfl⟩
    refine (quiet_ask _).meets fun mailID ↦ quiet_now.meets fun now ↦ meets_pure ⟨rfl, ?_⟩
    exact ⟨n, m, id, random, now, ttl, hid, hrandom, rfl⟩

theorem meets_replaceCode (c : Challenge) :
    Meets (env.replaceCode inputs c) k (fun c' k' ↦ c.Renewed c' ∧ Saved c' k k')
      fun _ k' ↦ k' = k := by
  rw [replaceCode]
  split
  · exact meets_fail fun _ ↦ rfl
  · refine quiet_now.meets fun now₁ ↦ (quiet_reserveBudget _ _ _ _).meets fun n ↦ ?_
    split
    · exact meets_fail fun _ ↦ rfl
    · refine (quiet_ask _).meets fun code ↦ quiet_now.meets fun sentAt ↦
        (meets_saveChallenge _).bind fun _ k' hsaved ↦ ?_
      refine (quiet_ask _).meets fun id ↦ account!_bind fun _ _ ↦ quiet_now.meets fun queued ↦
        (quiet_queue _ _).meets fun _ ↦ meets_pure ⟨⟨_, _, rfl⟩, hsaved⟩

theorem meets_createCode (ha : k.account = some a) (purpose : Purpose) :
    Meets (env.createCode inputs purpose) k
      (fun c k' ↦ c.IsNewCode inputs a purpose ∧ Saved c k k') fun _ k' ↦ k' = k := by
  refine ask_bind fun n id hid ↦ account_bind ha (quiet_now.meets fun now ↦ ?_)
  refine (meets_replaceCode _).imp ?_
  rintro c k' ⟨hrenewed, hsaved⟩
  exact ⟨⟨n, id, _, hid, hrenewed⟩, hsaved⟩

theorem meets_mismatch {Q : PUnit → Core → Prop} (c : Challenge) :
    Meets (env.mismatch inputs c) k Q
      fun _ k' ↦ k' = k ∨ ∃ c', c.Missed c' ∧ Saved c' k k' := by
  rw [mismatch]
  dsimp only
  split
  · split
    · refine quiet_now.meets fun now ↦ (meets_saveChallenge _).bind fun _ k' hsaved ↦
        meets_fail fun _ ↦ .inr ⟨_, ⟨_, _, _, _, _, rfl⟩, hsaved⟩
    · refine ((meets_replaceCode _).imp_error fun _ _ h ↦ Or.inl h).bind ?_
      rintro c' k' ⟨⟨digest, sentAt, rfl⟩, hsaved⟩
      exact meets_fail fun _ ↦ .inr ⟨_, ⟨_, _, _, _, _, rfl⟩, hsaved⟩
  · exact (meets_saveChallenge _).bind fun _ k' hsaved ↦
      meets_fail fun _ ↦ .inr ⟨_, ⟨_, _, _, _, _, rfl⟩, hsaved⟩

theorem meets_prepare (subject : SubjectID) :
    Meets (env.prepare inputs subject) k (fun tokens k' ↦ k' = k ∧ tokens.MintedFor env subject)
      R := by
  refine (quiet_ask _).meets fun id ↦ (quiet_ask _).meets fun secrets ↦
    quiet_now.meets fun now ↦ ?_
  split
  · exact meets_fail nofun
  · dsimp only
    cases h : Service.mint env.sha256
        (Service.preparedRecord env.lifetimes { clock := now } subject id) secrets with
    | none => exact meets_fail nofun
    | some => exact meets_pure ⟨rfl, id, secrets, now, h⟩

theorem subjectID_of_mintedFor {tokens : Tokens} {subject : SubjectID}
    (h : tokens.MintedFor env subject) : tokens.record.subjectID = subject := by
  obtain ⟨id, secrets, now, hmint⟩ := h
  rw [Service.mint] at hmint
  simp only [Option.bind_eq_bind, Option.ite_none_right_eq_some, Option.bind_eq_some_iff] at hmint
  obtain ⟨-, access, -, refresh, -, h⟩ := hmint
  split at h
  · cases h
  · cases h
    rfl

/-- A session is issued to an account that is verified and not being deleted. -/
theorem meets_issue (ha : k.account = some a) :
    Meets (env.issue inputs) k
      (fun tokens k' ↦ tokens.MintedFor env a.subject ∧
        ∃ sessions, k.sessions.insertSession tokens.record (env.sha256 tokens.refresh.value) =
          some sessions ∧ k' = { k with sessions := sessions, issued := some tokens })
      fun _ _ ↦ ¬ (a.deletionAt = none ∧ a.deletedAt = none ∧ a.verified = true) := by
  refine account_bind ha ((meets_prepare a.subject).bind ?_)
  rintro tokens k ⟨rfl, hminted⟩
  refine ((meets_createSession _ _).imp_error fun _ _ h hallowed ↦ ?_).bind ?_
  · exact h a ha ⟨⟨(subjectID_of_mintedFor hminted).symm, hallowed.1, hallowed.2.1⟩, hallowed.2.2⟩
  · rintro _ k' ⟨sessions, hs, rfl⟩
    exact (quiet_notice _).meets fun _ ↦ meets_pure ⟨hminted, sessions, hs, rfl⟩

theorem meets_increment :
    Meets increment k (fun _ k' ↦ ∃ a, k.account = some a ∧ k' = { k with account := some a.next })
      R := by
  refine account!_bind fun a ha ↦ ?_
  split
  · exact meets_fail nofun
  · rintro w rfl
    exact ⟨a, ha, rfl⟩

theorem increment_bind {β : Type} {f : PUnit → Handler β} {P : β → Core → Prop}
    (ha : k.account = some a) (h : Meets (f ⟨⟩) { k with account := some a.next } P R) :
    Meets (increment >>= f) k P R := by
  refine meets_increment.bind ?_
  rintro _ k' ⟨a', ha', rfl⟩
  exact Option.some_inj.mp (ha.symm.trans ha') ▸ h

theorem meets_verifyPassword (raw : Bytes) :
    Meets (env.verifyPassword inputs raw) k (fun _ k' ↦ k' = k) fun _ k' ↦ k' = k := by
  refine account!_bind fun a ha ↦ quiet_now.meets fun now ↦
    (quiet_reserveAttempt _ _).meets fun attempt ↦ ?_
  split
  · exact meets_fail fun _ ↦ rfl
  · cases env.password raw with
    | none => exact meets_fail fun _ ↦ rfl
    | some plain =>
      dsimp only
      cases env.verify plain a.passwordDigest with
      | none => exact meets_fail fun _ ↦ rfl
      | some vr =>
        obtain ⟨valid, rehash⟩ := vr
        dsimp only
        split
        · exact (quiet_resetAttempts _ _).imp_error fun _ _ h ↦ h.elim
        · split <;> exact meets_fail fun _ ↦ rfl

end Security

variable {purpose : Purpose} {c : Challenge}

theorem Challenge.check_eq_none {a now}
    (h : c.check a purpose now = none) : c.subject = a.subject ∧ c.purpose = purpose ∧
      c.revision = a.revision ∧ a.deletedAt = none ∧ c.usedAt = none ∧ now < c.expiresAt := by
  rw [check] at h
  split at h
  · cases h
  · rename_i hnot
    split at h
    · cases h
    · rename_i hused
      split at h
      · cases h
      · rename_i hexpired
        simp only [not_or, not_not] at hnot hused
        exact ⟨hnot.2.1, hnot.2.2.1, hnot.2.2.2.1, hnot.2.2.2.2, hused, not_le.mp hexpired⟩

theorem Challenge.Usable.deletedAt {inputs a}
    (h : c.Usable inputs a purpose) : a.deletedAt = none := by
  obtain ⟨now, -, h⟩ := h
  exact (check_eq_none h).2.2.2.1

/-- What is kept while a list is gone through is an item of the list, or was kept before. -/
theorem mem_of_foldl {f : Option Challenge → Challenge → Option Challenge}
    (hf : ∀ {o d}, f o d = some c → c = d ∨ o = some c) (l : List Challenge)
    (start : Option Challenge) (h : l.foldl f start = some c) : c ∈ l ∨ start = some c := by
  induction l generalizing start with
  | nil => exact .inr h
  | cons d l ih =>
    rcases ih _ h with h | h
    · exact .inl (List.mem_cons_of_mem d h)
    · obtain rfl | h := hf h
      · exact .inl List.mem_cons_self
      · exact .inr h

theorem Accounts.find_of_latestChallenge {t : Accounts} {subject : SubjectID}
    (h : t.latestChallenge subject purpose = some c) :
    t.challenges.find c.id = some c := by
  rw [latestChallenge] at h
  obtain hmem | h := mem_of_foldl (fun {o d} h ↦ by
    cases o with
    | none => exact .inl (Option.some.inj h).symm
    | some =>
      dsimp only at h
      split at h
      · exact .inl (Option.some.inj h).symm
      · exact .inr h) _ _ h
  · exact Table.find_of_mem (List.mem_of_mem_filter hmem)
  · cases h

/-! ## Deeds -/

namespace Account.Rehash

variable {inputs : Inputs} {a a' : Account} {plain : Bytes}

theorem subject_eq (h : a.Rehash inputs a' plain) : a'.subject = a.subject := by
  rcases h with rfl | ⟨n, digest, -, rfl⟩ <;> rfl

theorem isNewCode (h : a.Rehash inputs a' plain) {c : Challenge} {purpose : Purpose}
    (hc : c.IsNewCode inputs a' purpose) : c.IsNewCode inputs a purpose := by
  rcases h with rfl | ⟨n, digest, -, rfl⟩ <;> exact hc

theorem usable (h : a.Rehash inputs a' plain) {c : Challenge} {purpose : Purpose}
    (hc : c.Usable inputs a' purpose) : c.Usable inputs a purpose := by
  rcases h with rfl | ⟨n, digest, -, rfl⟩ <;> exact hc

end Account.Rehash

section Did

variable {env : Security} {k k' : Core} {a : Account} {saves : List Challenge}
  {effect : SessionEffect}

theorem Did.refl (env : Security) (hissued : k.issued = none) (ha : k.account = some a) :
    Did env k a [] .none k :=
  ⟨ha, rfl, rfl, rfl, hissued⟩

theorem Did.setAccount (h : Did env k a saves effect k') (a' : Account) :
    Did env k a' saves effect { k' with account := some a' } :=
  ⟨rfl, h.accounts, h.sessions, h.registrations, h.issued⟩

theorem Did.save {c k''} (h : Did env k a saves effect k') (hsaved : Saved c k' k'') :
    Did env k a (saves ++ [c]) effect k'' := by
  obtain ⟨-, accounts, hupsert, rfl⟩ := hsaved
  refine ⟨h.account, ?_, h.sessions, h.registrations, h.issued⟩
  rw [List.foldlM_append, h.accounts]
  simpa using hupsert

theorem Did.create {tokens sessions} (h : Did env k a saves .none k')
    (hs : k'.sessions.insertSession tokens.record (env.sha256 tokens.refresh.value) =
      some sessions) :
    Did env k a saves (.created tokens)
      { k' with sessions := sessions, issued := some tokens } := by
  have hsessions : k.sessions = k'.sessions := Option.some.inj h.sessions
  exact ⟨h.account, h.accounts, (hsessions ▸ hs :), h.registrations, rfl⟩

theorem Did.revoke (h : Did env k a saves .none k') (p : SessionRow → Bool) (subject : SubjectID)
    (now : Time) (reason : String) :
    Did env k a saves (.revoked p subject now reason) { k' with
      sessions :=
        k'.sessions.revokeWhere (fun row ↦ p row && row.record.subjectID = subject) now reason }
      := by
  have hsessions : k.sessions = k'.sessions := Option.some.inj h.sessions
  exact ⟨h.account, h.accounts, by rw [SessionEffect.apply, hsessions], h.registrations, h.issued⟩

end Did

section Ended

variable {α : Type} {env : Security} {inputs : Inputs} {call : Call} {k k' : Core} {a : Account}
  {saves : List Challenge} {effect : SessionEffect} {r : Except Failure α}

theorem Ended.of_none (ha : k.account = none) (h : r.isOk = true → call.isPassive = true) :
    Ended env inputs call k r k := by
  rw [Ended, ha]
  exact ⟨rfl, h⟩

theorem Ended.of_deed {a'} (ha : k.account = some a)
    (hdeed : Deed env inputs k.accounts.challenges a call r.isOk a' saves effect)
    (hdid : Did env k a' saves effect k') : Ended env inputs call k r k' := by
  rw [Ended, ha]
  exact ⟨a', saves, effect, hdeed, hdid⟩

/-- A call that did nothing. -/
theorem Ended.refl (hissued : k.issued = none) (h : r.isOk = true → call.isPassive = true) :
    Ended env inputs call k r k := by
  cases ha : k.account with
  | none => exact .of_none ha h
  | some => exact .of_deed ha (.quiet h) (.refl env hissued ha)

/-- A call that failed and did nothing. -/
theorem Ended.quiet (hissued : k.issued = none) (e : Failure) :
    Ended env inputs call k (.error e : Except Failure α) k :=
  .refl hissued nofun

/-- What fails and leaves the core alone is a call that failed and did nothing. -/
theorem Meets.quiet {β : Type} {m} {Q : β → Core → Prop}
    (h : Meets m k Q fun _ k' ↦ k' = k) (hissued : k.issued = none) :
    Meets m k Q fun e k' ↦ Ended env inputs call k (.error e : Except Failure α) k' := by
  refine h.imp_error ?_
  rintro e k rfl
  exact .quiet hissued e

/-- A code that is accepted leaves the core alone; another one may change the challenge. -/
theorem Security.meets_checkCode {id} (hissued : k.issued = none)
    (ha : k.account = some a) (hcall : call.code = some (id, purpose))
    (hc : k.accounts.challenges.find id = some c) (code : Bytes) :
    Meets (env.checkCode inputs c purpose code) k
      (fun _ k' ↦ k' = k ∧ c.Usable inputs a purpose ∧
        env.digest purpose.text c.id code = c.digest)
      fun e k' ↦ Ended env inputs call k (.error e : Except Failure α) k' := by
  refine account_bind ha (now_bind fun now₁ hnow ↦ ?_)
  split
  · exact meets_fail fun _ ↦ .quiet hissued _
  · rename_i hcheck
    have husable : c.Usable inputs a purpose := ⟨now₁, hnow, not_not.mp hcheck⟩
    split
    · refine quiet_now.meets fun now₂ ↦ (quiet_reserveBudget _ _ _ _).meets fun n ↦ ?_
      split
      · exact meets_fail fun _ ↦ .quiet hissued _
      · split
        · rename_i hdigest
          exact meets_pure ⟨rfl, husable, hdigest⟩
        · refine (meets_mismatch c).imp_error ?_
          rintro e k' (rfl | ⟨c', hmissed, hsaved⟩)
          · exact .quiet hissued e
          · exact .of_deed ha (.missed hcall hc husable hmissed)
              ((Did.refl env hissued ha).save hsaved)
    · exact meets_fail fun _ ↦ .quiet hissued _

end Ended

/-! ## Login -/

namespace Security

variable {env : Security} {inputs : Inputs} {k k₁ : Core} {R : Failure → Core → Prop} {a : Account}

theorem reported_error {e} (he : e.isExpected = true) :
    Reported (.error e : Except Failure LoginResult) := by
  intro e' he'
  cases he'
  exact he

theorem reported_ok (result : LoginResult) : Reported (.ok result : Except Failure LoginResult) :=
  nofun

theorem meets_refuseLogin (attempt : Int) (account : Option Account) :
    Meets (env.refuseLogin inputs attempt account) k
      (fun r k' ↦ k' = k ∧ r.isOk = false ∧ Reported r) R := by
  rw [refuseLogin]
  split
  · split
    · exact (quiet_notice _).meets fun _ ↦ meets_pure ⟨rfl, rfl, reported_error rfl⟩
    · exact meets_pure ⟨rfl, rfl, reported_error rfl⟩
  · exact meets_pure ⟨rfl, rfl, reported_error rfl⟩

/-- The challenge was renewed, or the call ended in an error and nothing changed. -/
def Renews (c : Challenge) (k : Core) : Except Failure Challenge → Core → Prop
  | .ok c', k' => c.Renewed c' ∧ Saved c' k k'
  | .error e, k' => e.isExpected = true ∧ k' = k

/-- A code is sent for the latest challenge, or for a new one. -/
theorem meets_loginCode (ha : k.account = some a) {now₀ : Time} (hnow : inputs.IsNow now₀) :
    Meets (env.loginCode inputs now₀) k
      (fun r k' ↦ Reported r ∧ (r.isOk = false ∧ k' = k ∨ r.isOk = true ∧ ∃ c, Saved c k k' ∧
        (c.IsNewCode inputs a .loginCode ∨ ∃ old, k.accounts.challenges.find old.id = some old ∧
          old.Usable inputs a .loginCode ∧ old.Renewed c))) fun _ _ ↦ True := by
  refine account!_bind fun a' ha' ↦ latestChallenge_bind ?_
  cases ha.symm.trans ha'
  rw [ha, Option.bind_some]
  cases hlatest : (k.accounts.latestChallenge a.subject .loginCode).filter
      fun c ↦ c.check a .loginCode now₀ = none with
  | none =>
    refine (meets_createCode ha _).anyway.bind ?_
    rintro c k' ⟨hnew, hsaved⟩
    exact meets_pure ⟨reported_ok _, .inr ⟨rfl, c, hsaved, .inl hnew⟩⟩
  | some c =>
    rw [Option.filter_eq_some_iff] at hlatest
    dsimp only
    split
    · exact meets_pure ⟨reported_error rfl, .inl ⟨rfl, rfl⟩⟩
    · refine Meets.bind (Meets.expected (P := Renews c k) (meets_replaceCode c) (fun _ _ h ↦ h)
        fun _ _ he h ↦ ⟨he, h⟩) ?_
      rintro r k' h
      cases r with
      | error => exact meets_pure ⟨reported_error h.1, .inl ⟨rfl, h.2⟩⟩
      | ok c' =>
        refine meets_pure ⟨reported_ok _, .inr ⟨rfl, c', h.2,
          .inr ⟨c, ?_, ⟨now₀, hnow, by simpa using hlatest.2⟩, h.1⟩⟩⟩
        exact Accounts.find_of_latestChallenge hlatest.1

variable {e email : String} {raw plain : Bytes} {allow : Bool}

theorem meets_rehashPassword (ha : k.account = some a) (rehash : Bool) :
    Meets (rehashPassword inputs plain a rehash) k
      (fun _ k' ↦ ∃ a', a.Rehash inputs a' plain ∧ k' = { k with account := some a' }) R := by
  rw [rehashPassword]
  split
  · refine ask_bind fun n digest hdigest ↦ ?_
    rintro w rfl
    exact ⟨_, .inr ⟨n, digest, hdigest, rfl⟩, rfl⟩
  · exact meets_pure ⟨a, .inl rfl, by rw [← ha]⟩

theorem meets_finishLogin {a' : Account} (ha : k.account = some a) (hissued : k.issued = none)
    (hpassword : a.Verifies env raw plain) (hverified : a.verified = true)
    (hrehash : a.Rehash inputs a' plain) {now₀ : Time} (hnow : inputs.IsNow now₀) :
    Meets (env.finishLogin inputs now₀ a allow) { k with account := some a' }
      (fun r k' ↦ Ended env inputs (.login e raw allow) k r k' ∧ Reported r) fun _ _ ↦ True := by
  have hdid : Did env k a' [] .none { k with account := some a' } :=
    (Did.refl env hissued ha).setAccount a'
  rw [finishLogin]
  split
  · split
    · refine (meets_loginCode rfl hnow).imp ?_
      rintro r k' ⟨hreported, ⟨hr, rfl⟩ | ⟨hr, c, hsaved, hc⟩⟩
      · exact ⟨.of_deed ha (hr ▸ .refused hpassword hrehash) hdid, hreported⟩
      · refine ⟨.of_deed ha (hr ▸ .codeSent hpassword hrehash ?_) (hdid.save hsaved), hreported⟩
        refine hc.imp (hrehash.isNewCode ·) ?_
        rintro ⟨old, hold, husable, hrenewed⟩
        exact ⟨old, hold, hrehash.usable husable, hrenewed⟩
    · exact meets_pure ⟨.of_deed ha (.refused hpassword hrehash) hdid, reported_error rfl⟩
  · rename_i hcode
    refine (meets_issue rfl).anyway.bind ?_
    rintro tokens k' ⟨hminted, sessions, hs, rfl⟩
    exact meets_pure ⟨.of_deed ha (.loggedIn hpassword hrehash hverified (by simpa using hcode)
      (hrehash.subject_eq ▸ hminted)) (hdid.create hs), reported_ok _⟩

/-- A login reports nothing but expected failures. -/
theorem meets_loginBody (hraw : env.password raw = some plain) (hissued : k.issued = none) :
    Meets (env.loginBody inputs email plain allow) k
      (fun r k' ↦ Ended env inputs (.login e raw allow) k r k' ∧ Reported r) fun _ _ ↦ True := by
  refine now_bind fun now₀ hnow ↦ (quiet_reserveAttempt _ _).meets fun attempt ↦ ?_
  have hrefused : ∀ account, Meets (env.refuseLogin inputs attempt account) k
      (fun r k' ↦ Ended env inputs (.login e raw allow) k r k' ∧ Reported r) fun _ _ ↦ True :=
    fun account ↦ by
      refine (meets_refuseLogin attempt account).imp ?_
      rintro r k' ⟨rfl, hr, hreported⟩
      exact ⟨.refl hissued fun h ↦ (nomatch hr.symm.trans h), hreported⟩
  split
  · exact meets_pure ⟨.refl hissued nofun, reported_error rfl⟩
  · refine account?_bind (fun _ ↦ ?_) fun a ha ↦ ?_
    · dsimp only
      split
      · exact hrefused none
      · exact meets_fail nofun
    · dsimp only
      cases hverify : env.verify plain a.passwordDigest with
      | none => exact meets_fail nofun
      | some vr =>
        obtain ⟨valid, rehash⟩ := vr
        dsimp only
        split
        · rename_i hvalid
          have hpassword : a.Verifies env raw plain := ⟨hraw, rehash, by rw [hverify, hvalid.1]⟩
          refine (quiet_resetAttempts _).meets fun _ ↦ ?_
          split
          · rename_i hverified
            refine (meets_rehashPassword ha rehash).bind ?_
            rintro _ k' ⟨a', hrehash, rfl⟩
            exact meets_finishLogin ha hissued hpassword hverified hrehash hnow
          · exact meets_pure ⟨.refl hissued nofun, reported_error rfl⟩
        · exact hrefused (some a)

end Security

/-! ## Transactions -/

section Settled

variable {α : Type} {env : Security} {inputs : Inputs} {call : Call} {s : Store}
  {selector : Selector}

theorem Settled.map {β : Type} {out} (h : Settled env inputs call s out) (f : α → β) :
    Settled env inputs call s (out.map f) := by
  cases h with
  | rejected e => exact .rejected e
  | @closed k k' r s' hopens hended hreported hcloses hsessions hregistrations =>
    have hended' : Ended env inputs call k (r.map f) k' := by
      rw [Ended] at hended ⊢
      cases r <;> exact hended
    have hout : (s.commit s' inputs.commit r k'.issued).map f =
        s.commit s' inputs.commit (r.map f) k'.issued := by
      cases inputs.commit <;> rfl
    have hreported' : Reported (r.map f) := by
      intro e he
      cases r with
      | ok => cases he
      | error => exact hreported e (congrArg Except.error (Except.error.inj he))
    exact hout ▸ .closed hopens hended' hreported' hcloses hsessions hregistrations

theorem Meets.reported {m k k₀} {R : Failure → Core → Prop}
    (h : Meets m k (fun x k' ↦ Ended env inputs call k₀ (.ok x : Except Failure α) k')
      fun e k' ↦ Ended env inputs call k₀ (.error e : Except Failure α) k') :
    Meets (Auth.expected m) k (fun r k' ↦ Ended env inputs call k₀ r k' ∧ Reported r) R := by
  refine h.expected (fun a k' h ↦ ⟨h, nofun⟩) fun e k' he h ↦ ⟨h, fun e' he' ↦ ?_⟩
  cases he'
  exact he

theorem Accounts.find_of_lookup {t : Accounts} {row : CredentialRow}
    (h : t.lookup selector = some row) : t.credentials.find row.subject = some row := by
  cases selector with
  | email => exact Table.find_of_mem (List.mem_of_find?_eq_some h)
  | subject => exact Table.find_of_mem (Table.mem_rows_of_find h)

/-- A handler that ends as the call may end, under whatever lock, settles the call. -/
theorem settled_withAccount {body : Handler (Except Failure α)}
    (h : ∀ k, s.Opens k → k.issued = none →
      Meets body k (fun r k' ↦ Ended env inputs call k r k' ∧ Reported r) fun _ _ ↦ True) :
    Settled env inputs call s (withAccount inputs selector body s) := by
  rw [withAccount]
  split
  · exact .rejected _
  cases hrow : s.accounts.lookup selector with
  | none =>
    have hbody := h _ .missing rfl { store := s, account := none } rfl
    rw [Txn.Yields] at hbody
    dsimp only
    generalize body _ = out at hbody ⊢
    obtain ⟨r, w⟩ := out
    cases r with
    | error e => exact .rejected e
    | ok =>
      exact .closed .missing hbody.1 hbody.2 rfl rfl rfl
  | some row =>
    dsimp only
    cases hsecurity : (s.accounts.ensureSecurity row.subject).security.find row.subject with
    | none => exact .rejected _
    | some security =>
      have hopens := Store.Opens.locked (Accounts.find_of_lookup hrow) hsecurity
      have hbody := h _ hopens rfl
        { store := { s with accounts := s.accounts.ensureSecurity row.subject }
          account := some (Accounts.assemble row security) } rfl
      rw [Txn.Yields] at hbody
      dsimp only
      generalize body _ = out at hbody ⊢
      obtain ⟨r, w⟩ := out
      cases r with
      | error e => exact .rejected e
      | ok =>
        dsimp only
        cases hsave : w.account.bind
            (w.store.accounts.saveAccount (Accounts.assemble row security)) with
        | none => exact .rejected _
        | some accounts =>
          obtain ⟨a', ha', haccounts⟩ := Option.bind_eq_some_iff.mp hsave
          exact @Settled.closed α env inputs call s _ _ _ { w.store with accounts := accounts }
            hopens hbody.1 hbody.2 ⟨a', ha', haccounts⟩ rfl rfl

end Settled

/-! ## The calls -/

namespace Security

section

variable {α : Type} {env : Security} {inputs : Inputs} {call : Call} {s : Store}
  {apply : Challenge → Handler α}

/-- A call with a challenge. -/
theorem settled_withChallenge {id : ChallengeID}
    (h : ∀ k a c, k.issued = none → k.account = some a →
      k.accounts.challenges.find id = some c → Meets (apply c) k
        (fun x k' ↦ Ended env inputs call k (.ok x : Except Failure α) k')
        fun e k' ↦ Ended env inputs call k (.error e : Except Failure α) k') :
    Settled env inputs call s (withChallenge inputs id apply s) := by
  rw [withChallenge]
  split
  · exact .rejected _
  cases s.accounts.challenges.find id with
  | none => exact .rejected _
  | some =>
    refine settled_withAccount fun k _ hissued ↦ account?_bind (fun hnone ↦ ?_) fun a ha ↦ ?_
    · exact meets_pure ⟨.of_none hnone (by rintro ⟨⟩), fun e he ↦ by cases he; rfl⟩
    · refine challenge_bind (fun c a' ha' hc _ ↦ ?_) trivial
      exact (h k a c hissued ha hc).reported

/-- A call of the owner of an account. -/
theorem settled_withOwner {actor : Record} {apply : Handler α}
    (h : ∀ k a, k.issued = none → k.account = some a → a.subject = actor.subjectID → Meets apply k
      (fun x k' ↦ Ended env inputs call k (.ok x : Except Failure α) k')
      fun e k' ↦ Ended env inputs call k (.error e : Except Failure α) k') :
    Settled env inputs call s (withOwner inputs actor apply s) := by
  rw [withOwner]
  split
  · exact .rejected _
  · refine settled_withAccount fun k _ hissued ↦ quiet_now.meets fun now ↦ ?_
    refine (meets_checkSession actor now).anyway.bind ?_
    rintro _ k ⟨rfl, a, ha, howner⟩
    exact (h k a hissued ha howner.1).reported

/-- A call with a link: what is left is the deed once the challenge is used. -/
theorem settled_confirmToken {value purpose} (h : ∀ k a c, k.issued = none → k.account = some a →
      c.Presented env inputs k.accounts.challenges a value purpose → Meets (apply c) k
        (fun x k' ↦ ∀ now k'', Saved (c.used now) k' k'' →
          Ended env inputs call k (.ok x : Except Failure α) k'')
        fun e k' ↦ Ended env inputs call k (.error e : Except Failure α) k') :
    Settled env inputs call s (env.confirmToken inputs value purpose apply s) := by
  rw [confirmToken]
  cases hvalue : parseLink value with
  | none => exact .rejected _
  | some link =>
    obtain ⟨id, secret⟩ := link
    refine settled_withChallenge fun k a c hissued ha hc ↦ ?_
    refine account_bind ha (now_bind fun now₁ hnow ↦ ?_)
    cases hcheck : c.check a purpose now₁ with
    | some e => exact meets_fail fun _ ↦ .quiet hissued e
    | none =>
      dsimp only
      split
      · exact meets_fail fun _ ↦ .quiet hissued _
      · rename_i hdigest
        refine (h k a c hissued ha
          ⟨id, secret, hvalue, hc, ⟨now₁, hnow, hcheck⟩, not_not.mp hdigest⟩).bind fun x k' hx ↦ ?_
        refine quiet_now.meets fun now₂ ↦ (meets_saveChallenge _).bind fun _ k'' hsaved ↦
          meets_pure (hx now₂ k'' hsaved)

end

variable (env : Security) (inputs : Inputs) (s : Store) {a : Account} {k : Core}

theorem settled_login (email : String) (raw : Bytes) (allow : Bool) :
    Settled env inputs (.login email raw allow) s (env.login inputs email raw allow s) := by
  rw [login]
  cases env.email email with
  | none => exact .rejected _
  | some =>
    dsimp only
    cases hraw : env.password raw with
    | none => exact .rejected _
    | some =>
      exact settled_withAccount fun k _ hissued ↦ meets_loginBody hraw hissued

theorem settled_completeLogin (id : ChallengeID) (code : Bytes) :
    Settled env inputs (.completeLogin id code) s (env.completeLogin inputs id code s) := by
  refine settled_withChallenge fun k a c hissued ha hc ↦ ?_
  have hid : c.id = id := Table.key_eq_of_find hc
  refine (meets_checkCode hissued ha rfl hc code).bind ?_
  rintro _ k ⟨rfl, husable, hdigest⟩
  refine account_bind ha ?_
  split
  · rename_i hallowed
    refine quiet_now.meets fun now ↦ (meets_saveChallenge _).bind fun _ k' hsaved ↦ ?_
    have hdid := (Did.refl env hissued ha).save hsaved
    refine (meets_issue hdid.account).mono ?_ ?_
    · rintro tokens k'' ⟨hminted, sessions, hs, rfl⟩
      exact .of_deed ha (.completedLogin hc husable (hid ▸ hdigest) hallowed.1 hallowed.2.1
        hminted) (hdid.create hs)
    -- after the challenge is used nothing is expected to fail
    · rintro e k'' hnot
      exact absurd ⟨hallowed.2.2, husable.deletedAt, hallowed.1⟩ hnot
  · exact meets_fail fun _ ↦ .quiet hissued _

theorem settled_resendCode (id : ChallengeID) :
    Settled env inputs (.resendCode id) s (env.resendCode inputs id s) := by
  refine settled_withChallenge fun k a c hissued ha hc ↦ ?_
  refine account_bind ha (now_bind fun now₁ hnow ↦ ?_)
  split
  · exact meets_fail fun _ ↦ .quiet hissued _
  · rename_i hcheck
    refine quiet_now.meets fun now₂ ↦ ?_
    split
    · exact meets_fail fun _ ↦ .quiet hissued _
    · refine ((meets_replaceCode c).quiet hissued).bind ?_
      rintro c' k' ⟨hrenewed, hsaved⟩
      exact quiet_now.meets fun now₃ ↦ meets_pure (.of_deed ha
        (.resent hc ⟨now₁, hnow, not_not.mp hcheck⟩ hrenewed)
        ((Did.refl env hissued ha).save hsaved))

theorem meets_resendToken {purpose email email'}
    (hissued : k.issued = none) (ha : k.account = some a)
    (hpurpose : purpose = .verifyEmail ∨ purpose = .resetPassword) {latest}
    (hlatest : ∀ old, latest = some old → k.accounts.challenges.find old.id = some old) :
    Meets (env.resendToken inputs a purpose email' latest) k
      (fun _ k' ↦ Ended env inputs (.requestToken email purpose) k
        (.ok ⟨⟩ : Except Failure PUnit) k') fun _ _ ↦ True := by
  refine now_bind fun now₁ hnow ↦ Meets.bind (Q := fun _ k' ↦ ∃ now, Did env k a
    (latest.map (Challenge.used · now)).toList .none k') ?_ ?_
  · cases latest with
    | none => exact meets_pure ⟨now₁, .refl env hissued ha⟩
    | some =>
      refine quiet_now.meets fun now₂ ↦ (meets_saveChallenge _).imp ?_
      exact fun _ k' hsaved ↦ ⟨now₂, (Did.refl env hissued ha).save hsaved⟩
  · rintro _ k₁ ⟨now, hdid⟩
    refine (meets_tokenChallenge a purpose email' _).bind ?_
    rintro ⟨c, m⟩ k₁ ⟨rfl, hnew⟩
    dsimp only
    cases hcarried : (latest.filter fun c ↦ purpose = .verifyEmail ∧
        c.check a purpose now₁ = none).filter fun c ↦ c.registrationDigest ≠ zeroDigest with
    | none =>
      refine (meets_saveChallenge _).bind fun _ k' hsaved ↦ (quiet_queue _ _).ends fun _ ↦ ?_
      exact .of_deed ha (.requested hpurpose hlatest hnew (.inl rfl)) (hdid.save hsaved)
    | some old =>
      simp only [Option.filter_eq_some_iff, decide_eq_true_eq] at hcarried
      obtain ⟨⟨hold, hverify, hcheck⟩, -⟩ := hcarried
      refine (meets_saveChallenge _).bind fun _ k' hsaved ↦ (quiet_queue _ _).ends fun _ ↦ ?_
      exact .of_deed ha (.requested hpurpose hlatest hnew (.inr ⟨old, hold, hverify,
        ⟨now₁, hnow, hverify ▸ hcheck⟩, rfl⟩)) (hdid.save hsaved)

theorem settled_requestToken (email : String) (purpose : Purpose) :
    Settled env inputs (.requestToken email purpose) s
      (env.requestToken inputs email purpose s) := by
  rw [requestToken]
  split
  · exact .rejected _
  rename_i hnot
  have hpurpose : purpose = .verifyEmail ∨ purpose = .resetPassword := by
    by_contra h
    exact hnot (not_or.mp h)
  cases env.email email with
  | none => exact .rejected _
  | some =>
    have hreported : Reported (.ok ⟨⟩ : Except Failure PUnit) := nofun
    refine settled_withAccount fun k _ hissued ↦ account?_bind (fun hnone ↦ ?_) fun a ha ↦ ?_
    · exact meets_pure ⟨.of_none hnone fun _ ↦ rfl, hreported⟩
    · dsimp only
      split
      · exact meets_pure ⟨.refl hissued fun _ ↦ rfl, hreported⟩
      · refine latestChallenge_bind (quiet_now.meets fun now ↦ ?_)
        rw [ha, Option.bind_some]
        split
        · exact meets_pure ⟨.refl hissued fun _ ↦ rfl, hreported⟩
        · refine (meets_resendToken env inputs hissued ha hpurpose fun old hold ↦ ?_).bind
            fun _ k' hended ↦ meets_pure ⟨hended, hreported⟩
          exact Accounts.find_of_latestChallenge hold

theorem settled_confirmRegistration (value browserSecret : Bytes) :
    Settled env inputs (.confirmRegistration value browserSecret) s
      (env.confirmRegistration inputs value browserSecret s) := by
  refine settled_confirmToken fun k a c hissued ha hc ↦ ?_
  refine account_bind ha ?_
  split
  · exact meets_fail fun _ ↦ .quiet hissued _
  · rename_i hnot
    simp only [not_or, not_not, Bool.not_eq_true] at hnot
    obtain ⟨hemail, hdeletion, hverified⟩ := hnot
    have hdid := (Did.refl env hissued ha).setAccount { a with verified := true }
    refine setAccount_bind ?_
    split
    · rename_i hsecret
      refine ((meets_issue rfl).imp_error ?_).bind ?_
      -- the account is verified by now, so the session is not refused
      · rintro e k' hnot
        obtain ⟨id, secret, -, -, husable, -⟩ := hc
        exact absurd ⟨hdeletion, husable.deletedAt, rfl⟩ hnot
      · rintro tokens k' ⟨hminted, sessions, hs, rfl⟩
        refine meets_pure fun now k'' hsaved ↦ ?_
        exact .of_deed ha (.confirmedRegistration hc hemail hverified
          (.inr ⟨tokens, rfl, hminted, hsecret.2.1, hsecret.2.2⟩)) ((hdid.create hs).save hsaved)
    · exact meets_pure fun now k'' hsaved ↦
        .of_deed ha (.confirmedRegistration hc hemail hverified (.inl rfl)) (hdid.save hsaved)

/-- The sessions of the account are revoked. -/
theorem revokeSessions_bind {β : Type} {inputs now}
    {f : PUnit → Handler β} {P : β → Core → Prop} {R : Failure → Core → Prop}
    (ha : k.account = some a) (h : Meets (f ⟨⟩) { k with
      sessions := (k.sessions.revokeWhere
        (fun row ↦ true && row.record.subjectID = a.subject) now "credential_change") } P R) :
    Meets (revokeSessions inputs now >>= f) k P R := by
  refine (meets_revokeWhere ha _ now _).bind ?_
  rintro _ k' rfl
  exact h

theorem settled_resetPassword (value raw : Bytes) :
    Settled env inputs (.resetPassword value raw) s (env.resetPassword inputs value raw s) := by
  rw [resetPassword]
  cases env.newPassword raw with
  | none => exact .rejected _
  | some =>
    refine settled_confirmToken fun k a c hissued ha hc ↦ account!_bind fun a' ha' ↦ ?_
    split
    · exact meets_fail fun _ ↦ .quiet hissued _
    · refine increment_bind ha (ask_bind fun _ digest _ ↦ account_bind rfl (setAccount_bind ?_))
      refine quiet_now.meets fun now ↦ revokeSessions_bind rfl ?_
      refine (quiet_notice _).ends fun _ now' k'' hsaved ↦ ?_
      have hdid := (Did.refl env hissued ha).setAccount
        { a.next with passwordDigest := digest, verified := true }
      exact .of_deed ha (.reset hc) ((hdid.revoke _ a.subject now _).save hsaved)

theorem settled_confirmEmailChange (value : Bytes) :
    Settled env inputs (.confirmEmailChange value) s (env.confirmEmailChange inputs value s) := by
  refine settled_confirmToken fun k a c hissued ha hc ↦ account!_bind fun a' ha' ↦ ?_
  split
  · exact meets_fail fun _ ↦ .quiet hissued _
  · refine increment_bind ha (account_bind rfl ?_)
    refine setAccount_bind (quiet_now.meets fun now ↦ (meets_revokeWhere rfl _ now _).imp ?_)
    rintro _ k' rfl now' k'' hsaved
    have hdid := (Did.refl env hissued ha).setAccount
      { a.next with email := c.email, verified := true }
    exact .of_deed ha (.confirmedEmailChange hc) ((hdid.revoke _ a.subject now _).save hsaved)

theorem settled_cancelEmailChange (value : Bytes) :
    Settled env inputs (.cancelEmailChange value) s (env.cancelEmailChange inputs value s) := by
  refine settled_confirmToken fun k a c hissued ha hc ↦ ?_
  refine meets_increment.imp ?_
  rintro _ k' ⟨a', ha', rfl⟩ now k'' hsaved
  cases ha.symm.trans ha'
  exact .of_deed ha (.cancelledEmailChange hc)
    (((Did.refl env hissued ha).setAccount _).save hsaved)

theorem settled_credentials (actor : Record) :
    Settled env inputs (.credentials actor) s (credentials inputs actor s) := by
  refine settled_withOwner fun k a hissued ha howner ↦ meets_account!.imp ?_
  rintro a' k' ⟨rfl, -⟩
  exact .refl hissued fun _ ↦ rfl

theorem settled_changePassword (actor : Record) (old new : Bytes) :
    Settled env inputs (.changePassword actor old new) s
      (env.changePassword inputs actor old new s) := by
  rw [changePassword]
  cases env.newPassword new with
  | none => exact .rejected _
  | some =>
    refine settled_withOwner fun k a hissued ha howner ↦
      ((meets_verifyPassword old).quiet hissued).bind ?_
    rintro _ k rfl
    refine increment_bind ha (ask_bind fun _ digest _ ↦ account_bind rfl (setAccount_bind ?_))
    refine quiet_now.meets fun now ↦ revokeSessions_bind rfl ?_
    refine (quiet_notice _).ends fun _ ↦ ?_
    have hdid := (Did.refl env hissued ha).setAccount
      { a.next with passwordDigest := digest }
    exact .of_deed ha (.changedPassword howner) (hdid.revoke _ a.subject now _)

theorem settled_startEmailChange (actor : Record) (email : String) (password : Bytes) :
    Settled env inputs (.startEmailChange actor email password) s
      (env.startEmailChange inputs actor email password s) := by
  rw [startEmailChange]
  cases env.email email with
  | none => exact .rejected _
  | some =>
    refine settled_withOwner fun k a hissued ha howner ↦ ?_
    refine ((meets_verifyPassword password).quiet hissued).bind ?_
    rintro _ k rfl
    refine account_bind ha ?_
    split
    · exact meets_fail fun _ ↦ .quiet hissued _
    split
    swap
    · exact meets_fail fun _ ↦ .quiet hissued _
    refine latestChallenge_bind (quiet_now.meets fun now ↦ ?_)
    split
    · exact meets_fail fun _ ↦ .quiet hissued _
    · refine increment_bind ha (account_bind rfl ?_)
      refine (meets_tokenChallenge _ _ _ _).bind ?_
      rintro ⟨confirm, letter⟩ k' ⟨rfl, hconfirm⟩
      refine (meets_tokenChallenge _ _ _ _).bind ?_
      rintro ⟨cancel, alert⟩ k' ⟨rfl, hcancel⟩
      refine (meets_saveChallenge _).bind fun _ k₁ hsaved₁ ↦
        (meets_saveChallenge _).bind fun _ k₂ hsaved₂ ↦ (quiet_queue _ _).meets fun _ ↦
          (quiet_queue _ _).ends fun _ ↦ ?_
      have hdid := (Did.refl env hissued ha).setAccount a.next
      exact .of_deed ha (.startedEmailChange howner hconfirm hcancel)
        ((hdid.save hsaved₁).save hsaved₂)

theorem meets_sendCode (ha : k.account = some a) (purpose : Purpose) :
    Meets (env.sendCode inputs a purpose) k
      (fun c k' ↦ Saved c k k' ∧ (c.IsNewCode inputs a purpose ∨ ∃ old,
        k.accounts.challenges.find old.id = some old ∧ old.Usable inputs a purpose ∧ old.Renewed c))
      fun _ k' ↦ k' = k := by
  refine latestChallenge_bind (now_bind fun now₁ hnow ↦ ?_)
  rw [ha, Option.bind_some]
  cases hlatest : (k.accounts.latestChallenge a.subject purpose).filter
      fun c ↦ c.check a purpose now₁ = none with
  | none =>
    refine (meets_createCode ha _).imp ?_
    rintro c k' ⟨hnew, hsaved⟩
    exact ⟨hsaved, .inl hnew⟩
  | some old =>
    rw [Option.filter_eq_some_iff] at hlatest
    refine quiet_now.meets fun now₂ ↦ ?_
    split
    · exact meets_fail fun _ ↦ rfl
    · refine (meets_replaceCode old).imp ?_
      rintro c k' ⟨hrenewed, hsaved⟩
      exact ⟨hsaved, .inr ⟨old, Accounts.find_of_latestChallenge hlatest.1,
        ⟨now₁, hnow, by simpa using hlatest.2⟩, hrenewed⟩⟩

theorem settled_startCodeChange (actor : Record) (password : Bytes) (enabled : Bool) :
    Settled env inputs (.startCodeChange actor password enabled) s
      (env.startCodeChange inputs actor password enabled s) := by
  refine settled_withOwner fun k a hissued ha howner ↦ ?_
  refine ((meets_verifyPassword password).quiet hissued).bind ?_
  rintro _ k rfl
  refine account_bind ha ?_
  split
  swap
  · exact meets_fail fun _ ↦ .quiet hissued _
  split
  · exact meets_fail fun _ ↦ .quiet hissued _
  · refine ((meets_sendCode env inputs ha _).quiet hissued).bind ?_
    rintro c k' ⟨hsaved, hc⟩
    exact quiet_now.meets fun now₃ ↦ meets_pure
      (.of_deed ha (.startedCodeChange hc) ((Did.refl env hissued ha).save hsaved))

theorem settled_completeCodeChange (actor : Record) (id : ChallengeID) (code : Bytes)
    (enabled : Bool) :
    Settled env inputs (.completeCodeChange actor id code enabled) s
      (env.completeCodeChange inputs actor id code enabled s) := by
  refine settled_withOwner fun k a hissued ha howner ↦ ?_
  refine challenge_bind (fun c a' ha' hc _ ↦ ?_) (.quiet hissued _)
  cases ha.symm.trans ha'
  refine (meets_checkCode hissued ha rfl hc code).bind ?_
  rintro _ k ⟨rfl, husable, -⟩
  refine increment_bind ha (account_bind rfl ?_)
  refine setAccount_bind (quiet_now.meets fun now ↦
    (meets_saveChallenge _).bind fun _ k' hsaved ↦ ?_)
  have hdid := ((Did.refl env hissued ha).setAccount
    { a.next with codeEnabled := enabled }).save hsaved
  refine revokeSessions_bind hdid.account ((quiet_notice _).ends fun _ ↦ ?_)
  exact .of_deed ha (.completedCodeChange howner hc husable) (hdid.revoke _ a.subject now _)

theorem settled_listSessions (actor : Record) :
    Settled env inputs (.listSessions actor) s (listSessions inputs actor s) := by
  refine settled_withOwner fun k a hissued ha howner ↦ quiet_now.meets fun now ↦
    ((meets_sessions now).quiet hissued).imp ?_
  rintro _ k' rfl
  exact .refl hissued fun _ ↦ rfl

theorem settled_revokeSession (actor : Record) (id : SessionID) :
    Settled env inputs (.revokeSession actor id) s (revokeSession inputs actor id s) := by
  refine settled_withOwner fun k a hissued ha howner ↦ quiet_now.meets fun now₁ ↦ ?_
  split
  · exact meets_fail fun _ ↦ .quiet hissued _
  · refine quiet_now.meets fun now₂ ↦ (meets_revokeWhere ha _ now₂ _).imp ?_
    rintro _ k' rfl
    exact .of_deed ha (.revokedSession howner) ((Did.refl env hissued ha).revoke _ a.subject now₂ _)

theorem settled_logoutAll (actor : Record) :
    Settled env inputs (.logoutAll actor) s (env.logoutAll inputs actor s) := by
  refine settled_withOwner fun k a hissued ha howner ↦ quiet_now.meets fun now₁ ↦ ?_
  split
  · exact meets_fail fun _ ↦ .quiet hissued _
  · refine quiet_now.meets fun now₂ ↦ revokeSessions_bind ha ?_
    refine (quiet_notice _).ends fun _ ↦ ?_
    exact .of_deed ha (.loggedOut howner) ((Did.refl env hissued ha).revoke _ a.subject now₂ _)

end Security

/-- **Every call but a registration is rejected or does a deed.** -/
theorem Call.run_settled (env : Security) (inputs : Inputs) (s : Store) (call : Call)
    (h : ∀ email raw browser, call ≠ .register email raw browser) :
    Settled env inputs call s (call.run env inputs s) := by
  cases call with
  | register email raw browser => exact absurd rfl (h email raw browser)
  | login email raw allow => exact (Security.settled_login ..).map _
  | completeLogin id code => exact (Security.settled_completeLogin ..).map _
  | resendCode id => exact (Security.settled_resendCode ..).map _
  | requestToken email p => exact (Security.settled_requestToken ..).map _
  | confirmRegistration value secret => exact (Security.settled_confirmRegistration ..).map _
  | resetPassword value raw => exact (Security.settled_resetPassword ..).map _
  | credentials actor => exact (Security.settled_credentials ..).map _
  | changePassword actor old new => exact (Security.settled_changePassword ..).map _
  | startEmailChange actor email password => exact (Security.settled_startEmailChange ..).map _
  | confirmEmailChange value => exact (Security.settled_confirmEmailChange ..).map _
  | cancelEmailChange value => exact (Security.settled_cancelEmailChange ..).map _
  | startCodeChange actor password enabled => exact (Security.settled_startCodeChange ..).map _
  | completeCodeChange actor id code enabled => exact (Security.settled_completeCodeChange ..).map _
  | listSessions actor => exact (Security.settled_listSessions ..).map _
  | revokeSession actor id => exact (Security.settled_revokeSession ..).map _
  | logoutAll actor => exact (Security.settled_logoutAll ..).map _

end MarketMesh.Auth
