import MarketMesh.Auth.Operations

/-!
# What the parts of a call do

`Core` is the state of a call without the counters of attempts and the queued mail, which decide
what a call answers but nothing it is worth verifying it for.  `Meets m k Q R` is the specification
of a handler on cores: where it returns, `Q` holds, and where it fails with an expected failure, `R`
does.  Of an infrastructure error it says nothing, because a transaction that fails with one is
rolled back.
-/

set_option autoImplicit false

namespace MarketMesh.Auth

structure Core where
  accounts : Accounts
  sessions : SessionTables
  registrations : Table Registration.eventID
  account : Option Account
  issued : Option Tokens := none

def Work.core (w : Work) : Core where
  accounts := w.store.accounts
  sessions := w.store.sessions
  registrations := w.store.registrations
  account := w.account
  issued := w.issued

section

variable {α β : Type} {m : Handler α} {f : α → Handler β} {k : Core} {Q Q' : α → Core → Prop}
  {P : β → Core → Prop} {R R' : Failure → Core → Prop}

def Meets (m : Handler α) (k : Core) (Q : α → Core → Prop) (R : Failure → Core → Prop) : Prop :=
  ∀ w : Work, w.core = k →
    m.Yields w (fun a w' ↦ Q a w'.core) fun e w' ↦ e.isExpected = true → R e w'.core

theorem Meets.mono (h : Meets m k Q R) (hQ : ∀ a k', Q a k' → Q' a k')
    (hR : ∀ e k', R e k' → R' e k') : Meets m k Q' R' := fun w hw ↦
  (h w hw).mono (fun a w' ↦ hQ a w'.core) fun e w' hE he ↦ hR e w'.core (hE he)

theorem Meets.bind (h : Meets m k Q R) (hf : ∀ a k', Q a k' → Meets (f a) k' P R) :
    Meets (m >>= f) k P R := fun w hw ↦
  (h w hw).seq fun a w' hQ ↦ hf a w'.core hQ w' rfl

/-- The error is of no interest. -/
theorem Meets.anyway (h : Meets m k Q R) : Meets m k Q fun _ _ ↦ True :=
  h.mono (fun _ _ h ↦ h) fun _ _ _ ↦ trivial

theorem Meets.imp (h : Meets m k Q R) (hQ : ∀ a k', Q a k' → Q' a k') : Meets m k Q' R :=
  h.mono hQ fun _ _ h ↦ h

theorem Meets.imp_error (h : Meets m k Q R) (hR : ∀ e k', R e k' → R' e k') : Meets m k Q R' :=
  h.mono (fun _ _ h ↦ h) hR

theorem meets_pure {a} (h : Q a k) : Meets (pure a) k Q R :=
  fun _ hw ↦ Txn.yields_pure (hw ▸ h)

theorem meets_fail {e} (h : e.isExpected = true → R e k) :
    Meets (.fail e : Handler α) k Q R :=
  fun _ hw ↦ Txn.yields_fail fun he ↦ hw ▸ h he

/-- A rejection that was expected is committed as the outcome. -/
theorem Meets.expected {P : Except Failure α → Core → Prop} (h : Meets m k Q R')
    (hQ : ∀ a k', Q a k' → P (.ok a) k')
    (hR : ∀ e k', e.isExpected = true → R' e k' → P (.error e) k') :
    Meets (expected m) k P R := by
  intro w hw
  have := h w hw
  rw [Txn.Yields] at this ⊢
  rw [Auth.expected]
  generalize m w = out at this ⊢
  obtain ⟨r, w'⟩ := out
  cases r with
  | ok a => exact hQ a _ this
  | error e =>
    by_cases he : e.isExpected = true
    · simp only [he, if_true]
      exact hR e _ he (this he)
    · simp only [he]
      exact fun h ↦ absurd h he

/-- A handler that leaves the core alone and fails only with an infrastructure error. -/
def Quiet (m : Handler α) : Prop :=
  ∀ k, Meets m k (fun _ k' ↦ k' = k) fun _ _ ↦ False

theorem Quiet.ends (hm : Quiet m) (h : ∀ a, Q a k) : Meets m k Q R :=
  (hm k).mono (fun a _ hk ↦ hk ▸ h a) fun _ _ h ↦ h.elim

theorem Quiet.bind (hm : Quiet m) (hf : ∀ a, Quiet (f a)) : Quiet (m >>= f) := by
  refine fun k ↦ (hm k).bind ?_
  rintro a _ rfl
  exact hf a _

theorem Quiet.pure (a : α) : Quiet (Pure.pure a : Handler α) := fun _ ↦ meets_pure rfl

theorem Quiet.fail {e} (he : e.isExpected = false) : Quiet (.fail e : Handler α) :=
  fun _ ↦ meets_fail fun h ↦ nomatch he.symm.trans h

/-- First a quiet handler, and then the rest. -/
theorem Quiet.meets (hm : Quiet m) (hf : ∀ a, Meets (f a) k P R) : Meets (m >>= f) k P R := by
  refine Meets.bind ((hm k).imp_error fun _ _ h ↦ h.elim) ?_
  rintro a _ rfl
  exact hf a

end

/-! ## The unit of work -/

/-- A time that a call may read. -/
def Inputs.IsNow (inputs : Inputs) (now : Time) : Prop :=
  ∃ n, now = inputs.clock n - inputs.clock n % second

namespace Work

variable {α β : Type} {inputs : Inputs} {k : Core} {P : β → Core → Prop}
  {R : Failure → Core → Prop} {f : Store → Option Store}

theorem meets_ask (answers : Nat → Option α) :
    Meets (ask answers) k (fun a k' ↦ k' = k ∧ ∃ n, answers n = some a) R := by
  intro w hw
  rw [Txn.Yields, ask]
  cases h : answers w.asked with
  | none => rintro ⟨⟩
  | some => exact ⟨hw, w.asked, h⟩

theorem ask_bind {answers : Nat → Option α} {f : α → Handler β}
    (h : ∀ n a, answers n = some a → Meets (f a) k P R) : Meets (ask answers >>= f) k P R := by
  refine (meets_ask answers).bind ?_
  rintro a k ⟨rfl, n, hn⟩
  exact h n a hn

theorem quiet_ask (answers : Nat → Option α) : Quiet (ask answers) :=
  fun _ ↦ (meets_ask answers).mono (fun _ _ h ↦ h.1) fun _ _ h ↦ h

theorem quiet_now : Quiet (now inputs) :=
  fun _ _ hw ↦ hw

theorem now_bind {f : Time → Handler β} (h : ∀ now, inputs.IsNow now → Meets (f now) k P R) :
    Meets (now inputs >>= f) k P R := by
  refine Meets.bind (Q := fun now k' ↦ k' = k ∧ inputs.IsNow now)
    (fun w hw ↦ ⟨hw, w.asked, rfl⟩) ?_
  rintro now k ⟨rfl, hnow⟩
  exact h now hnow

theorem quiet_statement : Quiet (statement inputs) := by
  intro k w hw
  rw [Txn.Yields, statement]
  cases inputs.faults w.asked with
  | none => exact hw
  | some => exact fun h ↦ by simp at h

theorem account?_bind {f : Option Account → Handler β}
    (hnone : k.account = none → Meets (f none) k P R)
    (hsome : ∀ a, k.account = some a → Meets (f (some a)) k P R) :
    Meets (account? >>= f) k P R := by
  refine Meets.bind (Q := fun a k' ↦ k' = k ∧ k.account = a)
    (fun _ hw ↦ ⟨hw, congrArg Core.account hw.symm⟩) ?_
  rintro a k ⟨rfl, ha⟩
  cases a with
  | none => exact hnone ha
  | some a => exact hsome a ha

theorem meets_account! : Meets account! k (fun a k' ↦ k' = k ∧ k.account = some a) R := by
  rintro w rfl
  rw [Txn.Yields, account!]
  cases h : w.account with
  | none => rintro ⟨⟩
  | some => exact ⟨rfl, h⟩

theorem account!_bind {f : Account → Handler β}
    (h : ∀ a, k.account = some a → Meets (f a) k P R) : Meets (account! >>= f) k P R := by
  refine meets_account!.bind ?_
  rintro a k ⟨rfl, ha⟩
  exact h a ha

/-- The account is known. -/
theorem account_bind {f : Account → Handler β} {a} (ha : k.account = some a)
    (h : Meets (f a) k P R) : Meets (account! >>= f) k P R :=
  account!_bind fun _ ha' ↦ Option.some_inj.mp (ha.symm.trans ha') ▸ h

theorem setAccount_bind {account} {f : PUnit → Handler β}
    (h : Meets (f ⟨⟩) { k with account := some account } P R) :
    Meets (setAccount account >>= f) k P R := by
  refine Meets.bind (Q := fun _ k' ↦ k' = { k with account := some account }) ?_ ?_
  · rintro w rfl
    exact rfl
  · rintro _ k rfl
    exact h

theorem get_bind {f : Work → Handler β} (h : ∀ w, w.core = k → Meets (f w) k P R) :
    Meets (Txn.get >>= f) k P R := by
  refine Meets.bind (Q := fun w k' ↦ k' = k ∧ w.core = k)
    (fun _ hw ↦ Txn.yields_get ⟨hw, hw⟩) ?_
  rintro w k ⟨rfl, hw⟩
  exact h w hw

/-- A write to the tables of the core. -/
theorem meets_write {g : Core → Option Core}
    (hfg : ∀ w : Work, (f w.store).map (fun s ↦ { w with store := s }.core) = g w.core) :
    Meets (write f) k (fun _ k' ↦ g k = some k') R := by
  rintro w rfl
  have := hfg w
  rw [Txn.Yields, write]
  generalize f w.store = out at this ⊢
  cases out with
  | none => rintro ⟨⟩
  | some => exact this.symm

/-- A write to the other tables. -/
theorem quiet_write
    (hf : ∀ s s', f s = some s' → s'.accounts = s.accounts ∧ s'.sessions = s.sessions ∧
      s'.registrations = s.registrations) :
    Quiet (write f) := by
  rintro _ w rfl
  rw [Txn.Yields, write]
  cases h : f w.store with
  | none => rintro ⟨⟩
  | some s =>
    obtain ⟨haccounts, hsessions, hregistrations⟩ := hf _ _ h
    show { w with store := s }.core = w.core
    simp only [core, haccounts, hsessions, hregistrations]

theorem quiet_setLimit (bucket : Digest) (row : Option Limit) : Quiet (setLimit bucket row) := by
  refine quiet_write fun s s' h ↦ ?_
  cases h
  exact ⟨rfl, rfl, rfl⟩

theorem quiet_reserveBudget (bucket : Digest) (now : Time) (limit : Int) (window : Duration) :
    Quiet (reserveBudget inputs bucket now limit window) := by
  rw [reserveBudget]
  split
  · exact .fail rfl
  · refine quiet_statement.bind fun _ k ↦ get_bind fun w _ ↦ ?_
    refine (quiet_setLimit _ _).meets fun _ ↦ quiet_statement.meets fun _ ↦ ?_
    dsimp only
    split
    · exact meets_pure rfl
    · exact quiet_statement.meets fun _ ↦ (quiet_setLimit _ _).meets fun _ ↦ meets_pure rfl

theorem quiet_reserveAttempt (bucket : Digest) (now : Time) :
    Quiet (reserveAttempt inputs bucket now) :=
  quiet_reserveBudget _ _ _ _

theorem quiet_resetAttempts (bucket : Digest) : Quiet (resetAttempts inputs bucket) :=
  quiet_statement.bind fun _ ↦ quiet_setLimit _ _

theorem quiet_queue (env : Security) (m : Mail) : Quiet (queue inputs env m) := by
  refine fun k ↦ account?_bind (fun _ ↦ Quiet.fail rfl k) fun a _ ↦ ?_
  dsimp only
  split
  · exact Quiet.fail rfl k
  · refine quiet_statement.meets fun _ ↦ quiet_write (fun s s' h ↦ ?_) k
    obtain ⟨mails, -, rfl⟩ := Option.map_eq_some_iff.mp h
    exact ⟨rfl, rfl, rfl⟩

/-- `Challenge` fails when the account has no such challenge. -/
theorem challenge_bind {id} {f : Challenge → Handler β}
    (h : ∀ c account, k.account = some account → k.accounts.challenges.find id = some c →
      c.subject = account.subject → Meets (f c) k P R)
    (hfail : R .tokenExpired k) : Meets (challenge inputs id >>= f) k P R := by
  refine Meets.bind (Q := fun c k' ↦ k' = k ∧ k.accounts.challenges.find id = some c ∧
    ∃ account, k.account = some account ∧ c.subject = account.subject) ?_ ?_
  · refine account?_bind (fun _ ↦ meets_fail fun _ ↦ hfail) fun account haccount ↦ ?_
    refine quiet_statement.meets fun _ ↦ get_bind ?_
    rintro w rfl
    cases hc : (w.store.accounts.challenges.find id).filter
        fun c ↦ c.subject = account.subject with
    | none => exact meets_fail fun _ ↦ hfail
    | some =>
      rw [Option.filter_eq_some_iff] at hc
      exact meets_pure ⟨rfl, hc.1, account, haccount, by simpa using hc.2⟩
  · rintro c k ⟨rfl, hc, account, haccount, hsubject⟩
    exact h c account haccount hc hsubject

theorem latestChallenge_bind {purpose} {f : Option Challenge → Handler β}
    (h : Meets (f (k.account.bind fun account ↦
      k.accounts.latestChallenge account.subject purpose)) k P R) :
    Meets (latestChallenge inputs purpose >>= f) k P R := by
  refine Meets.bind (Q := fun c k' ↦ k' = k ∧ c = k.account.bind fun account ↦
    k.accounts.latestChallenge account.subject purpose) ?_ ?_
  · refine account?_bind (fun hnone ↦ meets_pure ⟨rfl, by rw [hnone]; rfl⟩)
      fun account haccount ↦ ?_
    refine quiet_statement.meets fun _ ↦ get_bind ?_
    rintro w rfl
    exact meets_pure ⟨rfl, by rw [haccount]; rfl⟩
  · rintro c k ⟨rfl, rfl⟩
    exact h

/-- The core with a challenge saved. -/
def Saved (c : Challenge) (k k' : Core) : Prop :=
  (∃ account, k.account = some account ∧ c.subject = account.subject) ∧
    ∃ accounts, k.accounts.upsertChallenge c = some accounts ∧ k' = { k with accounts := accounts }

theorem meets_saveChallenge (c : Challenge) :
    Meets (saveChallenge inputs c) k (fun _ k' ↦ Saved c k k') R := by
  refine account?_bind (fun _ ↦ meets_fail nofun) fun account haccount ↦ ?_
  dsimp only
  split
  · exact meets_fail nofun
  · rename_i hsubject
    refine quiet_statement.meets fun _ ↦ (meets_write (g := fun k ↦
      (k.accounts.upsertChallenge c).map fun accounts ↦ { k with accounts := accounts })
      fun w ↦ ?_).mono (fun _ k' h ↦ ?_) fun _ _ h ↦ h
    · simp only [Option.map_map]
      rfl
    · obtain ⟨accounts, hc, rfl⟩ := Option.map_eq_some_iff.mp h
      exact ⟨⟨account, haccount, not_not.mp hsubject⟩, accounts, hc, rfl⟩

theorem meets_checkSession (record : Record) (now : Time) :
    Meets (checkSession inputs record now) k
      (fun _ k' ↦ k' = k ∧ ∃ account, k.account = some account ∧
        IsOwner account record.subjectID) fun _ k' ↦ k' = k := by
  refine account?_bind (fun _ ↦ meets_fail fun _ ↦ rfl) fun account haccount ↦ ?_
  dsimp only
  split
  · rename_i howner
    refine quiet_statement.meets fun _ ↦ get_bind ?_
    rintro w rfl
    cases w.store.sessions.sessions.find record.id with
    | none => exact meets_fail fun _ ↦ rfl
    | some =>
      dsimp only
      split
      · exact meets_pure ⟨rfl, account, haccount, howner⟩
      · exact meets_fail fun _ ↦ rfl
  · exact meets_fail fun _ ↦ rfl

theorem meets_createSession (tokens : Tokens) (digest : Digest) :
    Meets (createSession inputs tokens digest) k
      (fun _ k' ↦ ∃ sessions, k.sessions.insertSession tokens.record digest = some sessions ∧
        k' = { k with sessions := sessions, issued := some tokens })
      fun _ _ ↦ ∀ account, k.account = some account →
        ¬ (IsOwner account tokens.record.subjectID ∧ account.verified = true) := by
  refine account?_bind (fun hnone ↦ meets_fail fun _ _ h ↦ ?_) fun account haccount ↦ ?_
  · cases hnone.symm.trans h
  dsimp only
  split
  · refine quiet_statement.meets fun _ ↦ (meets_write (g := fun k ↦
      (k.sessions.insertSession tokens.record digest).map fun sessions ↦
        { k with sessions := sessions }) fun w ↦ ?_).bind fun _ k' h ↦ ?_
    · simp only [Option.map_map]
      rfl
    · obtain ⟨sessions, hs, rfl⟩ := Option.map_eq_some_iff.mp h
      intro w hw
      have hcore : { w with issued := some tokens }.core =
          { k with sessions := sessions, issued := some tokens } := by
        simp only [core, Core.mk.injEq] at hw ⊢
        exact ⟨hw.1, hw.2.1, hw.2.2.1, hw.2.2.2.1, trivial⟩
      exact ⟨sessions, hs, hcore⟩
  · rename_i hnot
    refine meets_fail fun _ account' h ↦ ?_
    cases haccount.symm.trans h
    exact hnot

theorem meets_revokeWhere {a} (ha : k.account = some a) (p : SessionRow → Bool)
    (now : Time) (reason : String) :
    Meets (revokeWhere inputs p now reason) k (fun _ k' ↦ k' = { k with
      sessions := k.sessions.revokeWhere
        (fun row ↦ p row && row.record.subjectID = a.subject) now reason }) R := by
  refine account?_bind (fun hnone ↦ ?_) fun a' ha' ↦ ?_
  · cases ha.symm.trans hnone
  cases ha.symm.trans ha'
  refine quiet_statement.meets fun _ ↦ (meets_write (g := fun k ↦ some { k with
    sessions := k.sessions.revokeWhere
      (fun row ↦ p row && row.record.subjectID = a.subject) now reason })
      fun w ↦ rfl).imp fun _ k' h ↦ ?_
  exact (Option.some_inj.mp h).symm

theorem meets_sessions (now : Time) :
    Meets (sessions inputs now) k (fun _ k' ↦ k' = k) fun _ k' ↦ k' = k := by
  exact account?_bind (fun _ ↦ meets_fail fun _ ↦ rfl) fun _ _ ↦
    quiet_statement.meets fun _ ↦ get_bind fun w _ ↦ meets_pure rfl

end Work

end MarketMesh.Auth
