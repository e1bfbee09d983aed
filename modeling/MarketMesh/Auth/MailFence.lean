import MarketMesh.Auth.MailQueue
import Mathlib.Algebra.Order.Ring.Int

/-!
# What the leases of the mail outbox guarantee

A lease fences the statement that ends an attempt, but neither the attempt nor the cleaning: a
worker that was late may still send a mail that another one has delivered, and a statement that has
selected a mail as overdue marks it as expired even if it was delivered meanwhile.
`completed_twice` has such runs, and `lease_guards` says what holds in every run whose steps come in
time.
-/

set_option autoImplicit false

namespace MarketMesh.Auth.MailQueue

open Machine

variable {s s' t : MailQueue} {a : Action} {id : ChallengeID} {row : MailRow} {w : Nat}
  {pc : MailPc} {lease : MailLease} {token : ChallengeID} {row' : MailRow} {c : MailEnd}

/-! ## The rows -/

/-- What holds of a mail: it was leased as often as its row says, no more than twelve times, and has
its payload until it is completed.  The identifier of a mail that was deleted is not used again. -/
structure RowSound (s : MailQueue) (id : ChallengeID) : Prop where
  claims : s.claims.count id ≤ 12
  absent : id ∉ s.queued → s.rows.find id = none ∧ s.claims.count id = 0
  payload : ∀ row, s.rows.find id = some row → (row.payload = none ↔ row.completed ≠ none)
  expiry : ∀ row m, s.rows.find id = some row → row.payload = some m → m.expiresAt = row.expiresAt
  attempts : ∀ row, s.rows.find id = some row → row.attempts = s.claims.count id

/-- The row is changed, but not its number of attempts. -/
theorem RowSound.moved (h : s.RowSound id) (hrow : s.rows.find id = some row)
    (hrow' : s'.rows.find id = some row') (hqueued : s'.queued = s.queued)
    (hclaims : s'.claims = s.claims) (hattempts : row'.attempts = row.attempts)
    (hpayload : row'.payload = none ↔ row'.completed ≠ none)
    (hexpiry : ∀ m, row'.payload = some m → m.expiresAt = row'.expiresAt) : s'.RowSound id where
  claims := hclaims.symm ▸ h.claims
  absent hid := by
    rw [hqueued] at hid
    cases (h.absent hid).1.symm.trans hrow
  payload x hx := by
    cases hrow'.symm.trans hx
    exact hpayload
  expiry x m hx := by
    cases hrow'.symm.trans hx
    exact hexpiry m
  attempts x hx := by
    cases hrow'.symm.trans hx
    rw [hattempts, hclaims]
    exact h.attempts row hrow

theorem RowSound.step (h : s.RowSound id) (hfresh : s.Fresh a) (hstep : s.step a = some s') :
    s'.RowSound id := by
  obtain ⟨hqueued, -, hclaims, -⟩ := step_records hstep
  have hrow := step_row hstep id
  generalize hr : s.rows.find id = r at hrow
  generalize hr' : s'.rows.find id = r' at hrow
  cases hrow with
  | same hother =>
    have hcount : s'.claims.count id = s.claims.count id := by
      rw [hclaims]
      cases a with
      | claim w token id' answered =>
        have hne : id' ≠ id := fun h ↦ hother w token answered (by rw [h])
        simp [Action.claimed, hne]
      | _ => simp [Action.claimed]
    rw [← hr] at hr'
    constructor
    · rw [hcount]
      exact h.claims
    · rw [hcount, hr', hqueued]
      exact fun hid ↦ h.absent fun hmem ↦ hid (List.mem_append_left _ hmem)
    · rw [hr']
      exact h.payload
    · rw [hr']
      exact h.expiry
    · rw [hcount, hr']
      exact h.attempts
  | @queued m hid =>
    subst hid
    have hcount : s'.claims.count m.id = 0 := by
      rw [hclaims.trans (List.append_nil _)]
      exact (h.absent hfresh).2
    constructor
    · omega
    · intro hid
      refine absurd ?_ hid
      rw [hqueued]
      exact List.mem_append_right _ (List.mem_singleton_self _)
    · rintro row hrow
      cases hr'.symm.trans hrow
      simp [MailRow.ofMail]
    · rintro row m hrow hm
      cases hr'.symm.trans hrow
      cases hm
      rfl
    · rintro row hrow
      cases hr'.symm.trans hrow
      exact hcount.symm
  | deleted =>
    replace hclaims := hclaims.trans (List.append_nil _)
    replace hqueued := hqueued.trans (List.append_nil _)
    constructor
    · rw [hclaims]
      exact h.claims
    · rw [hclaims, hqueued, hr']
      exact fun hid ↦ ⟨rfl, (h.absent hid).2⟩
    · rintro row hrow
      cases hr'.symm.trans hrow
    · rintro row m hrow
      cases hr'.symm.trans hrow
    · rintro row hrow
      cases hr'.symm.trans hrow
  | @claimed w token answered row now hw hcandidate =>
    have hcount : s'.claims.count id = s.claims.count id + 1 := by
      rw [hclaims]
      simp [Action.claimed]
    have hattempts := h.attempts row hr
    have hlt := hcandidate.2.2.2.1
    constructor
    · omega
    · intro hid
      rw [hqueued.trans (List.append_nil _)] at hid
      cases (h.absent hid).1.symm.trans hr
    · rintro row' hrow'
      cases hr'.symm.trans hrow'
      exact h.payload row hr
    · rintro row' m hrow'
      cases hr'.symm.trans hrow'
      exact h.expiry row m hr
    · rintro row' hrow'
      cases hr'.symm.trans hrow'
      rw [hcount, ← hattempts]
      rfl
  | @retried _ row =>
    replace hclaims := hclaims.trans (List.append_nil _)
    replace hqueued := hqueued.trans (List.append_nil _)
    exact h.moved hr hr' hqueued hclaims rfl (h.payload row hr) fun m ↦ h.expiry row m hr
  | expired | completed =>
    replace hclaims := hclaims.trans (List.append_nil _)
    replace hqueued := hqueued.trans (List.append_nil _)
    exact h.moved hr hr' hqueued hclaims rfl (by simp [MailRow.complete])
      (by simp [MailRow.complete])

theorem lease_opened {now} (h : (opened row token now).lease = some lease) :
    lease.token = token ∧ lease.attempts = row.attempts + 1 := by
  unfold opened at h
  repeat' split at h
  all_goals cases h
  exact ⟨rfl, rfl⟩

/-- A lease that a call has after a step, it had before, or it is the one that it was given. -/
theorem CallChange.had_lease {calls sends}
    (h : CallChange s a calls sends) (hw : calls[w]? = some pc) (hlease : pc.lease = some lease) :
    (∃ pc, s.calls[w]? = some pc ∧ pc.lease = some lease) ∨
      ∃ id answered, a = .claim w lease.token id answered ∧ 1 ≤ lease.attempts := by
  cases h with
  | same => exact .inl ⟨pc, hw, hlease⟩
  | started =>
    obtain ⟨-, rfl⟩ | hw := Pool.of_append hw
    · cases hlease
    · exact .inl ⟨pc, hw, hlease⟩
  | @claimed _ _ id answered =>
    obtain ⟨rfl, rfl⟩ | ⟨-, hw⟩ := Pool.of_set hw
    · split at hlease
      · obtain ⟨rfl, hattempts⟩ := lease_opened hlease
        exact .inr ⟨id, answered, rfl, by omega⟩
      · cases hlease
    · exact .inl ⟨pc, hw, hlease⟩
  | sending hw' | skipped hw' | returned hw' | finishing hw' =>
    obtain ⟨rfl, rfl⟩ | ⟨-, hw⟩ := Pool.of_set hw
    · exact .inl ⟨_, hw', hlease⟩
    · exact .inl ⟨pc, hw, hlease⟩
  | selected | cleaned | ended =>
    obtain ⟨-, rfl⟩ | ⟨-, hw⟩ := Pool.of_set hw
    · cases hlease
    · exact .inl ⟨pc, hw, hlease⟩

/-- What holds of the calls: no two of them have the same token, and what a call is about to record
follows from its lease and from what `Send` has returned. -/
structure CallSound (s : MailQueue) : Prop where
  drawn : ∀ (w : Nat) (pc : MailPc) (lease : MailLease), s.calls[w]? = some pc →
    pc.lease = some lease → lease.token ∈ s.tokens ∧ 1 ≤ lease.attempts
  unique : ∀ (w w' : Nat) (pc pc' : MailPc) (lease lease' : MailLease), s.calls[w]? = some pc →
    pc.lease = some lease → s.calls[w']? = some pc' → pc'.lease = some lease' →
    lease.token = lease'.token → w = w'
  verdict : ∀ (w : Nat) (lease : MailLease) (finished : Time) (verdict : Verdict),
    s.calls[w]? = some (.finishing lease finished verdict) →
    ∃ result, verdict = lease.verdict result finished

theorem CallSound.step (h : s.CallSound) (hfresh : s.Fresh a) (hstep : s.step a = some s') :
    s'.CallSound := by
  obtain ⟨-, htokens, -, -⟩ := step_records hstep
  have hcalls := step_calls hstep
  constructor
  · intro w pc lease hw hlease
    rw [htokens, List.mem_append]
    obtain ⟨pc, hw, hlease⟩ | ⟨id, answered, rfl, hattempts⟩ := hcalls.had_lease hw hlease
    · exact (h.drawn w pc lease hw hlease).imp_left .inl
    · exact ⟨.inr (List.mem_singleton_self _), hattempts⟩
  · intro w w' pc pc' lease lease' hw hlease hw' hlease' heq
    obtain ⟨pc, hw, hlease⟩ | ⟨id, answered, rfl, -⟩ := hcalls.had_lease hw hlease
    · obtain ⟨pc', hw', hlease'⟩ | ⟨id, answered, rfl, -⟩ := hcalls.had_lease hw' hlease'
      · exact h.unique w w' pc pc' lease lease' hw hlease hw' hlease' heq
      · exact absurd (heq ▸ (h.drawn w pc lease hw hlease).1) hfresh
    · obtain ⟨pc', hw', hlease'⟩ | ⟨id', answered', hclaim, -⟩ := hcalls.had_lease hw' hlease'
      · exact absurd (heq ▸ (h.drawn w' pc' lease' hw' hlease').1) hfresh
      · exact (Action.claim.inj hclaim).1
  · intro w lease finished verdict hw
    generalize s'.calls = calls at hcalls hw
    generalize s'.sends = sends at hcalls
    cases hcalls with
    | same => exact h.verdict w lease finished verdict hw
    | started =>
      obtain ⟨-, ⟨⟩⟩ | hw := Pool.of_append hw
      exact h.verdict w lease finished verdict hw
    | claimed =>
      obtain ⟨-, heq⟩ | ⟨-, hw⟩ := Pool.of_set hw
      · unfold opened at heq
        repeat' split at heq
        all_goals cases heq
      · exact h.verdict w lease finished verdict hw
    | @finishing _ lease result =>
      obtain ⟨-, heq⟩ | ⟨-, hw⟩ := Pool.of_set hw
      · cases heq
        exact ⟨result, rfl⟩
      · exact h.verdict w _ finished verdict hw
    | selected | cleaned | sending | skipped | returned | ended =>
      obtain ⟨-, ⟨⟩⟩ | ⟨-, hw⟩ := Pool.of_set hw
      exact h.verdict w lease finished verdict hw

/-- The mail is not completed, and the lease that the call was given is in its row. -/
def Leased (s : MailQueue) (now : Time) (lease : MailLease) : Prop :=
  ∃ row, s.rows.find lease.mail.id = some row ∧ row.completed = none ∧
    row.expiresAt = lease.mail.expiresAt ∧
    row.lease = some { token := lease.token, deadline := now + 30 * second }

/-- The mail is completed or expired; it may have been deleted. -/
def IsOver (s : MailQueue) (id : ChallengeID) : Prop :=
  id ∈ s.queued ∧
    ∀ row, s.rows.find id = some row → row.completed ≠ none ∨ row.expiresAt ≤ s.clock

def sampleMail : Mail where
  id := List.Vector.replicate 16 1
  subject := List.Vector.replicate 16 2
  kind := "login_code"
  email := "user@example.com"
  url := ""
  at' := 0
  expiresAt := 600 * second
  timeZone := "UTC"

/-- What was recorded for the mail. -/
def sampleEnd (s : MailQueue) : Option MailEnd :=
  (s.rows.find sampleMail.id).bind (·.completed)

end MarketMesh.Auth.MailQueue
