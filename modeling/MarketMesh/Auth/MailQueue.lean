import MarketMesh.Auth.Operations
import MarketMesh.Lib.Lease
import MarketMesh.Lib.Pool

/-!
# The mail outbox

Mails are queued in a table, and any number of workers deliver them.  A call of `Once` reads the
clock, cleans up, leases a mail and sends it, reads the clock once more and finishes; a statement
may run long after the time that it is given was read.  `ClaimMail` and `FinishMail` test a row when
they have locked it, but the two statements that clean up select rows first and change them in a
second step, without testing them again.  Each call is an entry of `calls`; a worker that crashes
makes no more steps, and one that gets no answer to a statement ends its call.
-/

set_option autoImplicit false

namespace MarketMesh.Auth

inductive MailOutcome where
  | delivered
  | expired
  | rejected
  | exhausted
  deriving DecidableEq

/-- `completed_at` and `outcome`, which are set together. -/
structure MailEnd where
  time : Time
  outcome : MailOutcome
  deriving DecidableEq

/-- A row of `auth.mail_outbox`. -/
structure MailRow where
  id : ChallengeID
  /-- The sealed mail; it opens under the identifier of the row only. -/
  payload : Option Mail
  createdAt : Time
  expiresAt : Time
  availableAt : Time
  attempts : Nat := 0
  lease : Option (Lease ChallengeID Time) := none
  completed : Option MailEnd := none

namespace MailRow

/-- The row that `Queue` inserts. -/
def ofMail (m : Mail) : MailRow where
  id := m.id
  payload := some m
  createdAt := m.at'
  expiresAt := m.expiresAt
  availableAt := m.at'

/-- `SET payload=NULL, completed_at, outcome, lease_token=NULL, lease_until=NULL`. -/
def complete (now : Time) (outcome : MailOutcome) (row : MailRow) : MailRow :=
  { row with payload := none, lease := none, completed := some { time := now, outcome := outcome } }

/-- `SET available_at, lease_token=NULL, lease_until=NULL`. -/
def retry (next : Time) (row : MailRow) : MailRow :=
  { row with availableAt := next, lease := none }

/-- `SET lease_token, lease_until, attempts=attempts+1`. -/
def claim (token : ChallengeID) (now : Time) (row : MailRow) : MailRow :=
  { row with
    lease := some { token := token, deadline := now + 30 * second }
    attempts := row.attempts + 1 }

theorem id_complete (now : Time) (outcome : MailOutcome) (row : MailRow) :
    (row.complete now outcome).id = row.id := rfl

theorem id_retry (next : Time) (row : MailRow) : (row.retry next).id = row.id := rfl

theorem id_claim (token : ChallengeID) (now : Time) (row : MailRow) :
    (row.claim token now).id = row.id := rfl

/-- What is deleted: a mail that was completed more than seven days ago. -/
def IsOld (row : MailRow) (now : Time) : Prop :=
  ∃ c, row.completed = some c ∧ c.time < now - 7 * 24 * hour

/-- What expires: a mail that is not leased. -/
def IsOverdue (row : MailRow) (now : Time) : Prop :=
  row.completed = none ∧ row.expiresAt ≤ now ∧ Lease.Free row.lease now
  deriving Decidable

/-- What `ClaimMail` selects. -/
def IsCandidate (row : MailRow) (now : Time) : Prop :=
  row.completed = none ∧ row.availableAt ≤ now ∧ now < row.expiresAt ∧ row.attempts < 12 ∧
    Lease.Free row.lease now
  deriving Decidable

/-- What `FinishMail` updates. -/
def IsHeld (row : MailRow) (token : ChallengeID) (now : Time) : Prop :=
  Lease.Held row.lease token now ∧ row.completed = none
  deriving Decidable

instance (row : MailRow) (now : Time) : Decidable (row.IsOld now) :=
  match h : row.completed with
  | none => isFalse fun ⟨_, hc, _⟩ ↦ by rw [h] at hc; cases hc
  | some c => decidable_of_iff (c.time < now - 7 * 24 * hour)
      ⟨fun hlt ↦ ⟨c, h, hlt⟩, fun ⟨_, hc, hlt⟩ ↦ by rw [h] at hc; cases hc; exact hlt⟩

end MailRow

structure MailLease where
  mail : Mail
  token : ChallengeID
  attempts : Nat

/-- What `Send` returns; `Permanent` decides of an error. -/
inductive SendResult where
  | ok
  | failed (permanent : Bool)
  deriving DecidableEq

/-- The outcome that `Once` records. -/
inductive Verdict where
  | done (outcome : MailOutcome)
  | retry (next : Time)
  deriving DecidableEq

/-- The outcome of a call that has sent its mail, or that has not sent it because it had expired. -/
def MailLease.verdict (lease : MailLease) (result : Option SendResult) (finished : Time) :
    Verdict :=
  match result with
  | none => .done .expired
  | some .ok => .done .delivered
  | some (.failed permanent) =>
    if permanent then .done .rejected
    else if 12 ≤ lease.attempts then .done .exhausted
    else if finished < lease.mail.expiresAt then
      .retry (finished + second * 2 ^ min lease.attempts 8)
    else .done .expired

/-- The statements that clean up. -/
inductive Cleanup where
  | purge
  | expire
  deriving DecidableEq

/-- What the sub-select of a statement selects. -/
def Cleanup.Selects (row : MailRow) (now : Time) : Cleanup → Prop
  | .purge => row.IsOld now
  | .expire => row.IsOverdue now

instance (row : MailRow) (now : Time) : ∀ c : Cleanup, Decidable (c.Selects row now)
  | .purge => inferInstanceAs (Decidable (row.IsOld now))
  | .expire => inferInstanceAs (Decidable (row.IsOverdue now))

/-- Where a call of `Once` is. -/
inductive MailPc where
  /-- It runs the statements of `ClaimMail`. -/
  | claiming (now : Time)
  /-- The sub-select of a statement has selected these rows. -/
  | cleaning (now : Time) (c : Cleanup) (ids : List ChallengeID)
  | claimed (now : Time) (lease : MailLease)
  | sending (lease : MailLease)
  /-- `Send` has returned, or was not called. -/
  | returned (lease : MailLease) (result : Option SendResult)
  /-- It has read the clock again and calls `FinishMail`. -/
  | finishing (lease : MailLease) (finished : Time) (verdict : Verdict)
  | ended

/-- The lease that a call has. -/
def MailPc.lease : MailPc → Option MailLease
  | .claimed _ lease | .sending lease | .returned lease _ | .finishing lease _ _ => some lease
  | .claiming _ | .cleaning .. | .ended => none

/-- The time that a call was given and still works with. -/
def MailPc.now : MailPc → Option Time
  | .claiming now | .cleaning now _ _ | .claimed now _ => some now
  | .sending _ | .returned .. | .finishing .. | .ended => none

/-- The outbox and the workers.  `queued`, `tokens`, `claims` and `sends` record the mails that were
queued, the tokens that were drawn, and the mails that were leased and sent. -/
structure MailQueue where
  clock : Time := 0
  rows : Table MailRow.id := ∅
  calls : List MailPc := []
  queued : List ChallengeID := []
  tokens : List ChallengeID := []
  claims : List ChallengeID := []
  sends : List ChallengeID := []

namespace MailQueue

inductive Action where
  | tick (time : Time)
  /-- A transaction that queues a mail is committed. -/
  | queue (m : Mail)
  | start
  | select (w : Nat) (c : Cleanup) (ids : List ChallengeID)
  /-- The rows that were selected are changed, whatever has become of them. -/
  | clean (w : Nat)
  /-- The last statement of `ClaimMail`; `answered` says that the call gets the mail. -/
  | claim (w : Nat) (token : ChallengeID) (id : ChallengeID) (answered : Bool)
  | send (w : Nat)
  /-- `Send` returns. -/
  | sent (w : Nat) (result : SendResult)
  | finish (w : Nat)
  /-- The statement of `FinishMail`. -/
  | record (w : Nat)

def setCall (s : MailQueue) (w : Nat) (pc : MailPc) : MailQueue :=
  { s with calls := s.calls.set w pc }

/-- Rows that a sub-select selects, and no more than a hundred. -/
def Selects (s : MailQueue) (c : Cleanup) (now : Time) (ids : List ChallengeID) : Prop :=
  ids.length ≤ 100 ∧ ids.all fun id ↦ (s.rows.find id).any fun row ↦ c.Selects row now
  deriving Decidable

/-- The call after it was given the row that it has leased. -/
def opened (row : MailRow) (token : ChallengeID) (now : Time) : MailPc :=
  match row.payload with
  | some m =>
    if m.id = row.id then
      .claimed now { mail := m, token := token, attempts := row.attempts + 1 }
    else .ended
  | none => .ended

def step (s : MailQueue) : Action → Option MailQueue
  | .tick time => if s.clock ≤ time then some { s with clock := time } else none
  | .queue m =>
    if m.at' < m.expiresAt then
      (s.rows.insert (.ofMail m)).map fun rows ↦
        { s with rows := rows, queued := s.queued ++ [m.id] }
    else none
  | .start => some { s with calls := s.calls ++ [.claiming s.clock] }
  | .select w c ids =>
    match s.calls[w]? with
    | some (.claiming now) =>
      if s.Selects c now ids then some (s.setCall w (.cleaning now c ids)) else none
    | _ => none
  | .clean w =>
    match s.calls[w]? with
    | some (.cleaning now c ids) =>
      let rows :=
        match c with
        | .purge => s.rows.delete (·.id ∈ ids)
        | .expire =>
          s.rows.update (·.id ∈ ids) (.complete now .expired) (MailRow.id_complete now _)
      some { s.setCall w (.claiming now) with rows := rows }
    | _ => none
  | .claim w token id answered =>
    match s.calls[w]? with
    | some (.claiming now) =>
      match s.rows.find id with
      | some row =>
        if row.IsCandidate now then
          some { s with
            rows := s.rows.update (·.id = id) (.claim token now) (MailRow.id_claim token now)
            calls := s.calls.set w (if answered then opened row token now else .ended)
            tokens := s.tokens ++ [token]
            claims := s.claims ++ [id] }
        else none
      | none => none
    | _ => none
  | .send w =>
    match s.calls[w]? with
    | some (.claimed now lease) =>
      if now < lease.mail.expiresAt then
        some { s.setCall w (.sending lease) with sends := s.sends ++ [lease.mail.id] }
      else some (s.setCall w (.returned lease none))
    | _ => none
  | .sent w result =>
    match s.calls[w]? with
    | some (.sending lease) => some (s.setCall w (.returned lease (some result)))
    | _ => none
  | .finish w =>
    match s.calls[w]? with
    | some (.returned lease result) =>
      some (s.setCall w (.finishing lease s.clock (lease.verdict result s.clock)))
    | _ => none
  | .record w =>
    match s.calls[w]? with
    | some (.finishing lease finished verdict) =>
      let held (row : MailRow) : Bool := row.id = lease.mail.id ∧ row.IsHeld lease.token finished
      let rows :=
        match verdict with
        | .retry next => s.rows.update held (.retry next) (MailRow.id_retry next)
        | .done outcome =>
          s.rows.update held (.complete finished outcome) (MailRow.id_complete finished outcome)
      some { s.setCall w .ended with rows := rows }
    | _ => none

/-- The identifiers of mails and the tokens are drawn at random. -/
def Fresh (s : MailQueue) : Action → Prop
  | .queue m => m.id ∉ s.queued
  | .claim _ token _ _ => token ∉ s.tokens
  | _ => True

instance (s : MailQueue) : ∀ a, Decidable (s.Fresh a)
  | .queue m => inferInstanceAs (Decidable (m.id ∉ s.queued))
  | .claim _ token _ _ => inferInstanceAs (Decidable (token ∉ s.tokens))
  | .tick _ | .start | .select .. | .clean _ | .send _ | .sent .. | .finish _ | .record _ =>
    .isTrue trivial

/-- The steps that come in time: the rows that a sub-select has selected would be selected again
when they are changed, a mail has not expired when it is leased or sent, and a lease has not ended
when its mail is sent or the outcome is recorded. -/
def InTime (s : MailQueue) : Action → Bool
  | .clean w =>
    match s.calls[w]? with
    | some (.cleaning now c ids) => ids.all fun id ↦ (s.rows.find id).all fun row ↦
        c.Selects row now
    | _ => true
  | .claim _ _ id _ => (s.rows.find id).all fun row ↦ s.clock < row.expiresAt
  | .send w =>
    match s.calls[w]? with
    | some (.claimed now lease) => s.clock < now + 30 * second ∧ s.clock < lease.mail.expiresAt
    | _ => true
  | .record w =>
    match s.calls[w]? with
    | some (.finishing lease finished _) => (s.rows.find lease.mail.id).all fun row ↦
        row.IsHeld lease.token finished → row.IsHeld lease.token s.clock
    | _ => true
  | _ => true

def Timely (s : MailQueue) (a : Action) : Prop :=
  s.Fresh a ∧ s.InTime a
  deriving Decidable

variable {s s' : MailQueue} {a : Action} {id : ChallengeID} {row : MailRow}

/-! ## What a step does to a mail -/

/-- **What becomes of the row of a mail in a step.** -/
inductive RowChange (s : MailQueue) (id : ChallengeID) :
    Action → Option MailRow → Option MailRow → Prop
  | same {a : Action} {row : Option MailRow}
      (h : ∀ w token answered, a ≠ .claim w token id answered) : RowChange s id a row row
  | queued {m} (h : m.id = id) : RowChange s id (.queue m) none (some (.ofMail m))
  | deleted {w ids row now} (hw : s.calls[w]? = some (.cleaning now .purge ids)) (h : id ∈ ids) :
      RowChange s id (.clean w) (some row) none
  | expired {w ids row now} (hw : s.calls[w]? = some (.cleaning now .expire ids)) (h : id ∈ ids) :
      RowChange s id (.clean w) (some row) (some (row.complete now .expired))
  | claimed {w token answered row now}
      (hw : s.calls[w]? = some (.claiming now)) (h : row.IsCandidate now) :
      RowChange s id (.claim w token id answered) (some row) (some (row.claim token now))
  | retried {w row lease finished next}
      (hw : s.calls[w]? = some (.finishing lease finished (.retry next)))
      (hid : lease.mail.id = id) (h : row.IsHeld lease.token finished) :
      RowChange s id (.record w) (some row) (some (row.retry next))
  | completed {w row lease finished outcome}
      (hw : s.calls[w]? = some (.finishing lease finished (.done outcome)))
      (hid : lease.mail.id = id) (h : row.IsHeld lease.token finished) :
      RowChange s id (.record w) (some row) (some (row.complete finished outcome))

theorem step_row (h : s.step a = some s') (id : ChallengeID) :
    RowChange s id a (s.rows.find id) (s'.rows.find id) := by
  cases a with rw [step] at h
  | tick | sent | finish =>
    split at h <;> cases h
    exact .same (by simp)
  | queue m =>
    split at h
    · obtain ⟨rows, hinsert, rfl⟩ := Option.map_eq_some_iff.mp h
      dsimp only
      rw [Table.find_insert hinsert]
      by_cases hid : m.id = id
      · rw [if_pos (show (MailRow.ofMail m).id = id from hid), ← hid,
          show s.rows.find m.id = none from (Table.insert_eq_some hinsert).1]
        exact .queued rfl
      · rw [if_neg (show (MailRow.ofMail m).id ≠ id from hid)]
        exact .same (by simp)
    · cases h
  | start =>
    cases h
    exact .same (by simp)
  | select =>
    split at h
    · split at h <;> cases h
      exact .same (by simp)
    · cases h
  | clean w =>
    split at h <;> cases h
    rename_i now c ids hw
    cases c with dsimp only
    | purge =>
      rw [s.rows.find_delete (fun id ↦ decide (id ∈ ids)) id]
      by_cases hid : id ∈ ids
      · rw [if_pos (decide_eq_true hid)]
        cases s.rows.find id with
        | none => exact .same (by simp)
        | some row => exact .deleted hw hid
      · rw [if_neg (by simpa using hid)]
        exact .same (by simp)
    | expire =>
      generalize hfind : (Table.update ..).find id = o
      obtain ⟨row, hrow, rfl, hid, rfl⟩ | ⟨rfl, -⟩ := Table.of_find_update hfind
      · rw [hrow]
        exact .expired hw (of_decide_eq_true hid)
      · exact .same (by simp)
  | claim w token id' answered =>
    split at h
    · rename_i now hw
      split at h
      · rename_i row hrow
        split at h <;> cases h
        rename_i hcandidate
        dsimp only
        generalize hfind : (Table.update ..).find id = o
        obtain ⟨row', hrow', rfl, hid, rfl⟩ | ⟨rfl, hother⟩ := Table.of_find_update hfind
        · cases of_decide_eq_true hid
          cases hrow.symm.trans hrow'
          rw [hrow]
          exact .claimed hw hcandidate
        · refine .same fun _ _ _ h ↦ ?_
          cases h
          exact of_decide_eq_false (hother row hrow) (Table.key_eq_of_find hrow)
      · cases h
    · cases h
  | send =>
    split at h
    · split at h <;> cases h <;> exact .same (by simp)
    · cases h
  | record w =>
    split at h <;> cases h
    rename_i lease finished verdict hw
    cases verdict with dsimp only
    | retry =>
      generalize hfind : (Table.update ..).find id = o
      obtain ⟨row, hrow, rfl, hp, rfl⟩ | ⟨rfl, -⟩ := Table.of_find_update hfind
      · obtain ⟨hid, hheld⟩ := of_decide_eq_true hp
        rw [hrow]
        exact .retried hw hid.symm hheld
      · exact .same (by simp)
    | done =>
      generalize hfind : (Table.update ..).find id = o
      obtain ⟨row, hrow, rfl, hp, rfl⟩ | ⟨rfl, -⟩ := Table.of_find_update hfind
      · obtain ⟨hid, hheld⟩ := of_decide_eq_true hp
        rw [hrow]
        exact .completed hw hid.symm hheld
      · exact .same (by simp)

/-! ## What a step does to a call -/

/-- **What becomes of the calls, and of the record of the mails sent, in a step.** -/
inductive CallChange (s : MailQueue) : Action → List MailPc → List ChallengeID → Prop
  | same {a : Action} : CallChange s a s.calls s.sends
  | started : CallChange s .start (s.calls ++ [.claiming s.clock]) s.sends
  | selected {w c ids now} (hw : s.calls[w]? = some (.claiming now)) :
      CallChange s (.select w c ids) (s.calls.set w (.cleaning now c ids)) s.sends
  | cleaned {w c ids now} (hw : s.calls[w]? = some (.cleaning now c ids)) :
      CallChange s (.clean w) (s.calls.set w (.claiming now)) s.sends
  | claimed {w token id answered now row}
      (hw : s.calls[w]? = some (.claiming now)) (hrow : s.rows.find id = some row)
      (h : row.IsCandidate now) :
      CallChange s (.claim w token id answered)
        (s.calls.set w (if answered then opened row token now else .ended)) s.sends
  | sending {w now lease} (hw : s.calls[w]? = some (.claimed now lease))
      (h : now < lease.mail.expiresAt) :
      CallChange s (.send w) (s.calls.set w (.sending lease)) (s.sends ++ [lease.mail.id])
  | skipped {w now lease} (hw : s.calls[w]? = some (.claimed now lease))
      (h : ¬ now < lease.mail.expiresAt) :
      CallChange s (.send w) (s.calls.set w (.returned lease none)) s.sends
  | returned {w lease result} (hw : s.calls[w]? = some (.sending lease)) :
      CallChange s (.sent w result) (s.calls.set w (.returned lease (some result))) s.sends
  | finishing {w lease result} (hw : s.calls[w]? = some (.returned lease result)) :
      CallChange s (.finish w)
        (s.calls.set w (.finishing lease s.clock (lease.verdict result s.clock))) s.sends
  | ended {w lease finished verdict} (hw : s.calls[w]? = some (.finishing lease finished verdict)) :
      CallChange s (.record w) (s.calls.set w .ended) s.sends

theorem step_calls (h : s.step a = some s') : CallChange s a s'.calls s'.sends := by
  cases a with rw [step] at h
  | tick =>
    split at h <;> cases h
    exact .same
  | queue =>
    split at h
    · obtain ⟨rows, -, rfl⟩ := Option.map_eq_some_iff.mp h
      exact .same
    · cases h
  | start =>
    cases h
    exact .started
  | select =>
    split at h
    · rename_i hw
      split at h <;> cases h
      exact .selected hw
    · cases h
  | clean =>
    split at h <;> cases h
    rename_i hw
    exact .cleaned hw
  | claim w token id answered =>
    split at h
    · rename_i now hw
      split at h
      · rename_i row hrow
        split at h <;> cases h
        rename_i hcandidate
        exact .claimed hw hrow hcandidate
      · cases h
    · cases h
  | send w =>
    split at h
    · rename_i now lease hw
      split at h
      · rename_i hlt
        cases h
        exact .sending hw hlt
      · rename_i hlt
        cases h
        exact .skipped hw hlt
    · cases h
  | sent w result =>
    split at h <;> cases h
    rename_i lease hw
    exact .returned hw
  | finish w =>
    split at h <;> cases h
    rename_i lease result hw
    exact .finishing hw
  | record w =>
    split at h <;> cases h
    rename_i lease finished verdict hw
    exact .ended hw

def Action.queued : Action → List ChallengeID
  | .queue m => [m.id]
  | _ => []

def Action.drawn : Action → List ChallengeID
  | .claim _ token _ _ => [token]
  | _ => []

def Action.claimed : Action → List ChallengeID
  | .claim _ _ id _ => [id]
  | _ => []

/-- What a step adds to the records of the run; the clock does not go back. -/
theorem step_records (h : s.step a = some s') :
    s'.queued = s.queued ++ a.queued ∧ s'.tokens = s.tokens ++ a.drawn ∧
      s'.claims = s.claims ++ a.claimed ∧ s.clock ≤ s'.clock := by
  cases a with
  | queue =>
    rw [step] at h
    split at h
    · obtain ⟨rows, -, rfl⟩ := Option.map_eq_some_iff.mp h
      simp [Action.queued, Action.drawn, Action.claimed]
    · cases h
  | claim =>
    rw [step] at h
    split at h
    · split at h
      · split at h <;> cases h
        simp [Action.queued, Action.drawn, Action.claimed]
      · cases h
    · cases h
  | tick | start | select | clean | send | sent | finish | record =>
    simp only [step] at h
    repeat' split at h
    all_goals cases h <;> simp [setCall, Action.queued, Action.drawn, Action.claimed, *]

end MailQueue

end MarketMesh.Auth
