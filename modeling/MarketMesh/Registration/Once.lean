import MarketMesh.Registration.Delivery

/-!
# A registration reaches the profile once

The outbox marks a row only for the worker that has published it and holds the lease; the inbox
accepts an event once and creates the profile in the same statement; and a consumer acknowledges
what was committed.  `registration_once` says so of every run.
-/

set_option autoImplicit false

namespace MarketMesh.Registration

open Auth Machine

/-! ## The statement of `Apply` -/

namespace UserStore

variable {u u' : UserStore} {e : Event} {hash : Digest} {outcome : Applied} {subject : SubjectID}
  {p : Profile}

theorem find_project_self (u : UserStore) (subject : SubjectID) :
    (u.project subject).profiles.find subject ≠ none := by
  rw [project, Table.find_insert_getD, if_pos rfl]
  nofun

/-- A profile that is there stays as it is. -/
theorem find_project (h : u.profiles.find subject = some p) (other : SubjectID) :
    (u.project other).profiles.find subject = some p := by
  rw [project, Table.find_insert_getD, h]
  split <;> rfl

/-- Nothing is inserted for a subject that has a profile. -/
theorem profiles_project (h : u.profiles.find subject = some p) :
    (u.project subject).profiles = u.profiles := by
  rw [project]
  cases hinsert : u.profiles.insert { subject := subject } with
  | none => rfl
  | some => cases (Table.insert_eq_some hinsert).1.symm.trans h

/-- **What a committed `Apply` does.**  It enters the event in the inbox or finds it there, and
creates the profile. -/
theorem apply_eq_some (h : u.apply e hash = some (outcome, u')) :
    ∃ inbox, u' = project { u with inbox := inbox } e.subject ∧
      (outcome = .applied ∧
        u.inbox.insert { eventID := e.eventID, subject := e.subject, payloadHash := hash } =
          some inbox ∨
      outcome = .duplicate ∧ inbox = u.inbox ∧
        ∃ row, u.inbox.find e.eventID = some row ∧ row.subject = e.subject ∧
          row.payloadHash = hash) := by
  unfold apply at h
  dsimp only at h
  split at h
  · rename_i inbox hinsert
    cases h
    exact ⟨inbox, rfl, .inl ⟨rfl, hinsert⟩⟩
  · split at h <;> cases h
    rename_i hrow
    obtain ⟨row, hrow, hsame⟩ := (Option.any_eq_true _ _).mp hrow
    exact ⟨u.inbox, rfl, .inr ⟨rfl, rfl, row, hrow, of_decide_eq_true hsame⟩⟩

/-- An event is not accepted if another one with its identifier was. -/
theorem apply_eq_none {row} (hrow : u.inbox.find e.eventID = some row)
    (h : row.payloadHash ≠ hash) : u.apply e hash = none := by
  cases happly : u.apply e hash with
  | none => rfl
  | some =>
    obtain ⟨inbox, -, ⟨-, hinsert⟩ | ⟨-, -, row', hrow', -, hhash⟩⟩ := apply_eq_some happly
    · cases (Table.insert_eq_some hinsert).1.symm.trans hrow
    · cases hrow.symm.trans hrow'
      exact absurd hhash h

end UserStore

namespace Delivery

variable {env : Env} {s s' t : Delivery} {a : Action} {id : ChallengeID} {row row' : OutboxRow}
  {w c : Nat} {r : Record} {e : Event} {m : Msg}

/-! ## The outbox -/

/-- **What becomes of a row of the outbox in a step.** -/
inductive RowChange (s : Delivery) (id : ChallengeID) :
    Action → Option OutboxRow → Option OutboxRow → Prop
  | same {a : Action} {row : Option OutboxRow} : RowChange s id a row row
  | enqueued {e : Event} {row : OutboxRow} : RowChange s id (.enqueue e) none (some row)
  | claimed {w token answered lease row} :
      RowChange s id (.claim w token id answered) (some row) (some (row.claim token lease s.clock))
  | marked {w worker r row}
      (hw : s.workers[w]? = some worker) (hpc : worker.pc = .published r) (hid : r.id = id)
      (h : row.IsHeld r.leaseToken s.clock) :
      RowChange s id (.markPublished w) (some row) (some (row.markPublished s.clock))
  | retried {w delay row} :
      RowChange s id (.retry w) (some row) (some (row.retry delay s.clock))

/-- A statement that updates the row that a worker holds. -/
theorem find_updateHeld (s : Delivery) (r : Record) {f : OutboxRow → OutboxRow}
    (hf : ∀ row, (f row).eventID = row.eventID) (id : ChallengeID) :
    (s.updateHeld r f hf).find id = s.outbox.find id ∨
      ∃ row, s.outbox.find id = some row ∧ r.id = id ∧ row.IsHeld r.leaseToken s.clock ∧
        (s.updateHeld r f hf).find id = some (f row) := by
  obtain ⟨row, hrow, hkey, hp, hfind⟩ | ⟨hsame, -⟩ :=
    Table.of_find_update (rfl : (s.updateHeld r f hf).find id = _)
  · obtain ⟨hid, hheld⟩ := of_decide_eq_true hp
    exact .inr ⟨row, hrow, hid.symm.trans hkey, hheld, hfind⟩
  · exact .inl hsame

theorem step_row (h : s.step env a = some s') (id : ChallengeID) :
    RowChange s id a (s.outbox.find id) (s'.outbox.find id) := by
  cases a with simp only [step] at h
  | enqueue e =>
    split at h
    · split at h
      · cases h
      · obtain ⟨outbox, hinsert, rfl⟩ := Option.map_eq_some_iff.mp h
        dsimp only
        rw [Table.find_insert hinsert]
        split
        · rename_i hid
          rw [← hid, (Table.insert_eq_some hinsert).1]
          exact .enqueued
        · exact .same
    · cases h
  | claim w token id' answered =>
    split at h
    · rename_i config row hw hrow
      split at h
      · cases h
        dsimp only [setWorker]
        generalize hfind : (Table.update ..).find id = o
        obtain ⟨row, hrow, rfl, hid, rfl⟩ | ⟨rfl, -⟩ := Table.of_find_update hfind
        · rw [hrow, ← of_decide_eq_true hid]
          exact .claimed
        · exact .same
      · cases h
    · cases h
  | markPublished w =>
    split at h <;> cases h
    rename_i config r hw
    dsimp only [setWorker]
    obtain hsame | ⟨row, hrow, hid, hheld, hfind⟩ :=
      s.find_updateHeld r (OutboxRow.eventID_markPublished s.clock) id
    · rw [hsame]
      exact .same
    · rw [hfind, hrow]
      exact .marked hw rfl hid hheld
  | retry w =>
    split at h <;> cases h
    rename_i config r hw
    dsimp only [setWorker]
    split
    · obtain hsame | ⟨row, hrow, -, -, hfind⟩ :=
        s.find_updateHeld r (OutboxRow.eventID_retry (config.1.backoff r.attempts) s.clock) id
      · rw [hsame]
        exact .same
      · rw [hfind, hrow]
        exact .retried
    · exact .same
  | apply =>
    split at h
    · cases h
      unfold applied
      repeat' split
      all_goals exact .same
    · cases h
  | tick | startWorker | send | store | answer | startConsumer | deliver | decode | ack | edit =>
    repeat' split at h
    all_goals cases h <;> exact .same

/-- A row keeps its payload, and the time of its publication once it has one. -/
theorem RowChange.later {row r'} (h : RowChange s id a (some row) r') :
    ∃ row', r' = some row' ∧ row'.payload = row.payload ∧
      ∀ time, row.publishedAt = some time → row'.publishedAt = some time := by
  cases h with
  | same => exact ⟨row, rfl, rfl, fun _ h ↦ h⟩
  | claimed | retried => exact ⟨_, rfl, rfl, fun _ h ↦ h⟩
  | marked _ _ _ hheld =>
    exact ⟨_, rfl, rfl, fun _ h ↦ by cases hheld.2.symm.trans h⟩

theorem row_later (h : Reach (step env) (fun _ _ ↦ True) s t) (hrow : s.outbox.find id = some row) :
    ∃ row', t.outbox.find id = some row' ∧ row'.payload = row.payload ∧
      ∀ time, row.publishedAt = some time → row'.publishedAt = some time :=
  Reach.invariant ⟨row, hrow, rfl, fun _ h ↦ h⟩
    (by
      rintro b a b' - ⟨row₁, hrow₁, hpayload, hpublished⟩ - hstep
      have hchange := step_row hstep id
      rw [hrow₁] at hchange
      obtain ⟨row₂, hrow₂, hpayload', hpublished'⟩ := hchange.later
      exact ⟨row₂, hrow₂, hpayload'.trans hpayload, fun time h ↦
        hpublished' time (hpublished time h)⟩)
    h

/-! ## The workers -/

/-- What holds of a worker: its record has the payload of the row, and a record that it is about to
mark was published by it. -/
structure WorkerSound (s : Delivery) : Prop where
  payload : ∀ (w : Nat) (worker : Worker) (r : Record), s.workers[w]? = some worker →
    worker.pc.record = some r → ∃ row, s.outbox.find r.id = some row ∧ row.payload = r.payload
  published : ∀ (w : Nat) (worker : Worker) (r : Record), s.workers[w]? = some worker →
    worker.pc = .published r → (w, r) ∈ s.published

/-- **What becomes of the workers in a step.** -/
inductive WorkerChange (s : Delivery) : List Worker → List (Nat × Record) → Prop
  | same : WorkerChange s s.workers s.published
  | started {config : { c : Config // c.Valid }} :
      WorkerChange s (s.workers ++ [{ config := config }]) s.published
  | claimed {w : Nat} {worker : Worker} {row : OutboxRow} {r : Record}
      {config : { c : Config // c.Valid }}
      (hw : s.workers[w]? = some worker) (hrow : s.outbox.find r.id = some row)
      (hpayload : row.payload = r.payload) :
      WorkerChange s (s.workers.set w { config := config, pc := .claimed r }) s.published
  | ready {w : Nat} {config : { c : Config // c.Valid }} :
      WorkerChange s (s.workers.set w { config := config, pc := .ready }) s.published
  | moved {w : Nat} {worker : Worker} {r : Record} {pc : WorkerPc}
      {config : { c : Config // c.Valid }}
      (hw : s.workers[w]? = some worker) (hr : worker.pc.record = some r) (hpc : pc.record = some r)
      (hpublished : ∀ r, pc ≠ .published r) :
      WorkerChange s (s.workers.set w { config := config, pc := pc }) s.published
  | published {w : Nat} {worker : Worker} {r : Record} {config : { c : Config // c.Valid }}
      (hw : s.workers[w]? = some worker) (hr : worker.pc.record = some r) :
      WorkerChange s (s.workers.set w { config := config, pc := .published r })
        (s.published ++ [(w, r)])

theorem claimedRecord_eq {token} (h : claimedRecord row token = some r) :
    r.id = row.eventID ∧ r.payload = row.payload := by
  unfold claimedRecord at h
  split at h <;> cases h
  exact ⟨rfl, rfl⟩

theorem step_workers (h : s.step env a = some s') : WorkerChange s s'.workers s'.published := by
  cases a with simp only [step] at h
  | enqueue =>
    split at h
    · split at h
      · cases h
      · obtain ⟨outbox, -, rfl⟩ := Option.map_eq_some_iff.mp h
        exact .same
    · cases h
  | startWorker =>
    cases h
    exact .started
  | claim w token id answered =>
    split at h
    · rename_i config row hw hrow
      split at h
      · cases h
        dsimp only [setWorker]
        split
        · rename_i r hr
          obtain ⟨hid, hpayload⟩ := claimedRecord_eq hr
          split
          · have hkey : row.eventID = id := Table.key_eq_of_find hrow
            exact .claimed hw (hid.trans hkey ▸ hrow) hpayload.symm
          · exact .ready
        · exact .ready
      · cases h
    · cases h
  | send w ok =>
    split at h <;> cases h
    rename_i config r hw
    dsimp only [setWorker]
    split
    · exact .moved hw rfl rfl (by simp)
    · exact .moved hw rfl rfl (by simp)
  | answer w ok =>
    split at h
    · rename_i config r hw
      split at h
      · split at h <;> cases h
        exact .published hw rfl
      · cases h
        exact .moved hw rfl rfl (by simp)
    · cases h
  | markPublished | retry =>
    split at h <;> cases h
    exact .ready
  | apply =>
    split at h
    · cases h
      unfold applied
      repeat' split
      all_goals exact .same
    · cases h
  | tick | store | startConsumer | deliver | decode | ack | edit =>
    repeat' split at h
    all_goals cases h <;> exact .same

/-- A worker that has moved has the payload of its row, and has published what it is about to
mark. -/
theorem WorkerChange.sound {workers published}
    (h : WorkerChange s workers published) (hs : s.WorkerSound) {worker}
    (hw : workers[w]? = some worker) :
    (∀ r, worker.pc.record = some r →
      ∃ row, s.outbox.find r.id = some row ∧ row.payload = r.payload) ∧
    ∀ r, worker.pc = .published r → (w, r) ∈ published := by
  have hold (hw : s.workers[w]? = some worker) :
      (∀ r, worker.pc.record = some r →
        ∃ row, s.outbox.find r.id = some row ∧ row.payload = r.payload) ∧
      ∀ r, worker.pc = .published r → (w, r) ∈ s.published :=
    ⟨fun r ↦ hs.payload w worker r hw, fun r ↦ hs.published w worker r hw⟩
  cases h with
  | same => exact hold hw
  | started =>
    obtain ⟨-, rfl⟩ | hw := Pool.of_append hw
    · exact ⟨by simp [WorkerPc.record], by simp⟩
    · exact hold hw
  | claimed _ hfind hpayload =>
    obtain ⟨-, rfl⟩ | ⟨-, hw⟩ := Pool.of_set hw
    · refine ⟨fun r hr ↦ ?_, by simp⟩
      cases hr
      exact ⟨_, hfind, hpayload⟩
    · exact hold hw
  | ready =>
    obtain ⟨-, rfl⟩ | ⟨-, hw⟩ := Pool.of_set hw
    · exact ⟨by simp [WorkerPc.record], by simp⟩
    · exact hold hw
  | moved hw' hr' hpc hne =>
    obtain ⟨-, rfl⟩ | ⟨-, hw⟩ := Pool.of_set hw
    · refine ⟨fun r hr ↦ ?_, fun r hpc ↦ absurd hpc (hne r)⟩
      cases hpc.symm.trans hr
      exact hs.payload _ _ _ hw' hr'
    · exact hold hw
  | published hw' hr' =>
    obtain ⟨rfl, rfl⟩ | ⟨-, hw⟩ := Pool.of_set hw
    · constructor
      all_goals
        intro r hr
        cases hr
      · exact hs.payload _ _ _ hw' hr'
      · exact List.mem_append_right _ (List.mem_singleton_self _)
    · exact (hold hw).imp_right fun h r hpc ↦ List.mem_append_left _ (h r hpc)

theorem WorkerSound.step (h : s.WorkerSound) (hstep : s.step env a = some s') : s'.WorkerSound := by
  constructor
  · intro w worker r hw hr
    obtain ⟨row, hrow, hpayload⟩ := ((step_workers hstep).sound h hw).1 r hr
    obtain ⟨row', hrow', hpayload', -⟩ := row_later (.next .start trivial hstep) hrow
    exact ⟨row', hrow', hpayload'.trans hpayload⟩
  · intro w worker r hw
    exact ((step_workers hstep).sound h hw).2 r

theorem workerSound (h : Reach (step env) (fun _ _ ↦ True) {} s) : s.WorkerSound :=
  Reach.invariant (P := WorkerSound)
    { payload := fun _ _ _ h ↦ by cases h
      published := fun _ _ _ h ↦ by cases h }
    (fun _ _ _ _ ih _ hstep ↦ ih.step hstep) h

/-! ## The consumers -/

/-- What holds of the tables of User, of the consumers and of the records of the run. -/
structure UserSound (env : Env) (s : Delivery) : Prop where
  profile : ∀ id row, s.user.inbox.find id = some row → s.user.profiles.find row.subject ≠ none
  accepted : ∀ e ∈ s.accepted, ∃ payload row, marshal env.codec e = some payload ∧
    s.user.inbox.find e.eventID = some row ∧ row.subject = e.subject ∧
    row.payloadHash = env.sha256 payload
  applying : ∀ (c : Nat) (m : Msg) (e : Event), s.consumers[c]? = some (.applying m e) →
    unmarshal env.codec m.data = some e ∧ m.subject = streamSubject
  applied : ∀ (c : Nat) (m : Msg) (e : Event), s.consumers[c]? = some (.applied m e) →
    unmarshal env.codec m.data = some e ∧ m.subject = streamSubject ∧ e ∈ s.committed
  acked : ∀ m ∈ s.acked, ∃ e ∈ s.committed, unmarshal env.codec m.data = some e ∧
    m.subject = streamSubject

/-- A profile that there is stays when profiles are edited. -/
theorem find_updateSettings (u : UserStore) (changed subject : SubjectID) (theme : String)
    (expected : Int) (h : u.profiles.find subject ≠ none) :
    (u.updateSettings changed theme expected).profiles.find subject ≠ none := by
  rw [UserStore.updateSettings]
  dsimp only
  rw [Table.find_update]
  simpa using h

/-- Only the profiles change, or the consumers, or nothing of what `UserSound` is about. -/
theorem UserSound.of_consumers (h : s.UserSound env) {pc} (hacked : s'.acked = s.acked)
    (hcommitted : s'.committed = s.committed) (haccepted : s'.accepted = s.accepted)
    (huser : s'.user = s.user) (hconsumers : s'.consumers = s.consumers.set c pc)
    (hpc : ∀ m e, pc = .applying m e → unmarshal env.codec m.data = some e ∧
      m.subject = streamSubject)
    (hnot : ∀ m e, pc ≠ .applied m e) : s'.UserSound env where
  profile := by
    rw [huser]
    exact h.profile
  accepted := by
    rw [haccepted, huser]
    exact h.accepted
  applying c' m e hc := by
    rw [hconsumers] at hc
    obtain ⟨-, heq⟩ | ⟨-, hc⟩ := Pool.of_set hc
    · exact hpc m e heq.symm
    · exact h.applying c' m e hc
  applied c' m e hc := by
    rw [hconsumers] at hc
    rw [hcommitted]
    obtain ⟨-, heq⟩ | ⟨-, hc⟩ := Pool.of_set hc
    · exact absurd heq.symm (hnot m e)
    · exact h.applied c' m e hc
  acked := by
    rw [hacked, hcommitted]
    exact h.acked

/-- The step of `Apply`. -/
theorem UserSound.apply (h : s.UserSound env) {answered}
    (hc : s.consumers[c]? = some (.applying m e)) :
      (s.applied env c m e answered).UserSound env := by
  have hready : (s.setConsumer c .ready).UserSound env :=
    h.of_consumers rfl rfl rfl rfl rfl (by simp) (by simp)
  unfold Delivery.applied
  split
  · exact hready
  · rename_i payload hpayload
    split
    · exact hready
    · rename_i outcome user happly
      obtain ⟨inbox, rfl, hcase⟩ := UserStore.apply_eq_some happly
      have hold : ∀ id row, s.user.inbox.find id = some row → inbox.find id = some row := by
        intro id row hrow
        obtain ⟨-, hinsert⟩ | ⟨-, rfl, -⟩ := hcase
        · rw [Table.find_insert hinsert, if_neg, hrow]
          rintro rfl
          cases (Table.insert_eq_some hinsert).1.symm.trans hrow
        · exact hrow
      obtain ⟨hdecoded, hsubject⟩ := h.applying c m e hc
      constructor
      · intro id row hrow
        have hrow : inbox.find id = some row := hrow
        have hmem : s.user.inbox.find id = some row ∨ row.subject = e.subject := by
          obtain ⟨-, hinsert⟩ | ⟨-, rfl, -⟩ := hcase
          · rw [Table.find_insert hinsert] at hrow
            split at hrow
            · cases hrow
              exact .inr rfl
            · exact .inl hrow
          · exact .inl hrow
        obtain hrow | hrow := hmem
        · obtain ⟨p, hp⟩ := Option.ne_none_iff_exists'.mp (h.profile id row hrow)
          rw [UserStore.find_project (u := { s.user with inbox := inbox }) hp e.subject]
          simp
        · rw [hrow]
          exact UserStore.find_project_self _ _
      · intro e' he'
        have he' : e' ∈ s.accepted ∨ e' = e ∧ outcome = .applied := by
          change e' ∈ (if outcome = .applied then s.accepted ++ [e] else s.accepted) at he'
          split at he'
          · rename_i hnew
            obtain he' | he' := List.mem_append.mp he'
            · exact .inl he'
            · exact .inr ⟨List.mem_singleton.mp he', hnew⟩
          · exact .inl he'
        obtain he' | ⟨rfl, hnew⟩ := he'
        · obtain ⟨payload', row, hpayload', hrow, hrest⟩ := h.accepted e' he'
          exact ⟨payload', row, hpayload', hold _ _ hrow, hrest⟩
        · obtain ⟨-, hinsert⟩ | ⟨hdup, -⟩ := hcase
          · exact ⟨payload, _, hpayload, (Table.find_insert hinsert _).trans (if_pos rfl), rfl, rfl⟩
          · cases hnew.symm.trans hdup
      · intro c' m' e' hc'
        obtain ⟨-, heq⟩ | ⟨-, hc'⟩ := Pool.of_set hc'
        · split at heq <;> cases heq
        · exact h.applying c' m' e' hc'
      · intro c' m' e' hc'
        obtain ⟨-, heq⟩ | ⟨-, hc'⟩ := Pool.of_set hc'
        · split at heq <;> cases heq
          exact ⟨hdecoded, hsubject, List.mem_append_right _ (List.mem_singleton_self _)⟩
        · obtain ⟨hdecoded', hsubject', hmem⟩ := h.applied c' m' e' hc'
          exact ⟨hdecoded', hsubject', List.mem_append_left _ hmem⟩
      · intro m' hm'
        obtain ⟨e', he', hdecoded'⟩ := h.acked m' hm'
        exact ⟨e', List.mem_append_left _ he', hdecoded'⟩

theorem UserSound.step (h : s.UserSound env) (hstep : s.step env a = some s') :
    s'.UserSound env := by
  cases a with simp only [Delivery.step] at hstep
  | enqueue =>
    split at hstep
    · split at hstep
      · cases hstep
      · obtain ⟨outbox, -, rfl⟩ := Option.map_eq_some_iff.mp hstep
        exact ⟨h.profile, h.accepted, h.applying, h.applied, h.acked⟩
    · cases hstep
  | tick | claim | send | answer | markPublished | retry | startWorker | store =>
    repeat' split at hstep
    all_goals cases hstep
    all_goals exact ⟨h.profile, h.accepted, h.applying, h.applied, h.acked⟩
  | startConsumer =>
    cases hstep
    refine ⟨h.profile, h.accepted, ?_, ?_, h.acked⟩
    · intro c m e hc
      obtain ⟨-, ⟨⟩⟩ | hc := Pool.of_append hc
      exact h.applying c m e hc
    · intro c m e hc
      obtain ⟨-, ⟨⟩⟩ | hc := Pool.of_append hc
      exact h.applied c m e hc
  | deliver =>
    repeat' split at hstep
    all_goals cases hstep
    exact h.of_consumers rfl rfl rfl rfl rfl (by simp) (by simp)
  | decode c =>
    repeat' split at hstep
    all_goals cases hstep
    · rename_i hdecoded hsubject
      refine h.of_consumers rfl rfl rfl rfl rfl (fun m' e' hpc ↦ ?_) (by simp)
      cases hpc
      exact ⟨hdecoded, hsubject⟩
    all_goals exact h.of_consumers rfl rfl rfl rfl rfl (by simp) (by simp)
  | apply c answered =>
    split at hstep <;> cases hstep
    exact h.apply ‹_›
  | ack c =>
    split at hstep <;> cases hstep
    rename_i m e hc
    have hready : (s.setConsumer c .ready).UserSound env :=
      h.of_consumers rfl rfl rfl rfl rfl (by simp) (by simp)
    refine ⟨hready.profile, hready.accepted, hready.applying, hready.applied, ?_⟩
    intro m' hm'
    obtain hm' | hm' := List.mem_append.mp hm'
    · exact h.acked m' hm'
    · cases List.mem_singleton.mp hm'
      obtain ⟨hdecoded, hsubject, hmem⟩ := h.applied c m e hc
      exact ⟨e, hmem, hdecoded, hsubject⟩
  | edit =>
    cases hstep
    exact ⟨fun id row hrow ↦ find_updateSettings s.user _ row.subject _ _ (h.profile id row hrow),
      h.accepted, h.applying, h.applied, h.acked⟩

theorem userSound (h : Reach (step env) (fun _ _ ↦ True) {} s) : s.UserSound env :=
  Reach.invariant (P := UserSound env)
    { profile := fun _ _ h ↦ by cases h
      accepted := fun _ h ↦ by cases h
      applying := fun _ _ _ h ↦ by cases h
      applied := fun _ _ _ h ↦ by cases h
      acked := fun _ h ↦ by cases h }
    (fun _ _ _ _ ih _ hstep ↦ ih.step hstep) h

/-! ## The guarantees -/

/-- A row is marked for the worker that has published its payload and holds the lease. -/
theorem marked (h : s.WorkerSound) (hstep : s.step env a = some s')
    (hrow : s.outbox.find id = some row) (hrow' : s'.outbox.find id = some row')
    (hopen : row.publishedAt = none) (hmarked : row'.publishedAt ≠ none) :
    ∃ w r, a = .markPublished w ∧ (w, r) ∈ s.published ∧ r.id = id ∧ r.payload = row.payload ∧
      Lease.Held row.lease r.leaseToken s.clock := by
  have hchange := step_row hstep id
  rw [hrow, hrow'] at hchange
  cases hchange with
  | same | claimed | retried => exact absurd hopen hmarked
  | @marked w worker r _ hw hpc hid hheld =>
    obtain ⟨row', hrow', hpayload⟩ := h.payload w worker r hw (by rw [hpc]; rfl)
    rw [hid, hrow] at hrow'
    cases hrow'
    exact ⟨w, r, rfl, h.published w worker r hw hpc, hid, hpayload.symm, hheld.1⟩

/-- `Apply` leaves the tables alone, or creates the profile of the subject. -/
theorem user_applied (s : Delivery) (c : Nat) (m : Msg) (e : Event) (answered : Bool) :
    (s.applied env c m e answered).user = s.user ∨
      ∃ inbox, (s.applied env c m e answered).user =
        UserStore.project { s.user with inbox := inbox } e.subject := by
  unfold applied
  split
  · exact .inl rfl
  · split
    · exact .inl rfl
    · rename_i outcome user happly
      obtain ⟨inbox, rfl, -⟩ := UserStore.apply_eq_some happly
      exact .inr ⟨inbox, rfl⟩

/-- An event with the identifier of another one that was accepted is not applied. -/
theorem applied_of_conflict (h : s.UserSound env) {e₀ payload}
    (answered : Bool) (hc : s.consumers[c]? = some (.applying m e)) (he₀ : e₀ ∈ s.accepted)
    (hid : e₀.eventID = e.eventID) (hpayload : marshal env.codec e₀ = some payload)
    (hhash : env.sha256 payload ≠ env.sha256 m.data) :
    s.applied env c m e answered = s.setConsumer c .ready := by
  obtain ⟨payload', row, hpayload', hrow, -, hrowHash⟩ := h.accepted e₀ he₀
  cases hpayload.symm.trans hpayload'
  have hdata := marshal_of_unmarshal (h.applying c m e hc).1
  have hnone : s.user.apply e (env.sha256 m.data) = none :=
    UserStore.apply_eq_none (hid ▸ hrow) (hrowHash ▸ hhash)
  rw [applied, hdata]
  dsimp only
  rw [hnone]

/-- **A registration reaches the profile once.**  A row of the outbox is marked for the worker that
has published its payload and holds the lease, and stays marked; a subject with an accepted event
has one profile, which a further event neither doubles nor changes; an event with the identifier of
an accepted one and another payload is not applied, where SHA-256 does not collide on the two; and a
message is acknowledged after its event was committed. -/
theorem registration_once (h : Reach (step env) (fun _ _ ↦ True) {} s) :
    (∀ a s' id row row', s.step env a = some s' → s.outbox.find id = some row →
      s'.outbox.find id = some row' → row.publishedAt = none → row'.publishedAt ≠ none →
      ∃ w r, a = .markPublished w ∧ (w, r) ∈ s.published ∧ r.id = id ∧ r.payload = row.payload ∧
        Lease.Held row.lease r.leaseToken s.clock) ∧
    (∀ id row time, s.outbox.find id = some row → row.publishedAt = some time →
      ∀ t, Reach (step env) (fun _ _ ↦ True) s t →
        ∃ row', t.outbox.find id = some row' ∧ row'.payload = row.payload ∧
          row'.publishedAt = some time) ∧
    (∀ e ∈ s.accepted, (s.user.profiles.rows.filter fun p ↦ p.subject = e.subject).length = 1) ∧
    (∀ (c : Nat) (m : Msg) (e : Event) (answered : Bool) (s' : Delivery),
      s.consumers[c]? = some (.applying m e) → s.step env (.apply c answered) = some s' →
      (∀ subject p, s.user.profiles.find subject = some p →
        s'.user.profiles.find subject = some p) ∧
      (∀ p, s.user.profiles.find e.subject = some p → s'.user.profiles = s.user.profiles)) ∧
    (∀ (c : Nat) (m : Msg) (e e₀ : Event) (payload : Auth.Bytes) (answered : Bool) (s' : Delivery),
      s.consumers[c]? = some (.applying m e) → e₀ ∈ s.accepted → e₀.eventID = e.eventID →
      marshal env.codec e₀ = some payload → payload ≠ m.data →
      (env.sha256 payload = env.sha256 m.data → payload = m.data) →
      s.step env (.apply c answered) = some s' → s' = s.setConsumer c .ready) ∧
    (∀ m ∈ s.acked, ∃ e ∈ s.committed, unmarshal env.codec m.data = some e) := by
  have hworkers := workerSound h
  have huser := userSound h
  have hstep {c : Nat} {m : Msg} {e : Event} {answered : Bool} {s' : Delivery}
      (hc : s.consumers[c]? = some (.applying m e))
        (hs' : s.step env (.apply c answered) = some s') :
      s' = s.applied env c m e answered := by
    rw [step, hc] at hs'
    exact (Option.some.inj hs').symm
  refine ⟨?_, ?_, ?_, ?_, ?_, ?_⟩
  · intro a s' id row row' hs' hrow hrow' hopen hmarked
    exact marked hworkers hs' hrow hrow' hopen hmarked
  · intro id row time hrow htime t ht
    obtain ⟨row', hrow', hpayload, hpublished⟩ := row_later ht hrow
    exact ⟨row', hrow', hpayload, hpublished time htime⟩
  · intro e he
    obtain ⟨payload, row, -, hrow, hsubject, -⟩ := huser.accepted e he
    obtain ⟨p, hp⟩ := Option.ne_none_iff_exists'.mp (huser.profile _ row hrow)
    rw [Table.filter_key, ← hsubject, hp]
    rfl
  · intro c m e answered s' hc hs'
    rw [hstep hc hs']
    obtain hsame | ⟨inbox, hproject⟩ := @user_applied env s c m e answered
    · rw [hsame]
      exact ⟨fun _ _ hp ↦ hp, fun _ _ ↦ rfl⟩
    · rw [hproject]
      exact ⟨fun subject p hp ↦ UserStore.find_project (u := { s.user with inbox := inbox }) hp _,
        fun p ↦ UserStore.profiles_project (u := { s.user with inbox := inbox })⟩
  · intro c m e e₀ payload answered s' hc he₀ hid hpayload hne hcollision hs'
    rw [hstep hc hs']
    exact applied_of_conflict huser answered hc he₀ hid hpayload (fun h ↦ hne (hcollision h))
  · intro m hm
    obtain ⟨e, he, hdecoded, -⟩ := huser.acked m hm
    exact ⟨e, he, hdecoded⟩

/-- In place of SHA-256 the last bytes of a payload, which tell the two payloads apart. -/
def sampleEnv : Env where
  codec := sampleCodec
  sha256 payload := ⟨(List.replicate 32 0 ++ payload).drop payload.length, by
    rw [List.length_drop, List.length_append, List.length_replicate, Nat.add_sub_cancel]⟩

def sampleConfig : { c : Config // c.Valid } :=
  ⟨Config.withDefaults ⟨0, 0, 0, 0, 0, 0⟩, by unfold Config.Valid; decide⟩

/-- The message with an event. -/
def sampleMsg (e : Event) : Msg where
  subject := streamSubject
  msgID := some e.eventID
  data := sampleEncode e.message

/-- The consumer is about to apply the message to an event with the identifier. -/
def sampleApplying (m : Msg) (id : ChallengeID) : ConsumerPc → Bool
  | .applying m' e => m' = m ∧ e.eventID = id
  | _ => false

/-- One event on its way from the outbox to the profile; then a message with another payload and the
same identifier is not applied. -/
theorem registration_once_sample :
    ∃ s s', Reach (step sampleEnv) (fun _ _ ↦ True) {} s ∧ s.acked = [sampleMsg sampleEvent] ∧
      (∃ e ∈ s.committed, unmarshal sampleEnv.codec (sampleMsg sampleEvent).data = some e) ∧
      (∃ e ∈ s.accepted, (s.user.profiles.rows.filter fun p ↦ p.subject = e.subject).length = 1) ∧
      s.step sampleEnv (.apply 0 true) = some s' ∧ s' = s.setConsumer 0 .ready := by
  obtain ⟨s, hreach, hacked, haccepted, happlying⟩ := exists_of_script (step sampleEnv)
    (fun _ _ ↦ True) {}
    [.enqueue sampleEvent, .startWorker sampleConfig,
      .claim 0 (List.Vector.replicate 16 3) sampleEvent.eventID true, .send 0 true,
      .store (sampleMsg sampleEvent), .answer 0 true, .markPublished 0, .startConsumer,
      .deliver 0 (sampleMsg sampleEvent), .decode 0, .apply 0 true, .ack 0,
      .store (sampleMsg sampleOther), .deliver 0 (sampleMsg sampleOther), .decode 0]
    (fun s ↦ s.acked = [sampleMsg sampleEvent] ∧
      s.accepted.map (fun e ↦ (e.eventID, marshal sampleCodec e)) =
        [(sampleEvent.eventID, some (sampleMsg sampleEvent).data)] ∧
      (s.consumers[0]?).any (sampleApplying (sampleMsg sampleOther) sampleEvent.eventID))
    (by decide +kernel)
  obtain ⟨e₀, he₀, heq⟩ := List.mem_map.mp (haccepted ▸ List.mem_singleton_self _)
  obtain ⟨hid, hpayload⟩ := Prod.mk.inj heq
  obtain ⟨pc, hc, hpc⟩ := (Option.any_eq_true _ _).mp happlying
  obtain ⟨m, e, rfl⟩ : ∃ m e, pc = .applying m e := by
    unfold sampleApplying at hpc
    split at hpc
    · exact ⟨_, _, rfl⟩
    · cases hpc
  obtain ⟨rfl, hid'⟩ := of_decide_eq_true hpc
  obtain ⟨-, -, hprofile, -, hconflict, hack⟩ := registration_once hreach
  have hstep : s.step sampleEnv (.apply 0 true) =
      some (s.applied sampleEnv 0 (sampleMsg sampleOther) e true) := by
    rw [step, hc]
  refine ⟨s, _, hreach, hacked, hack _ (hacked ▸ List.mem_singleton_self _),
    ⟨e₀, he₀, hprofile e₀ he₀⟩, hstep, ?_⟩
  exact hconflict 0 _ e e₀ _ true _ hc he₀ (hid.trans hid'.symm) hpayload (by decide +kernel)
    (fun h ↦ absurd h (by decide +kernel)) hstep

end Delivery

end MarketMesh.Registration
