import MarketMesh.Auth.System

/-!
# The rows of the sessions through a run

`SessionTables.Turn` says what a transaction does to the tables of the sessions, whether it is one
of the session service or one of the security service.  A row keeps its account and stays revoked,
with one row in the outbox, and a row that is new was created by a call of the security service
(`System.exists_created`).
-/

set_option autoImplicit false

namespace MarketMesh.Auth

/-- A later state of a row. -/
structure SessionRow.Later (row row' : SessionRow) : Prop where
  subjectID : row'.record.subjectID = row.record.subjectID
  revoked : row.record.revokedAt.isSome = true → row'.record.revokedAt.isSome = true

theorem SessionRow.Later.refl (row : SessionRow) : row.Later row := ⟨rfl, fun h ↦ h⟩

theorem SessionRow.Later.trans {row row' row'' : SessionRow} (h : row.Later row')
    (h' : row'.Later row'') : row.Later row'' :=
  ⟨h'.subjectID.trans h.subjectID, fun hr ↦ h'.revoked (h.revoked hr)⟩

namespace SessionTables

/-- What a transaction does to the tables; the flag says whether it creates a session. -/
inductive Turn (t : SessionTables) : Bool → SessionTables → Prop
  | same : Turn t false t
  | revoked {p now reason} :
      Turn t false (t.revokeWhere p now reason)
  | rotated {id previous next now t' record} (h : t.Rotation id previous next now t' (.ok record)) :
      Turn t false t'
  | inserted {row sessions}
      (hrow : row.record.revokedAt = none) (h : t.sessions.insert row = some sessions) :
      Turn t true { t with sessions := sessions }

variable {t t' : SessionTables} {id : SessionID} {row : SessionRow} {creates : Bool}

/-- A transaction that creates no session changes the rows one by one. -/
theorem Turn.find (h : Turn t false t') (id : SessionID) : ∃ g : SessionRow → SessionRow,
    t'.sessions.find id = (t.sessions.find id).map g ∧ ∀ row : SessionRow, row.Later (g row) := by
  cases h with
  | same => exact ⟨fun row ↦ row, by rw [Option.map_id'], .refl⟩
  | revoked =>
    refine ⟨_, t.find_revokeWhere _ _ _ id, fun row ↦ ?_⟩
    split
    · exact ⟨rfl, fun _ ↦ rfl⟩
    · exact .refl row
  | rotated h =>
    cases h with
    | exchanged _ _ _ _ _ _ _ _ _ _ hs =>
      refine ⟨_, hs id, fun row ↦ ?_⟩
      split
      · exact ⟨rfl, fun h ↦ h⟩
      · exact .refl row

theorem Turn.find_some (h : Turn t creates t') (hrow : t.sessions.find id = some row) :
    ∃ row', t'.sessions.find id = some row' ∧ row.Later row' := by
  cases creates with
  | false =>
    obtain ⟨g, hfind, hg⟩ := h.find id
    rw [hrow] at hfind
    exact ⟨g row, hfind, hg row⟩
  | true =>
    cases h with
    | inserted hnew h =>
      refine ⟨row, ?_, .refl row⟩
      rw [Table.find_insert h, hrow, if_neg]
      rintro rfl
      cases hrow.symm.trans (Table.insert_eq_some h).1

theorem Turn.find_none (h : Turn t false t') (hnone : t.sessions.find id = none) :
    t'.sessions.find id = none := by
  obtain ⟨g, hfind, -⟩ := h.find id
  rw [hfind, hnone]
  rfl

/-- Each revoked session has one row in the outbox, and no other session has one. -/
def Reported (t : SessionTables) : Prop :=
  ∀ id, (t.revocationsOf id).length =
    if (t.sessions.find id).any fun row ↦ row.record.revokedAt.isSome then 1 else 0

theorem Turn.reported (h : Turn t creates t') (ht : t.Reported) : t'.Reported := by
  intro id
  have hcount := ht id
  cases h with
  | same => exact hcount
  | revoked =>
    rw [revocationsOf_revokeWhere, find_revokeWhere, hcount]
    cases t.sessions.find id with
    | none => rfl
    | some row =>
      simp only [Option.map_some, Option.any_some]
      by_cases hrow : row.record.revokedAt.isSome = true
      · simp [hrow, Option.isNone_eq_false_iff.mpr hrow]
      · rw [if_neg hrow]
        split <;> rfl
  | @rotated i _ _ _ _ _ h =>
    cases h with
    | exchanged _ _ _ _ _ _ _ _ _ _ hs =>
      rw [revocationsOf] at hcount ⊢
      rw [hs, hcount]
      cases t.sessions.find id with
      | none => rfl
      | some row =>
        rw [Option.map_some, Option.any_some, Option.any_some]
        by_cases hid : row.record.id = i
        · rw [if_pos hid]
          rfl
        · rw [if_neg hid]
  | @inserted row sessions hrow h =>
    rw [revocationsOf] at hcount ⊢
    dsimp only
    rw [Table.find_insert h, hcount]
    by_cases hid : row.id = id
    · subst hid
      rw [if_pos rfl, (Table.insert_eq_some h).1, Option.any_some, hrow]
      rfl
    · rw [if_neg hid]

end SessionTables

open SessionTables

namespace Service

variable {lifetimes : Lifetimes} {sha256 : Bytes → Digest} {s s' : Service}

theorem Revoked.turn {t t'} (h : Revoked t t') : Turn t false t' := by
  obtain rfl | ⟨p, now, reason, rfl⟩ := h
  · exact .same
  · exact .revoked

theorem publish_tables {i : Nat} {x} (h : s.publish sha256 i x = some s') :
    s'.tables = s.tables := by
  rw [publish] at h
  split at h
  · split at h <;> cases h <;> rfl
  · cases h
    rfl
  · cases h

theorem rotate_turn {i : Nat} {x} (h : s.rotate lifetimes sha256 i x = some s') :
    Turn s.tables false s'.tables := by
  rw [rotate] at h
  split at h
  · rename_i previous now _
    have hr := s.tables.rotate_rotation previous.id (sha256 previous.value)
      (sha256 x.tokens.refresh.value) now lifetimes.accessTTL lifetimes.idleTTL
    split at h
    · rename_i tables record heq
      rw [heq] at hr
      cases h
      exact .rotated hr
    · rename_i tables e heq
      rw [heq] at hr
      cases h
      cases hr with
      | refused => exact .same
      | reused => exact .revoked
  · cases h

/-- The session service creates no session on its own. -/
theorem own_turn {a} (hown : a.isOwn = true) (h : s.step lifetimes sha256 a = some s') :
    Turn s.tables false s'.tables := by
  cases a with
  | tick =>
    rw [step] at h
    split at h <;> cases h
    exact .same
  | activate =>
    rw [step] at h
    split at h
    · split at h
      · split at h <;> cases h <;> exact .same
      · cases h
    · cases h
  | publish =>
    obtain ⟨x, -, h⟩ := Option.bind_eq_some_iff.mp h
    exact publish_tables h ▸ .same
  | discard =>
    rw [step] at h
    split at h
    · split at h
      · obtain ⟨tables, htables, rfl⟩ := Option.map_eq_some_iff.mp h
        exact (revoke_revoked (toOption_eq_some htables)).turn
      · cases h
    · cases h
  | refresh =>
    obtain ⟨previous, -, h⟩ := Option.bind_eq_some_iff.mp h
    obtain ⟨tokens, -, rfl⟩ := Option.map_eq_some_iff.mp h
    exact .same
  | rotate =>
    obtain ⟨x, -, h⟩ := Option.bind_eq_some_iff.mp h
    exact rotate_turn h
  | deliver =>
    obtain ⟨command, -, rfl⟩ := Option.map_eq_some_iff.mp h
    exact .same
  | evict =>
    cases h
    exact .same
  | authenticate =>
    obtain ⟨token, -, rfl⟩ := Option.map_eq_some_iff.mp h
    exact .same
  | find | get | check | revoke =>
    obtain ⟨x, -, h⟩ := Option.bind_eq_some_iff.mp h
    obtain ⟨pc, tables, -, ht, rfl⟩ := read_eq_some h
    exact ht.turn
  | _ => cases hown

end Service

theorem Tokens.MintedFor.record {env : Security} {tokens : Tokens} {subject : SubjectID}
    (h : tokens.MintedFor env subject) :
    tokens.record.subjectID = subject ∧ tokens.record.revokedAt = none := by
  obtain ⟨id, secrets, now, hmint⟩ := h
  rw [(Service.mint_eq_some hmint).1]
  exact ⟨rfl, rfl⟩

section

variable {env : Security} {inputs : Inputs} {challenges : Table Challenge.id} {a a' : Account}
  {call : Call} {ok : Bool} {saves : List Challenge} {effect : SessionEffect} {s : Store}
  {out : Outcome Reply}

/-- The tokens of a session that a call creates are minted for its account. -/
theorem Deed.minted {tokens} (h : Deed env inputs challenges a call ok a' saves (.created tokens)) :
    tokens.MintedFor env a.subject := by
  cases h with
  | loggedIn _ _ _ _ htokens | completedLogin _ _ _ _ _ htokens => exact htokens
  | confirmedRegistration _ _ _ heffect =>
    rcases heffect with heffect | ⟨_, heffect, htokens, -⟩ <;> cases heffect
    exact htokens

/-- A call that does something to the sessions. -/
theorem Call.Change.turn (h : Call.Change env inputs s call out) :
    Turn s.sessions false out.store.sessions ∨ ∃ a a' ok saves tokens sessions,
      s.accounts.account a.subject = some a ∧
      Deed env inputs s.accounts.challenges a call ok a' saves (.created tokens) ∧
      s.sessions.sessions.insert
        { record := tokens.record, refreshDigest := env.sha256 tokens.refresh.value } =
          some sessions ∧
      out.store.sessions = { s.sessions with sessions := sessions } := by
  cases h with
  | unchanged _ _ hsessions | registered _ _ _ _ _ _ hsessions => exact .inl (hsessions ▸ .same)
  | @deed _ _ a a' ok saves effect haccount hdeed _ _ hsessions =>
    cases effect with
    | none => exact .inl (Option.some.inj hsessions ▸ .same)
    | revoked => exact .inl (Option.some.inj hsessions ▸ .revoked)
    | created tokens =>
      obtain ⟨sessions, hinsert, hout⟩ := SessionTables.insertSession_eq_some hsessions
      exact .inr ⟨a, a', ok, saves, tokens, sessions, haccount, hdeed, hinsert, hout⟩

end

namespace System

variable {env : Security} {x x' z : System} {action : Action} {id : SessionID} {row : SessionRow}

/-- What a step does to the sessions: a session is created by a call that has done a deed. -/
theorem step_turn (h : x.step env action = some x') :
    Turn x.service.tables false x'.service.tables ∨ ∃ call inputs a a' ok saves tokens sessions,
      action = .call call inputs ∧ x.accounts.account a.subject = some a ∧
      Deed env inputs x.accounts.challenges a call ok a' saves (.created tokens) ∧
      x.service.tables.sessions.insert
        { record := tokens.record, refreshDigest := env.sha256 tokens.refresh.value } =
          some sessions ∧
      x'.service.tables = { x.service.tables with sessions := sessions } := by
  cases Step.of_step h with
  | @call call inputs =>
    rw [sessions_settle]
    rcases (call.run_change env inputs x.store).turn with
      h | ⟨a, a', ok, saves, tokens, sessions, h⟩
    · exact .inl h
    · exact .inr ⟨call, inputs, a, a', ok, saves, tokens, sessions, rfl, h⟩
  | service hown hs => exact .inl (Service.own_turn hown hs)
  | enroll | sweep => exact .inl .same

theorem exists_turn (h : x.step env action = some x') :
    ∃ creates, Turn x.service.tables creates x'.service.tables := by
  rcases step_turn h with h | ⟨_, _, _, _, _, _, tokens, sessions, -, -, hdeed, hinsert, heq⟩
  · exact ⟨false, h⟩
  · rw [heq]
    exact ⟨true, .inserted hdeed.minted.record.2 hinsert⟩

theorem row_later (h : Reaches env x x') (hrow : x.service.tables.sessions.find id = some row) :
    ∃ row', x'.service.tables.sessions.find id = some row' ∧ row.Later row' := by
  refine h.invariant ⟨row, hrow, .refl row⟩ fun y _ y' _ hy _ hstep ↦ ?_
  obtain ⟨row', hrow', hlater⟩ := hy
  obtain ⟨creates, hturn⟩ := exists_turn hstep
  obtain ⟨row'', hrow'', hlater'⟩ := hturn.find_some hrow'
  exact ⟨row'', hrow'', hlater.trans hlater'⟩

theorem reported (h : Reaches env {} x) : x.service.tables.Reported :=
  h.invariant (fun _ ↦ rfl)
    fun _ _ _ _ hy _ hstep ↦ (exists_turn hstep).elim fun _ hturn ↦ hturn.reported hy

/-- The runs that draw fresh identifiers. -/
abbrev Runs (env : Security) : System → List Action → System → Prop :=
  Machine.Path (step env) Fresh

/-- The run with the actions `as`, from `z` to `x`, makes the call in the state `b`, which it is in
after the actions `pre`. -/
structure Makes (env : Security) (z : System) (as : List Action) (x : System) (pre : List Action)
    (b : System) (call : Call) (inputs : Inputs) : Prop where
  before : Runs env z pre b
  fresh : b.Fresh (.call call inputs)
  after : ∃ post, as = pre ++ .call call inputs :: post ∧
    Runs env (b.settle (call.run env inputs b.store)) post x

/-- **A session is created by a call that has done a deed** of the account the session is of. -/
theorem exists_created {as : List Action} (h : Runs env z as x)
    (hz : z.service.tables.sessions.find id = none)
    (hrow : x.service.tables.sessions.find id = some row) :
    ∃ pre b call inputs a a' ok saves tokens, Makes env z as x pre b call inputs ∧
      b.service.tables.sessions.find id = none ∧
      (b.settle (call.run env inputs b.store)).service.tables.sessions.find id ≠ none ∧
      b.accounts.account a.subject = some a ∧ a.subject = row.record.subjectID ∧
      Deed env inputs b.accounts.challenges a call ok a' saves (.created tokens) := by
  obtain ⟨pre, action, post, b, b', has, hb, hfresh, hstep, hnone, hsome, hafter⟩ :=
    h.exists_turn (P := fun y ↦ y.service.tables.sessions.find id ≠ none) (not_not.mpr hz)
      (by rw [hrow]; simp)
  have hnone := not_not.mp hnone
  rcases step_turn hstep with hturn | ⟨call, inputs, a, a', ok, saves, tokens, sessions, rfl,
    haccount, hdeed, hinsert, heq⟩
  · exact absurd (hturn.find_none hnone) hsome
  · cases hstep
    have hfind := (congrArg (fun t ↦ t.sessions.find id) heq).trans (Table.find_insert hinsert id)
    have hid : tokens.record.id = id := by
      by_contra hne
      exact hsome (hfind.trans ((if_neg hne).trans hnone))
    obtain ⟨row', hrow', hlater⟩ := row_later hafter.reach (hfind.trans (if_pos hid))
    cases hrow.symm.trans hrow'
    exact ⟨pre, b, call, inputs, a, a', ok, saves, tokens, ⟨hb, hfresh, post, has, hafter⟩, hnone,
      hsome, haccount, (hlater.subjectID.trans hdeed.minted.record.1).symm, hdeed⟩

end System

end MarketMesh.Auth
