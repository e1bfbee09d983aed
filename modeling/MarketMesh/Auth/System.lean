import MarketMesh.Auth.Rejection

/-!
# The security service at work

The calls of the security service and the steps of the session service, in any order.  A call is one
step: its transaction holds the lock of the account.  The tokens of a session that a call has
created are then activated by the steps of the session service, and so are the calls that refresh
and authenticate.  The mail worker deletes challenges and counters that ran out long ago; `retired`
keeps the identifiers of the challenges that it has deleted.
-/

set_option autoImplicit false

namespace MarketMesh.Auth

/-- The steps that the session service makes on its own.  Sessions are created, and those of an
account revoked, by the calls of the security service. -/
def Service.Action.isOwn : Service.Action → Bool
  | .prepare .. | .create .. | .createSession .. | .revokeSessions .. | .revokeSession .. => false
  | _ => true

structure System where
  service : Service := {}
  accounts : Accounts := {}
  limits : Digest → Option Limit := fun _ ↦ none
  mails : Table Mail.id := ∅
  registrations : Table Registration.eventID := ∅
  retired : List ChallengeID := []

namespace System

inductive Action where
  | call (call : Call) (inputs : Inputs)
  | service (action : Service.Action)
  /-- A credential of the registration that knows no e-mail address. -/
  | enroll (row : CredentialRow)
  /-- `ClaimMail` deletes some of the challenges and counters that ran out. -/
  | sweep (now : Time) (ids : List ChallengeID) (buckets : List Digest)

/-- The tables as a transaction of the security service sees them. -/
def store (x : System) : Store where
  accounts := x.accounts
  sessions := x.service.tables
  limits := x.limits
  mails := x.mails
  registrations := x.registrations

/-- The session service after a call: tokens that were issued are activated if the call has
returned. -/
def served (s : Service) (out : Outcome Reply) : Service :=
  match out.issued with
  | none => { s with tables := out.store.sessions }
  | some tokens =>
    let pc : IssuerPc := if out.result.isOk then .created else .ended
    { s with
      tables := out.store.sessions
      issuers := s.issuers ++ [{ tokens := tokens, pc := pc }]
      issues := s.issues ++
        [{ id := tokens.record.id, version := tokens.record.version, issuer := s.issuers.length }] }

def settle (x : System) (out : Outcome Reply) : System where
  service := served x.service out
  accounts := out.store.accounts
  limits := out.store.limits
  mails := out.store.mails
  registrations := out.store.registrations
  retired := x.retired

/-- The rows that the two statements of `ClaimMail` may delete. -/
def Outdated (x : System) (now : Time) (ids : List ChallengeID) (buckets : List Digest) : Prop :=
  ids.length ≤ 100 ∧ buckets.length ≤ 100 ∧
    (∀ id ∈ ids, (x.accounts.challenges.find id).any
      fun c ↦ c.expiresAt < now - 24 * hour) ∧
    ∀ bucket ∈ buckets, (x.limits bucket).any fun limit ↦ limit.expiresAt < now
  deriving Decidable

def step (env : Security) (x : System) : Action → Option System
  | .call call inputs => some (x.settle (call.run env inputs x.store))
  | .service action =>
    if action.isOwn then
      (x.service.step env.lifetimes env.sha256 action).map fun s ↦ { x with service := s }
    else none
  | .enroll row =>
    if x.accounts.credentials.rows.any fun old ↦ old.identifier = row.identifier then none
    else (x.accounts.credentials.insert row).map fun credentials ↦
      { x with accounts := { x.accounts with credentials := credentials } }
  | .sweep now ids buckets =>
    if x.Outdated now ids buckets then
      some { x with
        accounts := { x.accounts with challenges := x.accounts.challenges.delete (·.id ∈ ids) }
        limits := fun bucket ↦ if bucket ∈ buckets then none else x.limits bucket
        retired := x.retired ++ ids }
    else none

/-- No identifier that a call draws is, or has been, that of a challenge. -/
def Fresh (x : System) : Action → Prop
  | .call _ inputs => ∀ n id, inputs.ids n = some id →
    x.accounts.challenges.find id = none ∧ id ∉ x.retired
  | _ => True

variable {env : Security} {x x' : System} {action : Action} {inputs : Inputs}

/-- What a step does. -/
inductive Step (env : Security) (x : System) : Action → System → Prop
  | call {call inputs} :
      Step env x (.call call inputs) (x.settle (call.run env inputs x.store))
  | service {action s} (hown : action.isOwn = true)
      (hs : x.service.step env.lifetimes env.sha256 action = some s) :
      Step env x (.service action) { x with service := s }
  | enroll {row credentials} (hinsert : x.accounts.credentials.insert row = some credentials) :
      Step env x (.enroll row) { x with accounts := { x.accounts with credentials := credentials } }
  | sweep {now ids buckets} :
      Step env x (.sweep now ids buckets) { x with
        accounts := { x.accounts with challenges := x.accounts.challenges.delete (·.id ∈ ids) }
        limits := fun bucket ↦ if bucket ∈ buckets then none else x.limits bucket
        retired := x.retired ++ ids }

theorem Step.of_step (h : x.step env action = some x') : Step env x action x' := by
  cases action with rw [step] at h
  | call =>
    cases h
    exact .call
  | service =>
    split at h
    · obtain ⟨s, hs, rfl⟩ := Option.map_eq_some_iff.mp h
      exact .service ‹_› hs
    · cases h
  | enroll =>
    split at h
    · cases h
    · obtain ⟨credentials, hinsert, rfl⟩ := Option.map_eq_some_iff.mp h
      exact .enroll hinsert
  | sweep =>
    split at h <;> cases h
    exact .sweep

theorem tables_served (s : Service) (out : Outcome Reply) :
    (served s out).tables = out.store.sessions := by
  rw [served]
  split <;> rfl

theorem sessions_settle (out : Outcome Reply) :
    (x.settle out).service.tables = out.store.sessions :=
  tables_served _ _

/-! ## Accounts and challenges -/

/-- What a call does to the accounts and the challenges. -/
structure Called (inputs : Inputs) (t t' : Accounts) : Prop where
  account : ∀ subject a, t.account subject = some a →
    ∃ a', t'.account subject = some a' ∧ a.revision ≤ a'.revision
  challenges : Churn (fun o ↦ (∃ a, t'.account o.subject = some a ∧ o.revision = a.revision) ∧
    ∃ n, inputs.ids n = some o.id) t.challenges t'.challenges

theorem Called.of_account {t t' : Accounts} {a a' : Account}
    {saves : List Challenge} (ha : ∀ b, t.account a.subject = some b → b.revision ≤ a'.revision)
    (hsubject : a'.subject = a.subject) (haccount : ∀ subject, t'.account subject =
      if a.subject = subject then some a' else t.account subject)
    (hchurn : Churn (fun o ↦ ∃ c ∈ saves, c.IsNew inputs a' ∧ c.origin = o)
      t.challenges t'.challenges) : Called inputs t t' where
  account subject b hb := by
    rw [haccount]
    by_cases h : a.subject = subject
    · subst h
      exact ⟨a', if_pos rfl, ha b hb⟩
    · exact ⟨b, by rw [if_neg h, hb], le_rfl⟩
  challenges := by
    refine hchurn.mono ?_
    rintro _ ⟨c, -, ⟨hid, hc, hrevision, -⟩, rfl⟩
    refine ⟨⟨a', ?_, hrevision⟩, hid⟩
    show t'.account c.subject = some a'
    rw [haccount, if_pos (hsubject.symm.trans hc.symm)]

/-- What a call leaves, when the identifiers it draws are new. -/
theorem called_of_change {call : Call} {s : Store} {out : Outcome Reply}
    (h : Call.Change env inputs s call out)
    (hfresh : ∀ n id, inputs.ids n = some id → s.accounts.challenges.find id = none) :
    Called inputs s.accounts out.store.accounts := by
  cases h with
  | unchanged haccount hchallenges =>
    exact ⟨fun subject a ha ↦ ⟨a, by rw [haccount, ha], le_rfl⟩, hchallenges ▸ .refl _⟩
  | @deed _ _ a a' _ saves _ haccount hdeed haccount' hsaves =>
    refine .of_account (fun b hb ↦ ?_) hdeed.subject_eq haccount'
      (Accounts.churn_of_saves hdeed.admissible hfresh hsaves)
    cases haccount.symm.trans hb
    exact hdeed.revision_le
  | @registered _ _ _ _ _ a c c' hnone ha hnew hc haccount' hsaves =>
    have hnew' : c'.IsNew inputs a := by
      rcases hc with rfl | ⟨-, rfl⟩ <;> exact hnew.isNew
    exact .of_account (fun b hb ↦ nomatch hb.symm.trans hnone) rfl haccount'
      (Accounts.churn_of_saves (.new hnew') hfresh hsaves)

/-- What a step does to the accounts and the challenges. -/
structure Later (x x' : System) : Prop where
  account : ∀ subject a, x.accounts.account subject = some a →
    ∃ a', x'.accounts.account subject = some a' ∧ a.revision ≤ a'.revision
  kept : ∀ id o, x.accounts.challenges.find id = some o →
    (∃ c, x'.accounts.challenges.find id = some c ∧ c.origin = o.origin ∧
      (o.usedAt.isSome = true → c.usedAt.isSome = true)) ∨
    x'.accounts.challenges.find id = none ∧ id ∈ x'.retired
  fresh : ∀ id c, x'.accounts.challenges.find id = some c →
    x.accounts.challenges.find id = none →
    id ∉ x.retired ∧ ∃ a, x'.accounts.account c.subject = some a ∧ c.revision = a.revision
  retired : ∀ id ∈ x.retired, id ∈ x'.retired

theorem step_later (hfresh : x.Fresh action) (h : x.step env action = some x') : Later x x' := by
  cases Step.of_step h with
  | @call call inputs =>
    have hcalled := called_of_change (call.run_change env inputs x.store)
      fun n id hid ↦ (hfresh n id hid).1
    refine ⟨hcalled.account, fun id o ho ↦ .inl (hcalled.challenges.kept id o ho),
      fun id c hc hnone ↦ ?_, fun id hid ↦ hid⟩
    obtain ⟨haccount, n, hn⟩ := hcalled.challenges.fresh id c hc hnone
    have hid : c.id = id := Table.key_eq_of_find hc
    exact ⟨hid ▸ (hfresh n c.id hn).2, haccount⟩
  | service =>
    exact ⟨fun _ a ha ↦ ⟨a, ha, le_rfl⟩, fun _ o ho ↦ .inl ⟨o, ho, rfl, fun h ↦ h⟩,
      fun id c hc hnone ↦ (nomatch hc.symm.trans hnone), fun id hid ↦ hid⟩
  | @enroll row _ hinsert =>
    refine ⟨fun subject a ha ↦ ⟨a, ?_, le_rfl⟩, fun id o ho ↦ .inl ⟨o, ho, rfl, fun h ↦ h⟩,
      fun id c hc hnone ↦ (nomatch hc.symm.trans hnone), fun id hid ↦ hid⟩
    have hne : row.subject ≠ subject := by
      rintro rfl
      rw [Accounts.account, (Table.insert_eq_some hinsert).1] at ha
      cases ha
    rw [← ha, Accounts.account, Table.find_insert hinsert, if_neg hne]
    rfl
  | @sweep now ids =>
    have hfind := fun id ↦ x.accounts.challenges.find_delete (fun id ↦ decide (id ∈ ids)) id
    refine ⟨fun subject a ha ↦ ⟨a, ha, le_rfl⟩, fun id o ho ↦ ?_, fun id c hc hnone ↦ ?_,
      fun id hid ↦ List.mem_append_left _ hid⟩
    · by_cases hid : id ∈ ids
      · exact .inr ⟨(hfind id).trans (if_pos (decide_eq_true hid)),
          List.mem_append_right _ hid⟩
      · exact .inl ⟨o, (hfind id).trans ((if_neg (by simpa using hid)).trans ho), rfl,
          fun h ↦ h⟩
    · have hc' := (hfind id).symm.trans hc
      rw [hnone] at hc'
      split at hc' <;> cases hc'

/-- What a run keeps of the accounts and the challenges: a challenge that is there in the end is the
one that was there. -/
structure Kept (x x' : System) : Prop where
  account : ∀ subject a, x.accounts.account subject = some a →
    ∃ a', x'.accounts.account subject = some a' ∧ a.revision ≤ a'.revision
  challenge : ∀ id c, x.accounts.challenges.find id = some c →
    (∃ c', x'.accounts.challenges.find id = some c' ∧ c'.origin = c.origin ∧
      (c.usedAt.isSome = true → c'.usedAt.isSome = true)) ∨
    x'.accounts.challenges.find id = none ∧ id ∈ x'.retired

theorem Kept.refl (x : System) : Kept x x :=
  ⟨fun _ a ha ↦ ⟨a, ha, le_rfl⟩, fun _ c hc ↦ .inl ⟨c, hc, rfl, fun h ↦ h⟩⟩

theorem Kept.later {x''} (h : Kept x x') (h' : Later x' x'') : Kept x x'' := by
  refine ⟨fun subject a ha ↦ ?_, fun id c hc ↦ ?_⟩
  · obtain ⟨a', ha', hle⟩ := h.account subject a ha
    obtain ⟨a'', ha'', hle'⟩ := h'.account subject a' ha'
    exact ⟨a'', ha'', hle.trans hle'⟩
  · rcases h.challenge id c hc with ⟨c', hc', horigin, hused⟩ | ⟨hnone, hretired⟩
    · refine (h'.kept id c' hc').imp_left ?_
      rintro ⟨c'', hc'', horigin', hused'⟩
      exact ⟨c'', hc'', horigin'.trans horigin, fun hu ↦ hused' (hused hu)⟩
    · -- the identifier of a challenge that was deleted is not drawn again
      refine .inr ⟨?_, h'.retired id hretired⟩
      by_contra hsome
      obtain ⟨d, hd⟩ := Option.ne_none_iff_exists'.mp hsome
      exact (h'.fresh id d hd hnone).1 hretired

/-- A state that is reached with fresh identifiers. -/
abbrev Reaches (env : Security) : System → System → Prop :=
  Machine.Reach (step env) Fresh

theorem kept (h : Reaches env x x') : Kept x x' :=
  h.invariant (P := Kept x) (.refl _)
    fun _ _ _ _ hkept hfresh hstep ↦ hkept.later (step_later hfresh hstep)

/-- A challenge that is there before and after a run. -/
theorem origin_eq {id c c'} (h : Reaches env x x') (hc : x.accounts.challenges.find id = some c)
    (hc' : x'.accounts.challenges.find id = some c') :
    c'.origin = c.origin ∧ (c.usedAt.isSome = true → c'.usedAt.isSome = true) := by
  rcases (kept h).challenge id c hc with ⟨d, hd, horigin⟩ | ⟨hnone, -⟩
  · cases hc'.symm.trans hd
    exact horigin
  · cases hc'.symm.trans hnone

/-- A challenge is of a revision that its account has had. -/
def Dated (t : Accounts) : Prop :=
  ∀ id c, t.challenges.find id = some c →
    ∃ a, t.account c.subject = some a ∧ c.revision ≤ a.revision

theorem Dated.later (hd : Dated x.accounts) (h : Later x x') : Dated x'.accounts := by
  intro id c hc
  cases hold : x.accounts.challenges.find id with
  | none =>
    obtain ⟨-, a, ha, hrevision⟩ := h.fresh id c hc hold
    exact ⟨a, ha, hrevision.le⟩
  | some o =>
    rcases h.kept id o hold with ⟨c', hc', horigin, -⟩ | ⟨hnone, -⟩
    · cases hc.symm.trans hc'
      obtain ⟨a, ha, hle⟩ := hd id o hold
      obtain ⟨a', ha', hle'⟩ := h.account _ a ha
      have hsubject : c.subject = o.subject := congrArg Origin.subject horigin
      have hrevision : c.revision = o.revision := congrArg Origin.revision horigin
      exact ⟨a', hsubject ▸ ha', hrevision ▸ hle.trans hle'⟩
    · cases hc.symm.trans hnone

theorem dated (h : Reaches env {} x) : Dated x.accounts :=
  h.invariant (fun _ _ hc ↦ by cases hc)
    fun _ _ _ _ hd hfresh hstep ↦ hd.later (step_later hfresh hstep)

end System

end MarketMesh.Auth
