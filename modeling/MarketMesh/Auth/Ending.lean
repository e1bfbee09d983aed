import MarketMesh.Auth.Factors

/-!
# The end of the sessions of an account

A change of the password, of the address or of the login code, and a logout everywhere, revoke all
sessions of the account in the transaction that makes the change.  A call of the session service
that starts later finds them revoked (`SeenRevoked`, `Barred`), and a session that is created later
rests on credentials that were checked after the change: the revision of the account is another one,
so no challenge from before is accepted, and no registration is either.
-/

set_option autoImplicit false

namespace MarketMesh.Auth

/-- The calls that end all sessions of an account. -/
def Call.endsSessions : Call → Bool
  | .resetPassword .. | .changePassword .. | .confirmEmailChange .. | .completeCodeChange ..
  | .logoutAll .. => true
  | _ => false

theorem Call.isPassive_of_endsSessions {call : Call} (h : call.endsSessions = true) :
    call.isPassive = false := by
  cases call <;> first | rfl | cases h

/-- A call that ends the sessions revokes those of the account it is about. -/
theorem Deed.ends {env : Security} {inputs : Inputs} {s : Store} {a a' : Account} {call : Call}
    {saves : List Challenge} {effect : SessionEffect} {subject : SubjectID}
    (h : Deed env inputs s.accounts.challenges a call true a' saves effect)
    (hcall : call.endsSessions = true) (howner : call.owner s = some subject) :
    a.subject = subject ∧ ∃ now, effect = .ended a now := by
  have hfence (hfence : call.isFence = true) : a.subject = subject :=
    Option.some.inj ((h.owner_eq (.inl hfence)).symm.trans howner)
  cases h with
  | quiet hpassive => cases (Call.isPassive_of_endsSessions hcall).symm.trans (hpassive rfl)
  | reset | changedPassword | confirmedEmailChange | completedCodeChange =>
    exact ⟨hfence rfl, _, rfl⟩
  | loggedOut h => exact ⟨h.trans (Option.some.inj howner), _, rfl⟩
  | _ => cases hcall

/-! ## The calls of the session service -/

/-- The session is there, and it is revoked. -/
def SessionTables.Ended (t : SessionTables) (id : SessionID) : Prop :=
  ∃ row, t.sessions.find id = some row ∧ row.record.revokedAt.isSome = true

theorem SessionTables.Ended.isSome {t : SessionTables} {id : SessionID} {row : SessionRow}
    (h : t.Ended id) (hrow : t.sessions.find id = some row) :
    row.record.revokedAt.isSome = true := by
  obtain ⟨row', hrow', hrevoked⟩ := h
  cases hrow.symm.trans hrow'
  exact hrevoked

/-- What a call of the session service has been told about a session is that it is revoked. -/
def ReaderPc.SeenRevoked (pc : ReaderPc) : Prop :=
  pc.accepted = none ∧ ∀ record, pc.record = some record → record.revokedAt.isSome = true

/-- A call that mints tokens for a revoked session has not come to publish them. -/
inductive IssuerPc.Barred (id : SessionID) : IssuerPc → Prop
  | prepared : Barred id .prepared
  | created : Barred id .created
  | activating {record} (h : record.revokedAt.isSome = true) :
      Barred id (.activating record)
  | refreshing {previous now} (h : previous.id = id) :
      Barred id (.refreshing previous now)
  | ended : Barred id .ended

/-- `Activate` has asked Redis to store the access token, or `Refresh` has exchanged the tokens. -/
def IssuerPc.isGranted : IssuerPc → Bool
  | .activated _ | .rotated .. | .refreshed _ => true
  | _ => false

theorem IssuerPc.Barred.isGranted_eq {id : SessionID} {pc : IssuerPc} (h : pc.Barred id) :
    pc.isGranted = false := by
  cases h <;> rfl

namespace Service

variable {sha256 : Bytes → Digest} {s s' : Service} {id : SessionID}

theorem ReaderStep.seenRevoked {x : Reader} {pc : ReaderPc} (h : ReaderStep sha256 s x pc)
    (hended : s.tables.Ended x.token.id) (hx : x.pc.SeenRevoked) : pc.SeenRevoked := by
  cases h with
  | found hpc hfind =>
    obtain ⟨row, hrow, rfl⟩ := find_eq_ok hfind
    refine ⟨rfl, fun record h ↦ ?_⟩
    cases h
    exact hended.isSome hrow
  | read hpc => exact ⟨rfl, fun record h ↦ hx.2 record (by rw [hpc]; exact h)⟩
  | succeeded hpc hcheck =>
    -- a record that is revoked is not active
    have := hx.2 _ (by rw [hpc]; rfl)
    rw [hcheck.1.2.2.2.1] at this
    cases this
  | revoked hpc =>
    rw [ReaderPc.SeenRevoked, hpc] at hx
    cases hx.1
  | failed => exact ⟨rfl, nofun⟩

theorem Change.seenRevoked (h : Change sha256 s s') {r : Nat} (hended : s.tables.Ended id)
    (hs : ∀ x, s.readers[r]? = some x → x.token.id = id → x.pc.SeenRevoked) :
    ∀ x, s'.readers[r]? = some x → x.token.id = id → x.pc.SeenRevoked := by
  intro x hx hid
  have hreads := h.reads
  generalize s'.readers = readers at hreads hx
  cases hreads with
  | same => exact hs x hx hid
  | called =>
    obtain ⟨-, rfl⟩ | hx := Pool.of_append hx
    · exact ⟨rfl, nofun⟩
    · exact hs x hx hid
  | @moved j y pc hy hpc =>
    obtain ⟨rfl, rfl⟩ | ⟨-, hx⟩ := Pool.of_set hx
    · exact hpc.seenRevoked (hid ▸ hended) (hs y hy hid)
    · exact hs x hx hid

theorem Change.barred (h : Change sha256 s s') {i : Nat} (hended : s.tables.Ended id)
    (hs : ∀ x, s.issuers[i]? = some x → x.tokens.record.id = id → x.pc.Barred id) :
    ∀ x, s'.issuers[i]? = some x → x.tokens.record.id = id → x.pc.Barred id := by
  intro x hx hid
  have hset {j : Nat} {y : Issuer} {pc : IssuerPc} (hy : s.issuers[j]? = some y)
      (hpc : y.tokens.record.id = id → y.pc.Barred id → pc.Barred id)
      (hx : (s.issuers.set j { y with pc := pc })[i]? = some x) : x.pc.Barred id := by
    obtain ⟨rfl, rfl⟩ | ⟨-, hx⟩ := Pool.of_set hx
    · exact hpc hid (hs y hy hid)
    · exact hs x hx hid
  cases h with
  | @entered pc record secrets tokens hmint hpc =>
    obtain ⟨-, rfl⟩ | hx := Pool.of_append hx
    · have hrecord := (mint_eq_some hmint).1
      obtain rfl | ⟨previous, now, rfl, hprevious⟩ := hpc
      · exact .prepared
      · exact .refreshing (hprevious.trans (hrecord ▸ hid))
    · exact hs x hx hid
  | committed h =>
    cases h with
    | @inserted j y sessions hy hpc hinsert =>
      refine hset hy (fun hid' _ ↦ ?_) hx
      -- the identifier of the session is taken
      have hnone : s.tables.sessions.find y.tokens.record.id = none :=
        (Table.insert_eq_some hinsert).1
      obtain ⟨row, hrow, -⟩ := hended
      rw [hid', hrow] at hnone
      cases hnone
    | @rotated j y previous now next tables record hy hpc hr =>
      refine hset hy (fun _ hbarred ↦ ?_) hx
      rw [hpc] at hbarred
      cases hbarred with
      | refreshing hprevious =>
        cases hr with
        | exchanged hrow _ hactive =>
          have hrevoked := hended.isSome (hprevious ▸ hrow)
          rw [hactive.2.2.2.1] at hrevoked
          cases hrevoked
  | @activating j y record hy hpc hfind =>
    refine hset hy (fun hid' _ ↦ ?_) hx
    obtain ⟨row, hrow, rfl⟩ := find_eq_ok hfind
    exact .activating (hended.isSome (hid' ▸ hrow))
  | @published j y pc record now hy hpc =>
    refine hset hy (fun _ hbarred ↦ ?_) hx
    obtain ⟨hpc, rfl, -, -, hactive⟩ | ⟨hpc, rfl⟩ := hpc
    · rw [hpc] at hbarred
      cases hbarred with
      | activating h =>
        rw [hactive] at h
        cases h
    · rw [hpc] at hbarred
      cases hbarred
  | ended hy => exact hset hy (fun _ _ ↦ .ended) hx
  | _ => exact hs x hx hid

end Service

namespace System

variable {env : Security} {inputs : Inputs} {x y z b : System} {call : Call} {action : Action}
  {id : SessionID} {row : SessionRow} {subject : SubjectID}

theorem step_seenRevoked (h : x.step env action = some y) {r : Nat}
    (hended : x.service.tables.Ended id)
    (hx : ∀ rd, x.service.readers[r]? = some rd → rd.token.id = id → rd.pc.SeenRevoked) :
    ∀ rd, y.service.readers[r]? = some rd → rd.token.id = id → rd.pc.SeenRevoked := by
  cases Step.of_step h with
  | call =>
    have hreaders : ∀ out, (served x.service out).readers = x.service.readers := by
      intro out
      rw [served]
      split <;> rfl
    rw [settle, hreaders]
    exact hx
  | service _ hs => exact (Service.step_change hs).seenRevoked hended hx
  | enroll | sweep => exact hx

theorem step_barred (h : x.step env action = some y) {i : Nat}
    (hended : x.service.tables.Ended id)
    (hx : ∀ is, x.service.issuers[i]? = some is → is.tokens.record.id = id → is.pc.Barred id) :
    ∀ is, y.service.issuers[i]? = some is → is.tokens.record.id = id → is.pc.Barred id := by
  cases Step.of_step h with
  | @call call inputs =>
    intro is his hid
    have hserved : (served x.service (call.run env inputs x.store)).issuers[i]? = some is := his
    rw [served] at hserved
    split at hserved
    · exact hx is hserved hid
    · obtain ⟨-, rfl⟩ | hserved := Pool.of_append hserved
      · dsimp only
        split
        · exact .created
        · exact .ended
      · exact hx is hserved hid
  | service _ hs => exact (Service.step_change hs).barred hended hx
  | enroll | sweep => exact hx

theorem ended_later (h : Reaches env z x) (hended : z.service.tables.Ended id) :
    x.service.tables.Ended id := by
  obtain ⟨row, hrow, hrevoked⟩ := hended
  obtain ⟨row', hrow', hlater⟩ := row_later h hrow
  exact ⟨row', hrow', hlater.revoked hrevoked⟩

/-- What holds of a state with a revoked session, and is kept by every step from such a state, holds
later. -/
theorem invariant_of_ended {P : System → Prop} (hz : P z) (hended : z.service.tables.Ended id)
    (hstep : ∀ x action y, x.step env action = some y → x.service.tables.Ended id → P x → P y)
    (h : Reaches env z x) : P x :=
  h.invariant hz fun y action y' hreach hy _ hs ↦
    hstep y action y' hs (ended_later hreach hended) hy

/-! ## After the change -/

/-- A call that ends the sessions of an account has revoked those it had, and created none. -/
theorem ended (h : call.Commits env inputs b.store)
    (hcall : call.endsSessions = true) (howner : call.owner b.store = some subject) :
    ∃ now, (b.settle (call.run env inputs b.store)).service.tables =
      b.service.tables.revokeWhere (fun row ↦ true && row.record.subjectID = subject) now
        "credential_change" := by
  obtain ⟨a, a', saves, effect, -, hdeed, -, -, hsessions⟩ :=
    h.deed (Call.isPassive_of_endsSessions hcall)
  obtain ⟨rfl, now, rfl⟩ := hdeed.ends hcall howner
  exact ⟨now, (sessions_settle ..).trans (Option.some.inj hsessions).symm⟩

/-- The links that are bound to a browser are of no later revision than the account had when it was
there first. -/
theorem bound_le {a} (hb : Reaches env {} b)
    (ha : b.accounts.account subject = some a) (h : Reaches env b x) :
    ∀ id c, x.accounts.challenges.find id = some c → c.subject = subject →
      c.registrationDigest ≠ zeroDigest → c.revision ≤ a.revision := by
  refine h.invariant ?_ ?_
  · rintro id c hc rfl -
    obtain ⟨a', ha', hle⟩ := dated hb id c hc
    cases ha.symm.trans ha'
    exact hle
  · intro y action y' hreach hy hfresh hstep id c hc hsubject hne
    rcases step_bound hfresh hstep hc hne with ⟨id', o, ho, hosubject, hdigest, hrevision⟩ |
      ⟨call, inputs, -, _, _, _, -, hnone, -⟩
    · exact hrevision ▸ hy id' o ho (hosubject.trans hsubject) (hdigest ▸ hne)
    · -- an account that is there is not registered again
      obtain ⟨a', ha', -⟩ := (kept hreach).account subject a ha
      rw [hsubject, ha'] at hnone
      cases hnone

/-- What a session that is created after the change rests on. -/
theorem grounds_after {a a' call' inputs' pre ok saves tokens}
    (hb : Reaches env {} b) (hfresh : b.Fresh (.call call inputs))
    (h : call.Commits env inputs b.store) (hcall : call.endsSessions = true)
    (hfence : call.isFence = true) (howner : call.owner b.store = some subject)
    (hruns : Runs env (b.settle (call.run env inputs b.store)) pre x)
    (ha : x.accounts.account a.subject = some a) (hsubject : a.subject = subject)
    (hdeed : Deed env inputs' x.accounts.challenges a call' ok a' saves (.created tokens)) :
    Grounds env (b.settle (call.run env inputs b.store)) pre x inputs' a call' := by
  have hstep : b.step env (.call call inputs) = some _ := rfl
  obtain ⟨old, new, hold, hnew, hraised⟩ := fenced h hfence howner
  -- the account has had another revision ever since
  have hlt : old.revision < a.revision := by
    obtain ⟨a₁, ha₁, hle⟩ := (kept hruns.reach).account subject new hnew
    rw [hsubject] at ha
    cases ha.symm.trans ha₁
    omega
  cases hdeed with
  | loggedIn hpassword _ hverified hcode => exact .password hpassword hverified hcode
  | @completedLogin id code c _ _ hc husable hdigest hverified hcode =>
    refine .code hc husable hdigest hverified hcode (loggedIn hruns ?_ hc husable.purpose_eq)
    by_contra hsome
    obtain ⟨o, ho⟩ := Option.ne_none_iff_exists'.mp hsome
    have horigin := (origin_eq hruns.reach ho hc).1
    have hosubject : c.subject = o.subject := congrArg Origin.subject horigin
    have hopurpose : c.purpose = o.purpose := congrArg Origin.purpose horigin
    have horevision : c.revision = o.revision := congrArg Origin.revision horigin
    have husubject := husable.subject_eq
    have hurevision := husable.revision_eq
    have hoid : o.id = id := Table.key_eq_of_find ho
    cases hbefore : b.accounts.challenges.find id with
    | some o' =>
      have horigin' := (origin_eq (.next .start hfresh hstep) hbefore ho).1
      have hosubject' : o.subject = o'.subject := congrArg Origin.subject horigin'
      have horevision' : o.revision = o'.revision := congrArg Origin.revision horigin'
      obtain ⟨a₀, ha₀, hle⟩ := dated hb id o' hbefore
      rw [← hosubject', ← hosubject, husubject, hsubject] at ha₀
      cases hold.symm.trans ha₀
      omega
    | none =>
      obtain ⟨_, _, haction, hcreates⟩ := step_creates hfresh hstep hbefore ho
      cases haction
      obtain ⟨_, _, _, _, _, rfl, -⟩ := hcreates.login (hopurpose.symm.trans husable.purpose_eq)
        (show b.accounts.challenges.find o.id = none from hoid.symm ▸ hbefore)
      cases hcall
  | @confirmedRegistration _ _ c _ _ hc _ _ heffect =>
    rcases heffect with heffect | ⟨_, heffect, -, hne, -⟩ <;> cases heffect
    obtain ⟨id, _, -, hfind, husable, -⟩ := hc
    have hle := bound_le hb hold ((Machine.Reach.next .start hfresh hstep).trans hruns.reach) id c
      hfind (husable.subject_eq.trans hsubject) hne
    have := husable.revision_eq
    omega

/-- **A change of the credentials ends every older session.**  Each session that the account had is
revoked from then on, with one row in the outbox, and neither an `Authenticate` nor a `Refresh` nor
an `Activate` that starts later succeeds with it.  Unless the change is a logout, each session that
the account gets later rests on a login that was made after the change. -/
theorem ended_of_commits {subject : SubjectID} (hb : Reaches env {} b)
    (hfresh : b.Fresh (.call call inputs)) (h : call.Commits env inputs b.store)
    (hcall : call.endsSessions = true) (howner : call.owner b.store = some subject)
    (hz : z = b.settle (call.run env inputs b.store)) :
    (∀ id row, b.service.tables.sessions.find id = some row → row.record.subjectID = subject →
      ∀ x, Reaches env z x →
        (∃ row', x.service.tables.sessions.find id = some row' ∧
          row'.record.revokedAt.isSome = true) ∧
        (x.service.tables.revocationsOf id).length = 1 ∧
        (∀ r rd, z.service.readers.length ≤ r → x.service.readers[r]? = some rd →
          rd.token.id = id → rd.pc.accepted = none) ∧
        ∀ i is, (z.service.issuers.length ≤ i ∨
            ∃ is₀, z.service.issuers[i]? = some is₀ ∧ is₀.pc = .created) →
          x.service.issuers[i]? = some is → is.tokens.record.id = id →
          is.pc.isGranted = false) ∧
    (call.isFence = true → ∀ as x id row, Runs env z as x →
      b.service.tables.sessions.find id = none →
      x.service.tables.sessions.find id = some row → row.record.subjectID = subject →
      ∃ pre b' call' inputs' a, Makes env z as x pre b' call' inputs' ∧
        b'.service.tables.sessions.find id = none ∧
        (b'.settle (call'.run env inputs' b'.store)).service.tables.sessions.find id ≠ none ∧
        b'.accounts.account a.subject = some a ∧ a.subject = subject ∧
        Grounds env z pre b' inputs' a call') := by
  obtain ⟨now, htables⟩ := ended h hcall howner
  rw [← hz] at htables
  have hfind := fun id ↦ (congrArg (fun t ↦ t.sessions.find id) htables).trans
    (b.service.tables.find_revokeWhere _ now "credential_change" id)
  have hreach : Reaches env {} z := hz ▸ hb.next hfresh rfl
  refine ⟨fun id row hrow hsubject x hx ↦ ?_, fun hfence as x id row hruns hnone hrow hsubject ↦ ?_⟩
  · have hended : z.service.tables.Ended id := by
      refine ⟨_, (hfind id).trans (by rw [hrow, Option.map_some]), ?_⟩
      cases hrevokedAt : row.record.revokedAt with
      | none => simp [hsubject, SessionRow.revoked]
      | some => simp [hrevokedAt]
    obtain ⟨row', hrow', hrevoked⟩ := ended_later hx hended
    refine ⟨⟨row', hrow', hrevoked⟩, ?_, ?_, ?_⟩
    · rw [reported (hreach.trans hx) id, hrow', Option.any_some, if_pos hrevoked]
    · intro r rd hr hrd hid
      refine (invariant_of_ended (P := fun y ↦ ∀ rd, y.service.readers[r]? = some rd →
        rd.token.id = id → rd.pc.SeenRevoked) (fun rd hrd ↦ ?_) hended
        (fun _ _ _ hs ↦ step_seenRevoked hs) hx rd hrd hid).1
      exact absurd (List.getElem?_eq_some_iff.mp hrd).1 (not_lt.mpr hr)
    · intro i is hi his hid
      refine (invariant_of_ended (P := fun y ↦ ∀ is, y.service.issuers[i]? = some is →
        is.tokens.record.id = id → is.pc.Barred id) (fun is his _ ↦ ?_) hended
        (fun _ _ _ hs ↦ step_barred hs) hx is his hid).isGranted_eq
      obtain hi | ⟨is₀, his₀, hpc⟩ := hi
      · exact absurd (List.getElem?_eq_some_iff.mp his).1 (not_lt.mpr hi)
      · cases his.symm.trans his₀
        exact hpc ▸ .created
  · have hnone' : z.service.tables.sessions.find id = none := by rw [hfind id, hnone]; rfl
    obtain ⟨pre, b', call', inputs', a, a', ok, saves, tokens, hmakes, hfirst, hsome, haccount,
      howns, hdeed⟩ := exists_created hruns hnone' hrow
    refine ⟨pre, b', call', inputs', a, hmakes, hfirst, hsome, haccount, howns.trans hsubject, ?_⟩
    subst hz
    exact grounds_after hb hfresh h hcall hfence howner hmakes.before haccount
      (howns.trans hsubject) hdeed

/-! The account that was confirmed asks for a link and resets its password. -/

def sampleAsked : System :=
  sampleConfirmed.settle ((Call.requestToken "a@b" .resetPassword).run sampleSecurity
    (sampleInputs 4) sampleConfirmed.store)

def sampleChange : Call :=
  .resetPassword (formatLink (sampleID 4) (encodeBase64 (List.replicate 32 4))) [112]

theorem reaches_sampleAsked : Reaches sampleSecurity {} sampleAsked := by
  refine Machine.Reach.next (a := .call (.requestToken "a@b" .resetPassword) (sampleInputs 4))
    runs_sampleConfirmed.reach ?_ rfl
  rintro n id h
  cases h
  decide +kernel

/-- The session of the registration is revoked, and reported once. -/
theorem ended_of_commits_sample : ((sampleAsked.settle (sampleChange.run sampleSecurity
    (sampleInputs 5) sampleAsked.store)).service.tables.revocationsOf (sampleID 3)).length = 1 := by
  obtain ⟨row, hrow, hsubject⟩ : ∃ row,
      sampleAsked.service.tables.sessions.find (sampleID 3) = some row ∧
        row.record.subjectID = sampleID 1 := by
    have hrow : (sampleAsked.service.tables.sessions.find (sampleID 3)).any
        (fun row ↦ row.record.subjectID = sampleID 1) = true := by decide +kernel
    simpa using (Option.any_eq_true _ _).mp hrow
  have hfresh : sampleAsked.Fresh (.call sampleChange (sampleInputs 5)) := by
    rintro n id h
    cases h
    decide +kernel
  have hcommits : sampleChange.Commits sampleSecurity (sampleInputs 5) sampleAsked.store :=
    ⟨nofun, by decide +kernel⟩
  exact ((ended_of_commits reaches_sampleAsked hfresh hcommits rfl (by decide +kernel) rfl).1 _ row
    hrow hsubject _ .start).2.1

end System

end MarketMesh.Auth
