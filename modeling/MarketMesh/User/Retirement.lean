import MarketMesh.User.Avatars

/-!
# Retired avatars

What a run of the avatars keeps.  The rules of `Optimistic.Rules` are about the profiles and the
changes: a file in the queue is not an avatar, and a change that has found its new file outside the
queue still finds it there when it commits, because the rows of an owner are inserted under the lock
of the profile.  `Leased` is about the workers: the token of a row is that of its last lease.
`avatar_retirement` says what they give together.
-/

set_option autoImplicit false

namespace MarketMesh.User.Avatars

open Validation Optimistic Machine

variable {S S' : Store} {W W' : World} {r : Request} {owner : SubjectID} {id : FileID}
  {key : SubjectID × FileID} {tx : Tx} {row' row : RetirementRow} {result : Avatar}
  {current : Avatar}

/-! ## The rows of the queue -/

theorem find_change (S : Store) (retired : Option RetirementRow) (key : SubjectID × FileID) :
    (S.change owner id retired).retirements.find key =
      match retired with
      | none => S.retirements.find key
      | some row =>
        if row.key = key then some ((S.retirements.find key).getD row)
        else S.retirements.find key := by
  cases retired with
  | none => rfl
  | some row => exact S.retirements.find_insert_getD row key

theorem profiles_change (S : Store) (retired : Option RetirementRow) :
    (S.change owner id retired).profiles =
      Function.update S.profiles owner ((S.profiles owner).map fun c ↦ c.replace id) := by
  cases retired <;> rfl

theorem isSome_change (S : Store) (retired : Option RetirementRow) (key : SubjectID × FileID) :
    ((S.change owner id retired).retirements.find key).isSome = true ↔
      (S.retirements.find key).isSome = true ∨ ∃ row, retired = some row ∧ row.key = key := by
  rw [find_change]
  cases retired with
  | none => simp
  | some row =>
    by_cases hkey : row.key = key
    · simp [hkey]
    · simp [hkey]

/-- An update of the row of one key under a condition. -/
theorem find_updateRows {p : RetirementRow → Prop} [DecidablePred p] {k}
    {f : RetirementRow → RetirementRow} (hf : ∀ row, (f row).key = row.key)
    (h : (W.updateRows (fun row ↦ row.key = k ∧ p row) f hf).store.retirements.find key =
      some row') :
    ∃ row, W.store.retirements.find key = some row ∧
      (row' = row ∨ row' = f row ∧ k = key ∧ p row) := by
  rw [World.updateRows, Table.find_update] at h
  obtain ⟨row, hrow, rfl⟩ := Option.map_eq_some_iff.mp h
  refine ⟨row, hrow, ?_⟩
  split_ifs with hp
  · obtain ⟨hkey, hp⟩ := of_decide_eq_true hp
    exact .inr ⟨rfl, hkey.symm.trans (Table.key_eq_of_find hrow), hp⟩
  · exact .inl rfl

/-! ## The changes -/

/-- What a change puts into the queue: the file that it replaces by another one. -/
def Replaces (r : Request) (current : Avatar) : Option RetirementRow → Prop
  | none => current.fileID = zeroID ∨ current.fileID = r.fileID
  | some row => row.key = (r.owner, current.fileID) ∧ row.lease = none ∧ row.retiredAt = none ∧
      current.fileID ≠ r.fileID

/-- Two stores have the same avatar of an owner, and the same files of the owner in the queue. -/
def Agrees (o : SubjectID) (S S' : Store) : Prop :=
  S'.profiles o = S.profiles o ∧
    ∀ f, (S'.retirements.find (o, f)).isSome = (S.retirements.find (o, f)).isSome

/-- What a change has found: the present avatar, and no trace of the new one in the queue. -/
def Found (S : Store) (r : Request) (current : Avatar) : Prop :=
  decode r.owner (S.profiles r.owner) = .ok current ∧
    (r.fileID ≠ zeroID → (S.retirements.find (r.owner, r.fileID)).isSome = false)

def Tx.Knows (S : Store) (r : Request) : Tx → Prop
  | locked current => decode r.owner (S.profiles r.owner) = .ok current
  | vetted current => Found S r current
  | replaced retired => ∃ current, Found S r current ∧ Replaces r current retired

def Tx.Ready (S : Store) (r : Request) (tx : Tx) (result : Avatar) : Prop :=
  ∃ retired current, tx = .replaced retired ∧ Found S r current ∧ Replaces r current retired ∧
    decode r.owner ((S.change r.owner r.fileID retired).profiles r.owner) = .ok result

/-- The version of the avatar of an owner. -/
def Store.version (S : Store) (o : SubjectID) : Option Int := (S.profiles o).map Columns.version

/-- A file in the queue belongs to a profile, whose avatar it is not. -/
def Store.Good (S : Store) : Prop :=
  ∀ o f, (S.retirements.find (o, f)).isSome = true → ∃ c, S.profiles o = some c ∧ c.fileID ≠ some f

theorem Found.agrees (h : Found S r current) (hagrees : Agrees r.owner S S') :
    Found S' r current :=
  ⟨hagrees.1 ▸ h.1, fun hid ↦ (hagrees.2 _).trans (h.2 hid)⟩

theorem knows_agrees (hagrees : Agrees r.owner S S') (h : tx.Knows S r) :
    tx.Knows S' r := by
  match tx, h with
  | .locked current, h => exact (congrArg (decode r.owner) hagrees.1).trans h
  | .vetted current, h => exact Found.agrees h hagrees
  | .replaced retired, ⟨current, hfound, hretired⟩ =>
      exact ⟨current, hfound.agrees hagrees, hretired⟩

theorem ready_agrees (hagrees : Agrees r.owner S S')
    (h : tx.Ready S r result) : tx.Ready S' r result := by
  obtain ⟨retired, current, htx, hfound, hretired, hresult⟩ := h
  refine ⟨retired, current, htx, hfound.agrees hagrees, hretired, ?_⟩
  rw [profiles_change, Function.update_self] at hresult ⊢
  rwa [hagrees.1]

theorem decode_eq_ok {columns} (h : decode owner columns = .ok current) :
    ∃ c, columns = some c ∧ current.subjectID = owner ∧ current.version = c.version ∧
      (c.fileID = none ∧ current.fileID = zeroID ∨
        c.fileID = some current.fileID ∧ current.fileID ≠ zeroID) := by
  cases columns with
  | none => cases h
  | some c =>
    rw [decode] at h
    split_ifs at h
    split at h
    · rename_i hnone
      cases h
      exact ⟨c, rfl, rfl, rfl, .inl ⟨hnone, rfl⟩⟩
    · rename_i id hid
      split_ifs at h with hzero
      cases h
      exact ⟨c, rfl, rfl, rfl, .inr ⟨hid, hzero⟩⟩

theorem lock_eq_ok (h : lock S r = .ok tx) :
    S.version r.owner = some r.expected ∧ tx.Knows S r := by
  simp only [lock, bind_eq_ok, ensure_eq_ok] at h
  obtain ⟨current, hdecode, -, hversion, htx⟩ := h
  cases htx
  obtain ⟨c, hc, -, hcversion, -⟩ := decode_eq_ok hdecode
  exact ⟨by rw [Store.version, hc, Option.map_some, ← hcversion, hversion], hdecode⟩

theorem next_spec (now : Time) (hknows : tx.Knows S r) :
    match next S r now tx with
    | .ok (.more tx') => tx'.Knows S r
    | .ok (.ready tx' result) => tx'.Ready S r result
    | .error _ => True := by
  match tx, hknows with
  | .locked current, hdecode =>
    rw [next]
    split_ifs with hretired
    · trivial
    · exact ⟨hdecode, fun hid ↦ Bool.eq_false_iff.mpr fun hsome ↦ hretired ⟨hid, hsome⟩⟩
  | .vetted current, hfound =>
    rw [next]
    split_ifs with hreplaced
    · exact ⟨current, hfound, rfl, rfl, rfl, hreplaced.2⟩
    · exact ⟨current, hfound, or_iff_not_imp_left.mpr fun hzero ↦
        not_not.mp fun hne ↦ hreplaced ⟨hzero, hne⟩⟩
  | .replaced retired, ⟨current, hfound, hretired⟩ =>
    rw [next]
    cases hresult : decode r.owner ((S.change r.owner r.fileID retired).profiles r.owner) with
    | error => trivial
    | ok => exact ⟨retired, current, rfl, hfound, hretired, hresult⟩

/-- What a transaction leaves. -/
structure Effect (S S' : Store) (r : Request) (result : Avatar) (c : Columns) : Prop where
  before : S.profiles r.owner = some c
  version : c.version = r.expected
  after : S'.profiles r.owner = some (c.replace r.fileID)
  result_eq : result = { subjectID := r.owner, version := r.expected + 1, fileID := r.fileID }
  /-- The file that was the avatar still is, or is in the queue. -/
  kept : ∀ f, c.fileID = some f → (c.replace r.fileID).fileID = some f ∨
    (S'.retirements.find (r.owner, f)).isSome = true
  /-- The new avatar is not in the queue. -/
  vetted : ∀ f, (c.replace r.fileID).fileID = some f →
    (S'.retirements.find (r.owner, f)).isSome = false
  others : ∀ o, o ≠ r.owner → Agrees o S S'

theorem Tx.Ready.effect (h : tx.Ready W.store r result)
    (hv : W.store.version r.owner = some r.expected) :
    ∃ c, Effect W.store (W.commit r tx).store r result c := by
  obtain ⟨retired, current, rfl, ⟨hdecode, hnew⟩, hretired, hresult⟩ := h
  obtain ⟨c, hc, -, -, hfile⟩ := decode_eq_ok hdecode
  have hversion : c.version = r.expected := by
    rw [Store.version, hc] at hv
    exact Option.some_inj.mp hv
  have hafter : (W.store.change r.owner r.fileID retired).profiles r.owner =
      some (c.replace r.fileID) := by
    rw [profiles_change, Function.update_self, hc, Option.map_some]
  -- the inserted row is that of the file that was the avatar
  have hkey : ∀ row, retired = some row →
      row.key = (r.owner, current.fileID) ∧ current.fileID ≠ r.fileID := by
    rintro row rfl
    exact ⟨hretired.1, hretired.2.2.2⟩
  refine ⟨c, hc, hversion, hafter, ?_, ?_, ?_, ?_⟩
  · rw [hafter] at hresult
    obtain ⟨c', hc', howner, hv, hf⟩ := decode_eq_ok hresult
    cases hc'
    obtain ⟨o, v, f⟩ := result
    simp only [Columns.replace] at howner hv hf
    rw [howner, hv, hversion]
    by_cases hzero : r.fileID = zeroID
    · simp only [hzero, if_true, reduceCtorEq, false_and, or_false, true_and] at hf
      rw [hf, hzero]
    · simp only [hzero, if_false, reduceCtorEq, false_and, false_or, Option.some.injEq] at hf
      rw [hf.1]
  · intro f hf
    obtain ⟨hnone, -⟩ | ⟨hsome, hne⟩ := hfile
    · cases hnone.symm.trans hf
    · cases hsome.symm.trans hf
      cases retired with
      | none =>
        obtain hzero | hsame := hretired
        · exact absurd hzero hne
        · left
          rw [Columns.replace, ← hsame, if_neg hne]
      | some row => exact .inr ((isSome_change _ _ _).mpr (.inr ⟨row, rfl, hretired.1⟩))
  · intro f hf
    rw [Columns.replace] at hf
    split_ifs at hf with hzero
    cases hf
    rw [Bool.eq_false_iff]
    intro hsome
    obtain hold | ⟨row, hrow, hrowkey⟩ := (isSome_change _ _ _).mp hsome
    · rw [hnew hzero] at hold
      cases hold
    · obtain ⟨hkey, hne⟩ := hkey row hrow
      exact hne (Prod.mk.inj (hkey.symm.trans hrowkey)).2
  · intro o ho
    refine ⟨?_, fun f ↦ ?_⟩
    · rw [World.commit, profiles_change, Function.update_of_ne ho]
    · rw [World.commit, Bool.eq_iff_iff, isSome_change]
      refine or_iff_left ?_
      rintro ⟨row, hrow, hrowkey⟩
      exact ho (Prod.mk.inj ((hkey row hrow).1.symm.trans hrowkey)).1.symm

/-! ### The rules -/

theorem Store.Good.register (hS : S.Good) (hnone : S.profiles owner = none) :
    (S.register owner).Good ∧ ∀ o, o ≠ owner → Agrees o S (S.register owner) := by
  have hother : ∀ o, o ≠ owner → (S.register owner).profiles o = S.profiles o :=
    fun o ho ↦ Function.update_of_ne ho _ _
  refine ⟨fun o f hrow ↦ ?_, fun o ho ↦ ⟨hother o ho, fun _ ↦ rfl⟩⟩
  obtain ⟨c, hc, hne⟩ := hS o f hrow
  refine ⟨c, (hother o ?_).trans hc, hne⟩
  rintro rfl
  cases hnone.symm.trans hc

theorem Store.Good.commit (hS : W.store.Good) {c}
    (h : Effect W.store (W.commit r tx).store r result c) : (W.commit r tx).store.Good := by
  intro o f hrow
  by_cases ho : o = r.owner
  · subst ho
    exact ⟨_, h.after, fun hf ↦ Bool.false_ne_true ((h.vetted f hf).symm.trans hrow)⟩
  · obtain ⟨hprofile, hqueue⟩ := h.others o ho
    obtain ⟨c', hc', hne⟩ := hS o f ((hqueue f).symm.trans hrow)
    exact ⟨c', hprofile.trans hc', hne⟩

/-- What an event does: a profile is stored, or a worker makes a step. -/
inductive Happens (W : World) : World → Prop
  | registered {owner : SubjectID} (hnone : W.store.profiles owner = none) :
      Happens W { W with store := W.store.register owner }
  | started : Happens W { W with workers := W.workers ++ [.claiming] }
  | stopped {w} : Happens W (W.setWorker w .ended)
  | claimed {w now token answered row r} (hrow : W.store.retirements.find r.key = some row)
      (h : row.IsCandidate now) (htoken : r.leaseToken = token) :
      Happens W { (W.updateRows (fun row ↦ row.key = r.key) (.claim token now)
          (RetirementRow.key_claim token now)).setWorker w (World.claimed r answered) with
        claims := W.claims ++ [(w, r)] }
  | called {w r} (hw : W.workers[w]? = some (.claimed r)) :
      Happens W { W.setWorker w (.retiring r) with retires := W.retires ++ [(w, r)] }
  | succeeded {w r} (hw : W.workers[w]? = some (.retiring r)) :
      Happens W { W.setWorker w (.retired r) with successes := W.successes ++ [(w, r)] }
  | failed {w r} (hw : W.workers[w]? = some (.retiring r)) :
      Happens W (W.setWorker w (.failed r))
  | finished {w now r} (hw : W.workers[w]? = some (.retired r)) :
      Happens W ((W.updateRows (fun row ↦ row.key = r.key ∧ row.IsHeld r.leaseToken now)
        (.finish now) (RetirementRow.key_finish now)).setWorker w .ended)
  | retried {w now r} (hw : W.workers[w]? = some (.failed r)) :
      Happens W ((W.updateRows (fun row ↦ row.key = r.key ∧ row.IsHeld r.leaseToken now)
        (.retry (now + r.delay)) (RetirementRow.key_retry _)).setWorker w .ended)

theorem handle_happens {b} (h : W.handle b = some W') : Happens W W' := by
  cases b with simp only [World.handle] at h
  | register =>
    split_ifs at h with hnone
    cases h
    exact .registered hnone
  | start =>
    cases h
    exact .started
  | claim w now token key answered =>
    split at h
    · rename_i row hw hrow
      split_ifs at h with hcandidate
      cases h
      obtain rfl : row.key = key := Table.key_eq_of_find hrow
      exact .claimed (r := ⟨row.subjectID, row.fileID, token, _⟩) hrow hcandidate rfl
    · cases h
  | retire =>
    split at h <;> cases h
    exact .called (by assumption)
  | returned w isOk =>
    split at h
    · cases isOk <;> cases h
      · exact .failed (by assumption)
      · exact .succeeded (by assumption)
    · cases h
  | finish =>
    split at h <;> cases h
    exact .finished (by assumption)
  | retry =>
    split at h <;> cases h
    exact .retried (by assumption)
  | stop =>
    split at h <;> cases h
    exact .stopped

/-- A worker leaves the profiles alone, and neither adds a row nor removes one. -/
theorem Happens.agrees (h : Happens W W') :
    (∃ o, W.store.profiles o = none ∧ W'.store = W.store.register o) ∨
      ∀ o, Agrees o W.store W'.store := by
  cases h with
  | registered hnone => exact .inl ⟨_, hnone, rfl⟩
  | started | stopped | called | succeeded | failed => exact .inr fun o ↦ ⟨rfl, fun _ ↦ rfl⟩
  | claimed | finished | retried =>
    refine .inr fun o ↦ ⟨rfl, fun f ↦ ?_⟩
    simp only [World.setWorker, World.updateRows, Table.find_update, Option.isSome_map]

def rules : Rules spec where
  version W := W.store.version
  Same o W W' := Agrees o W.store W'.store
  Good W := W.store.Good
  Asked _ := True
  Knows W r tx := tx.Knows W.store r
  Ready W r tx result := tx.Ready W.store r result
  Harmless _ := True
  same_refl _ _ := ⟨rfl, fun _ ↦ rfl⟩
  same_version h := by rw [Store.version, h.1, Store.version]
  knows_same := knows_agrees
  ready_same := ready_agrees
  asked _ := trivial
  enter_error _ := trivial
  broken := trivial
  lock_ok _ _ h := lock_eq_ok h
  lock_error _ _ _ := trivial
  next_more {W r tx now} _ _ _ _ hknows h := by
    have hnext := next_spec now hknows
    rwa [Option.some_inj.mp h] at hnext
  next_ready {W r tx now} _ _ _ _ _ hknows h := by
    have hnext := next_spec now hknows
    rwa [Option.some_inj.mp h] at hnext
  next_error _ _ _ _ _ := trivial
  answer _ _ _ _ := rfl
  commit {W r tx x} hS _ hv h := by
    obtain ⟨c, heffect⟩ := h.effect hv
    refine ⟨hS.commit heffect, ?_, heffect.others⟩
    exact (congrArg (Option.map Columns.version) heffect.after).trans
      (congrArg some (congrArg (· + 1) heffect.version))
  env hS h := by
    obtain ⟨o, hnone, hstore⟩ | hagrees := (handle_happens h).agrees
    · rw [hstore]
      refine ⟨(hS.register hnone).1, fun o' ↦ ?_⟩
      by_cases ho : o' = o
      · exact .inr (by rw [ho, Store.version, hnone]; rfl)
      · exact .inl ((hS.register hnone).2 o' ho)
    · refine ⟨fun o f hrow ↦ ?_, fun o ↦ .inl (hagrees o)⟩
      rw [(hagrees o).1]
      exact hS o f (((hagrees o).2 f).symm.trans hrow)

/-! ## The queue in a run -/

variable {s s' t : System}

theorem Store.Good.not_wears (hS : S.Good)
    (hrow : (S.retirements.find (owner, id)).isSome = true) : ¬ S.Wears owner id := by
  rintro ⟨c, hc, hid⟩
  obtain ⟨c', hc', hne⟩ := hS owner id hrow
  cases hc.symm.trans hc'
  exact hne hid

/-- A row of the queue is never removed. -/
theorem isSome_evolves (h : Rules.Evolves rules W W')
    (hrow : (W.store.retirements.find key).isSome = true) :
    (W'.store.retirements.find key).isSome = true := by
  cases h with
  | same => exact hrow
  | env h =>
    obtain ⟨o, -, hstore⟩ | hagrees := (handle_happens h).agrees
    · rw [hstore]
      exact hrow
    · exact ((hagrees key.1).2 key.2).trans hrow
  | committed _ _ hready =>
    obtain ⟨retired, current, rfl, -⟩ := hready
    exact (isSome_change _ _ _).mpr (.inl hrow)

/-- An avatar that is replaced is in the queue. -/
theorem wears_evolves (h : Rules.Evolves rules W W') (hwears : W.store.Wears owner id) :
    W'.store.Wears owner id ∨ (W'.store.retirements.find (owner, id)).isSome = true := by
  obtain ⟨c, hc, hid⟩ := hwears
  cases h with
  | same => exact .inl ⟨c, hc, hid⟩
  | env h =>
    obtain ⟨o, hnone, hstore⟩ | hagrees := (handle_happens h).agrees
    · refine .inl ⟨c, ?_, hid⟩
      rw [hstore]
      refine (Function.update_of_ne ?_ _ _).trans hc
      rintro rfl
      cases hnone.symm.trans hc
    · exact .inl ⟨c, (hagrees owner).1.trans hc, hid⟩
  | @committed r tx result _ hversion hready =>
    obtain ⟨c', heffect⟩ := Tx.Ready.effect hready hversion
    by_cases ho : owner = r.owner
    · subst ho
      cases hc.symm.trans heffect.before
      exact (heffect.kept id hid).imp_left fun hkept ↦ ⟨_, heffect.after, hkept⟩
    · exact .inl ⟨c, (heffect.others owner ho).1.trans hc, hid⟩

/-- What every change of the world keeps is kept in a run. -/
theorem world_invariant {P : World → Prop} (hs : rules.Inv s)
    (h : Reach spec.step (fun _ _ ↦ True) s t) (hP : P s.store)
    (hnext : ∀ {W W'}, W.store.Good → Rules.Evolves rules W W' → P W → P W') : P t.store := by
  refine (h.invariant (P := fun t ↦ rules.Inv t ∧ P t.store) ⟨hs, hP⟩ ?_).2
  intro s a s' _ ⟨hs, hP⟩ _ hstep
  have hchange := step_change hstep
  exact ⟨hs.next hchange, hnext hs.good (hs.evolves hchange) hP⟩

theorem wears_of_reach (hs : rules.Inv s) (h : Reach spec.step (fun _ _ ↦ True) s t)
    (hwears : s.store.store.Wears owner id) :
    t.store.store.Wears owner id ∨
      (t.store.store.retirements.find (owner, id)).isSome = true := by
  refine world_invariant (P := fun W ↦ W.store.Wears owner id ∨
    (W.store.retirements.find (owner, id)).isSome = true) hs h (.inl hwears) ?_
  rintro W W' - hstep (hwears | hrow)
  · exact wears_evolves hstep hwears
  · exact .inr (isSome_evolves hstep hrow)

theorem isSome_of_reach (hs : rules.Inv s) (h : Reach spec.step (fun _ _ ↦ True) s t)
    (hrow : (s.store.store.retirements.find key).isSome = true) :
    (t.store.store.retirements.find key).isSome = true :=
  world_invariant (P := fun W ↦ (W.store.retirements.find key).isSome = true) hs h hrow
    fun _ hstep hrow ↦ isSome_evolves hstep hrow

/-! ## The workers -/

/-- The row that a worker has leased. -/
def WorkerPc.record : WorkerPc → Option Retirement
  | .claiming | .ended => none
  | .claimed r | .retiring r | .retired r | .failed r => some r

/-- The leases that were given for a file, in their order. -/
def World.claimsOf (W : World) (key : SubjectID × FileID) : List (Nat × Retirement) :=
  W.claims.filter fun x ↦ x.2.key = key

/-- Where a row comes from. -/
inductive RowOf (W W' : World) (key : SubjectID × FileID) (row' : RetirementRow) : Prop
  | same (hrow : W.store.retirements.find key = some row')
      (hclaims : W'.claimsOf key = W.claimsOf key)
  | queued (hnone : W.store.retirements.find key = none) (hlease : row'.lease = none)
      (hopen : row'.retiredAt = none)
  | claimed {row w r now}
      (hrow : W.store.retirements.find key = some row) (hopen : row.retiredAt = none)
      (h : row' = row.claim r.leaseToken now) (hclaims : W'.claimsOf key = W.claimsOf key ++
        [(w, r)])
  | finished {row : RetirementRow} {w : Nat} {r : Retirement} {now : Time}
      (hrow : W.store.retirements.find key = some row) (hw : W.workers[w]? = some (.retired r))
      (hkey : r.key = key) (hheld : row.IsHeld r.leaseToken now) (h : row' = row.finish now)
  | retried {row next} (hrow : W.store.retirements.find key = some row)
      (hopen : row.retiredAt = none) (h : row' = row.retry next)

theorem row_of (h : Rules.Evolves rules W W')
    (hrow' : W'.store.retirements.find key = some row') : RowOf W W' key row' := by
  cases h with
  | same => exact .same hrow' rfl
  | committed _ _ hready =>
    obtain ⟨retired, current, rfl, -, hretired, -⟩ := hready
    replace hrow' := (find_change W.store retired key).symm.trans hrow'
    cases retired with
    | none => exact .same hrow' rfl
    | some =>
      dsimp only at hrow'
      split_ifs at hrow'
      · cases hfind : W.store.retirements.find key with
        | none =>
          rw [hfind] at hrow'
          cases hrow'
          exact .queued hfind hretired.2.1 hretired.2.2.1
        | some =>
          rw [hfind] at hrow'
          cases hrow'
          exact .same hfind rfl
      · exact .same hrow' rfl
  | env h =>
    cases handle_happens h with
    | registered | started | stopped | called | succeeded | failed => exact .same hrow' rfl
    | @claimed w now token answered row r hrow hcandidate htoken =>
      by_cases hkey : r.key = key
      · subst hkey
        rw [World.setWorker, World.updateRows, Table.find_update_of_find _ hrow
          (decide_eq_true (Table.key_eq_of_find hrow))] at hrow'
        cases hrow'
        have hclaims : W.claims.filter (fun x ↦ x.2.key = r.key) ++ [(w, r)] =
            (W.claims ++ [(w, r)]).filter fun x ↦ x.2.key = r.key := by
          simp
        exact .claimed hrow hcandidate.1 (show row.claim token now = row.claim r.leaseToken now by
          rw [htoken]) hclaims.symm
      · rw [World.setWorker, World.updateRows, Table.find_update_of_forall _ fun row hrow ↦
          decide_eq_false ((Table.key_eq_of_find hrow).symm ▸ Ne.symm hkey)] at hrow'
        exact .same hrow' (by simp [World.claimsOf, hkey])
    | @finished w now r hw =>
      obtain ⟨row, hrow, rfl | ⟨rfl, hkey, hheld⟩⟩ := find_updateRows _ hrow'
      · exact .same hrow rfl
      · exact .finished hrow hw hkey hheld rfl
    | retried =>
      obtain ⟨row, hrow, rfl | ⟨rfl, hkey, hheld⟩⟩ := find_updateRows _ hrow'
      · exact .same hrow rfl
      · exact .retried hrow hheld.2 rfl

/-- What holds of the workers: they have what they have leased, and the token of a row is that of
its last lease. -/
structure Leased (W : World) : Prop where
  record : ∀ (w : Nat) (pc : WorkerPc) (r : Retirement), W.workers[w]? = some pc →
    pc.record = some r → (w, r) ∈ W.claims
  queued : ∀ x ∈ W.claims, (W.store.retirements.find x.2.key).isSome = true
  retires : ∀ x ∈ W.retires, x ∈ W.claims
  succeeded : ∀ w r, W.workers[w]? = some (.retired r) → (w, r) ∈ W.successes
  last : ∀ key row l, W.store.retirements.find key = some row → row.lease = some l →
    ∃ x, (W.claimsOf key).getLast? = some x ∧ x.2.leaseToken = l.token

theorem Leased.last_next (hl : Leased W) (h : Rules.Evolves rules W W')
    {l} (hrow : W'.store.retirements.find key = some row)
    (hlease : row.lease = some l) :
    ∃ x, (W'.claimsOf key).getLast? = some x ∧ x.2.leaseToken = l.token := by
  cases row_of h hrow with
  | same hrow hclaims => exact hclaims ▸ hl.last key row l hrow hlease
  | queued _ hnone => cases hnone.symm.trans hlease
  | @claimed row w r now _ _ h hclaims =>
    subst h
    cases hlease
    exact ⟨(w, r), by simp [hclaims], rfl⟩
  | finished _ _ _ _ h | retried _ _ h =>
    subst h
    cases hlease

/-- A worker that is set to another place. -/
theorem Leased.worker (hl : Leased W) (w : Nat) (pc : WorkerPc)
    {claims successes} (hclaims : W.claims ⊆ claims)
    (hsuccesses : W.successes ⊆ successes) (hpc : ∀ r, pc.record = some r → (w, r) ∈ claims)
    (hretired : ∀ r, pc = .retired r → (w, r) ∈ successes) :
    (∀ (w' : Nat) (pc' : WorkerPc) (r : Retirement), (W.workers.set w pc)[w']? = some pc' →
      pc'.record = some r → (w', r) ∈ claims) ∧
    ∀ w' r, (W.workers.set w pc)[w']? = some (.retired r) → (w', r) ∈ successes := by
  refine ⟨fun w' pc' r hw hr ↦ ?_, fun w' r hw ↦ ?_⟩
  · obtain ⟨rfl, rfl⟩ | ⟨-, hw⟩ := Pool.of_set hw
    · exact hpc r hr
    · exact hclaims (hl.record w' pc' r hw hr)
  · obtain ⟨rfl, heq⟩ | ⟨-, hw⟩ := Pool.of_set hw
    · exact hretired r heq.symm
    · exact hsuccesses (hl.succeeded w' r hw)

theorem Leased.next (hl : Leased W) (h : Rules.Evolves rules W W') : Leased W' := by
  have hkept : ∀ x ∈ W.claims, (W'.store.retirements.find x.2.key).isSome = true := fun x hx ↦
    isSome_evolves h (hl.queued x hx)
  have hlast : ∀ key row l, W'.store.retirements.find key = some row → row.lease = some l →
      ∃ x, (W'.claimsOf key).getLast? = some x ∧ x.2.leaseToken = l.token :=
    fun key row l ↦ hl.last_next h
  cases h with
  | same => exact hl
  | committed _ _ hready =>
    obtain ⟨retired, current, rfl, -⟩ := hready
    exact ⟨hl.record, hkept, hl.retires, hl.succeeded, hlast⟩
  | env h =>
    cases handle_happens h with
    | registered => exact ⟨hl.record, hkept, hl.retires, hl.succeeded, hlast⟩
    | started =>
      refine ⟨fun w pc r hw hpc ↦ ?_, hkept, hl.retires, fun w r hw ↦ ?_, hlast⟩
      · obtain ⟨-, rfl⟩ | hw := Pool.of_append hw
        · cases hpc
        · exact hl.record w pc r hw hpc
      · obtain ⟨-, ⟨⟩⟩ | hw := Pool.of_append hw
        exact hl.succeeded w r hw
    | stopped | finished | retried =>
      obtain ⟨hrecord, hsucceeded⟩ := hl.worker _ .ended (List.Subset.refl _)
        (List.Subset.refl _) nofun nofun
      exact ⟨hrecord, hkept, hl.retires, hsucceeded, hlast⟩
    | @claimed w now token answered row r hrow =>
      obtain ⟨hrecord, hsucceeded⟩ := hl.worker w (World.claimed r answered)
        (List.subset_append_left _ [(w, r)]) (List.Subset.refl _)
        (fun r' hr' ↦ by
          rw [World.claimed] at hr'
          split at hr' <;> cases hr'
          exact List.mem_append_right _ (List.mem_singleton_self _))
        (fun r' hr' ↦ by
          rw [World.claimed] at hr'
          split at hr' <;> cases hr')
      refine ⟨hrecord, fun x hx ↦ ?_, fun x hx ↦ List.mem_append_left _ (hl.retires x hx),
        hsucceeded, hlast⟩
      obtain hx | hx := List.mem_append.mp hx
      · exact hkept x hx
      · obtain rfl := List.mem_singleton.mp hx
        exact isSome_evolves (.env h) (by rw [hrow]; rfl)
    | @called w r hw =>
      obtain ⟨hrecord, hsucceeded⟩ := hl.worker w (.retiring r) (List.Subset.refl _)
        (List.Subset.refl _) (fun r' hr' ↦ hl.record w _ r' hw hr') nofun
      refine ⟨hrecord, hkept, fun x hx ↦ ?_, hsucceeded, hlast⟩
      obtain hx | hx := List.mem_append.mp hx
      · exact hl.retires x hx
      · obtain rfl := List.mem_singleton.mp hx
        exact hl.record w _ r hw rfl
    | @succeeded w r hw =>
      obtain ⟨hrecord, hsucceeded⟩ := hl.worker w (.retired r) (List.Subset.refl _)
        (List.subset_append_left _ [(w, r)]) (fun r' hr' ↦ hl.record w _ r' hw hr')
        (fun r' hr' ↦ by
          cases hr'
          exact List.mem_append_right _ (List.mem_singleton_self _))
      exact ⟨hrecord, hkept, hl.retires, hsucceeded, hlast⟩
    | @failed w r hw =>
      obtain ⟨hrecord, hsucceeded⟩ := hl.worker w (.failed r) (List.Subset.refl _)
        (List.Subset.refl _) (fun r' hr' ↦ hl.record w _ r' hw hr') nofun
      exact ⟨hrecord, hkept, hl.retires, hsucceeded, hlast⟩

/-! ## The guarantees -/

/-- What a step does to the profiles. -/
inductive Outcome (s s' : System) : Prop
  /-- Nothing, or it stores a new profile without an avatar; no change takes effect. -/
  | idle (hprofiles : s'.store.store.profiles = s.store.store.profiles ∨
        ∃ o, s.store.store.profiles o = none ∧
          s'.store.store.profiles = Function.update s.store.store.profiles o (some {}))
      (hcalls : ∀ (k : Nat) (call' : Call Request Tx Avatar Err), s'.calls[k]? = some call' →
        call'.hasCommitted = true → ∃ call, s.calls[k]? = some call ∧ call.hasCommitted = true)
  /-- Change `k` takes effect: the avatar of its owner is the new one, with the next version, and
  nobody else has another one.  It returns the new avatar unless the answer to `COMMIT` is lost. -/
  | changed {k call c} (hk : s.calls[k]? = some call ∧ call.hasCommitted = false)
      (hcalls : ∃ result, s'.calls =
          s.calls.set k { call with pc := .finished result, hasCommitted := true } ∧
        (result = .ok { subjectID := call.request.owner, version := call.request.expected + 1
                        fileID := call.request.fileID } ∨ result = .error .database))
      (hbefore : s.store.store.profiles call.request.owner = some c)
      (hversion : c.version = call.request.expected)
      (hafter : s'.store.store.profiles call.request.owner = some (c.replace call.request.fileID))
      (hothers : ∀ o, o ≠ call.request.owner →
        s'.store.store.profiles o = s.store.store.profiles o)

theorem outcome (hs : rules.Inv s) (h : Change spec s s') : Outcome s s' := by
  obtain ⟨k, call, tx, x, hk, -, hready, hversion, ⟨result, hresult, hcalls⟩, hstore⟩ |
    ⟨hstore, hcalls⟩ := hs.outcome h
  · obtain ⟨c, heffect⟩ := Tx.Ready.effect hready hversion
    refine .changed hk ⟨result, hcalls, hresult.imp_left fun h ↦ heffect.result_eq ▸ h⟩
      heffect.before heffect.version ?_ fun o ho ↦ ?_
    · rw [hstore]
      exact heffect.after
    · rw [hstore]
      exact (heffect.others o ho).1
  · refine .idle ?_ hcalls
    obtain hstore | ⟨-, b, hb⟩ := hstore
    · exact .inl (by rw [hstore])
    · obtain ⟨o, hnone, hstore⟩ | hagrees := (handle_happens hb).agrees
      · exact .inr ⟨o, hnone, by rw [hstore]; rfl⟩
      · exact .inl (funext fun o ↦ (hagrees o).1)

theorem length_rows (S : Store) (h : (S.retirements.find key).isSome = true) :
    (S.retirements.rows.filter fun row ↦ row.key = key).length = 1 := by
  rw [Table.filter_key]
  obtain ⟨row, hrow⟩ := Option.isSome_iff_exists.mp h
  rw [hrow]
  rfl

/-- A retirement that is finished stays as it is. -/
theorem finished_evolves (h : Rules.Evolves rules W W')
    (hrow : W.store.retirements.find key = some row) (hdone : row.retiredAt ≠ none) :
    W'.store.retirements.find key = some row := by
  obtain ⟨row', hrow'⟩ := Option.isSome_iff_exists.mp
    (isSome_evolves h (show (W.store.retirements.find key).isSome = true by rw [hrow]; rfl))
  rw [hrow']
  cases row_of h hrow' with
  | same hsame => exact hsame.symm.trans hrow
  | queued hnone => cases hnone.symm.trans hrow
  | claimed hold hopen | retried hold hopen =>
    cases hold.symm.trans hrow
    exact absurd hopen hdone
  | finished hold _ _ hheld =>
    cases hold.symm.trans hrow
    exact absurd hheld.2 hdone

/-- The row is finished by a worker that holds it and for which `Retire` has succeeded. -/
def Finishes (W : World) (key : SubjectID × FileID) (row row' : RetirementRow) : Prop :=
  ∃ w now r, row' = row.finish now ∧ W.workers[w]? = some (.retired r) ∧ r.key = key ∧
    Lease.Held row.lease r.leaseToken now ∧ (w, r) ∈ W.successes ∧
    -- nobody has leased the row after the worker, as long as the tokens are distinct
    ((W.claims.map fun x ↦ x.2.leaseToken).Nodup → (W.claimsOf key).getLast? = some (w, r))

theorem Leased.finishes (hl : Leased W) (h : Rules.Evolves rules W W')
    (hrow : W.store.retirements.find key = some row)
    (hrow' : W'.store.retirements.find key = some row') (hopen : row.retiredAt = none)
    (hdone : row'.retiredAt ≠ none) : Finishes W key row row' := by
  cases row_of h hrow' with
  | same hsame =>
    cases hsame.symm.trans hrow
    exact absurd hopen hdone
  | queued hnone => cases hnone.symm.trans hrow
  | claimed hold _ heq | retried hold _ heq =>
    cases hold.symm.trans hrow
    subst heq
    exact absurd hopen hdone
  | @finished _ w r now hold hw hkey hheld heq =>
    cases hold.symm.trans hrow
    refine ⟨w, now, r, heq, hw, hkey, hheld.1, hl.succeeded w r hw, fun hnodup ↦ ?_⟩
    obtain ⟨l, hlease, htoken, -⟩ := hheld.1
    obtain ⟨x, hx, hxtoken⟩ := hl.last key row l hrow hlease
    have hmem : x ∈ W.claims := List.mem_of_mem_filter (List.mem_of_getLast? hx)
    rw [hx, List.inj_on_of_nodup_map hnodup hmem (hl.record w _ r hw rfl) (hxtoken.trans htoken)]

/-- **Avatars and their retirement.**  In every run: an avatar is not in the queue, a file that was
one and is no longer is there once, and a file that is there never becomes one again; a change
raises the version by one, and of the changes that expect the same version at most one takes effect;
`Retire` is called only for files that are in the queue; and a retirement is finished once, by the
worker that has leased it, after `Retire` has succeeded. -/
theorem avatar_retirement (h : Reach spec.step (fun _ _ ↦ True) { store := {} } s) :
    (∀ o f, s.store.store.Wears o f → s.store.store.retirements.find (o, f) = none) ∧
    (∀ t, Reach spec.step (fun _ _ ↦ True) s t →
      (∀ o f, s.store.store.Wears o f → ¬ t.store.store.Wears o f →
        (t.store.store.retirements.rows.filter fun row ↦ row.key = (o, f)).length = 1) ∧
      (∀ o f, (s.store.store.retirements.find (o, f)).isSome = true →
        (t.store.store.retirements.rows.filter fun row ↦ row.key = (o, f)).length = 1 ∧
          ¬ t.store.store.Wears o f) ∧
      (∀ x ∈ s.store.retires, ¬ t.store.store.Wears x.2.subjectID x.2.fileID) ∧
      (∀ key row, s.store.store.retirements.find key = some row → row.retiredAt ≠ none →
        t.store.store.retirements.find key = some row)) ∧
    (∀ (i j : Nat) (c d : Call Request Tx Avatar Err), s.calls[i]? = some c →
      s.calls[j]? = some d → c.request.owner = d.request.owner →
      c.request.expected = d.request.expected → c.hasCommitted = true → d.hasCommitted = true →
      i = j) ∧
    (∀ call ∈ s.calls, ∀ x, call.pc = .finished (.ok x) → call.hasCommitted = true) ∧
    (∀ a s', spec.step s a = some s' → Outcome s s') ∧
    (∀ a s' key row row', spec.step s a = some s' → s.store.store.retirements.find key = some row →
      s'.store.store.retirements.find key = some row' → row.retiredAt = none →
      row'.retiredAt ≠ none → Finishes s.store key row row') := by
  have hgood : rules.Good {} := nofun
  have h₀ : rules.Inv { store := {} } := Rules.inv_of_reach hgood .start
  have hs : rules.Inv s := h₀.of_reach h
  have hempty : Leased {} := ⟨by simp, by simp, by simp, by simp, nofun⟩
  have hl : Leased s.store :=
    world_invariant (P := Leased) h₀ h hempty fun _ hstep hl ↦ hl.next hstep
  refine ⟨fun o f hwears ↦ ?_, fun t ht ↦ ⟨fun o f hwears hnot ↦ ?_, fun o f hrow ↦ ?_,
    fun x hx ↦ ?_, fun key row hrow hdone ↦ ?_⟩, hs.once, hs.answered,
    fun a s' hstep ↦ outcome hs (step_change hstep), ?_⟩
  · rw [← Option.not_isSome_iff_eq_none]
    exact fun hrow ↦ hs.good.not_wears hrow hwears
  · exact length_rows _ ((wears_of_reach hs ht hwears).resolve_left hnot)
  · have hrow' := isSome_of_reach hs ht hrow
    exact ⟨length_rows _ hrow', (hs.of_reach ht).good.not_wears hrow'⟩
  · exact (hs.of_reach ht).good.not_wears
      (isSome_of_reach hs ht (hl.queued x (hl.retires x hx)))
  · exact world_invariant (P := fun W ↦ W.store.retirements.find key = some row) hs ht hrow
      fun _ hstep hrow ↦ finished_evolves hstep hrow hdone
  · exact fun a s' key row row' hstep hrow hrow' hopen hdone ↦
      hl.finishes (hs.evolves (step_change hstep)) hrow hrow' hopen hdone

/-! ### A run -/

def sampleID (n : UInt8) : List.Vector UInt8 16 := List.Vector.replicate 16 n

def samplePrincipal : Principal where
  subjectID := sampleID 1
  canRead := true
  canWrite := true

def sampleSet (id : UInt8) (version : Int) : Action :=
  .enter (.set false samplePrincipal (sampleID id) version (.ok ()))

/-- An avatar is set and replaced by another one, and a worker finishes its retirement. -/
def sampleRun : List Action :=
  [.env (.register (sampleID 1)), sampleSet 2 1, .lock 0, .next 0 0, .next 0 0, .next 0 0,
    .commit 0, sampleSet 3 2, .lock 1, .next 1 5, .next 1 5, .next 1 5, .commit 1, .env .start,
    .env (.claim 0 6 (sampleID 9) (sampleID 1, sampleID 2) true), .env (.retire 0),
    .env (.returned 0 true), .env (.finish 0 7)]

theorem avatar_retirement_sample :
    ∃ s : System, Reach spec.step (fun _ _ ↦ True) { store := {} } s ∧
      s.store.store.Wears (sampleID 1) (sampleID 3) ∧
      s.store.store.retirements.find (sampleID 1, sampleID 3) = none := by
  obtain ⟨s, hreach, htest⟩ := exists_of_script spec.step (fun _ _ ↦ True) { store := {} }
    sampleRun (fun s ↦ (s.store.store.profiles (sampleID 1)).any fun c ↦
      c.fileID = some (sampleID 3)) (by decide +kernel)
  obtain ⟨c, hc, hfile⟩ := (Option.any_eq_true _ _).mp htest
  have hwears : s.store.store.Wears (sampleID 1) (sampleID 3) := ⟨c, hc, of_decide_eq_true hfile⟩
  exact ⟨s, hreach, hwears, (avatar_retirement hreach).1 _ _ hwears⟩

end MarketMesh.User.Avatars
