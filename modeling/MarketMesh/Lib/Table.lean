import Mathlib.Data.List.Nodup

/-!
# Tables with a primary key

A table of a database is the list of its rows together with the fact that no two of them have the
same key.  `insert` is `INSERT`, which fails on a key that is there, `update` is `UPDATE … WHERE`,
which may not touch the key, and `delete` is `DELETE … WHERE`; what a `SELECT` by key finds
afterwards is `find_insert`, `find_update` and `find_delete`.
-/

set_option autoImplicit false

universe u v

@[ext]
structure Table {α : Type u} {κ : Type v} (key : α → κ) where
  rows : List α
  /-- The primary key. -/
  nodup : (rows.map key).Nodup

namespace Table

variable {α : Type u} {κ : Type v} {key : α → κ} {t t' : Table key} {a b : α} {k : κ} {p : α → Bool}
  {f : α → α}

instance : EmptyCollection (Table key) := ⟨⟨[], List.nodup_nil⟩⟩

instance : Inhabited (Table key) := ⟨∅⟩

/-- `UPDATE … SET f WHERE p`. -/
def update (t : Table key) (p : α → Bool) (f : α → α) (hf : ∀ a, key (f a) = key a) :
    Table key where
  rows := t.rows.map fun a ↦ if p a then f a else a
  nodup := by
    have hkey : key ∘ (fun a ↦ if p a then f a else a) = key := by
      funext a
      rw [Function.comp_apply]
      split
      · exact hf a
      · rfl
    rw [List.map_map, hkey]
    exact t.nodup

/-- `DELETE … WHERE p`. -/
def delete (t : Table key) (p : α → Bool) : Table key where
  rows := t.rows.filter fun a ↦ !p a
  nodup := t.nodup.sublist (List.filter_sublist.map key)

/-- An update that changes no row. -/
theorem update_eq_self (hf : ∀ a, key (f a) = key a)
    (h : ∀ a ∈ t.rows, p a = true → f a = a) : t.update p f hf = t := by
  refine Table.ext ((List.map_congr_left fun a ha ↦ ?_).trans (List.map_id _))
  by_cases hp : p a = true
  · rw [if_pos hp, h a ha hp, id]
  · rw [if_neg hp, id]

variable [DecidableEq κ]

/-- `SELECT … WHERE key = k`. -/
def find (t : Table key) (k : κ) : Option α :=
  t.rows.find? fun a ↦ key a = k

/-- `INSERT`. -/
def insert (t : Table key) (a : α) : Option (Table key) :=
  if h : key a ∈ t.rows.map key then none
  else
    some
      { rows := t.rows ++ [a]
        nodup := by
          rw [List.map_append, List.nodup_append_comm]
          exact List.nodup_cons.mpr ⟨h, t.nodup⟩ }

theorem find_eq_some_iff : t.find k = some a ↔ a ∈ t.rows ∧ key a = k := by
  constructor
  · intro h
    have hkey := List.find?_some h
    exact ⟨List.mem_of_find?_eq_some h, of_decide_eq_true hkey⟩
  · rintro ⟨ha, rfl⟩
    obtain ⟨b, hb⟩ : ∃ b, t.find (key a) = some b :=
      Option.isSome_iff_exists.mp (List.find?_isSome.mpr ⟨a, ha, decide_eq_true rfl⟩)
    have hkey := List.find?_some hb
    rw [hb, List.inj_on_of_nodup_map t.nodup (List.mem_of_find?_eq_some hb) ha
      (of_decide_eq_true hkey)]

theorem find_eq_none_iff : t.find k = none ↔ ∀ a ∈ t.rows, key a ≠ k := by
  simp [find]

theorem eq_of_mem_of_find (ha : a ∈ t.rows) (hb : t.find (key a) = some b) : a = b :=
  Option.some.inj ((find_eq_some_iff.mpr ⟨ha, rfl⟩).symm.trans hb)

theorem key_eq_of_find (h : t.find k = some a) : key a = k :=
  (find_eq_some_iff.mp h).2

theorem mem_rows_of_find (h : t.find k = some a) : a ∈ t.rows :=
  (find_eq_some_iff.mp h).1

theorem find_of_mem (h : a ∈ t.rows) : t.find (key a) = some a :=
  find_eq_some_iff.mpr ⟨h, rfl⟩

/-- A key selects at most one row. -/
theorem filter_key (t : Table key) (k : κ) :
    (t.rows.filter fun a ↦ key a = k) = (t.find k).toList := by
  obtain ⟨rows, hnodup⟩ := t
  rw [find]
  induction rows with
  | nil => rfl
  | cons a rows ih =>
    obtain ⟨ha, hrows⟩ := List.nodup_cons.mp hnodup
    by_cases hk : key a = k
    · have hnone : (rows.filter fun b ↦ key b = k) = [] := by
        refine List.filter_eq_nil_iff.mpr fun b hb hb' ↦ ha ?_
        rw [hk, ← of_decide_eq_true hb']
        exact List.mem_map_of_mem hb
      simp [hk, hnone]
    · simpa [hk] using ih hrows

theorem insert_eq_some (h : t.insert a = some t') :
    t.find (key a) = none ∧ t'.rows = t.rows ++ [a] := by
  rw [insert] at h
  split at h
  · cases h
  · rename_i hkey
    cases h
    refine ⟨find_eq_none_iff.mpr fun b hb hb' ↦ hkey ?_, rfl⟩
    exact hb' ▸ List.mem_map_of_mem hb

theorem exists_insert (h : t.find (key a) = none) : ∃ t', t.insert a = some t' := by
  rw [insert, dif_neg]
  · exact ⟨_, rfl⟩
  · intro hkey
    obtain ⟨b, hb, hb'⟩ := List.mem_map.mp hkey
    exact find_eq_none_iff.mp h b hb hb'

theorem find_insert (h : t.insert a = some t') (k : κ) :
    t'.find k = if key a = k then some a else t.find k := by
  obtain ⟨hnone, hrows⟩ := insert_eq_some h
  rw [find, hrows, List.find?_append]
  split
  · rename_i hk
    subst hk
    rw [show t.rows.find? (fun b ↦ key b = key a) = none from hnone]
    simp
  · rename_i hk
    simp [hk, find]

/-- `ON CONFLICT DO NOTHING`: a row that is there stays. -/
theorem find_insert_getD (t : Table key) (a : α) (k : κ) :
    ((t.insert a).getD t).find k =
      if key a = k then some ((t.find k).getD a) else t.find k := by
  cases hinsert : t.insert a with
  | none =>
    rw [Option.getD_none]
    split_ifs with hk
    · subst hk
      cases hfind : t.find (key a) with
      | none =>
        obtain ⟨t', ht'⟩ := exists_insert hfind
        cases hinsert.symm.trans ht'
      | some => rfl
    · rfl
  | some t' =>
    rw [Option.getD_some, find_insert hinsert]
    split_ifs with hk
    · rw [← hk, (insert_eq_some hinsert).1, Option.getD_none]
    · rfl

theorem find_update (hf : ∀ a, key (f a) = key a) (k : κ) :
    (t.update p f hf).find k = (t.find k).map fun a ↦ if p a then f a else a := by
  rw [find, update, List.find?_map, find]
  refine congrArg (Option.map _) (congrArg (List.find? · t.rows) (funext fun a ↦ ?_))
  rw [Function.comp_apply]
  split
  · rw [hf]
  · rfl

theorem find_update_of_find (hf : ∀ a, key (f a) = key a)
    (h : t.find k = some a) (hp : p a = true) : (t.update p f hf).find k = some (f a) := by
  rw [find_update, h, Option.map_some, if_pos hp]

/-- An update that selects another row. -/
theorem find_update_of_forall (hf : ∀ a, key (f a) = key a)
    (h : ∀ a, t.find k = some a → p a = false) : (t.update p f hf).find k = t.find k := by
  rw [find_update]
  cases ha : t.find k with
  | none => rfl
  | some a => rw [Option.map_some, if_neg (by rw [h a ha]; exact Bool.false_ne_true)]

/-- The row of a key after an update is the updated one, or there was none to update. -/
theorem of_find_update {hf : ∀ a, key (f a) = key a} {o : Option α}
    (h : (t.update p f hf).find k = o) :
    (∃ a, t.find k = some a ∧ key a = k ∧ p a = true ∧ o = some (f a)) ∨
      o = t.find k ∧ ∀ a, t.find k = some a → p a = false := by
  by_cases hp : ∃ a, t.find k = some a ∧ p a = true
  · obtain ⟨a, ha, hp⟩ := hp
    exact .inl ⟨a, ha, key_eq_of_find ha, hp, h.symm.trans (find_update_of_find hf ha hp)⟩
  · have hno : ∀ a, t.find k = some a → p a = false := fun a ha ↦
      Bool.eq_false_iff.mpr fun h ↦ hp ⟨a, ha, h⟩
    exact .inr ⟨h.symm.trans (find_update_of_forall hf hno), hno⟩

theorem find_delete (p : κ → Bool) (k : κ) :
    (t.delete fun a ↦ p (key a)).find k = if p k then none else t.find k := by
  rw [find, delete, List.find?_filter]
  split
  · rename_i hk
    refine List.find?_eq_none.mpr fun a _ ha ↦ ?_
    simp only [Bool.not_eq_true', decide_eq_true_eq] at ha
    rw [ha.2, hk] at ha
    cases ha.1
  · rename_i hk
    refine congrArg (List.find? · t.rows) (funext fun a ↦ ?_)
    by_cases ha : key a = k
    · simp [ha, hk]
    · simp [ha]

end Table
