import Mathlib.Algebra.GroupWithZero.Nat
import Mathlib.Algebra.BigOperators.Group.List.Basic
import Mathlib.Data.List.AList

/-!
# Pools of processes

A system with any number of processes keeps them in a list: a process that starts is appended, and a
process that moves is replaced.  The lemmas say where a process of the new list comes from, and what
becomes of one of the old list; those of the second part say the same of a table of processes by
key.

A counter that a program keeps next to a list, or next to a table, is right if it moves with the
number of entries it counts.  The lemmas of `Tally` say how that number moves when one entry is
replaced, entered or taken out, and how a family of counters moves at one index.
-/

set_option autoImplicit false

universe u v

namespace Pool

section List

variable {α : Type u} {l : List α} {i j : Nat} {a b : α}

theorem of_set (h : (l.set i a)[j]? = some b) : j = i ∧ b = a ∨ j ≠ i ∧ l[j]? = some b := by
  rw [List.getElem?_set] at h
  split at h
  · rename_i hij
    split at h
    · exact .inl ⟨hij.symm, (Option.some_inj.mp h).symm⟩
    · cases h
  · rename_i hij
    exact .inr ⟨Ne.symm hij, h⟩

theorem of_append (h : (l ++ [a])[j]? = some b) : j = l.length ∧ b = a ∨ l[j]? = some b := by
  rw [List.getElem?_append] at h
  split at h
  · exact .inr h
  · rename_i hj
    obtain ⟨hlt, hb⟩ := List.getElem?_eq_some_iff.mp h
    rw [List.length_singleton] at hlt
    refine .inl ⟨by omega, ?_⟩
    rw [← hb]
    exact List.getElem_singleton hlt

theorem set_self (h : l[i]? = some b) (a : α) : (l.set i a)[i]? = some a := by
  rw [List.getElem?_set, if_pos rfl, if_pos (List.getElem?_eq_some_iff.mp h).1]

theorem set_of_ne (h : l[j]? = some b) (hij : j ≠ i) (a : α) : (l.set i a)[j]? = some b := by
  rw [List.getElem?_set, if_neg hij.symm, h]

/-- What the process that moves keeps, every process keeps. -/
theorem exists_set {R : α → α → Prop} {a' : α} (hj : l[j]? = some b) (hi : l[i]? = some a)
    (hb : R b b) (ha : R a a') : ∃ b', (l.set i a')[j]? = some b' ∧ R b b' := by
  by_cases hij : j = i
  · subst hij
    cases hi.symm.trans hj
    exact ⟨a', set_self hj a', ha⟩
  · exact ⟨b, set_of_ne hj hij a', hb⟩

theorem append (h : l[j]? = some b) (a : α) : (l ++ [a])[j]? = some b := by
  rw [List.getElem?_append_left (List.getElem?_eq_some_iff.mp h).1, h]

theorem append_self (l : List α) (a : α) : (l ++ [a])[l.length]? = some a := by
  simp

end List

section Table

variable {κ : Type u} {β : Type v} [DecidableEq κ] {t : AList fun _ : κ ↦ β} {k k' : κ} {b b' : β}

theorem of_insert (h : (t.insert k b).lookup k' = some b') :
    k' = k ∧ b' = b ∨ k' ≠ k ∧ t.lookup k' = some b' := by
  by_cases hk : k' = k
  · subst hk
    rw [AList.lookup_insert] at h
    exact .inl ⟨rfl, (Option.some_inj.mp h).symm⟩
  · exact .inr ⟨hk, (AList.lookup_insert_ne hk).symm.trans h⟩

theorem of_erase (h : (t.erase k).lookup k' = some b') : t.lookup k' = some b' := by
  have hk : k' ≠ k := by
    rintro rfl
    rw [AList.lookup_erase] at h
    cases h
  exact (AList.lookup_erase_ne hk).symm.trans h

theorem insert (h : t.lookup k' = some b') (hk : t.lookup k = none) (b : β) :
    (t.insert k b).lookup k' = some b' := by
  refine (AList.lookup_insert_ne ?_).trans h
  rintro rfl
  cases hk.symm.trans h

theorem erase (h : t.lookup k' = some b') (hk : t.lookup k = some b) (hb : b' ≠ b) :
    (t.erase k).lookup k' = some b' := by
  refine (AList.lookup_erase_ne ?_).trans h
  rintro rfl
  exact hb (Option.some_inj.mp (h.symm.trans hk))

end Table

end Pool

namespace Tally

section List

variable {α : Type u} {l : List α} {i : Nat} {a : α}

theorem sum_map_set (g : α → Nat) (h : l[i]? = some a) (b : α) :
    ((l.set i b).map g).sum + g a = (l.map g).sum + g b := by
  induction l generalizing i with
  | nil => cases h
  | cons c l ih =>
    cases i with
    | zero =>
      cases h
      simp only [List.set_cons_zero, List.map_cons, List.sum_cons]
      omega
    | succ i =>
      have := ih (i := i) h
      simp only [List.set_cons_succ, List.map_cons, List.sum_cons]
      omega

theorem countP_set (p : α → Bool) (h : l[i]? = some a) (b : α) :
    (l.set i b).countP p + (if p a then 1 else 0) = l.countP p + (if p b then 1 else 0) := by
  obtain ⟨hi, rfl⟩ := List.getElem?_eq_some_iff.mp h
  have := List.boole_getElem_le_countP (p := p) hi
  rw [List.countP_set hi]
  omega

end List

section Counter

variable {ι : Type u} [DecidableEq ι] (g : ι → Int) (k i : ι)

/-- A counter that is moved up at one index. -/
theorem update_succ :
    Function.update g k (g k + 1) i = g i + (if k = i then 1 else 0 : Nat) := by
  by_cases h : k = i
  · subst h
    rw [Function.update_self, if_pos rfl]
    rfl
  · rw [Function.update_of_ne (Ne.symm h), if_neg h]
    exact (Int.add_zero _).symm

theorem update_pred :
    Function.update g k (g k - 1) i = g i - (if k = i then 1 else 0 : Nat) := by
  by_cases h : k = i
  · subst h
    rw [Function.update_self, if_pos rfl]
    rfl
  · rw [Function.update_of_ne (Ne.symm h), if_neg h]
    exact (Int.sub_zero _).symm

end Counter

section Table

variable {α : Type u} {β : α → Type v} [DecidableEq α] {s : AList β} {a : α} {b : β a}

/-- The entries of a table are the entry of a key and the others. -/
theorem entries_perm (h : s.lookup a = some b) :
    s.entries.Perm (⟨a, b⟩ :: (s.erase a).entries) := by
  have hmem : a ∉ s.erase a := by simp
  rw [← AList.entries_insert_of_notMem hmem]
  refine List.lookup_ext s.nodupKeys (AList.nodupKeys _) fun x y ↦ ?_
  show y ∈ s.lookup x ↔ y ∈ ((s.erase a).insert a b).lookup x
  by_cases hx : x = a
  · subst hx
    rw [h, AList.lookup_insert]
  · rw [AList.lookup_insert_ne hx, AList.lookup_erase_ne hx]

theorem length_erase (h : s.lookup a = some b) :
    (s.erase a).entries.length + 1 = s.entries.length := by
  simpa using (entries_perm h).length_eq.symm

theorem length_insert (h : s.lookup a = none) (b : β a) :
    (s.insert a b).entries.length = s.entries.length + 1 := by
  rw [AList.entries_insert_of_notMem (AList.lookup_eq_none.mp h), List.length_cons]

end Table

end Tally
