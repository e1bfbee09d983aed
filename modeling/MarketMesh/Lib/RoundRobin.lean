import Mathlib.Algebra.BigOperators.Ring.Finset
import Mathlib.Algebra.GCDMonoid.Finset
import Mathlib.Algebra.Order.BigOperators.Group.Finset
import Mathlib.Tactic.Linarith
import Mathlib.Tactic.Ring

/-!
# Smooth weighted round robin

Every member of a set has a weight and a *credit*.  A round gives every member its weight as
credit, serves a member with the greatest credit, and takes the weight of the whole set from it.

* `Round S w c i c'` is one round among `S`, and `Rounds S w c is c'` a sequence of rounds with the
  same weights, in which the members `is` are served.
* `Rounds.count_lt` and `Rounds.count_eq` are the fairness of the scheme when it starts from
  credit zero: nobody is ahead of its share by a whole turn, and after a period everybody has
  received exactly its share.
* `Within D W c` bounds the credit of every *subset* of `D`.  It survives rounds among changing
  sets and with changing weights (`Within.round`) and survives that a member is set back to zero
  (`Within.reset`), though neither keeps the sum of all credits.

The bound for a subset with `k` of the `n` members is `W * k * (2 * n - k)`.  A round may move the
credit of a subset `A` away from zero, but only when a member on one side of the border of `A` is
served although a member on the other side has no less to show; then the credit of `A` is at most
the mean of those of a smaller and of a larger subset, up to the weight of the set.  So the bound
has to be concave in `k`, and this is the least quadratic one that also grows up to `k = n`.
-/

set_option autoImplicit false

namespace RoundRobin

open Finset

variable {ι : Type*} [DecidableEq ι] {S D : Finset ι} {w c c' : ι → ℤ} {i : ι} {is : List ι}
  {A : Finset ι}

/-- A round among `S` that serves `i`. -/
structure Round (S : Finset ι) (w c : ι → ℤ) (i : ι) (c' : ι → ℤ) : Prop where
  mem : i ∈ S
  max : ∀ j ∈ S, c j + w j ≤ c i + w i
  served : c' i = c i + w i - ∑ j ∈ S, w j
  waits : ∀ j ∈ S, j ≠ i → c' j = c j + w j
  apart : ∀ j, j ∉ S → c' j = c j

/-- A sequence of rounds with the same weights, which serves the members of the list. -/
inductive Rounds (S : Finset ι) (w : ι → ℤ) (c : ι → ℤ) : List ι → (ι → ℤ) → Prop
  | start : Rounds S w c [] c
  | next {is : List ι} {c₁ c₂ : ι → ℤ} {i : ι} (h : Rounds S w c is c₁)
      (hround : Round S w c₁ i c₂) : Rounds S w c (is ++ [i]) c₂

omit [DecidableEq ι] in
/-- Only the weights of the members matter. -/
theorem Round.congr {w' : ι → ℤ} (h : Round S w c i c') (hw : ∀ j ∈ S, w j = w' j) :
    Round S w' c i c' where
  mem := h.mem
  max := fun j hj ↦ by
    rw [← hw j hj, ← hw i h.mem]
    exact h.max j hj
  served := by rw [h.served, hw i h.mem, sum_congr rfl hw]
  waits := fun j hj hne ↦ by rw [h.waits j hj hne, hw j hj]
  apart := h.apart

/-! ## The credit of a subset -/

theorem Round.sum (h : Round S w c i c') (A : Finset ι) :
    ∑ j ∈ A, c' j =
      ∑ j ∈ A, c j + ∑ j ∈ A ∩ S, w j - if i ∈ A then ∑ j ∈ S, w j else 0 := by
  have hterm : ∀ j, c' j = c j + (if j ∈ S then w j else 0) -
      if j = i then ∑ j ∈ S, w j else 0 := by
    intro j
    by_cases hj : j = i
    · subst hj
      rw [if_pos h.mem, if_pos rfl, h.served]
    · rw [if_neg hj]
      by_cases hS : j ∈ S
      · rw [if_pos hS, h.waits j hS hj, sub_zero]
      · rw [if_neg hS, h.apart j hS, add_zero, sub_zero]
  rw [sum_congr rfl fun j _ ↦ hterm j, sum_sub_distrib, sum_add_distrib, sum_ite_mem,
    sum_ite_eq' A i]

/-- A round keeps the credit of the whole set. -/
theorem Round.sum_eq (h : Round S w c i c') : ∑ j ∈ S, c' j = ∑ j ∈ S, c j := by
  rw [h.sum, if_pos h.mem, inter_self, add_sub_cancel_right]

/-! ## Fairness -/

theorem Rounds.sum_eq (h : Rounds S w c is c') : ∑ j ∈ S, c' j = ∑ j ∈ S, c j := by
  induction h with
  | start => rfl
  | next _ hround ih => rw [hround.sum_eq, ih]

/-- A member of the set that is served `n` times in `k` rounds has received `k` times its weight
and has paid `n` times the weight of the set. -/
theorem Rounds.credit_eq (h : Rounds S w c is c') :
    ∀ j ∈ S, c' j = c j + is.length * w j - is.count j * ∑ j ∈ S, w j := by
  induction h with
  | start => simp
  | @next is c₁ c₂ i _ hround ih =>
    intro j hj
    rw [List.length_append, List.length_singleton, List.count_append, List.count_singleton]
    by_cases heq : j = i
    · subst heq
      rw [hround.served, ih j hj]
      simp only [beq_self_eq_true, if_true]
      push_cast
      ring
    · rw [hround.waits j hj heq, ih j hj, if_neg (by simpa using Ne.symm heq)]
      push_cast
      ring

omit [DecidableEq ι] in
theorem Rounds.mem (h : Rounds S w c is c') : ∀ i ∈ is, i ∈ S := by
  induction h with
  | start => simp
  | next _ hround ih => simpa [or_imp, forall_and] using ⟨ih, hround.mem⟩

omit [DecidableEq ι] in
/-- The member that is served has something to show: the credits after the handout add up to the
weight of the set. -/
theorem Round.served_pos (h : Round S w c i c') (hw : ∀ j ∈ S, 0 < w j)
    (hsum : ∑ j ∈ S, c j = 0) : 0 < c i + w i := by
  have hpos : 0 < ∑ j ∈ S, (c j + w j) := by
    rw [sum_add_distrib, hsum, zero_add]
    exact sum_pos hw ⟨i, h.mem⟩
  obtain ⟨j, hj, hlt⟩ := exists_lt_of_sum_lt (s := S) (f := fun _ ↦ (0 : ℤ)) (by simpa using hpos)
  exact hlt.trans_le (h.max j hj)

/-- Nobody owes a whole turn. -/
theorem Rounds.neg_lt (h : Rounds S w c is c') (hw : ∀ j ∈ S, 0 < w j)
    (hc : ∀ j ∈ S, c j = 0) : ∀ j ∈ S, -∑ j ∈ S, w j < c' j := by
  induction h with
  | start =>
    intro j hj
    rw [hc j hj]
    exact neg_lt_zero.mpr (sum_pos hw ⟨j, hj⟩)
  | @next is c₁ c₂ i hrounds hround ih =>
    intro j hj
    by_cases heq : j = i
    · subst heq
      have hsum : ∑ j ∈ S, c₁ j = 0 := by rw [hrounds.sum_eq, sum_eq_zero hc]
      have := hround.served_pos hw hsum
      rw [hround.served]
      linarith
    · have := ih j hj
      have := hw j hj
      rw [hround.waits j hj heq]
      linarith

/-- **Nobody is a turn ahead of its share.** -/
theorem Rounds.count_lt (h : Rounds S w c is c') (hw : ∀ j ∈ S, 0 < w j)
    (hc : ∀ j ∈ S, c j = 0) :
    ∀ j ∈ S, is.count j * ∑ j ∈ S, w j < is.length * w j + ∑ j ∈ S, w j := by
  intro j hj
  have hlt := h.neg_lt hw hc j hj
  rw [h.credit_eq j hj, hc j hj, zero_add] at hlt
  linarith

theorem sum_count (h : ∀ i ∈ is, i ∈ S) : ∑ j ∈ S, is.count j = is.length := by
  induction is with
  | nil => simp
  | cons i is ih =>
    have hi : i ∈ S := h i List.mem_cons_self
    have hcount : ∀ j, (i :: is).count j = is.count j + if i = j then 1 else 0 := by
      intro j
      rw [List.count_cons]
      simp
    rw [sum_congr rfl fun j _ ↦ hcount j, sum_add_distrib,
      ih fun j hj ↦ h j (List.mem_cons_of_mem _ hj), sum_ite_eq, if_pos hi, List.length_cons]

/-- **Everybody receives its share in a period.**  With `g` the greatest common divisor of the
weights and `T` their sum, after any multiple of `T / g` rounds. -/
theorem Rounds.count_eq (h : Rounds S w c is c') (hw : ∀ j ∈ S, 0 < w j) (hc : ∀ j ∈ S, c j = 0)
    {m : ℕ} (hlen : (is.length : ℤ) = m * ((∑ j ∈ S, w j) / S.gcd w)) :
    ∀ j ∈ S, (is.count j : ℤ) = m * (w j / S.gcd w) ∧ c' j = 0 := by
  intro j hj
  set g := S.gcd w with hg
  have hg0 : 0 < g := by
    refine lt_of_le_of_ne (Int.nonneg_of_normalize_eq_self normalize_gcd) (Ne.symm ?_)
    exact fun hzero ↦ (hw j hj).ne' (gcd_eq_zero_iff.mp hzero j hj)
  -- the weights in units of `g`
  have hv : ∀ j ∈ S, w j = g * (w j / g) := fun j hj ↦
    (Int.mul_ediv_cancel' (gcd_dvd hj)).symm
  have hT : ∑ j ∈ S, w j = g * ∑ j ∈ S, w j / g := by
    rw [mul_sum]
    exact sum_congr rfl hv
  have hV : (∑ j ∈ S, w j) / g = ∑ j ∈ S, w j / g := by
    rw [hT, Int.mul_ediv_cancel_left _ hg0.ne']
  have hVpos : 0 < ∑ j ∈ S, w j / g := by
    refine pos_of_mul_pos_right (a := g) ?_ hg0.le
    rw [← hT]
    exact sum_pos hw ⟨j, hj⟩
  rw [hV] at hlen
  -- nobody is ahead, and together they have had all the rounds
  have hle : ∀ j ∈ S, (is.count j : ℤ) ≤ m * (w j / g) := by
    intro j hj
    have hlt := h.count_lt hw hc j hj
    rw [hT, hlen] at hlt
    have hscaled : (g * ∑ j ∈ S, w j / g) * is.count j <
        (g * ∑ j ∈ S, w j / g) * (m * (w j / g) + 1) := by
      calc (g * ∑ j ∈ S, w j / g) * is.count j
          = is.count j * (g * ∑ j ∈ S, w j / g) := mul_comm _ _
        _ < m * (∑ j ∈ S, w j / g) * w j + g * ∑ j ∈ S, w j / g := hlt
        _ = m * (∑ j ∈ S, w j / g) * (g * (w j / g)) + g * ∑ j ∈ S, w j / g := by rw [← hv j hj]
        _ = (g * ∑ j ∈ S, w j / g) * (m * (w j / g) + 1) := by ring
    exact Int.lt_add_one_iff.mp (lt_of_mul_lt_mul_left hscaled (mul_pos hg0 hVpos).le)
  have hsum : ∑ j ∈ S, (is.count j : ℤ) = ∑ j ∈ S, m * (w j / g) := by
    rw [← mul_sum, ← hlen, ← sum_count h.mem, Nat.cast_sum]
  have hcount := (sum_eq_sum_iff_of_le hle).mp hsum j hj
  refine ⟨hcount, ?_⟩
  calc c' j = m * (∑ j ∈ S, w j / g) * w j - m * (w j / g) * (g * ∑ j ∈ S, w j / g) := by
        rw [h.credit_eq j hj, hc j hj, hcount, hlen, hT, zero_add]
    _ = m * (∑ j ∈ S, w j / g) * (w j - g * (w j / g)) := by ring
    _ = 0 := by rw [← hv j hj, sub_self, mul_zero]

/-! ## Rounds among changing sets -/

/-- What a subset with `k` of `n` members may be away from zero. -/
def slack (W n k : ℤ) : ℤ := W * (k * (2 * n - k))

/-- The credit of every subset of `D` is bounded. -/
def Within (D : Finset ι) (W : ℤ) (c : ι → ℤ) : Prop :=
  ∀ A ⊆ D, |∑ j ∈ A, c j| ≤ slack W D.card A.card

variable {W : ℤ}

theorem slack_nonneg {n k : ℤ} (hW : 0 ≤ W) (hk : 0 ≤ k) (hkn : k ≤ n) : 0 ≤ slack W n k :=
  mul_nonneg hW (mul_nonneg hk (by linarith))

theorem slack_mono {n k l : ℤ} (hW : 0 ≤ W) (hkl : k ≤ l) (hln : l ≤ n) :
    slack W n k ≤ slack W n l := by
  refine mul_le_mul_of_nonneg_left ?_ hW
  nlinarith

/-- The second difference of the bound. -/
theorem slack_concave (W n k : ℤ) :
    slack W n (k + 1) + slack W n (k - 1) = 2 * slack W n k - 2 * W := by
  simp only [slack]
  ring

omit [DecidableEq ι] in
theorem Within.zero (hW : 0 ≤ W) (hc : ∀ j ∈ D, c j = 0) : Within D W c := by
  intro A hA
  rw [sum_eq_zero fun j hj ↦ hc j (hA hj), abs_zero]
  exact slack_nonneg hW (by positivity) (by exact_mod_cast card_le_card hA)

omit [DecidableEq ι] in
theorem Within.abs_credit_le (h : Within D W c) (hi : i ∈ D) : |c i| ≤ W * (2 * D.card - 1) := by
  have := h {i} (by simpa using hi)
  simpa [slack] using this

omit [DecidableEq ι] in
theorem card_le (hA : A ⊆ D) : (A.card : ℤ) ≤ D.card := by
  exact_mod_cast card_le_card hA

theorem card_erase (hi : i ∈ A) : ((A.erase i).card : ℤ) = A.card - 1 := by
  have := card_erase_add_one hi
  omega

omit [DecidableEq ι] in
/-- **Setting members back to zero keeps the bound.** -/
theorem Within.reset (h : Within D W c) (hW : 0 ≤ W) (h' : ∀ j ∈ D, c' j = c j ∨ c' j = 0) :
    Within D W c' := by
  intro A hA
  -- what is left is the credit of the subset that was not set back
  have hsum : ∑ j ∈ A, c' j = ∑ j ∈ A with c' j = c j, c j := by
    rw [sum_filter]
    refine sum_congr rfl fun j hj ↦ ?_
    split_ifs with heq
    · exact heq
    · exact (h' j (hA hj)).resolve_left heq
  rw [hsum]
  calc |∑ j ∈ A with c' j = c j, c j| ≤ slack W D.card (A.filter fun j ↦ c' j = c j).card :=
        h _ ((filter_subset _ A).trans hA)
    _ ≤ slack W D.card A.card :=
        slack_mono hW (card_le (filter_subset _ A)) (card_le hA)

section

variable (h : Within D W c) (hround : Round S w c i c') (hSD : S ⊆ D) (hw : ∀ j ∈ S, 0 ≤ w j)
  (hW : ∑ j ∈ S, w j ≤ W)

include h hround hSD hw hW

/-- A subset that contains the member served does not owe more than before, or shares the debt with
a member outside. -/
theorem Within.round_neg_le (hA : A ⊆ D) :
    -slack W D.card A.card ≤ ∑ j ∈ A, c' j := by
  have hbelow : ∀ B ⊆ D, -slack W D.card B.card ≤ ∑ j ∈ B, c j + ∑ j ∈ B ∩ S, w j := by
    intro B hB
    have hge := (abs_le.mp (h B hB)).1
    have hnn : 0 ≤ ∑ j ∈ B ∩ S, w j := sum_nonneg fun j hj ↦ hw j (mem_of_mem_inter_right hj)
    linarith
  by_cases hi : i ∈ A
  · by_cases hSA : S ⊆ A
    · rw [hround.sum, if_pos hi, inter_eq_right.mpr hSA, add_sub_cancel_right]
      exact (abs_le.mp (h A hA)).1
    · obtain ⟨j, hjS, hjA⟩ := not_subset.mp hSA
      have hmax := hround.max j hjS
      have hlarge := hbelow (insert j A) (insert_subset (hSD hjS) hA)
      have hsmall := hbelow (A.erase i) ((erase_subset i A).trans hA)
      rw [card_insert_of_notMem hjA, sum_insert hjA, insert_inter_of_mem hjS,
        sum_insert (fun hj ↦ hjA (mem_of_mem_inter_left hj)), Nat.cast_add, Nat.cast_one] at hlarge
      rw [card_erase hi, erase_inter] at hsmall
      have hiS : i ∈ A ∩ S := mem_inter.mpr ⟨hi, hround.mem⟩
      rw [hround.sum, if_pos hi]
      rw [← sum_erase_add A c hi, ← sum_erase_add (A ∩ S) w hiS] at hlarge ⊢
      have hconcave := slack_concave W D.card A.card
      linarith
  · rw [hround.sum, if_neg hi, sub_zero]
    exact hbelow A hA

/-- A subset without the member served has no more credit than before, or shares it with that
member. -/
theorem Within.round_le (hA : A ⊆ D) :
    ∑ j ∈ A, c' j ≤ slack W D.card A.card := by
  have hpart : ∀ B : Finset ι, ∑ j ∈ B ∩ S, w j ≤ ∑ j ∈ S, w j := fun B ↦
    sum_le_sum_of_subset_of_nonneg inter_subset_right fun j hj _ ↦ hw j hj
  have habove : ∀ B ⊆ D, ∑ j ∈ B, c j + ∑ j ∈ B ∩ S, w j ≤ slack W D.card B.card + W := by
    intro B hB
    have hle := (abs_le.mp (h B hB)).2
    have := hpart B
    linarith
  by_cases hi : i ∈ A
  · rw [hround.sum, if_pos hi]
    have := (abs_le.mp (h A hA)).2
    have := hpart A
    linarith
  · rw [hround.sum, if_neg hi, sub_zero]
    by_cases hmeet : (A ∩ S).Nonempty
    · obtain ⟨j, hj⟩ := hmeet
      obtain ⟨hjA, hjS⟩ := mem_inter.mp hj
      have hmax := hround.max j hjS
      have hlarge := habove (insert i A) (insert_subset (hSD hround.mem) hA)
      have hsmall := habove (A.erase j) ((erase_subset j A).trans hA)
      rw [card_insert_of_notMem hi, sum_insert hi, insert_inter_of_mem hround.mem,
        sum_insert (fun hi' ↦ hi (mem_of_mem_inter_left hi')), Nat.cast_add, Nat.cast_one]
        at hlarge
      rw [card_erase hjA, erase_inter] at hsmall
      rw [← sum_erase_add A c hjA, ← sum_erase_add (A ∩ S) w hj] at hlarge ⊢
      have hconcave := slack_concave W D.card A.card
      linarith
    · rw [not_nonempty_iff_eq_empty.mp hmeet, sum_empty, add_zero]
      exact (abs_le.mp (h A hA)).2

/-- **A round keeps the bound.** -/
theorem Within.round : Within D W c' := by
  intro A hA
  exact abs_le.mpr ⟨h.round_neg_le hround hSD hw hW hA, h.round_le hround hSD hw hW hA⟩

end

end RoundRobin
