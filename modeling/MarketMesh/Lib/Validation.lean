/-!
# Validators in `Except`

A validator is a sequence of checks of which the first that fails decides the error.  `ensure` is
one check; its two simp lemmas turn "this validator succeeded" into the conjunction of the
conditions it checked, and `bind_eq_ok` takes apart a validator that calls others.  `Raises` bounds
the errors it can end in.
-/

set_option autoImplicit false

namespace Validation

universe u v w

/-- One check: the error if the condition fails. -/
def ensure {ε : Type u} (p : Prop) [Decidable p] (e : ε) : Except ε Unit :=
  if p then .ok () else .error e

variable {ε : Type u} {p : Prop} [Decidable p] {e : ε} {α : Type v} {P : ε → Prop} {x : Except ε α}

@[simp] theorem ensure_bind_eq_ok {α : Type} {k : Unit → Except ε α} {x : α} :
    (ensure p e >>= k) = .ok x ↔ p ∧ k () = .ok x := by
  by_cases hp : p
  · simp only [ensure, hp, true_and]; rfl
  · simp only [ensure, hp, false_and, iff_false]; exact fun h ↦ nomatch h

@[simp] theorem ensure_eq_ok {u : Unit} : ensure p e = .ok u ↔ p := by
  by_cases hp : p <;> simp [ensure, hp]

/-- Inversion of a bind. -/
theorem bind_eq_ok {β : Type v} {k : α → Except ε β} {b : β} :
    (x >>= k) = .ok b ↔ ∃ a, x = .ok a ∧ k a = .ok b := by
  cases x with
  | error => exact ⟨fun h ↦ (nomatch h), fun ⟨_, h, _⟩ ↦ (nomatch h)⟩
  | ok a => exact ⟨fun h ↦ ⟨a, rfl, h⟩, fun ⟨_, h, hk⟩ ↦ by cases h; exact hk⟩

/-- A loop of checks succeeds if each of them does. -/
theorem forM_eq_ok {f : α → Except ε PUnit} {l : List α} :
    l.forM f = .ok ⟨⟩ ↔ ∀ a ∈ l, f a = .ok ⟨⟩ := by
  induction l with
  | nil => exact iff_of_true rfl (by simp)
  | cons a l ih =>
    rw [show (a :: l).forM f = f a >>= fun _ ↦ l.forM f from rfl, bind_eq_ok]
    simp only [List.mem_cons, forall_eq_or_imp, ih]
    exact ⟨fun ⟨⟨⟩, ha, hl⟩ ↦ ⟨ha, hl⟩, fun ⟨ha, hl⟩ ↦ ⟨_, ha, hl⟩⟩

/-! ### The errors of a validator -/

/-- If there is an error, it is one of these. -/
def Raises {α : Type v} (P : ε → Prop) (x : Except ε α) : Prop := ∀ e, x = .error e → P e

theorem raises_ok (a : α) : Raises P (.ok a : Except ε α) := nofun

theorem raises_error (he : P e) :
    Raises P (.error e : Except ε α) := by
  rintro _ ⟨⟩
  exact he

theorem raises_ensure (he : P e) : Raises P (ensure p e) := by
  rw [ensure]
  split
  · exact raises_ok ()
  · exact raises_error he

theorem Raises.bind {β : Type v} {k : α → Except ε β}
    (hx : Raises P x) (hk : ∀ a, Raises P (k a)) : Raises P (x >>= k) := by
  cases x with
  | error => exact fun e' h ↦ hx e' (by cases h; rfl)
  | ok a => exact hk a

end Validation
