import Mathlib.Order.Lattice

/-!
# Leases

A row of a queue is leased to a worker: the row has a token and a deadline, and the worker that
knows the token may finish its work before the deadline.  A row is free once the deadline has
passed, and the next lease replaces the token, which fences the worker that was late.
-/

set_option autoImplicit false

universe u v

structure Lease (τ : Type u) (T : Type v) where
  token : τ
  deadline : T

namespace Lease

variable {τ : Type u} {T : Type v} [LinearOrder T] {lease : Option (Lease τ T)} {token token' : τ}
  {now now' : T}

/-- The row may be leased. -/
def Free (lease : Option (Lease τ T)) (now : T) : Prop :=
  ∀ l, lease = some l → l.deadline ≤ now

/-- The worker with the token holds the row. -/
def Held (lease : Option (Lease τ T)) (token : τ) (now : T) : Prop :=
  ∃ l, lease = some l ∧ l.token = token ∧ now < l.deadline

instance (lease : Option (Lease τ T)) (now : T) : Decidable (Free lease now) :=
  match lease with
  | none => isTrue nofun
  | some l => decidable_of_iff (l.deadline ≤ now)
      ⟨fun h _ hl ↦ by cases hl; exact h, fun h ↦ h l rfl⟩

instance [DecidableEq τ] (lease : Option (Lease τ T)) (token : τ) (now : T) :
    Decidable (Held lease token now) :=
  match lease with
  | none => isFalse fun ⟨_, h, _⟩ ↦ by cases h
  | some l => decidable_of_iff (l.token = token ∧ now < l.deadline)
      ⟨fun h ↦ ⟨l, rfl, h⟩, fun ⟨_, hl, h⟩ ↦ by cases hl; exact h⟩

/-- At any two times a row is held with one token. -/
theorem Held.token_eq (h : Held lease token now) (h' : Held lease token' now') :
    token = token' := by
  obtain ⟨l, hl, rfl, -⟩ := h
  obtain ⟨l', hl', rfl, -⟩ := h'
  cases hl.symm.trans hl'
  rfl

end Lease
