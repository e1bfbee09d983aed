import Mathlib.Init

/-!
# Transactions

A transaction is a computation on a state that may fail.  The state at the point of failure is part
of the result, because what becomes of it is decided outside: a caller may roll it back, or commit
it together with the failure.

`Yields m s Q E` says that `m`, run in the state `s`, returns a value and a state with `Q`, or fails
with an error and a state with `E`.  A proof about a transaction follows its text: `bind` takes the
specification of the first step and goes on with the rest in the state it leaves.
-/

set_option autoImplicit false

universe u

/-- A computation on a state `σ` that may fail with an error `ε`. -/
def Txn (σ ε α : Type u) : Type u := σ → Except ε α × σ

namespace Txn

variable {σ ε α β : Type u}

instance : Monad (Txn σ ε) where
  pure a := fun s ↦ (.ok a, s)
  bind m f := fun s ↦
    match m s with
    | (.ok a, s') => f a s'
    | (.error e, s') => (.error e, s')

/-- Fail in the state reached so far. -/
def fail (e : ε) : Txn σ ε α := fun s ↦ (.error e, s)

def get : Txn σ ε σ := fun s ↦ (.ok s, s)

/-- What a transaction leaves, by the way it ends. -/
def Yields (m : Txn σ ε α) (s : σ) (Q : α → σ → Prop) (E : ε → σ → Prop) : Prop :=
  match m s with
  | (.ok a, s') => Q a s'
  | (.error e, s') => E e s'

variable {m : Txn σ ε α} {f : α → Txn σ ε β} {s : σ} {Q Q' : α → σ → Prop}
  {R : β → σ → Prop} {E E' : ε → σ → Prop}

theorem Yields.mono (h : m.Yields s Q E) (hQ : ∀ a s', Q a s' → Q' a s')
    (hE : ∀ e s', E e s' → E' e s') : m.Yields s Q' E' := by
  rw [Yields] at h ⊢
  generalize m s = out at h ⊢
  obtain ⟨r, s'⟩ := out
  cases r with
  | ok a => exact hQ a s' h
  | error e => exact hE e s' h

theorem yields_pure {a : α} (h : Q a s) : (pure a : Txn σ ε α).Yields s Q E := h

theorem yields_fail {e : ε} (h : E e s) : (fail e : Txn σ ε α).Yields s Q E := h

theorem yields_get {Q : σ → σ → Prop} (h : Q s s) : (get : Txn σ ε σ).Yields s Q E := h

/-- First `m`, and then the rest in the state `m` leaves. -/
theorem Yields.bind (hm : m.Yields s Q E')
    (hf : ∀ a s', Q a s' → (f a).Yields s' R E) (hE : ∀ e s', E' e s' → E e s') :
    (m >>= f).Yields s R E := by
  rw [Yields] at hm ⊢
  show match (match m s with
    | (.ok a, s') => f a s'
    | (.error e, s') => (.error e, s')) with
    | (.ok b, s') => R b s'
    | (.error e, s') => E e s'
  generalize m s = out at hm ⊢
  obtain ⟨r, s'⟩ := out
  cases r with
  | ok a => exact hf a s' hm
  | error e => exact hE e s' hm

/-- First `m` and then the rest, with one condition for the failures of both. -/
theorem Yields.seq (hm : m.Yields s Q E) (hf : ∀ a s', Q a s' → (f a).Yields s' R E) :
    (m >>= f).Yields s R E :=
  hm.bind hf fun _ _ h ↦ h

/-- The specification of a transaction, for the result it has. -/
theorem Yields.elim {r : Except ε α} {s' : σ} (h : m.Yields s Q E) (hm : m s = (r, s')) :
    (∃ a, r = .ok a ∧ Q a s') ∨ ∃ e, r = .error e ∧ E e s' := by
  rw [Yields, hm] at h
  cases r with
  | ok a => exact .inl ⟨a, rfl, h⟩
  | error e => exact .inr ⟨e, rfl, h⟩

end Txn
