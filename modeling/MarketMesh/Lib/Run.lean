import Mathlib.Data.List.Basic

/-!
# Runs of a step function

A concurrent program is modelled by a *step function* `step : σ → α → Option σ`: an action `a`
names a thread and everything the scheduler, the clock and the network decide for its next atomic
step, and `step s a = none` says that the thread cannot take that step in the state `s`.  All the
nondeterminism sits in the choice of the action, so a property of every interleaving is a property
of every sequence of actions.

* `Reach step ok s₀ s` says that `s` is reached from `s₀` by steps each of which satisfies the side
  condition `ok` in the state it is taken from.  With a trivial `ok` this is plain reachability;
  with a proper `ok` it describes the runs on which a conditional property is claimed.
* `Reach.invariant` is the induction every invariant of the development goes through, and
  `Reach.project` takes a run of a system to the run of one of its components.
* `Path step ok s₀ as s` is the run with the actions `as`, for what is said of the history of a
  state; `Path.exists_turn` finds the step that brought something about.
* `replay` executes a script, and `Reach.of_replay` turns a script that can be executed into a
  reachability proof.
-/

set_option autoImplicit false

namespace Machine

universe u v u' v'

variable {σ : Type u} {α : Type v} {τ : Type u'} {β : Type v'}

/-- The states reached from `s₀` by steps that satisfy `ok` in the state they are taken from. -/
inductive Reach (step : σ → α → Option σ) (ok : σ → α → Prop) (s₀ : σ) : σ → Prop
  | start : Reach step ok s₀ s₀
  | next {s s' : σ} {a : α} (h : Reach step ok s₀ s) (hok : ok s a) (hs : step s a = some s') :
      Reach step ok s₀ s'

variable {step : σ → α → Option σ} {ok ok' : σ → α → Prop} {s₀ s s' : σ} {a : α}

/-- **The invariant rule.**  What holds initially and is preserved by every allowed step, from a
reachable state, holds in every reachable state. -/
@[elab_as_elim]
theorem Reach.invariant {P : σ → Prop} (h₀ : P s₀)
    (hstep : ∀ s a s', Reach step ok s₀ s → P s → ok s a → step s a = some s' → P s')
    (h : Reach step ok s₀ s) : P s := by
  induction h with
  | start => exact h₀
  | next h hok hs ih => exact hstep _ _ _ h ih hok hs

/-- A run under a stronger side condition is a run under a weaker one. -/
theorem Reach.mono (hok : ∀ s a, ok s a → ok' s a) (h : Reach step ok s₀ s) :
    Reach step ok' s₀ s := by
  induction h with
  | start => exact .start
  | next _ h hs ih => exact ih.next (hok _ _ h) hs

theorem Reach.trans {s₁ : σ} (h : Reach step ok s₀ s₁) (h' : Reach step ok s₁ s) :
    Reach step ok s₀ s := by
  induction h' with
  | start => exact h
  | next _ hok hs ih => exact ih.next hok hs

/-- **A component of a system makes runs of its own.**  Every step of the system is a step of the
component or leaves it alone. -/
theorem Reach.project {stepOf : τ → β → Option τ} {okOf : τ → β → Prop} (part : σ → τ)
    (hstep : ∀ s a s', ok s a → step s a = some s' →
      part s' = part s ∨ ∃ b, okOf (part s) b ∧ stepOf (part s) b = some (part s'))
    (h : Reach step ok s₀ s) : Reach stepOf okOf (part s₀) (part s) := by
  induction h with
  | start => exact .start
  | next _ hok hs ih =>
    obtain heq | ⟨b, hb, hs'⟩ := hstep _ _ _ hok hs
    · rwa [heq]
    · exact ih.next hb hs'

/-- The run that takes the actions of the list, the last one last. -/
inductive Path (step : σ → α → Option σ) (ok : σ → α → Prop) (s₀ : σ) : List α → σ → Prop
  | start : Path step ok s₀ [] s₀
  | next {as : List α} {s s' : σ} {a : α} (h : Path step ok s₀ as s) (hok : ok s a)
      (hs : step s a = some s') : Path step ok s₀ (as ++ [a]) s'

theorem Path.reach {as : List α} (h : Path step ok s₀ as s) : Reach step ok s₀ s := by
  induction h with
  | start => exact .start
  | next _ hok hs ih => exact ih.next hok hs

/-- What does not hold at first and holds in the end was brought about by a step. -/
theorem Path.exists_turn {P : σ → Prop} {as : List α} (h : Path step ok s₀ as s) (h₀ : ¬ P s₀)
    (hs : P s) : ∃ pre a post b b', as = pre ++ a :: post ∧ Path step ok s₀ pre b ∧ ok b a ∧
      step b a = some b' ∧ ¬ P b ∧ P b' ∧ Path step ok b' post s := by
  induction h with
  | start => exact absurd hs h₀
  | @next as b b' a hpath hok hstep ih =>
    by_cases hb : P b
    · obtain ⟨pre, a', post, c, c', rfl, hpre, hok', hstep', hnot, hP, hpost⟩ := ih hb
      exact ⟨pre, a', post ++ [a], c, c', by rw [List.append_assoc, List.cons_append], hpre, hok',
        hstep', hnot, hP, hpost.next hok hstep⟩
    · exact ⟨as, a, [], b, b', rfl, hpath, hok, hstep, hb, hs, .start⟩

/-- Execute a script.  An action of a script may depend on the state it is taken in, and has to
satisfy the side condition there. -/
def replay (step : σ → α → Option σ) (ok : σ → α → Prop) [∀ s a, Decidable (ok s a)] :
    σ → List (σ → α) → Option σ
  | s, [] => some s
  | s, a :: as => if ok s (a s) then (step s (a s)).bind fun s' ↦ replay step ok s' as else none

/-- A script that can be executed is a reachability proof. -/
theorem Reach.of_replay [∀ s a, Decidable (ok s a)] :
    ∀ {script : List (σ → α)} {s₀ s : σ}, replay step ok s₀ script = some s → Reach step ok s₀ s
  | [], s₀, s, h => by
    rw [replay, Option.some_inj] at h
    exact h ▸ .start
  | a :: script, s₀, s, h => by
    rw [replay] at h
    split at h
    · rename_i hok
      obtain ⟨s₁, hs₁, hrest⟩ := Option.bind_eq_some_iff.mp h
      exact (Reach.next .start hok hs₁).trans (Reach.of_replay hrest)
    · cases h

/-- A script whose last state passes a test reaches a state that does. -/
theorem Reach.exists_of_replay [∀ s a, Decidable (ok s a)] {script : List (σ → α)} {P : σ → Bool}
    (h : (replay step ok s₀ script).any P = true) : ∃ s, Reach step ok s₀ s ∧ P s = true := by
  obtain ⟨s, hs, hP⟩ := (Option.any_eq_true _ _).mp h
  exact ⟨s, .of_replay hs, hP⟩

/-- The same for a script of actions that are fixed. -/
theorem exists_of_script (step : σ → α → Option σ) (ok : σ → α → Prop) [∀ s a, Decidable (ok s a)]
    (s₀ : σ) (script : List α) (P : σ → Prop) [DecidablePred P]
    (h : (replay step ok s₀ (script.map fun a _ ↦ a)).any (fun s ↦ P s) = true) :
    ∃ s, Reach step ok s₀ s ∧ P s := by
  obtain ⟨s, hs, hP⟩ := Reach.exists_of_replay h
  exact ⟨s, hs, of_decide_eq_true hP⟩

end Machine
