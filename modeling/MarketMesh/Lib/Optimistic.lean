import MarketMesh.Lib.Pool
import MarketMesh.Lib.Run
import Mathlib.Algebra.Order.Ring.Int

/-!
# Version checks under a row lock

Rows have an owner and a version.  A call says which version of its owner's row it expects; its
transaction locks the row, goes on if the version is the expected one, runs its statements and
commits.  Any number of calls run at the same time, each statement being a step; a transaction can
be rolled back wherever it is, and the answer to its commit can be lost.

`Spec` is what the calls do, and `Spec.step` the machine.  `Rules` are the obligations of a proof
about it: what is true of the store between transactions, what a transaction knows after each of its
statements, and that it touches its owner only.  `Rules.inv_of_reach` then says what holds in every
run: a row is locked by one call at a time, what a call knows is still true, and among the calls
with the same owner and the same expected version at most one commits.
-/

set_option autoImplicit false

namespace Optimistic

universe u

/-- How far a statement brings a transaction. -/
inductive Progress (L ρ : Type u) where
  | more (l : L)
  /-- The transaction is going to commit, and then to return the result. -/
  | ready (l : L) (result : ρ)

/-- Where a call is. -/
inductive Pc (L ρ ε : Type u) where
  | entered
  | running (l : L)
  | ready (l : L) (result : ρ)
  | finished (result : Except ε ρ)

variable {σ κ γ L ρ ε ι β η : Type u}

namespace Pc

/-- The call has the lock. -/
def holds : Pc L ρ ε → Bool
  | running _ | ready _ _ => true
  | entered | finished _ => false

def ofLock : Except ε L → Pc L ρ ε
  | .ok l => running l
  | .error e => finished (.error e)

def ofNext : Except ε (Progress L ρ) → Pc L ρ ε
  | .ok (.more l) => running l
  | .ok (.ready l result) => ready l result
  | .error e => finished (.error e)

/-- A call that is refused before its transaction has returned. -/
def ofEnter : Option ε → Pc L ρ ε
  | none => entered
  | some e => finished (.error e)

end Pc

/-- `hasCommitted` says that the transaction has been committed, whether or not the call knows. -/
structure Call (γ L ρ ε : Type u) where
  request : γ
  pc : Pc L ρ ε
  hasCommitted : Bool := false

structure System (σ γ L ρ ε : Type u) where
  store : σ
  calls : List (Call γ L ρ ε) := []

/-- The stores `σ`, the owners `κ`, the requests `γ`, the states of a transaction `L`, its results
`ρ` and errors `ε`, what it takes from outside in a step `ι`, the calls as they are made `η`, and
what else happens to the store `β`. -/
structure Spec (σ κ γ L ρ ε ι β η : Type u) where
  owner : γ → κ
  expected : γ → Int
  /-- The request of a call, or the error it is refused with. -/
  enter : η → Option (γ × Option ε)
  lock : σ → γ → Except ε L
  /-- The next statement. -/
  next : σ → γ → L → ι → Option (Except ε (Progress L ρ))
  commit : σ → γ → L → σ
  /-- What the call makes of the result of the transaction. -/
  answer : γ → ρ → Except ε ρ
  /-- The error of a call whose transaction is rolled back, or that gets no answer to its commit. -/
  broken : ε
  env : σ → β → Option σ

inductive Action (ι β η : Type u) where
  | env (b : β)
  | enter (x : η)
  | lock (k : Nat)
  | next (k : Nat) (i : ι)
  | commit (k : Nat)
  /-- The transaction is committed, but the answer is lost. -/
  | lose (k : Nat)
  /-- The transaction is rolled back. -/
  | fail (k : Nat)

namespace System

/-- Call `k` goes on. -/
def goOn (s : System σ γ L ρ ε) (k : Nat) (call : Call γ L ρ ε) (pc : Pc L ρ ε) :
    System σ γ L ρ ε :=
  { s with calls := s.calls.set k { call with pc := pc } }

end System

namespace Spec

variable [DecidableEq κ] (P : Spec σ κ γ L ρ ε ι β η)

def finish (s : System σ γ L ρ ε) (k : Nat) (call : Call γ L ρ ε) (l : L) (result : Except ε ρ) :
    System σ γ L ρ ε where
  store := P.commit s.store call.request l
  calls := s.calls.set k { call with pc := .finished result, hasCommitted := true }

/-- No call of the owner has the lock. -/
def isFree (s : System σ γ L ρ ε) (o : κ) : Bool :=
  s.calls.all fun call ↦ !(P.owner call.request = o && call.pc.holds)

def step (s : System σ γ L ρ ε) : Action ι β η → Option (System σ γ L ρ ε)
  | .env b => (P.env s.store b).map fun store ↦ { s with store := store }
  | .enter x => (P.enter x).map fun (request, refusal) ↦
      { s with calls := s.calls ++ [{ request := request, pc := .ofEnter refusal }] }
  | .lock k => (s.calls[k]?).bind fun call ↦
      match call.pc with
      | .entered =>
        if P.isFree s (P.owner call.request) then
          some (s.goOn k call (.ofLock (P.lock s.store call.request)))
        else none
      | _ => none
  | .next k i => (s.calls[k]?).bind fun call ↦
      match call.pc with
      | .running l => (P.next s.store call.request l i).map fun r ↦ s.goOn k call (.ofNext r)
      | _ => none
  | .commit k => (s.calls[k]?).bind fun call ↦
      match call.pc with
      | .ready l result => some (P.finish s k call l (P.answer call.request result))
      | _ => none
  | .lose k => (s.calls[k]?).bind fun call ↦
      match call.pc with
      | .ready l _ => some (P.finish s k call l (.error P.broken))
      | _ => none
  | .fail k => (s.calls[k]?).bind fun call ↦
      match call.pc with
      | .finished _ => none
      | _ => some (s.goOn k call (.finished (.error P.broken)))

end Spec

/-! ## What a step can do -/

section

variable [DecidableEq κ] {P : Spec σ κ γ L ρ ε ι β η} {s s' : System σ γ L ρ ε}
  {call : Call γ L ρ ε}

/-- A step of a call that does not commit. -/
inductive Move (P : Spec σ κ γ L ρ ε ι β η) (s : System σ γ L ρ ε) (call : Call γ L ρ ε) :
    Pc L ρ ε → Prop
  | locked (hpc : call.pc = .entered) (hfree : P.isFree s (P.owner call.request) = true) :
      Move P s call (.ofLock (P.lock s.store call.request))
  | executed {l : L} {i : ι} {r : Except ε (Progress L ρ)} (hpc : call.pc = .running l)
      (hr : P.next s.store call.request l i = some r) : Move P s call (.ofNext r)
  | failed (hpc : ∀ result, call.pc ≠ .finished result) :
      Move P s call (.finished (.error P.broken))

inductive Change (P : Spec σ κ γ L ρ ε ι β η) (s : System σ γ L ρ ε) : System σ γ L ρ ε → Prop
  | env {b : β} {store : σ} (h : P.env s.store b = some store) :
      Change P s { s with store := store }
  | entered {x : η} {request : γ} {refusal : Option ε} (h : P.enter x = some (request, refusal)) :
      Change P s { s with calls := s.calls ++ [{ request := request, pc := .ofEnter refusal }] }
  | moved {k : Nat} {call : Call γ L ρ ε} {pc : Pc L ρ ε} (hk : s.calls[k]? = some call)
      (h : Move P s call pc) : Change P s (s.goOn k call pc)
  | committed {k : Nat} {call : Call γ L ρ ε} {l : L} {x : ρ} {result : Except ε ρ}
      (hk : s.calls[k]? = some call) (hpc : call.pc = .ready l x)
      (hresult : result = P.answer call.request x ∨ result = .error P.broken) :
      Change P s (P.finish s k call l result)

theorem step_change {a : Action ι β η} (h : P.step s a = some s') : Change P s s' := by
  cases a with
  | env =>
    obtain ⟨store, hstore, rfl⟩ := Option.map_eq_some_iff.mp h
    exact .env hstore
  | enter =>
    obtain ⟨⟨request, refusal⟩, hx, rfl⟩ := Option.map_eq_some_iff.mp h
    exact .entered hx
  | lock k =>
    obtain ⟨call, hk, h⟩ := Option.bind_eq_some_iff.mp h
    split at h
    · rename_i hpc
      split_ifs at h with hfree
      cases h
      exact .moved hk (.locked hpc hfree)
    · cases h
  | next k i =>
    obtain ⟨call, hk, h⟩ := Option.bind_eq_some_iff.mp h
    split at h
    · rename_i l hpc
      obtain ⟨r, hr, rfl⟩ := Option.map_eq_some_iff.mp h
      exact .moved hk (.executed hpc hr)
    · cases h
  | commit k =>
    obtain ⟨call, hk, h⟩ := Option.bind_eq_some_iff.mp h
    split at h <;> cases h
    rename_i l x hpc
    exact .committed hk hpc (.inl rfl)
  | lose k =>
    obtain ⟨call, hk, h⟩ := Option.bind_eq_some_iff.mp h
    split at h <;> cases h
    rename_i l x hpc
    exact .committed hk hpc (.inr rfl)
  | fail k =>
    obtain ⟨call, hk, h⟩ := Option.bind_eq_some_iff.mp h
    split at h
    · cases h
    · rename_i hpc
      cases h
      exact .moved hk (.failed hpc)

theorem Move.not_finished {pc : Pc L ρ ε} (h : Move P s call pc) :
    ∀ result, call.pc ≠ .finished result := by
  cases h with
  | failed hpc => exact hpc
  | locked hpc | executed hpc => simp [hpc]

theorem Move.not_ok {pc : Pc L ρ ε} (h : Move P s call pc) (x : ρ) : pc ≠ .finished (.ok x) := by
  cases h with
  | locked => cases P.lock s.store call.request <;> simp [Pc.ofLock]
  | @executed l i r =>
    obtain e | ⟨l⟩ | ⟨l, x⟩ := r <;> simp [Pc.ofNext]
  | failed => simp

end

/-! ## The rules -/

/-- What there is to prove about the transactions. -/
structure Rules [DecidableEq κ] (P : Spec σ κ γ L ρ ε ι β η) where
  version : σ → κ → Option Int
  /-- The stores have the same rows of the owner. -/
  Same : κ → σ → σ → Prop
  /-- What is true of the store between transactions. -/
  Good : σ → Prop
  /-- What is true of a request whose transaction is started. -/
  Asked : γ → Prop
  /-- What a transaction knows. -/
  Knows : σ → γ → L → Prop
  /-- What it knows when it is going to commit. -/
  Ready : σ → γ → L → ρ → Prop
  /-- The errors that calls return. -/
  Harmless : ε → Prop
  same_refl : ∀ o S, Same o S S
  same_version : ∀ {o S S'}, Same o S S' → version S' o = version S o
  knows_same : ∀ {S S' r l}, Same (P.owner r) S S' → Knows S r l → Knows S' r l
  ready_same : ∀ {S S' r l x}, Same (P.owner r) S S' → Ready S r l x → Ready S' r l x
  asked : ∀ {x r}, P.enter x = some (r, none) → Asked r
  enter_error : ∀ {x r e}, P.enter x = some (r, some e) → Harmless e
  broken : Harmless P.broken
  lock_ok : ∀ {S r l}, Good S → Asked r → P.lock S r = .ok l →
    version S (P.owner r) = some (P.expected r) ∧ Knows S r l
  lock_error : ∀ {S r e}, Good S → Asked r → P.lock S r = .error e → Harmless e
  next_more : ∀ {S r l i l'}, Good S → Asked r → version S (P.owner r) = some (P.expected r) →
    Knows S r l → P.next S r l i = some (.ok (.more l')) → Knows S r l'
  next_ready : ∀ {S r l i l' x}, Good S → Asked r →
    version S (P.owner r) = some (P.expected r) → Knows S r l →
    P.next S r l i = some (.ok (.ready l' x)) → Ready S r l' x
  next_error : ∀ {S r l i e}, Good S → Asked r → version S (P.owner r) = some (P.expected r) →
    Knows S r l → P.next S r l i = some (.error e) → Harmless e
  answer : ∀ {S r l x}, Good S → Asked r → version S (P.owner r) = some (P.expected r) →
    Ready S r l x → P.answer r x = .ok x
  commit : ∀ {S r l x}, Good S → Asked r → version S (P.owner r) = some (P.expected r) →
    Ready S r l x → Good (P.commit S r l) ∧
      version (P.commit S r l) (P.owner r) = some (P.expected r + 1) ∧
      ∀ o, o ≠ P.owner r → Same o S (P.commit S r l)
  env : ∀ {S b S'}, Good S → P.env S b = some S' →
    Good S' ∧ ∀ o, Same o S S' ∨ version S o = none

namespace Rules

variable [DecidableEq κ] {P : Spec σ κ γ L ρ ε ι β η} (R : Rules P) {s s' t : System σ γ L ρ ε}

/-- What a call knows where it is. -/
def At (S : σ) (request : γ) : Pc L ρ ε → Prop
  | .entered => R.Asked request
  | .running l => R.Asked request ∧ R.Knows S request l
  | .ready l x => R.Asked request ∧ R.Ready S request l x
  | .finished (.error e) => R.Harmless e
  | .finished (.ok _) => True

structure Inv (s : System σ γ L ρ ε) : Prop where
  good : R.Good s.store
  knows : ∀ call ∈ s.calls, R.At s.store call.request call.pc
  found : ∀ call ∈ s.calls, call.pc.holds = true →
    R.version s.store (P.owner call.request) = some (P.expected call.request)
  exclusive : ∀ (i j : Nat) (c d : Call γ L ρ ε), s.calls[i]? = some c → s.calls[j]? = some d →
    P.owner c.request = P.owner d.request → c.pc.holds = true → d.pc.holds = true → i = j
  pending : ∀ call ∈ s.calls, (∀ result, call.pc ≠ .finished result) → call.hasCommitted = false
  answered : ∀ call ∈ s.calls, ∀ x, call.pc = .finished (.ok x) → call.hasCommitted = true
  spent : ∀ call ∈ s.calls, call.hasCommitted = true →
    ∃ v, R.version s.store (P.owner call.request) = some v ∧ P.expected call.request < v
  once : ∀ (i j : Nat) (c d : Call γ L ρ ε), s.calls[i]? = some c → s.calls[j]? = some d →
    P.owner c.request = P.owner d.request → P.expected c.request = P.expected d.request →
    c.hasCommitted = true → d.hasCommitted = true → i = j

variable {R} {call : Call γ L ρ ε} {pc : Pc L ρ ε}

theorem At.same {S S' : σ} {r : γ} (h : R.At S r pc)
    (hsame : R.Same (P.owner r) S S') : R.At S' r pc := by
  match pc, h with
  | .entered, h => exact h
  | .running l, h => exact ⟨h.1, R.knows_same hsame h.2⟩
  | .ready l x, h => exact ⟨h.1, R.ready_same hsame h.2⟩
  | .finished (.error e), h => exact h
  | .finished (.ok x), _ => trivial

theorem At.of_not_holds {S S' : σ} {r : γ} (h : R.At S r pc) (hpc : pc.holds = false) :
    R.At S' r pc := by
  match pc, h with
  | .entered, h => exact h
  | .running l, _ => cases hpc
  | .ready l x, _ => cases hpc
  | .finished (.error e), h => exact h
  | .finished (.ok x), _ => trivial

/-- The store is changed by something that is not a transaction. -/
theorem Inv.env (hs : R.Inv s) {b : β} {store : σ} (h : P.env s.store b = some store) :
    R.Inv { s with store := store } := by
  obtain ⟨hgood, hsame⟩ := R.env hs.good h
  constructor
  · exact hgood
  · intro call hcall
    obtain hsame | hnone := hsame (P.owner call.request)
    · exact (hs.knows call hcall).same hsame
    · refine (hs.knows call hcall).of_not_holds (Bool.eq_false_iff.mpr fun hholds ↦ ?_)
      cases hnone.symm.trans (hs.found call hcall hholds)
  · intro call hcall hholds
    have hfound := hs.found call hcall hholds
    obtain hsame | hnone := hsame (P.owner call.request)
    · exact (R.same_version hsame).trans hfound
    · cases hnone.symm.trans hfound
  · exact hs.exclusive
  · exact hs.pending
  · exact hs.answered
  · intro call hcall hdone
    obtain ⟨v, hv, hlt⟩ := hs.spent call hcall hdone
    obtain hsame | hnone := hsame (P.owner call.request)
    · exact ⟨v, (R.same_version hsame).trans hv, hlt⟩
    · cases hnone.symm.trans hv
  · exact hs.once

theorem Inv.entered (hs : R.Inv s) {x : η} {request : γ} {refusal : Option ε}
    (h : P.enter x = some (request, refusal)) :
    R.Inv { s with calls := s.calls ++ [{ request := request, pc := .ofEnter refusal }] } := by
  have hholds : (Pc.ofEnter refusal : Pc L ρ ε).holds = false := by cases refusal <;> rfl
  -- what holds of every call holds of the new one
  have hall : ∀ {p : Call γ L ρ ε → Prop}, (∀ call ∈ s.calls, p call) →
      p { request := request, pc := .ofEnter refusal } → ∀ call ∈ s.calls ++
        [{ request := request, pc := .ofEnter refusal }], p call := by
    intro p hold hnew call hcall
    obtain hcall | hcall := List.mem_append.mp hcall
    · exact hold call hcall
    · exact List.mem_singleton.mp hcall ▸ hnew
  constructor
  · exact hs.good
  · refine hall hs.knows ?_
    cases refusal with
    | none => exact R.asked h
    | some => exact R.enter_error h
  · exact hall hs.found fun h ↦ absurd h (Bool.eq_false_iff.mp hholds)
  · intro i j c d hc hd heq hcholds hdholds
    obtain ⟨-, rfl⟩ | hc := Pool.of_append hc
    · exact absurd hcholds (Bool.eq_false_iff.mp hholds)
    · obtain ⟨-, rfl⟩ | hd := Pool.of_append hd
      · exact absurd hdholds (Bool.eq_false_iff.mp hholds)
      · exact hs.exclusive i j c d hc hd heq hcholds hdholds
  · exact hall hs.pending fun _ ↦ rfl
  · refine hall hs.answered fun x hx ↦ ?_
    cases refusal <;> cases hx
  · exact hall hs.spent nofun
  · intro i j c d hc hd heq hexp hcdone hddone
    obtain ⟨-, rfl⟩ | hc := Pool.of_append hc
    · cases hcdone
    · obtain ⟨-, rfl⟩ | hd := Pool.of_append hd
      · cases hddone
      · exact hs.once i j c d hc hd heq hexp hcdone hddone

/-- What a step of a call finds out. -/
theorem Inv.move (hs : R.Inv s) (hcall : call ∈ s.calls)
    (h : Move P s call pc) : R.At s.store call.request pc ∧ (pc.holds = true →
      R.version s.store (P.owner call.request) = some (P.expected call.request) ∧
      (call.pc.holds = true ∨ P.isFree s (P.owner call.request) = true)) := by
  have hknows := hs.knows call hcall
  cases h with
  | locked hpc hfree =>
    rw [hpc] at hknows
    cases hlock : P.lock s.store call.request with
    | error => exact ⟨R.lock_error hs.good hknows hlock, nofun⟩
    | ok =>
      obtain ⟨hversion, hl⟩ := R.lock_ok hs.good hknows hlock
      exact ⟨⟨hknows, hl⟩, fun _ ↦ ⟨hversion, .inr hfree⟩⟩
  | @executed l i r hpc hr =>
    have hholds : call.pc.holds = true := by rw [hpc]; rfl
    have hversion := hs.found call hcall hholds
    rw [hpc] at hknows
    obtain ⟨hasked, hl⟩ := hknows
    refine ⟨?_, fun _ ↦ ⟨hversion, .inl hholds⟩⟩
    obtain e | ⟨l'⟩ | ⟨l', x⟩ := r
    · exact R.next_error hs.good hasked hversion hl hr
    · exact ⟨hasked, R.next_more hs.good hasked hversion hl hr⟩
    · exact ⟨hasked, R.next_ready hs.good hasked hversion hl hr⟩
  | failed => exact ⟨R.broken, nofun⟩

theorem Inv.moved (hs : R.Inv s) {k : Nat}
    (hk : s.calls[k]? = some call) (h : Move P s call pc) : R.Inv (s.goOn k call pc) := by
  have hcall := List.mem_of_getElem? hk
  obtain ⟨hat, hlocked⟩ := hs.move hcall h
  have hpending := hs.pending call hcall h.not_finished
  have hall : ∀ {p : Call γ L ρ ε → Prop}, (∀ call ∈ s.calls, p call) →
      p { call with pc := pc } → ∀ c ∈ s.calls.set k { call with pc := pc }, p c := by
    intro p hold hnew c hc
    obtain hc | rfl := List.mem_or_eq_of_mem_set hc
    · exact hold c hc
    · exact hnew
  -- another call of the owner cannot have the lock
  have hother : ∀ (i : Nat) (c : Call γ L ρ ε), s.calls[i]? = some c →
      P.owner c.request = P.owner call.request → pc.holds = true → c.pc.holds = true → i = k := by
    intro i c hc heq hpc hcholds
    obtain hold | hfree := (hlocked hpc).2
    · exact hs.exclusive i k c call hc hk heq hcholds hold
    · have := List.all_eq_true.mp hfree c (List.mem_of_getElem? hc)
      simp [heq, hcholds] at this
  constructor
  · exact hs.good
  · exact hall hs.knows hat
  · exact hall hs.found fun hpc ↦ (hlocked hpc).1
  · intro i j c d hc hd heq hcholds hdholds
    obtain ⟨rfl, rfl⟩ | ⟨-, hc'⟩ := Pool.of_set hc
    · obtain ⟨rfl, rfl⟩ | ⟨-, hd'⟩ := Pool.of_set hd
      · rfl
      · exact (hother j d hd' heq.symm hcholds hdholds).symm
    · obtain ⟨rfl, rfl⟩ | ⟨-, hd'⟩ := Pool.of_set hd
      · exact hother i c hc' heq hdholds hcholds
      · exact hs.exclusive i j c d hc' hd' heq hcholds hdholds
  · exact hall hs.pending fun _ ↦ hpending
  · exact hall hs.answered fun x hx ↦ absurd hx (h.not_ok x)
  · exact hall hs.spent fun hdone ↦ absurd (hpending.symm.trans hdone) Bool.false_ne_true
  · intro i j c d hc hd heq hexp hcdone hddone
    obtain ⟨rfl, rfl⟩ | ⟨-, hc'⟩ := Pool.of_set hc
    · exact absurd (hpending.symm.trans hcdone) Bool.false_ne_true
    · obtain ⟨rfl, rfl⟩ | ⟨-, hd'⟩ := Pool.of_set hd
      · exact absurd (hpending.symm.trans hddone) Bool.false_ne_true
      · exact hs.once i j c d hc' hd' heq hexp hcdone hddone

/-- What a commit finds. -/
theorem Inv.ready (hs : R.Inv s) {l : L} {x : ρ} (hcall : call ∈ s.calls)
    (hpc : call.pc = .ready l x) : R.Asked call.request ∧
      R.version s.store (P.owner call.request) = some (P.expected call.request) ∧
      R.Ready s.store call.request l x := by
  have hknows := hs.knows call hcall
  rw [hpc] at hknows
  exact ⟨hknows.1, hs.found call hcall (by rw [hpc]; rfl), hknows.2⟩

theorem Inv.committed (hs : R.Inv s) {k : Nat} {l : L} {x : ρ}
    {result : Except ε ρ} (hk : s.calls[k]? = some call) (hpc : call.pc = .ready l x)
    (hresult : ∀ e, result = .error e → R.Harmless e) : R.Inv (P.finish s k call l result) := by
  have hcall := List.mem_of_getElem? hk
  have hholds : call.pc.holds = true := by rw [hpc]; rfl
  obtain ⟨hasked, hversion, hready⟩ := hs.ready hcall hpc
  obtain ⟨hgood, hversion', hothers⟩ := R.commit hs.good hasked hversion hready
  have hall : ∀ {p : Call γ L ρ ε → Prop}, (∀ (i : Nat) (c : Call γ L ρ ε), i ≠ k →
      s.calls[i]? = some c → p c) → p { call with pc := .finished result, hasCommitted := true } →
      ∀ c ∈ (P.finish s k call l result).calls, p c := by
    intro p hold hnew c hc
    obtain ⟨i, hi⟩ := List.mem_iff_getElem?.mp hc
    obtain ⟨-, rfl⟩ | ⟨hne, hi⟩ := Pool.of_set hi
    · exact hnew
    · exact hold i c hne hi
  -- the calls that have committed before expected a smaller version
  have hsmaller : ∀ c ∈ s.calls, P.owner c.request = P.owner call.request →
      c.hasCommitted = true → P.expected c.request < P.expected call.request := by
    intro c hc heq hdone
    obtain ⟨v, hv, hlt⟩ := hs.spent c hc hdone
    rw [heq, hversion] at hv
    cases hv
    exact hlt
  constructor
  · exact hgood
  · refine hall (fun i c hne hi ↦ ?_) ?_
    · have hknows := hs.knows c (List.mem_of_getElem? hi)
      by_cases heq : P.owner c.request = P.owner call.request
      · exact hknows.of_not_holds (Bool.eq_false_iff.mpr fun hc ↦
          hne (hs.exclusive i k c call hi hk heq hc hholds))
      · exact hknows.same (hothers _ heq)
    · cases result with
      | error e => exact hresult e rfl
      | ok => trivial
  · refine hall (fun i c hne hi hc ↦ ?_) nofun
    have hsame := hothers (P.owner c.request) fun heq ↦
      hne (hs.exclusive i k c call hi hk heq hc hholds)
    exact (R.same_version hsame).trans (hs.found c (List.mem_of_getElem? hi) hc)
  · intro i j c d hc hd heq hcholds hdholds
    obtain ⟨rfl, rfl⟩ | ⟨-, hc⟩ := Pool.of_set hc
    · cases hcholds
    · obtain ⟨rfl, rfl⟩ | ⟨-, hd⟩ := Pool.of_set hd
      · cases hdholds
      · exact hs.exclusive i j c d hc hd heq hcholds hdholds
  · exact hall (fun i c _ hi ↦ hs.pending c (List.mem_of_getElem? hi))
      fun hopen ↦ absurd rfl (hopen result)
  · exact hall (fun i c _ hi ↦ hs.answered c (List.mem_of_getElem? hi)) fun _ _ ↦ rfl
  · refine hall (fun i c _ hi hdone ↦ ?_) fun _ ↦ ⟨_, hversion', Int.lt_succ _⟩
    have hc := List.mem_of_getElem? hi
    by_cases heq : P.owner c.request = P.owner call.request
    · exact ⟨_, heq ▸ hversion', (hsmaller c hc heq hdone).trans (Int.lt_succ _)⟩
    · obtain ⟨v, hv, hlt⟩ := hs.spent c hc hdone
      exact ⟨v, (R.same_version (hothers _ heq)).trans hv, hlt⟩
  · intro i j c d hc hd heq hexp hcdone hddone
    obtain ⟨rfl, rfl⟩ | ⟨-, hc'⟩ := Pool.of_set hc
    · obtain ⟨rfl, rfl⟩ | ⟨-, hd'⟩ := Pool.of_set hd
      · rfl
      · exact absurd hexp.symm (ne_of_lt (hsmaller d (List.mem_of_getElem? hd') heq.symm hddone))
    · obtain ⟨rfl, rfl⟩ | ⟨-, hd'⟩ := Pool.of_set hd
      · exact absurd hexp (ne_of_lt (hsmaller c (List.mem_of_getElem? hc') heq hcdone))
      · exact hs.once i j c d hc' hd' heq hexp hcdone hddone

theorem Inv.next (hs : R.Inv s) (h : Change P s s') : R.Inv s' := by
  cases h with
  | env h => exact hs.env h
  | entered h => exact hs.entered h
  | moved hk h => exact hs.moved hk h
  | committed hk hpc hresult =>
    refine hs.committed hk hpc fun e he ↦ ?_
    obtain hresult | hresult := hresult
    · obtain ⟨hasked, hversion, hready⟩ := hs.ready (List.mem_of_getElem? hk) hpc
      cases he.symm.trans (hresult.trans (R.answer hs.good hasked hversion hready))
    · cases he.symm.trans hresult
      exact R.broken

theorem Inv.of_reach (hs : R.Inv s) (h : Machine.Reach P.step (fun _ _ ↦ True) s t) : R.Inv t :=
  h.invariant (P := R.Inv) hs fun _ _ _ _ hs _ hstep ↦ hs.next (step_change hstep)

theorem inv_of_reach {store : σ} (hgood : R.Good store)
    (h : Machine.Reach P.step (fun _ _ ↦ True) { store := store } t) : R.Inv t := by
  refine Inv.of_reach ⟨hgood, ?_, ?_, ?_, ?_, ?_, ?_, ?_⟩ h <;> simp

/-- What becomes of the store in a step. -/
inductive Evolves (R : Rules P) (S : σ) : σ → Prop
  | same : Evolves R S S
  | env {b : β} {S' : σ} (h : P.env S b = some S') : Evolves R S S'
  | committed {r : γ} {l : L} {x : ρ} (hasked : R.Asked r)
      (hversion : R.version S (P.owner r) = some (P.expected r)) (hready : R.Ready S r l x) :
      Evolves R S (P.commit S r l)

theorem Inv.evolves (hs : R.Inv s) (h : Change P s s') : Evolves R s.store s'.store := by
  cases h with
  | env h => exact .env h
  | entered | moved => exact .same
  | committed hk hpc =>
    obtain ⟨hasked, hversion, hready⟩ := hs.ready (List.mem_of_getElem? hk) hpc
    exact .committed hasked hversion hready

/-- Call `k` takes effect. -/
structure Commits (R : Rules P) (s s' : System σ γ L ρ ε) (k : Nat) (call : Call γ L ρ ε) (l : L)
    (x : ρ) : Prop where
  before : s.calls[k]? = some call ∧ call.hasCommitted = false
  asked : R.Asked call.request
  ready : R.Ready s.store call.request l x
  version : R.version s.store (P.owner call.request) = some (P.expected call.request)
  after : ∃ result, (result = .ok x ∨ result = .error P.broken) ∧
    s'.calls = s.calls.set k { call with pc := .finished result, hasCommitted := true }
  store : s'.store = P.commit s.store call.request l

/-- What a step does: a call takes effect, or none does. -/
theorem Inv.outcome (hs : R.Inv s) (h : Change P s s') :
    (∃ k call l x, Commits R s s' k call l x) ∨
      (s'.store = s.store ∨ s'.calls = s.calls ∧ ∃ b, P.env s.store b = some s'.store) ∧
        ∀ (k : Nat) (call' : Call γ L ρ ε), s'.calls[k]? = some call' →
          call'.hasCommitted = true → ∃ call, s.calls[k]? = some call ∧
            call.hasCommitted = true := by
  cases h with
  | @env b _ h => exact .inr ⟨.inr ⟨rfl, b, h⟩, fun k call' hk hdone ↦ ⟨call', hk, hdone⟩⟩
  | entered =>
    refine .inr ⟨.inl rfl, fun k call' hk hdone ↦ ?_⟩
    obtain ⟨-, rfl⟩ | hk := Pool.of_append hk
    · cases hdone
    · exact ⟨call', hk, hdone⟩
  | moved hk =>
    refine .inr ⟨.inl rfl, fun k call' hk' hdone ↦ ?_⟩
    obtain ⟨rfl, rfl⟩ | ⟨-, hk'⟩ := Pool.of_set hk'
    · exact ⟨_, hk, hdone⟩
    · exact ⟨call', hk', hdone⟩
  | @committed k call l x result hk hpc hresult =>
    have hcall := List.mem_of_getElem? hk
    obtain ⟨hasked, hversion, hready⟩ := hs.ready hcall hpc
    refine .inl ⟨k, call, l, x, ⟨hk, hs.pending call hcall (by simp [hpc])⟩, hasked, hready,
      hversion, ⟨result, hresult.imp_left fun h ↦ ?_, rfl⟩, rfl⟩
    exact h.trans (R.answer hs.good hasked hversion hready)

end Rules

end Optimistic
