import MarketMesh.Lib.Run

/-!
# The runner of a service

`Runner.Run` starts the components of a service, waits until its context is done or a component
returns, withdraws readiness, shuts the components down in reverse order and collects what their
`Run` functions return.

The goroutine of `Run`, the goroutines of the components and the clock are the threads of a step
function.  A component is only seen through what its `Run` and its `Shutdown` return, and when; so
these are actions of the environment.  The results travel through one buffered channel that is read
in two places: the first `select` and the loop of `wait`.  The two places keep different errors.
The loop keeps every error that is not one of a context; the first `select` keeps every result, but
none at all if the context is done by the time it looks (`checkContext`).  So an error that arrives
together with the cancellation of the context is lost (`error_lost`), and so is one that is still in
the channel when the deadline passes.  `collected` is about the runs in which neither happens.
-/

set_option autoImplicit false

namespace MarketMesh.Runtime

open Machine

/-! ## The components -/

/-- The runner: the names of its components, and whether it has a readiness gate. -/
structure Runner where
  names : List String
  hasHealth : Bool

/-- An error a component returns, with what `errors.Is` finds in it. -/
structure Fault where
  text : String
  isCanceled : Bool := false
  isDeadlineExceeded : Bool := false
  deriving DecidableEq, Repr

/-- An error of its own, and not one of a context. -/
def Fault.IsOwn (e : Fault) : Prop := e.isCanceled = false ∧ e.isDeadlineExceeded = false
  deriving Decidable

/-- The errors that `Run` joins. -/
inductive Failure where
  /-- `ErrComponentStopped` -/
  | stopped (name : String)
  | failed (name : String) (e : Fault)
  | shutdown (name : String) (e : Fault)
  | shutdownExpired (name : String)
  | waitExpired (names : List String)
  deriving DecidableEq, Repr

namespace Runner

variable (runner : Runner)

def name (i : Nat) : String := (runner.names[i]?).getD ""

def componentRunError (i : Nat) : Option Fault → Failure
  | none => .stopped (runner.name i)
  | some e => .failed (runner.name i) e

end Runner

/-! ## The threads -/

/-- Where `Run` is. -/
inductive Pc where
  /-- The goroutines are started. -/
  | starting
  | selecting
  /-- The `select` has received a result. -/
  | received (i : Nat) (e : Option Fault)
  | withdrawing
  | cancelling
  /-- The loop of `shutdown`, with this number of components before it. -/
  | stopping (k : Nat)
  /-- The `Shutdown` of a component has been called, and what has come through its channel. -/
  | awaiting (i : Nat) (result : Option (Option Fault))
  /-- The loop of `wait`. -/
  | waiting (remaining : Nat)
  | returned
  deriving DecidableEq, Repr

/-- `runs` are the results of the `Run` functions; `calls`, `active` and `ended` are the calls of
`Shutdown` in their order, those that have not returned, and what the others have returned. -/
structure State where
  pc : Pc := .starting
  isCanceled : Bool := false
  isExpired : Bool := false
  isReady : Bool := false
  runs : List (Option (Option Fault))
  results : List (Nat × Option Fault) := []
  completed : List Bool
  runErrors : List Failure := []
  shutdownErrors : List Failure := []
  waitErrors : List Failure := []
  calls : List Nat := []
  active : List Nat := []
  ended : List (Nat × Option Fault) := []

inductive Action where
  /-- The root context is done. -/
  | cancel
  /-- The shutdown deadline passes. -/
  | expire
  | runReturns (i : Nat) (e : Option Fault)
  | shutdownReturns (i : Nat) (e : Option Fault)
  | markReady
  | selectDone
  | selectResult
  /-- `ctx.Err() == nil`, after a result. -/
  | checkContext
  | markNotReady
  | cancelRun
  | callShutdown
  | receiveShutdown
  | abandonShutdown
  | startWait
  | receive
  | abandonWait
  | finish
  deriving DecidableEq, Repr

namespace State

/-- What `Run` returns; nil is the empty list. -/
def result (s : State) : List Failure := s.runErrors ++ s.shutdownErrors ++ s.waitErrors

def remaining (s : State) : Nat := s.completed.count false

/-- The shutdown context exists. -/
def hasDeadline (s : State) : Bool :=
  match s.pc with
  | .stopping _ | .awaiting _ _ | .waiting _ => true
  | _ => false

def start (runner : Runner) : State where
  runs := List.replicate runner.names.length none
  completed := List.replicate runner.names.length false

/-- A result of the loop of `wait` is kept unless it is nil or an error of a context. -/
def keep (runner : Runner) (i : Nat) (e : Option Fault) : List Failure :=
  match e with
  | some e => if e.IsOwn then [runner.componentRunError i (some e)] else []
  | none => []

def step (runner : Runner) (s : State) : Action → Option State
  | .cancel => some { s with isCanceled := true }
  | .expire => if s.hasDeadline then some { s with isExpired := true } else none
  | .runReturns i e =>
    if s.runs[i]? = some none then
      some { s with runs := s.runs.set i (some e), results := s.results ++ [(i, e)] }
    else none
  | .shutdownReturns i e =>
    if i ∈ s.active then
      some { s with
        active := s.active.erase i
        ended := s.ended ++ [(i, e)]
        pc := if s.pc = .awaiting i none then .awaiting i (some e) else s.pc }
    else none
  | .markReady =>
    match s.pc with
    | .starting => some { s with pc := .selecting, isReady := runner.hasHealth }
    | _ => none
  | .selectDone =>
    match s.pc with
    | .selecting => if s.isCanceled then some { s with pc := .withdrawing } else none
    | _ => none
  | .selectResult =>
    match s.pc, s.results with
    | .selecting, (i, e) :: rest =>
      some { s with pc := .received i e, results := rest, completed := s.completed.set i true }
    | _, _ => none
  | .checkContext =>
    match s.pc with
    | .received i e =>
      some { s with
        pc := .withdrawing
        runErrors := if s.isCanceled then s.runErrors
          else s.runErrors ++ [runner.componentRunError i e] }
    | _ => none
  | .markNotReady =>
    match s.pc with
    | .withdrawing => some { s with pc := .cancelling, isReady := false }
    | _ => none
  | .cancelRun =>
    match s.pc with
    | .cancelling => some { s with pc := .stopping runner.names.length }
    | _ => none
  | .callShutdown =>
    match s.pc with
    | .stopping (k + 1) =>
      some { s with pc := .awaiting k none, calls := s.calls ++ [k], active := s.active ++ [k] }
    | _ => none
  | .receiveShutdown =>
    match s.pc with
    | .awaiting i (some none) => some { s with pc := .stopping i }
    | .awaiting i (some (some e)) =>
      some { s with
        pc := .stopping i
        shutdownErrors := s.shutdownErrors ++ [.shutdown (runner.name i) e] }
    | _ => none
  | .abandonShutdown =>
    match s.pc with
    | .awaiting i _ =>
      if s.isExpired then
        some { s with
          pc := .waiting s.remaining
          shutdownErrors := s.shutdownErrors ++ [.shutdownExpired (runner.name i)] }
      else none
    | _ => none
  | .startWait =>
    match s.pc with
    | .stopping 0 => some { s with pc := .waiting s.remaining }
    | _ => none
  | .receive =>
    match s.pc, s.results with
    | .waiting (m + 1), (i, e) :: rest =>
      if s.completed[i]? = some true then some { s with results := rest }
      else
        some { s with
          pc := .waiting m
          results := rest
          completed := s.completed.set i true
          waitErrors := s.waitErrors ++ keep runner i e }
    | _, _ => none
  | .abandonWait =>
    match s.pc with
    | .waiting (_ + 1) =>
      if s.isExpired then
        some { s with
          pc := .returned
          waitErrors := s.waitErrors ++ [.waitExpired
            ((List.range runner.names.length).filter (fun i ↦ s.completed[i]? = some false)
              |>.map runner.name)] }
      else none
    | _ => none
  | .finish =>
    match s.pc with
    | .waiting 0 => some { s with pc := .returned }
    | _ => none

/-! ## What a run keeps -/

variable {runner : Runner} {s s' : State} {a : Action} {e : Option Fault} {i : Nat}
  {rest : List (Nat × Option Fault)}

/-- The calls of `Shutdown` made when `k` components are left. -/
def callsAfter (runner : Runner) (k : Nat) : List Nat :=
  (List.range' k (runner.names.length - k)).reverse

theorem callsAfter_eq {k : Nat} (hk : k < runner.names.length) :
    callsAfter runner k = callsAfter runner (k + 1) ++ [k] := by
  have hlen : runner.names.length - k = runner.names.length - (k + 1) + 1 := by omega
  rw [callsAfter, hlen, List.range'_succ, List.reverse_cons]
  rfl

/-- `Run` has left the first `select` for a reason, and has withdrawn readiness. -/
def Leaving (s : State) : Prop := (s.isCanceled = true ∨ s.runErrors ≠ []) ∧ s.isReady = false

/-- What holds where `Run` is, in a run in which the deadline does not pass. -/
def At (runner : Runner) (s : State) : Pc → Prop
  | .starting | .selecting =>
    s.calls = [] ∧ s.active = [] ∧ s.ended = [] ∧ s.remaining = runner.names.length
  | .received _ _ => s.calls = [] ∧ s.active = [] ∧ s.ended = []
  | .withdrawing =>
    s.calls = [] ∧ s.active = [] ∧ s.ended = [] ∧ (s.isCanceled = true ∨ s.runErrors ≠ [])
  | .cancelling => s.calls = [] ∧ s.active = [] ∧ s.ended = [] ∧ s.Leaving
  | .stopping k =>
    k ≤ runner.names.length ∧ s.calls = callsAfter runner k ∧ s.active = [] ∧
      s.ended.map Prod.fst = callsAfter runner k ∧ s.Leaving
  | .awaiting k none =>
    k < runner.names.length ∧ s.calls = callsAfter runner k ∧ s.active = [k] ∧
      s.ended.map Prod.fst = callsAfter runner (k + 1) ∧ s.Leaving
  | .awaiting k (some _) =>
    k < runner.names.length ∧ s.calls = callsAfter runner k ∧ s.active = [] ∧
      s.ended.map Prod.fst = callsAfter runner k ∧ s.Leaving
  | .waiting m =>
    s.remaining = m ∧ s.calls = callsAfter runner 0 ∧ s.active = [] ∧
      s.ended.map Prod.fst = callsAfter runner 0 ∧ s.Leaving
  | .returned =>
    s.remaining = 0 ∧ s.calls = callsAfter runner 0 ∧ s.active = [] ∧
      s.ended.map Prod.fst = callsAfter runner 0 ∧ s.Leaving

/-- The channel holds the results that nobody has received. -/
structure Channel (runner : Runner) (s : State) : Prop where
  runs : s.runs.length = runner.names.length
  completed : s.completed.length = runner.names.length
  sent : ∀ (i : Nat) (e : Option Fault), (i, e) ∈ s.results ↔
    s.runs[i]? = some (some e) ∧ s.completed[i]? = some false
  nodup : (s.results.map Prod.fst).Nodup
  done : ∀ i : Nat, s.completed[i]? = some true → ∃ e, s.runs[i]? = some (some e)

/-- Every error that was received is kept. -/
structure Kept (runner : Runner) (s : State) : Prop where
  runs : ∀ (i : Nat) (e : Fault), s.runs[i]? = some (some (some e)) → e.IsOwn →
    s.completed[i]? = some true →
    .failed (runner.name i) e ∈ s.runErrors ++ s.waitErrors ∨ s.pc = .received i (some e)
  shutdowns : ∀ (i : Nat) (e : Fault), (i, some e) ∈ s.ended →
    .shutdown (runner.name i) e ∈ s.shutdownErrors ∨ s.pc = .awaiting i (some (some e))

/-- The results that are received while the context is done are not errors of their own. -/
def Heard (s : State) (a : Action) : Prop :=
  a = .checkContext → ∀ i e, s.pc = .received i (some e) → e.IsOwn → s.isCanceled = false

/-- The deadline does not pass, and nothing is received too late. -/
def Timely (s : State) (a : Action) : Prop := a ≠ .expire ∧ s.Heard a

/-! ### What a step does -/

/-- What a step does before the deadline has passed. -/
inductive Step (runner : Runner) (s : State) : Action → State → Prop
  | cancel : Step runner s .cancel { s with isCanceled := true }
  | runReturns {i : Nat} {e : Option Fault} (hi : s.runs[i]? = some none) :
    Step runner s (.runReturns i e)
      { s with runs := s.runs.set i (some e), results := s.results ++ [(i, e)] }
  | shutdownReturns {i : Nat} {e : Option Fault} (hi : i ∈ s.active) :
    Step runner s (.shutdownReturns i e) { s with
      active := s.active.erase i
      ended := s.ended ++ [(i, e)]
      pc := if s.pc = .awaiting i none then .awaiting i (some e) else s.pc }
  | markReady (hpc : s.pc = .starting) :
    Step runner s .markReady { s with pc := .selecting, isReady := runner.hasHealth }
  | selectDone (hpc : s.pc = .selecting) (hcanceled : s.isCanceled = true) :
    Step runner s .selectDone { s with pc := .withdrawing }
  | selectResult {i : Nat} {e : Option Fault} {rest : List (Nat × Option Fault)}
    (hpc : s.pc = .selecting) (hresults : s.results = (i, e) :: rest) :
    Step runner s .selectResult
      { s with pc := .received i e, results := rest, completed := s.completed.set i true }
  | checkContext {i : Nat} {e : Option Fault} (hpc : s.pc = .received i e) :
    Step runner s .checkContext { s with
      pc := .withdrawing
      runErrors := if s.isCanceled then s.runErrors
        else s.runErrors ++ [runner.componentRunError i e] }
  | markNotReady (hpc : s.pc = .withdrawing) :
    Step runner s .markNotReady { s with pc := .cancelling, isReady := false }
  | cancelRun (hpc : s.pc = .cancelling) :
    Step runner s .cancelRun { s with pc := .stopping runner.names.length }
  | callShutdown {k} (hpc : s.pc = .stopping (k + 1)) :
    Step runner s .callShutdown
      { s with pc := .awaiting k none, calls := s.calls ++ [k], active := s.active ++ [k] }
  | receiveShutdown {i : Nat} {e : Option Fault} (hpc : s.pc = .awaiting i (some e)) :
    Step runner s .receiveShutdown { s with
      pc := .stopping i
      shutdownErrors := match e with
        | none => s.shutdownErrors
        | some e => s.shutdownErrors ++ [.shutdown (runner.name i) e] }
  | startWait (hpc : s.pc = .stopping 0) :
    Step runner s .startWait { s with pc := .waiting s.remaining }
  | receive {m i e rest} (hpc : s.pc = .waiting (m + 1)) (hresults : s.results = (i, e) :: rest) :
    Step runner s .receive { s with
      pc := .waiting m
      results := rest
      completed := s.completed.set i true
      waitErrors := s.waitErrors ++ keep runner i e }
  | finish (hpc : s.pc = .waiting 0) : Step runner s .finish { s with pc := .returned }

/-- Nothing is received twice, so `receive` always counts. -/
theorem Step.of_step (hs : Channel runner s) (hexpired : s.isExpired = false)
    (ha : a ≠ .expire) (h : s.step runner a = some s') : Step runner s a s' := by
  cases a with simp only [step] at h
  | expire => exact absurd rfl ha
  | cancel =>
    cases h
    exact .cancel
  | receive =>
    split at h
    · rename_i m i e rest hpc hresults
      rw [if_neg (by simp [((hs.sent i e).mp (by simp [hresults])).2])] at h
      cases h
      exact .receive hpc hresults
    · cases h
  | receiveShutdown =>
    split at h
    · rename_i i hpc
      cases h
      exact .receiveShutdown hpc
    · rename_i i e hpc
      cases h
      exact .receiveShutdown hpc
    · cases h
  | abandonShutdown | abandonWait =>
    split at h
    · simp [hexpired] at h
    · cases h
  | selectDone =>
    split at h
    · split_ifs at h
      cases h
      constructor <;> assumption
    · cases h
  | _ =>
    split at h
    · cases h
      constructor <;> assumption
    · cases h

/-! ### The calls of `Shutdown` -/

theorem At.cancel {pc} (h : At runner s pc) : At runner { s with isCanceled := true } pc := by
  have hleaving : s.Leaving → Leaving { s with isCanceled := true } := And.imp_left fun _ ↦ .inl rfl
  unfold At at h ⊢
  split at h <;> tauto

/-- A call of `Shutdown` is running only while `Run` waits for it. -/
theorem At.awaiting (h : At runner s s.pc) (hi : i ∈ s.active) :
    s.pc = .awaiting i none := by
  unfold At at h
  split at h <;> simp_all

theorem Step.at_pc (h : Step runner s a s') (hchannel : Channel runner s)
    (hs : At runner s s.pc) : At runner s' s'.pc := by
  cases h with
  | cancel => exact hs.cancel
  | runReturns => exact hs
  | shutdownReturns hi =>
    have hpc := hs.awaiting hi
    rw [hpc] at hs
    obtain ⟨hk, hcalls, hactive, hended, hleaving⟩ := hs
    simp only [hpc, if_true]
    refine ⟨hk, hcalls, by simp [hactive], ?_, hleaving⟩
    simp only [List.map_append, hended, List.map_cons, List.map_nil]
    exact (callsAfter_eq hk).symm
  | markReady hpc | finish hpc =>
    rw [hpc] at hs
    exact hs
  | selectDone hpc hcanceled =>
    rw [hpc] at hs
    exact ⟨hs.1, hs.2.1, hs.2.2.1, .inl hcanceled⟩
  | selectResult hpc =>
    rw [hpc] at hs
    exact ⟨hs.1, hs.2.1, hs.2.2.1⟩
  | checkContext hpc =>
    rw [hpc] at hs
    refine ⟨hs.1, hs.2.1, hs.2.2, ?_⟩
    by_cases hcanceled : s.isCanceled = true
    · exact .inl hcanceled
    · exact .inr (by simp [hcanceled])
  | markNotReady hpc =>
    rw [hpc] at hs
    exact ⟨hs.1, hs.2.1, hs.2.2.1, hs.2.2.2, rfl⟩
  | cancelRun hpc =>
    rw [hpc] at hs
    obtain ⟨hcalls, hactive, hended, hleaving⟩ := hs
    have hnone : callsAfter runner runner.names.length = [] := by simp [callsAfter]
    exact ⟨Nat.le_refl _, hcalls.trans hnone.symm, hactive, by simp [hended, hnone], hleaving⟩
  | callShutdown hpc =>
    rw [hpc] at hs
    obtain ⟨hk, hcalls, hactive, hended, hleaving⟩ := hs
    exact ⟨hk, by simp [hcalls, callsAfter_eq hk], by simp [hactive], hended, hleaving⟩
  | receiveShutdown hpc =>
    rw [hpc] at hs
    exact ⟨Nat.le_of_lt hs.1, hs.2⟩
  | startWait hpc =>
    rw [hpc] at hs
    exact ⟨rfl, hs.2⟩
  | @receive m i e rest hpc hresults =>
    rw [hpc] at hs
    refine ⟨?_, hs.2⟩
    have hcount : s.completed.count false = m + 1 := hs.1
    obtain ⟨hi, hfalse⟩ :=
      List.getElem?_eq_some_iff.mp ((hchannel.sent i e).mp (by simp [hresults])).2
    simp only [remaining]
    rw [List.count_set hi, hfalse, hcount]
    rfl

/-! ### The results of the components -/

/-- The `Run` of a component returns. -/
theorem Channel.returned (hs : Channel runner s)
    (hi : s.runs[i]? = some none) (hruns : s'.runs = s.runs.set i (some e))
    (hresults : s'.results = s.results ++ [(i, e)]) (hcompleted : s'.completed = s.completed) :
    Channel runner s' := by
  obtain ⟨hlruns, hlcompleted, hsent, hnodup, hdone⟩ := hs
  have hnew : ∀ j e', (j, e') ∈ s.results → j ≠ i := by
    rintro j e' hmem rfl
    cases hi.symm.trans ((hsent j e').mp hmem).1
  -- the component has not been received
  have hfresh : s.completed[i]? = some false := by
    obtain ⟨hlt, -⟩ := List.getElem?_eq_some_iff.mp hi
    rw [hlruns, ← hlcompleted] at hlt
    rw [List.getElem?_eq_getElem hlt, Option.some_inj, ← Bool.not_eq_true]
    intro hc
    obtain ⟨e', he'⟩ := hdone i ((List.getElem?_eq_getElem hlt).trans (congrArg some hc))
    cases hi.symm.trans he'
  refine ⟨by simp [hruns, hlruns], by rw [hcompleted, hlcompleted], fun j e' ↦ ?_, ?_,
    fun j hj ↦ ?_⟩
  · have hold := hsent j e'
    rw [hresults, hruns, hcompleted]
    grind
  · rw [hresults, List.map_append, List.nodup_append]
    simpa [hnodup] using hnew
  · grind

/-- `Run` receives the next result. -/
theorem Channel.received (hs : Channel runner s)
    (h : s.results = (i, e) :: rest) (hruns : s'.runs = s.runs)
    (hresults : s'.results = rest) (hcompleted : s'.completed = s.completed.set i true) :
    Channel runner s' := by
  obtain ⟨hlruns, hlcompleted, hsent, hnodup, hdone⟩ := hs
  rw [h, List.map_cons, List.nodup_cons] at hnodup
  have hrest : ∀ j e', (j, e') ∈ rest → i ≠ j := by
    rintro j e' hmem rfl
    exact hnodup.1 (List.mem_map.mpr ⟨_, hmem, rfl⟩)
  refine ⟨by rw [hruns, hlruns], by simp [hcompleted, hlcompleted], fun j e' ↦ ?_,
    hresults ▸ hnodup.2, fun j hj ↦ ?_⟩
  · have hold := hsent j e'
    rw [hresults, hruns, hcompleted]
    grind
  · have hold := hdone j
    have hfirst := (hsent i e).mp (by simp [h])
    grind

theorem Step.channel (h : Step runner s a s') (hs : Channel runner s) :
    Channel runner s' := by
  cases h with
  | runReturns hi => exact hs.returned hi rfl rfl rfl
  | selectResult _ hresults | receive _ hresults => exact hs.received hresults rfl rfl rfl
  | _ => exact ⟨hs.runs, hs.completed, hs.sent, hs.nodup, hs.done⟩

/-! ### The errors -/

/-- `Run` has a result in its hands that it has not looked at. -/
def Pc.IsHolding : Pc → Prop
  | .received _ _ | .awaiting _ (some _) => True
  | _ => False

/-- As long as `Run` has nothing in its hands, every error is kept. -/
theorem Kept.settled (hs : Kept runner s) (hpc : ¬ Pc.IsHolding s.pc) :
    (∀ (i : Nat) (e : Fault), s.runs[i]? = some (some (some e)) → e.IsOwn →
      s.completed[i]? = some true → .failed (runner.name i) e ∈ s.runErrors ++ s.waitErrors) ∧
    ∀ (i : Nat) (e : Fault), (i, some e) ∈ s.ended →
      .shutdown (runner.name i) e ∈ s.shutdownErrors :=
  ⟨fun i e hi hown hc ↦ (hs.runs i e hi hown hc).resolve_right fun h ↦ hpc (h ▸ trivial),
    fun i e hi ↦ (hs.shutdowns i e hi).resolve_right fun h ↦ hpc (h ▸ trivial)⟩

/-- A result that is received is kept or in the hands of `Run`. -/
theorem Kept.received (hs : Kept runner s) (hchannel : Channel runner s)
    (h : s.results = (i, e) :: rest)
    (hruns : s'.runs = s.runs) (hcompleted : s'.completed = s.completed.set i true)
    (hended : s'.ended = s.ended) (hrun : s'.runErrors = s.runErrors)
    (hshutdown : s'.shutdownErrors = s.shutdownErrors)
    (hwait : ∀ f ∈ s.waitErrors, f ∈ s'.waitErrors) (hpc : ¬ Pc.IsHolding s.pc)
    (hkeep : ∀ e', e = some e' → e'.IsOwn →
      .failed (runner.name i) e' ∈ s'.waitErrors ∨ s'.pc = .received i e) : Kept runner s' := by
  obtain ⟨hrun', -⟩ := (hchannel.sent i e).mp (by simp [h])
  obtain ⟨hfailed, hshut⟩ := hs.settled hpc
  refine ⟨fun j e' hj hown hc ↦ ?_, fun j e' hj ↦ .inl (hshutdown ▸ hshut j e' (hended ▸ hj))⟩
  rw [hruns] at hj
  by_cases hij : i = j
  · subst hij
    obtain rfl : e = some e' := by simpa [hrun'] using hj
    exact (hkeep e' rfl hown).imp_left fun hmem ↦ List.mem_append_right _ hmem
  · rw [hcompleted, List.getElem?_set, if_neg hij] at hc
    rw [hrun, List.mem_append]
    exact .inl ((List.mem_append.mp (hfailed j e' hj hown hc)).imp_right (hwait _))

theorem Step.kept (h : Step runner s a s') (hs : Kept runner s)
    (hat : At runner s s.pc) (hchannel : Channel runner s) (hok : s.Heard a) : Kept runner s' := by
  cases h with
  | cancel => exact ⟨hs.runs, hs.shutdowns⟩
  | @runReturns i e hi =>
    constructor
    · intro j e' hj hown hc
      obtain ⟨e'', he''⟩ := hchannel.done j hc
      have hij : i ≠ j := by
        rintro rfl
        rw [hi] at he''
        cases he''
      simp only [List.getElem?_set, if_neg hij] at hj
      exact hs.runs j e' hj hown hc
    · exact hs.shutdowns
  | shutdownReturns hi =>
    have hpc := hat.awaiting hi
    obtain ⟨hfailed, hshut⟩ := hs.settled (by rw [hpc]; exact id)
    refine ⟨fun j e' hj hown hc ↦ .inl (hfailed j e' hj hown hc), fun j e' hj ↦ ?_⟩
    simp only [hpc, if_true]
    obtain hold | heq := List.mem_append.mp hj
    · exact .inl (hshut j e' hold)
    · cases List.mem_singleton.mp heq
      exact .inr rfl
  | markReady hpc | selectDone hpc | markNotReady hpc | cancelRun hpc | callShutdown hpc
  | startWait hpc | finish hpc =>
    obtain ⟨hfailed, hshut⟩ := hs.settled (by rw [hpc]; exact id)
    exact ⟨fun i e hi hown hc ↦ .inl (hfailed i e hi hown hc), fun i e hi ↦ .inl (hshut i e hi)⟩
  | selectResult hpc hresults =>
    exact hs.received hchannel hresults rfl rfl rfl rfl rfl (fun _ hf ↦ hf)
      (by rw [hpc]; exact id) fun _ _ _ ↦ .inr rfl
  | @checkContext i e hpc =>
    constructor
    · intro j e' hj hown hc
      left
      obtain hmem | hheld := hs.runs j e' hj hown hc
      · rw [List.mem_append] at hmem ⊢
        refine hmem.imp_left fun hmem ↦ ?_
        split_ifs
        · exact hmem
        · exact List.mem_append_left _ hmem
      · -- the context was not done when the error was received
        have hnot := hok rfl j e' hheld hown
        obtain ⟨rfl, rfl⟩ : i = j ∧ e = some e' := by simpa [hpc] using hheld
        rw [List.mem_append, if_neg (by simp [hnot])]
        exact .inl (List.mem_append_right _ (List.mem_singleton.mpr rfl))
    · intro j e' hj
      exact .inl ((hs.shutdowns j e' hj).resolve_right (by simp [hpc]))
  | @receiveShutdown i e hpc =>
    constructor
    · intro j e' hj hown hc
      exact .inl ((hs.runs j e' hj hown hc).resolve_right (by simp [hpc]))
    · intro j e' hj
      left
      obtain hmem | hheld := hs.shutdowns j e' hj
      · cases e with
        | none => exact hmem
        | some => exact List.mem_append_left _ hmem
      · obtain ⟨rfl, rfl⟩ : i = j ∧ e = some e' := by simpa [hpc] using hheld
        exact List.mem_append_right _ (List.mem_singleton.mpr rfl)
  | receive hpc hresults =>
    refine hs.received hchannel hresults rfl rfl rfl rfl rfl
      (fun _ hf ↦ List.mem_append_left _ hf) (by rw [hpc]; exact id) fun e' he' hown ↦ .inl ?_
    subst he'
    refine List.mem_append_right _ ?_
    rw [keep, if_pos hown]
    exact List.mem_singleton.mpr rfl

/-! ## The run of a service -/

/-- What every run keeps in which the deadline does not pass and no error is received too late. -/
structure Inv (runner : Runner) (s : State) : Prop where
  at_pc : At runner s s.pc
  channel : Channel runner s
  kept : Kept runner s
  unexpired : s.isExpired = false

theorem Inv.start : Inv runner (start runner) := by
  have hruns : ∀ (i : Nat) (e : Option Fault), (State.start runner).runs[i]? ≠ some (some e) :=
    fun i e h ↦ by cases List.eq_of_mem_replicate (List.mem_of_getElem? h)
  refine ⟨⟨rfl, rfl, rfl, by simp [remaining, State.start]⟩, ?_, ?_, rfl⟩
  · refine ⟨List.length_replicate, List.length_replicate, fun i e ↦ ?_, List.nodup_nil,
      fun i h ↦ ?_⟩
    · exact ⟨nofun, fun h ↦ absurd h.1 (hruns i e)⟩
    · cases List.eq_of_mem_replicate (List.mem_of_getElem? h)
  · exact ⟨fun i e h ↦ absurd h (hruns i _), nofun⟩

theorem Inv.next (hs : Inv runner s) (hok : s.Timely a)
    (h : s.step runner a = some s') : Inv runner s' := by
  have hstep := Step.of_step hs.channel hs.unexpired hok.1 h
  refine ⟨hstep.at_pc hs.channel hs.at_pc, hstep.channel hs.channel,
    hstep.kept hs.kept hs.at_pc hs.channel hok.2, ?_⟩
  cases hstep <;> exact hs.unexpired

theorem inv (h : Reach (step runner) Timely (start runner) s) : Inv runner s :=
  h.invariant (P := Inv runner) .start fun _ _ _ _ hs hok hstep ↦ hs.next hok hstep

/-- The steps of the goroutine of `Run`. -/
def Action.isOwn : Action → Bool
  | .cancel | .expire | .runReturns _ _ | .shutdownReturns _ _ => false
  | _ => true

/-- The number of steps `Run` can still make. -/
def rank (runner : Runner) (s : State) : Nat :=
  match s.pc with
  | .starting => 3 * runner.names.length + 7
  | .selecting => 3 * runner.names.length + 6
  | .received _ _ => 3 * runner.names.length + 5
  | .withdrawing => 3 * runner.names.length + 4
  | .cancelling => 3 * runner.names.length + 3
  | .awaiting k _ => 2 * k + runner.names.length + 3
  | .stopping k => 2 * k + runner.names.length + 2
  | .waiting m => m + 1
  | .returned => 0

theorem Inv.remaining_le (hs : Inv runner s) : s.remaining ≤ runner.names.length := by
  rw [← hs.channel.completed]
  exact List.count_le_length

theorem Inv.rank_lt (hs : Inv runner s) (ha : Action.isOwn a = true)
    (h : s.step runner a = some s') : rank runner s' < rank runner s := by
  have hremaining := hs.remaining_le
  cases Step.of_step hs.channel hs.unexpired (by rintro rfl; cases ha) h with
  | cancel | runReturns | shutdownReturns => cases ha
  | markReady hpc | selectDone hpc | selectResult hpc | checkContext hpc | markNotReady hpc
  | cancelRun hpc | callShutdown hpc | receiveShutdown hpc | startWait hpc | receive hpc
  | finish hpc =>
    simp only [rank, hpc]
    omega

/-- A result that nobody has received is in the channel once its component has returned. -/
theorem Inv.exists_result (hs : Inv runner s) (hremaining : 0 < s.remaining)
    (hreturned : ∀ i < runner.names.length, ∃ e, s.runs[i]? = some (some e)) :
    ∃ i e rest, s.results = (i, e) :: rest := by
  obtain ⟨i, hi, hfalse⟩ := List.mem_iff_getElem.mp (List.count_pos_iff.mp hremaining)
  obtain ⟨e, he⟩ := hreturned i (hs.channel.completed ▸ hi)
  have hmem := (hs.channel.sent i e).mpr ⟨he, List.getElem?_eq_some_iff.mpr ⟨hi, hfalse⟩⟩
  obtain ⟨⟨j, e'⟩, rest, hrest⟩ := List.exists_cons_of_ne_nil (List.ne_nil_of_mem hmem)
  exact ⟨j, e', rest, hrest⟩

/-- `Run` only waits for its context and for the components. -/
theorem Inv.progress (hs : Inv runner s) (hpc : s.pc ≠ .returned)
    (hreturned : ∀ i < runner.names.length, ∃ e, s.runs[i]? = some (some e))
    (hactive : s.active = []) (hnames : runner.names ≠ []) :
    ∃ a, Action.isOwn a = true ∧ (s.step runner a).isSome = true := by
  have hat := hs.at_pc
  cases h : s.pc with
  | starting => exact ⟨.markReady, rfl, by simp [step, h]⟩
  | selecting =>
    rw [h] at hat
    obtain ⟨i, e, rest, hresults⟩ := hs.exists_result
      (hat.2.2.2.symm ▸ List.length_pos_iff.mpr hnames) hreturned
    exact ⟨.selectResult, rfl, by simp [step, h, hresults]⟩
  | received => exact ⟨.checkContext, rfl, by simp [step, h]⟩
  | withdrawing => exact ⟨.markNotReady, rfl, by simp [step, h]⟩
  | cancelling => exact ⟨.cancelRun, rfl, by simp [step, h]⟩
  | stopping k =>
    cases k with
    | zero => exact ⟨.startWait, rfl, by simp [step, h]⟩
    | succ => exact ⟨.callShutdown, rfl, by simp [step, h]⟩
  | awaiting i result =>
    cases result with
    | none =>
      rw [h] at hat
      simp [hat.2.2.1] at hactive
    | some e =>
      refine ⟨.receiveShutdown, rfl, ?_⟩
      cases e <;> simp [step, h]
  | waiting m =>
    cases m with
    | zero => exact ⟨.finish, rfl, by simp [step, h]⟩
    | succ =>
      rw [h] at hat
      obtain ⟨i, e, rest, hresults⟩ := hs.exists_result (by rw [hat.1]; omega) hreturned
      refine ⟨.receive, rfl, ?_⟩
      simp only [step, h, hresults]
      split <;> rfl
  | returned => exact absurd h hpc

/-- At most one `Shutdown` runs at a time, the calls are in reverse order, and readiness has been
withdrawn before. -/
theorem Inv.ordered (hs : Inv runner s) :
    s.active.length ≤ 1 ∧ s.calls <+: (List.range runner.names.length).reverse ∧
      (s.calls ≠ [] → s.isReady = false) := by
  have hcalls : ∀ k ≤ runner.names.length,
      callsAfter runner k <+: (List.range runner.names.length).reverse := by
    intro k hk
    rw [List.range_eq_range', callsAfter, List.reverse_prefix]
    refine ⟨List.range' 0 k, ?_⟩
    have happend := @List.range'_append_1 0 k (runner.names.length - k)
    rwa [Nat.zero_add, Nat.add_sub_cancel' hk] at happend
  have hat := hs.at_pc
  unfold At at hat
  split at hat
  case h_1 | h_2 | h_3 | h_4 | h_5 =>
    exact ⟨by simp [hat.2.1], by simp [hat.1], fun h ↦ absurd hat.1 h⟩
  case h_6 | h_7 | h_8 | h_9 | h_10 =>
    refine ⟨by simp [hat.2.2.1], hat.2.1 ▸ hcalls _ (by omega), fun _ ↦ hat.2.2.2.2.2⟩

/-- **The runner loses no error**, in a run in which the deadline does not pass and no error of a
component is received while the root context is already done.  `Run` calls every `Shutdown` once, in
reverse order and one at a time, after it has withdrawn readiness; it makes a bounded number of
steps of its own and waits only for its context and the components; and what it returns has every
error of its own that a `Run` returned and every error that a `Shutdown` returned. -/
theorem collected (h : Reach (step runner) Timely (start runner) s) :
    (s.active.length ≤ 1 ∧ s.calls <+: (List.range runner.names.length).reverse ∧
      (s.calls ≠ [] → s.isReady = false)) ∧
    (∀ a s', Action.isOwn a = true → s.step runner a = some s' →
      rank runner s' < rank runner s) ∧
    (s.pc ≠ .returned → (∀ i < runner.names.length, ∃ e, s.runs[i]? = some (some e)) →
      s.active = [] → runner.names ≠ [] →
      ∃ a, Action.isOwn a = true ∧ (s.step runner a).isSome = true) ∧
    (s.pc = .returned →
      s.calls = (List.range runner.names.length).reverse ∧
      s.ended.map Prod.fst = (List.range runner.names.length).reverse ∧
      (∀ i < runner.names.length, ∃ e, s.runs[i]? = some (some e)) ∧
      (∀ (i : Nat) (e : Fault), s.runs[i]? = some (some (some e)) → e.IsOwn →
        .failed (runner.name i) e ∈ s.result) ∧
      (∀ i e, (i, some e) ∈ s.ended → .shutdown (runner.name i) e ∈ s.result) ∧
      (s.result = [] → s.isCanceled = true ∧
        (∀ (i : Nat) (e : Fault), s.runs[i]? = some (some (some e)) → ¬ e.IsOwn) ∧
        ∀ i e, (i, e) ∈ s.ended → e = none)) := by
  have hs := inv h
  refine ⟨hs.ordered, fun a s' ha hstep ↦ hs.rank_lt ha hstep, hs.progress, fun hpc ↦ ?_⟩
  have hat := hs.at_pc
  rw [hpc] at hat
  obtain ⟨hremaining, hcalls, -, hended, hleaving⟩ := hat
  have hall : callsAfter runner 0 = (List.range runner.names.length).reverse := by
    rw [callsAfter, Nat.sub_zero, List.range_eq_range']
  have hcompleted : ∀ i < runner.names.length, s.completed[i]? = some true := by
    intro i hi
    rw [← hs.channel.completed] at hi
    rw [List.getElem?_eq_getElem hi]
    cases hc : s.completed[i] with
    | true => rfl
    | false => exact absurd (hc ▸ List.getElem_mem hi) (List.count_eq_zero.mp hremaining)
  have hlt : ∀ {i : Nat} {e}, s.runs[i]? = some e → i < runner.names.length := fun hi ↦
    hs.channel.runs ▸ (List.getElem?_eq_some_iff.mp hi).1
  obtain ⟨hfailed, hshut⟩ := hs.kept.settled (by rw [hpc]; exact id)
  have hruns : ∀ (i : Nat) (e : Fault), s.runs[i]? = some (some (some e)) → e.IsOwn →
      .failed (runner.name i) e ∈ s.result := by
    intro i e hi hown
    have hmem := hfailed i e hi hown (hcompleted i (hlt hi))
    simp only [result, List.mem_append] at hmem ⊢
    tauto
  have hshutdowns : ∀ i e, (i, some e) ∈ s.ended → .shutdown (runner.name i) e ∈ s.result := by
    intro i e hi
    simp only [result, List.mem_append]
    exact .inl (.inr (hshut i e hi))
  refine ⟨hcalls.trans hall, hended.trans hall, fun i hi ↦ hs.channel.done i (hcompleted i hi),
    hruns, hshutdowns, fun hnil ↦ ⟨?_, fun i e hi hown ↦ ?_, fun i e hi ↦ ?_⟩⟩
  · refine hleaving.1.resolve_right fun hne ↦ hne ?_
    simp only [result, List.append_eq_nil_iff] at hnil
    exact hnil.1.1
  · have := hruns i e hi hown
    simp [hnil] at this
  · cases e with
    | none => rfl
    | some e =>
      have := hshutdowns i e hi
      simp [hnil] at this

def sampleRunner : Runner where
  names := ["http", "db"]
  hasHealth := true

/-- A component fails by itself, and the other one when it is shut down; the context is not done. -/
def sampleFailure : List Action :=
  [.markReady, .runReturns 0 (some { text := "serve failed" }), .selectResult, .checkContext,
    .markNotReady, .cancelRun, .callShutdown, .runReturns 1 (some { text := "lost" }),
    .shutdownReturns 1 none, .receiveShutdown, .callShutdown,
    .shutdownReturns 0 (some { text := "flush failed" }), .receiveShutdown, .startWait, .receive,
    .finish]

/-- The error that the `select` has received. -/
def Pc.result? : Pc → Option Fault
  | .received _ e => e
  | _ => none

instance (s : State) (a : Action) : Decidable (s.Heard a) :=
  decidable_of_iff (a = .checkContext → ∀ r ∈ Pc.result? s.pc, r.IsOwn → s.isCanceled = false) <| by
    unfold Heard Pc.result?
    cases s.pc with
    | received i e => cases e <;> simp
    | _ => simp

instance (s : State) (a : Action) : Decidable (s.Timely a) := inferInstanceAs (Decidable (_ ∧ _))

theorem collected_sample :
    ∃ s, Reach (step sampleRunner) Timely (start sampleRunner) s ∧ s.pc = .returned ∧
      s.calls = [1, 0] ∧ .failed "http" { text := "serve failed" } ∈ s.result ∧
      .failed "db" { text := "lost" } ∈ s.result ∧
      .shutdown "http" { text := "flush failed" } ∈ s.result := by
  obtain ⟨s, hreach, hs⟩ := exists_of_script (step sampleRunner) Timely
    (start sampleRunner) sampleFailure (fun s ↦ s.pc = .returned ∧
      s.runs[0]? = some (some (some { text := "serve failed" })) ∧
      s.runs[1]? = some (some (some { text := "lost" })) ∧
      (0, some { text := "flush failed" }) ∈ s.ended) (by decide +kernel)
  obtain ⟨hpc, hhttp, hdb, hended⟩ := hs
  obtain ⟨-, -, -, hreturned⟩ := collected hreach
  obtain ⟨hcalls, -, -, hruns, hshutdowns, -⟩ := hreturned hpc
  exact ⟨s, hreach, hpc, hcalls, hruns 0 _ hhttp (by decide), hruns 1 _ hdb (by decide),
    hshutdowns 0 _ hended⟩

/-- **An error is lost.**  The component fails, and the context is done before `Run` looks at the
result: `Run` returns nil. -/
theorem error_lost :
    ∃ s, Reach (step sampleRunner) (fun _ a ↦ a ≠ .expire) (start sampleRunner) s ∧
      s.pc = .returned ∧ s.runs[0]? = some (some (some { text := "serve failed" })) ∧
      s.result = [] := by
  exact exists_of_script _ _ _
    [.markReady, .runReturns 0 (some { text := "serve failed" }), .selectResult, .cancel,
      .checkContext, .markNotReady, .cancelRun, .callShutdown, .shutdownReturns 1 none,
      .receiveShutdown, .callShutdown, .shutdownReturns 0 none, .receiveShutdown, .startWait,
      .runReturns 1 none, .receive, .finish] _ (by decide +kernel)

end State

end MarketMesh.Runtime
