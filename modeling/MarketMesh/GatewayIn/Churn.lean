import MarketMesh.GatewayIn.Fleet
import MarketMesh.GatewayIn.Selection
import MarketMesh.Lib.Pool

/-!
# The weights under churn

Data centers come and go, their weights grow while they warm up, and a data center that is found
without a session is set back to zero.  None of this keeps the sum of the weights, which is what
holds a smooth round robin together.  The file shows that the weights stay bounded all the same.

* `Registry.step` is the registry as a state machine, whose steps are the critical sections of
  `Registry.mu`.
* `SelectionChange` says once what a step does to the state of the selection: it keeps every entry
  or sets it back, or it does so and then makes one selection.
* `weights_bounded` is the bound, and what follows from it: a data center that keeps a session is
  selected again soon, and the counters of the source do not overflow.
-/

set_option autoImplicit false

namespace MarketMesh.GatewayIn

open Protocol RoundRobin Machine

namespace Registry

variable {settings : Settings} {route : RouteId} {now : Time} {r r' : Registry}
  {all : List ActiveSession} {stale : List SessionRef} {D : Finset String} {d : String}
  {k j : SessionRef} {x : SelectionState} {t : ActiveSession}

/-! ## The registry as a state machine -/

/-- A critical section of `Registry.mu`.  What it reads of the sessions comes with it: the sessions
the server has accepted, as they are then, and those the clock finds stale. -/
inductive Action where
  | beginHandshake
  | releaseHandshake
  | registerFromHandshake (k : SessionRef) (id instanceID : OpaqueID)
  | unregister (all : List ActiveSession) (stale : List SessionRef) (k : SessionRef)
      (t : ActiveSession)
  | markSessionReady (all : List ActiveSession) (stale : List SessionRef) (k : SessionRef)
      (t : ActiveSession) (now : Time)
  | reserveInstance (instanceID : OpaqueID)
  | releaseInstance (instanceID : OpaqueID)
  | selectionOrder (all : List ActiveSession) (stale : List SessionRef) (route : RouteId)
      (now : Time)
  | commitSessionSelection (all : List ActiveSession) (stale : List SessionRef) (route : RouteId)
      (k : SessionRef) (t : ActiveSession)
  | drain

def step (settings : Settings) (r : Registry) : Action → Option Registry
  | .beginHandshake => r.beginHandshake settings
  | .releaseHandshake => some r.releaseHandshake
  | .registerFromHandshake k id instanceID =>
    some (r.registerFromHandshake settings k id instanceID).1
  | .unregister all stale k t => some (r.unregister all stale k t)
  | .markSessionReady all stale k t now => some (r.markSessionReady all stale k t now)
  | .reserveInstance instanceID => some (r.reserveInstance settings instanceID).1
  | .releaseInstance instanceID => some (r.releaseInstance instanceID)
  | .selectionOrder all stale route now =>
    if r.isDraining then none else some (r.selectionOrder settings all stale route now).1
  | .commitSessionSelection all stale route k t =>
    some (r.commitSessionSelection all stale route k t)
  | .drain => some { r with isDraining := true }

/-- The sessions a critical section reads. -/
def Action.sessions : Action → List ActiveSession
  | .unregister all _ _ t | .markSessionReady all _ _ t _ | .commitSessionSelection all _ _ _ t =>
    t :: all
  | .selectionOrder all _ _ _ => all
  | _ => []

/-- All sessions are of the data centers `D`. -/
def Action.Of (D : Finset String) (a : Action) : Prop := ∀ t ∈ a.sessions, t.dataCenter ∈ D
  deriving Decidable

/-! ## What a step does to the selection -/

/-- An entry is kept, but for the position of its next session, or is set back to zero. -/
def EntryKept (s s' : Option SelectionState) : Prop :=
  (s' = none → s = none) ∧
  ∀ x', s' = some x' → x'.currentWeight = 0 ∨
    ∃ x, s = some x ∧ x'.currentWeight = x.currentWeight ∧ x'.isReady = x.isReady

theorem EntryKept.rfl {s} : EntryKept s s :=
  ⟨id, fun x' h ↦ .inr ⟨x', h, Eq.refl _, Eq.refl _⟩⟩

theorem EntryKept.map {f : SelectionState → SelectionState}
    (hf : ∀ x, f x = x ∨ (f x).currentWeight = 0) (s : Option SelectionState) :
    EntryKept s (s.map f) := by
  refine ⟨Option.map_eq_none_iff.mp, fun x' h ↦ ?_⟩
  obtain ⟨x, hx, rfl⟩ := Option.map_eq_some_iff.mp h
  obtain heq | hzero := hf x
  · exact .inr ⟨x, hx, by rw [heq], by rw [heq]⟩
  · exact .inl hzero

/-- What a critical section does to the state of the selection. -/
inductive SelectionChange (settings : Settings) (D : Finset String) (r r' : Registry) : Prop
  | kept (h : ∀ key, EntryKept (r.selection key) (r'.selection key))
  | selected {r₁ : Registry} (route : RouteId) (now : Time) (dataCenters : List String)
      (h : ∀ key, EntryKept (r.selection key) (r₁.selection key)) (hnodup : dataCenters.Nodup)
      (hne : dataCenters ≠ []) (hD : ∀ d ∈ dataCenters, d ∈ D)
      (hsel : r'.selection =
        (r₁.selectDataCenterLocked settings route dataCenters now).1.selection)

theorem resetUnavailableDataCentersLocked_kept (dataCenters : List String) (key : SelectionKey) :
    EntryKept (r.selection key)
      ((r.resetUnavailableDataCentersLocked route dataCenters).selection key) :=
  EntryKept.map (fun x ↦ by split_ifs; exacts [.inr rfl, .inl rfl]) _

theorem unregister_kept (k : SessionRef) (t : ActiveSession) (key : SelectionKey) :
    EntryKept (r.selection key) ((r.unregister all stale k t).selection key) := by
  rw [unregister]
  split_ifs
  · exact EntryKept.map (fun x ↦ by split_ifs; exacts [.inr rfl, .inl rfl]) _
  · exact .rfl

theorem markSessionReady_kept (k : SessionRef) (t : ActiveSession) (key : SelectionKey) :
    EntryKept (r.selection key) ((r.markSessionReady all stale k t now).selection key) := by
  simp only [markSessionReady]
  split_ifs with hkey hreset
  · exact ⟨nofun, fun x' h ↦ by cases h; exact .inl rfl⟩
  · refine ⟨nofun, fun x' h ↦ ?_⟩
    cases h
    -- only an entry that is there can be ready
    cases hentry : r.selection key with
    | none => simp [hentry] at hreset
    | some x =>
      simp only [hentry, Option.getD_some, Bool.or_eq_true, Bool.not_eq_true', not_or,
        Bool.not_eq_false] at hreset
      exact .inr ⟨x, rfl, rfl, hreset.1.symm⟩
  · exact .rfl

theorem commitSessionSelection_kept (k : SessionRef) (t : ActiveSession) (key : SelectionKey) :
    EntryKept (r.selection key)
      ((r.commitSessionSelection all stale route k t).selection key) := by
  rw [commitSessionSelection]
  split
  · exact .rfl
  · rename_i state hentry
    simp only
    split_ifs
    · by_cases hkey : key = ⟨route, t.dataCenter⟩
      · subst hkey
        refine ⟨fun h ↦ by simp at h, fun x' h ↦ .inr ⟨state, hentry, ?_⟩⟩
        simp only [Function.update_self, Option.some.injEq] at h
        subst h
        exact ⟨rfl, rfl⟩
      · simp only [Function.update_of_ne hkey]
        exact .rfl
    · exact .rfl

theorem mem_sortedDataCenters {eligible} :
    d ∈ sortedDataCenters all eligible ↔ ∃ k ∈ eligible, dataCenterOf all k = d := by
  rw [sortedDataCenters, List.mem_insertionSort, List.mem_dedup, List.mem_map]

theorem sortedDataCenters_nodup (eligible : List SessionRef) :
    (sortedDataCenters all eligible).Nodup :=
  (List.perm_insertionSort _ _).nodup_iff.mpr (List.nodup_dedup _)

theorem dataCenterOf_mem (hD : ∀ t ∈ all, t.dataCenter ∈ D)
    (h : isReadyForRoute all stale route k = true) : dataCenterOf all k ∈ D := by
  obtain ⟨t, ht, -⟩ := (Option.any_eq_true _ _).mp h
  rw [dataCenterOf, ht]
  exact hD t (List.mem_of_getElem? ht)

theorem selectionOrder_change (hD : ∀ t ∈ all, t.dataCenter ∈ D) :
    SelectionChange settings D r (r.selectionOrder settings all stale route now).1 := by
  rw [selectionOrder]
  set dataCenters := sortedDataCenters all (r.eligibleSessions all stale route) with hdef
  split_ifs with hempty
  · exact .kept (resetUnavailableDataCentersLocked_kept dataCenters)
  · refine .selected route now dataCenters (resetUnavailableDataCentersLocked_kept dataCenters)
      (sortedDataCenters_nodup _) hempty (fun d hd ↦ ?_) rfl
    obtain ⟨k, hk, rfl⟩ := mem_sortedDataCenters.mp hd
    exact dataCenterOf_mem hD (List.mem_filter.mp hk).2

/-- The operations that use the credits. -/
def Action.touchesSelection : Action → Bool
  | .unregister .. | .markSessionReady .. | .selectionOrder .. | .commitSessionSelection .. => true
  | _ => false

theorem step_selection {a} (ha : a.touchesSelection = false)
    (h : r.step settings a = some r') : r'.selection = r.selection := by
  cases a with
  | unregister | markSessionReady | selectionOrder | commitSessionSelection => cases ha
  | drain =>
    cases h
    rfl
  | _ =>
    simp only [step, beginHandshake, releaseHandshake, registerFromHandshake, reserveInstance,
      releaseInstance] at h
    split_ifs at h <;> cases h <;> rfl

theorem step_selectionChange {a} (hD : a.Of D) (h : r.step settings a = some r') :
    SelectionChange settings D r r' := by
  cases a with
  | unregister all stale k t =>
    cases h
    exact .kept (unregister_kept k t)
  | markSessionReady all stale k t =>
    cases h
    exact .kept (markSessionReady_kept k t)
  | selectionOrder =>
    rw [step] at h
    split_ifs at h
    cases h
    exact selectionOrder_change hD
  | commitSessionSelection all stale route k t =>
    cases h
    exact .kept (commitSessionSelection_kept k t)
  | _ => exact .kept fun key ↦ step_selection rfl h ▸ .rfl

/-! ## The invariant -/

/-- The weights are those of a round robin among `D`, and everybody who does not take part has
weight zero. -/
structure Balanced (D : Finset String) (r : Registry) : Prop where
  within : ∀ route, Within D (1000 * D.card) (r.credit route)
  settled : ∀ key x, r.selection key = some x → x.isReady = false ∨ key.dataCenter ∉ D →
    x.currentWeight = 0

theorem credit_of_currentWeight_eq_zero
    (h : r.selection ⟨route, d⟩ = some x) (hx : x.currentWeight = 0) : r.credit route d = 0 := by
  rw [credit, h, Option.getD_some, SelectionState.due]
  split_ifs
  · exact hx
  · rfl

theorem credit_kept (h : EntryKept (r.selection ⟨route, d⟩) (r'.selection ⟨route, d⟩)) :
    r'.credit route d = r.credit route d ∨ r'.credit route d = 0 := by
  cases hentry : r'.selection ⟨route, d⟩ with
  | none => exact .inl (credit_eq_of_selection (hentry.trans (h.1 hentry).symm))
  | some x' =>
    obtain hzero | ⟨x, hx, hweight, hready⟩ := h.2 x' hentry
    · exact .inr (credit_of_currentWeight_eq_zero hentry hzero)
    · left
      simp only [credit, hentry, hx, Option.getD_some, SelectionState.due, hready]
      split_ifs
      · exact hweight
      · rfl

theorem Balanced.kept (hr : Balanced D r)
    (h : ∀ key, EntryKept (r.selection key) (r'.selection key)) : Balanced D r' where
  within := fun route ↦
    (hr.within route).reset (by positivity) fun d _ ↦ credit_kept (h ⟨route, d⟩)
  settled := by
    intro key x' hx' hout
    obtain hzero | ⟨x, hx, hweight, hready⟩ := (h key).2 x' hx'
    · exact hzero
    · rw [hweight]
      exact hr.settled key x hx (hready ▸ hout)

variable (settings route now) in
theorem weight_bounds (d : String) :
    100 ≤ r.weight settings route now d ∧ r.weight settings route now d ≤ 1000 :=
  failbackWeight_bounds _ _

theorem sum_weight_le {S} (hS : S ⊆ D) :
    ∑ d ∈ S, r.weight settings route now d ≤ 1000 * D.card := by
  calc ∑ d ∈ S, r.weight settings route now d ≤ S.card • (1000 : Int) :=
        Finset.sum_le_card_nsmul _ _ _ fun d _ ↦ (weight_bounds settings route now d).2
    _ = 1000 * S.card := by rw [nsmul_eq_mul, mul_comm]
    _ ≤ 1000 * D.card := by have := card_le hS; omega

/-- A selection that has no choice sets the data center back. -/
theorem selectDataCenterLocked_single_kept (d : String) (key : SelectionKey) :
    EntryKept (r.selection key)
      ((r.selectDataCenterLocked settings route [d] now).1.selection key) := by
  obtain ⟨j, hj, -, -, hsel⟩ := selectDataCenterLocked_spec (r := r) settings route now
    (List.nodup_singleton d) (List.cons_ne_nil d [])
  cases List.mem_singleton.mp hj
  rw [hsel]
  split_ifs with hkey hmem
  · exact ⟨nofun, fun x' h ↦ by cases h; exact .inl rfl⟩
  · exact absurd (by cases key; cases hmem.1; cases List.mem_singleton.mp hmem.2; rfl) hkey
  · exact .rfl

theorem Balanced.select (hr : Balanced D r) {dataCenters}
    (hnodup : dataCenters.Nodup) (hlen : 2 ≤ dataCenters.length) (hD : ∀ d ∈ dataCenters, d ∈ D) :
    Balanced D (r.selectDataCenterLocked settings route dataCenters now).1 := by
  obtain ⟨d, hmem, -, -, hsel⟩ := selectDataCenterLocked_spec (r := r) settings route now hnodup
    (List.ne_nil_of_length_pos (by omega))
  have hS : dataCenters.toFinset ⊆ D := fun j hj ↦ hD j (List.mem_toFinset.mp hj)
  constructor
  · intro route'
    by_cases hroute : route' = route
    · subst hroute
      exact (hr.within route').round
        (selectDataCenterLocked_round settings route' now hnodup hlen) hS
        (fun j _ ↦ by have := (weight_bounds (r := r) settings route' now j).1; omega)
        (sum_weight_le hS)
    · refine (hr.within route').reset (by positivity) fun j _ ↦ .inl (credit_eq_of_selection ?_)
      rw [hsel, if_neg (fun h ↦ hroute (by cases h; rfl)), if_neg fun h ↦ hroute h.1]
  · intro key x hx hout
    rw [hsel] at hx
    split_ifs at hx with hkey hin
    · cases hx
      cases hkey
      exact absurd hout (by simp [charged_isReady, hD d hmem])
    · cases hx
      exact absurd hout (by simp [funded_isReady, hD _ hin.2])
    · exact hr.settled key x hx hout

theorem Balanced.change (hr : Balanced D r) (h : SelectionChange settings D r r') :
    Balanced D r' := by
  cases h with
  | kept h => exact hr.kept h
  | @selected r₁ route now dataCenters h hnodup hne hD hsel =>
    have hout : Balanced D (r₁.selectDataCenterLocked settings route dataCenters now).1 := by
      obtain ⟨d, rfl⟩ | hlen : (∃ d, dataCenters = [d]) ∨ 2 ≤ dataCenters.length := by
        match dataCenters, hne with
        | [d], _ => exact .inl ⟨d, rfl⟩
        | _ :: _ :: _, _ => exact .inr (by simp)
      · exact (hr.kept h).kept (selectDataCenterLocked_single_kept d)
      · exact (hr.kept h).select hnodup hlen hD
    exact hout.kept fun key ↦ hsel ▸ .rfl

theorem balanced (h : Reach (step settings) (fun _ a ↦ a.Of D) {} r) : Balanced D r := by
  refine h.invariant (P := Balanced D) ⟨fun route ↦ ?_, fun _ _ h ↦ by cases h⟩
    fun s a s' _ hs hok hstep ↦
    hs.change (step_selectionChange hok hstep)
  exact Within.zero (by positivity) fun _ _ ↦ rfl

/-- What the weight of one of `n` data centers is at most. -/
def weightBound (n : Nat) : Int := 1000 * n * (2 * n - 1)

theorem weightBound_nonneg (n : Nat) : 0 ≤ weightBound n := by
  cases n with
  | zero => decide
  | succ =>
    rw [weightBound]
    exact mul_nonneg (by positivity) (by push_cast; omega)

theorem Balanced.abs_currentWeight_le (hr : Balanced D r) {key}
    (hx : r.selection key = some x) : |x.currentWeight| ≤ weightBound D.card := by
  by_cases hout : x.isReady = false ∨ key.dataCenter ∉ D
  · rw [hr.settled key x hx hout, abs_zero]
    exact weightBound_nonneg _
  · push Not at hout
    have hx' : r.selection ⟨key.route, key.dataCenter⟩ = some x := hx
    rw [← credit_of_isReady hx' (by simpa using hout.1)]
    exact (hr.within key.route).abs_credit_le hout.2

/-! ## A data center that keeps a session -/

/-- The data center `d` has a session for the route, other than the one the section is about. -/
def Action.Serves (route : RouteId) (d : String) (r : Registry) : Action → Prop
  | .unregister all stale k _ | .markSessionReady all stale k _ _ =>
    ∃ j ∈ r.peers all d, j ≠ k ∧ isReadyForRoute all stale route j = true
  | .selectionOrder all stale route' _ =>
    route' = route → ∃ j ∈ r.peers all d, isReadyForRoute all stale route j = true
  | _ => True

/-- `selectedDataCenter` in `selectionOrder`. -/
def selectedDataCenter (settings : Settings) (r : Registry) (all : List ActiveSession)
    (stale : List SessionRef) (route : RouteId) (now : Time) : Option String :=
  let dataCenters := sortedDataCenters all (r.eligibleSessions all stale route)
  if dataCenters = [] then none
  else
    some ((r.resetUnavailableDataCentersLocked route dataCenters).selectDataCenterLocked settings
      route dataCenters now).2

/-- The action selects a data center for the route. -/
def Action.selects (route : RouteId) : Action → Bool
  | .selectionOrder _ _ route' _ => decide (route' = route)
  | _ => false

/-- The action selects the data center `d` for the route. -/
def Action.Chooses (settings : Settings) (route : RouteId) (d : String) (r : Registry) :
    Action → Prop
  | .selectionOrder all stale route' now =>
    route' = route ∧ r.selectedDataCenter settings all stale route' now = some d
  | _ => False

theorem mem_peers :
    k ∈ r.peers all d ↔ k ∈ r.sessions.entries.map Sigma.snd ∧ dataCenterOf all k = d ∧
      ∃ t, all[k]? = some t := by
  rw [peers, List.mem_filter, Option.any_eq_true]
  refine and_congr_right fun _ ↦ ⟨fun ⟨t, ht, hd⟩ ↦ ⟨?_, t, ht⟩, fun ⟨hd, t, ht⟩ ↦ ⟨t, ht, ?_⟩⟩
  · rw [dataCenterOf, ht]
    simpa using hd
  · rw [dataCenterOf, ht] at hd
    simpa using hd

theorem mem_peers_erase {id : OpaqueID} {r' : Registry}
    (hr' : r'.sessions = r.sessions.erase id) (hk : r.sessions.lookup id = some k) (hne : j ≠ k)
    (hj : j ∈ r.peers all d) : j ∈ r'.peers all d := by
  obtain ⟨hmem, hd⟩ := mem_peers.mp hj
  obtain ⟨⟨id', j⟩, hentry, rfl⟩ := List.mem_map.mp hmem
  refine mem_peers.mpr ⟨List.mem_map.mpr ⟨⟨id', j⟩, ?_, rfl⟩, hd⟩
  have hlookup : r.sessions.lookup id' = some j := AList.mem_lookup_iff.mpr hentry
  rw [hr']
  exact AList.mem_lookup_iff.mp (Pool.erase hlookup hk hne)

theorem unregister_served
    (hj : j ∈ r.peers all d) (hne : j ≠ k) (hready : isReadyForRoute all stale route j = true) :
    (r.unregister all stale k t).selection ⟨route, d⟩ = r.selection ⟨route, d⟩ := by
  rw [unregister]
  split_ifs with hk
  · -- the session `j` is still among the peers
    refine (Option.map_congr fun state _ ↦ if_neg ?_).trans Option.map_id'
    rintro ⟨rfl, hnone⟩
    refine Bool.false_ne_true (hnone.symm.trans (List.any_eq_true.mpr ⟨j, ?_, hready⟩))
    exact mem_peers_erase rfl hk hne hj
  · rfl

theorem markSessionReady_served
    (hj : j ∈ r.peers all d) (hne : j ≠ k) (hready : isReadyForRoute all stale route j = true) :
    (r.markSessionReady all stale k t now).credit route d = r.credit route d := by
  simp only [credit, markSessionReady]
  split_ifs with hkey hreset
  · obtain rfl : d = t.dataCenter := hkey.1
    have hpeer : ((r.peers all t.dataCenter).any fun j ↦
        decide (j ≠ k) && isReadyForRoute all stale route j) = true :=
      List.any_eq_true.mpr ⟨j, hj, by simp [hne, hready]⟩
    have hnot : ((r.selection ⟨route, t.dataCenter⟩).getD {}).isReady = false := by
      rw [hpeer] at hreset
      simpa using hreset
    simp [SelectionState.due, hnot]
  · simp only [Bool.or_eq_true, Bool.not_eq_true', not_or, Bool.not_eq_false] at hreset
    simp [SelectionState.due, hreset.1]
  · rfl

theorem commitSessionSelection_credit (route' : RouteId) (k : SessionRef) (t : ActiveSession) :
    (r.commitSessionSelection all stale route' k t).credit route d = r.credit route d := by
  rw [commitSessionSelection]
  split
  · rfl
  · rename_i state hentry
    simp only
    split_ifs
    · by_cases hkey : (⟨route, d⟩ : SelectionKey) = ⟨route', t.dataCenter⟩
      · cases hkey
        simp only [credit, Function.update_self, hentry, Option.getD_some, SelectionState.due]
        split_ifs <;> rfl
      · exact credit_eq_of_selection (Function.update_of_ne hkey _ _)
    · rfl

/-- A data center that takes part and is not selected gains its weight. -/
theorem selectionOrder_credit (hd : ∃ j ∈ r.peers all d,
      isReadyForRoute all stale route j = true)
    (hnot : r.selectedDataCenter settings all stale route now ≠ some d) :
    r.credit route d + 100 ≤ (r.selectionOrder settings all stale route now).1.credit route d := by
  obtain ⟨j, hj, hready⟩ := hd
  rw [selectedDataCenter] at hnot
  rw [selectionOrder]
  set dataCenters := sortedDataCenters all (r.eligibleSessions all stale route) with hdef
  have hmem : d ∈ dataCenters :=
    mem_sortedDataCenters.mpr ⟨j, List.mem_filter.mpr ⟨(mem_peers.mp hj).1, hready⟩,
      (mem_peers.mp hj).2.1⟩
  have hne : dataCenters ≠ [] := List.ne_nil_of_mem hmem
  simp only [hne, if_false] at hnot ⊢
  set r₁ := r.resetUnavailableDataCentersLocked route dataCenters with hr₁
  have hcredit : r₁.credit route d = r.credit route d := by
    refine credit_eq_of_selection ?_
    simp [hr₁, resetUnavailableDataCentersLocked, hmem]
  obtain ⟨i, -, hi, -, hsel⟩ := selectDataCenterLocked_spec (r := r₁) settings route now
    (sortedDataCenters_nodup (r.eligibleSessions all stale route)) hne
  have hkey : (⟨route, d⟩ : SelectionKey) ≠ ⟨route, i⟩ := by
    intro h
    cases h
    exact hnot (congrArg some hi)
  rw [credit_of_isReady (r := (r₁.selectDataCenterLocked settings route dataCenters now).1)
    ((hsel _).trans ((if_neg hkey).trans (if_pos ⟨rfl, hmem⟩))) (funded_isReady d),
    funded_currentWeight, hcredit]
  exact Int.add_le_add_left (weight_bounds settings route now d).1 _

theorem selectionOrder_other {route'} (hne : route' ≠ route) :
    (r.selectionOrder settings all stale route' now).1.credit route d = r.credit route d := by
  refine credit_eq_of_selection ?_
  rw [selectionOrder]
  set dataCenters := sortedDataCenters all (r.eligibleSessions all stale route') with hdef
  have hreset : (r.resetUnavailableDataCentersLocked route' dataCenters).selection ⟨route, d⟩ =
      r.selection ⟨route, d⟩ := by
    simp [resetUnavailableDataCentersLocked, hne.symm]
  by_cases hempty : dataCenters = []
  · rw [if_pos hempty, hreset]
  · rw [if_neg hempty]
    obtain ⟨i, -, -, -, hsel⟩ := selectDataCenterLocked_spec
      (r := r.resetUnavailableDataCentersLocked route' dataCenters) settings route' now
      (sortedDataCenters_nodup (r.eligibleSessions all stale route')) hempty
    refine (hsel _).trans ?_
    rw [if_neg (fun h ↦ hne (by cases h; rfl)), if_neg fun h ↦ hne h.1.symm, hreset]

theorem step_credit_le {a} (hserves : a.Serves route d r)
    (hnot : ¬ a.Chooses settings route d r) (h : r.step settings a = some r') :
    r.credit route d + (if a.selects route then 100 else 0) ≤ r'.credit route d := by
  have hsame : r'.credit route d = r.credit route d →
      r.credit route d + 0 ≤ r'.credit route d := fun heq ↦ by rw [add_zero, heq]
  cases a with
  | unregister =>
    cases h
    obtain ⟨j, hj, hne, hready⟩ := hserves
    exact hsame (credit_eq_of_selection (unregister_served hj hne hready))
  | markSessionReady =>
    cases h
    obtain ⟨j, hj, hne, hready⟩ := hserves
    exact hsame (markSessionReady_served hj hne hready)
  | selectionOrder all stale route' =>
    rw [step] at h
    split_ifs at h
    cases h
    by_cases hroute : route' = route
    · subst hroute
      rw [Action.selects, if_pos (decide_eq_true rfl)]
      exact selectionOrder_credit (hserves rfl) fun heq ↦ hnot ⟨rfl, heq⟩
    · rw [Action.selects, if_neg (by simpa using hroute), add_zero]
      exact (selectionOrder_other hroute).ge
  | commitSessionSelection all stale route' k t =>
    cases h
    exact hsame (commitSessionSelection_credit route' k t)
  | _ => exact hsame (credit_eq_of_selection (congrFun (step_selection rfl h) _))

/-- Every selection that passes over a data center with a session gives it at least 100. -/
theorem path_credit_le {as} {ok : Registry → Action → Prop}
    (hok : ∀ s a, ok s a → a.Serves route d s ∧ ¬ a.Chooses settings route d s)
    (h : Path (step settings) ok r as r') :
    r.credit route d + 100 * as.countP (Action.selects route) ≤ r'.credit route d := by
  induction h with
  | start => simp
  | @next as s s' a _ hoka hstep =>
    have hge := step_credit_le (hok s a hoka).1 (hok s a hoka).2 hstep
    rw [List.countP_append, List.countP_singleton]
    split_ifs at hge ⊢
    · push_cast
      omega
    · push_cast
      omega

theorem weightBound_le {n : Nat} (hn : n ≤ maxDataCenters) : weightBound n ≤ 496000 := by
  have hmul : n * (2 * n) ≤ 16 * (2 * n) := Nat.mul_le_mul_right _ hn
  rw [maxDataCenters] at hn
  rw [weightBound]
  nlinarith

/-- **The weights stay bounded under churn**, in every run of the critical sections with sessions
of the data centers `D`, whatever the clock does.  So a data center that keeps a session is selected
again after a bounded number of selections, and none of the sums of a selection overflows. -/
theorem weights_bounded (h : Reach (step settings) (fun _ a ↦ a.Of D) {} r) :
    (∀ key x, r.selection key = some x → |x.currentWeight| ≤ weightBound D.card) ∧
    (∀ route, ∀ d ∈ D, ∀ as r',
      Path (step settings)
        (fun s a ↦ a.Of D ∧ a.Serves route d s ∧ ¬ a.Chooses settings route d s) r as r' →
      50 * (as.countP (Action.selects route) : Int) ≤ weightBound D.card) ∧
    (D.card ≤ maxDataCenters → ∀ route now, ∀ dataCenters : List String, dataCenters.Nodup →
      (∀ d ∈ dataCenters, d ∈ D) →
      (dataCenters.map (r.weight settings route now)).sum < 2 ^ 63 ∧
      ∀ d ∈ dataCenters, |(r.funded settings route now d).currentWeight| < 2 ^ 63 ∧
        |(r.funded settings route now d).currentWeight -
          (dataCenters.map (r.weight settings route now)).sum| < 2 ^ 63) := by
  have hr := balanced h
  refine ⟨fun key x hx ↦ hr.abs_currentWeight_le hx, fun route d hd as r' hpath ↦ ?_,
    fun hn route now dataCenters hnodup hD ↦ ?_⟩
  · have hr' : Balanced D r' :=
      balanced (h.trans (hpath.reach.mono fun _ _ hok ↦ hok.1))
    have hcount := path_credit_le (fun _ _ hok ↦ hok.2) hpath
    have hlow := abs_le.mp ((hr.within route).abs_credit_le hd)
    have hhigh := abs_le.mp ((hr'.within route).abs_credit_le hd)
    rw [weightBound]
    omega
  · have hsum : (dataCenters.map (r.weight settings route now)).sum ≤ 1000 * D.card := by
      rw [← List.sum_toFinset _ hnodup]
      exact sum_weight_le fun d hd ↦ hD d (List.mem_toFinset.mp hd)
    have hsum0 : 0 ≤ (dataCenters.map (r.weight settings route now)).sum :=
      List.sum_nonneg fun w hw ↦ by
        obtain ⟨d, -, rfl⟩ := List.mem_map.mp hw
        exact le_trans (by decide) (weight_bounds settings route now d).1
    have hbound := weightBound_le hn
    rw [weightBound] at hbound
    rw [maxDataCenters] at hn
    refine ⟨by omega, fun d hd ↦ ?_⟩
    have hcredit := abs_le.mp ((hr.within route).abs_credit_le (hD d hd))
    have hweight := weight_bounds (r := r) settings route now d
    rw [funded_currentWeight, abs_lt, abs_lt]
    omega

/-- A session that serves logins. -/
def sampleSession (n : UInt8) (dataCenter : String) : ActiveSession where
  params :=
    { settings := default
      id := List.Vector.replicate 16 n
      limits := default
      routes := [.authLogin]
      capabilities := [] }
  instanceID := List.Vector.replicate 16 n
  dataCenter := dataCenter
  isRunning := true

def sampleSessions : List ActiveSession :=
  [sampleSession 1 "east", sampleSession 2 "west", sampleSession 3 "west"]

/-- The session is registered and ready. -/
def sampleArrival (k : SessionRef) (t : ActiveSession) (now : Time) : List Action :=
  [.beginHandshake, .registerFromHandshake k t.params.id t.instanceID,
    .markSessionReady sampleSessions [] k t now]

def sampleSelection : Action := .selectionOrder sampleSessions [] .authLogin (60 * second)

/-- After a selection the only tunnel of `west` goes and another one comes; in the next selection
`east` is passed over. -/
theorem weights_bounded_sample :
    ∃ r r' : Registry, Reach (step sampleSettings) (fun _ a ↦ a.Of {"east", "west"}) {} r ∧
      Path (step sampleSettings) (fun s a ↦ a.Of {"east", "west"} ∧
        a.Serves .authLogin "east" s ∧ ¬ a.Chooses sampleSettings .authLogin "east" s) r
        [sampleSelection] r' ∧
      (r.selection ⟨.authLogin, "east"⟩).map (·.currentWeight) = some (-1000) ∧
      (r'.selection ⟨.authLogin, "west"⟩).map (·.currentWeight) = some (-1000) ∧
      (∀ key x, r.selection key = some x → |x.currentWeight| ≤ weightBound 2) ∧
      50 * ([sampleSelection].countP (Action.selects .authLogin) : Int) ≤ weightBound 2 := by
  obtain ⟨r, hr, heast, hserves, hchosen, hwest⟩ := exists_of_script (step sampleSettings)
    (fun _ a ↦ a.Of {"east", "west"}) {}
    (sampleArrival 0 (sampleSession 1 "east") 0 ++ sampleArrival 1 (sampleSession 2 "west") 0 ++
      [sampleSelection, .unregister sampleSessions [] 1 (sampleSession 2 "west")] ++
      sampleArrival 2 (sampleSession 3 "west") (60 * second))
    (fun r ↦ (r.selection ⟨.authLogin, "east"⟩).map (·.currentWeight) = some (-1000) ∧
      (∃ j ∈ r.peers sampleSessions "east", isReadyForRoute sampleSessions [] .authLogin j = true) ∧
      r.selectedDataCenter sampleSettings sampleSessions [] .authLogin (60 * second) = some "west" ∧
      ((step sampleSettings r sampleSelection).bind fun r' ↦
        (r'.selection ⟨.authLogin, "west"⟩).map (·.currentWeight)) = some (-1000))
    (by decide +kernel)
  obtain ⟨r', hstep, hwest⟩ := Option.bind_eq_some_iff.mp hwest
  have hpasses : ¬ sampleSelection.Chooses sampleSettings .authLogin "east" r := by
    rintro ⟨-, hchosen'⟩
    exact absurd (Option.some_inj.mp (hchosen.symm.trans hchosen')) (by decide)
  have hpath : Path (step sampleSettings) (fun s a ↦ a.Of {"east", "west"} ∧
      a.Serves .authLogin "east" s ∧ ¬ a.Chooses sampleSettings .authLogin "east" s) r
      [sampleSelection] r' :=
    Path.start.next ⟨by decide, fun _ ↦ hserves, hpasses⟩ hstep
  obtain ⟨hweights, hselected, -⟩ := weights_bounded hr
  exact ⟨r, r', hr, hpath, heast, hwest, hweights, hselected _ "east" (by decide) _ _ hpath⟩

end Registry

end MarketMesh.GatewayIn
