import MarketMesh.GatewayIn.Registry
import MarketMesh.Lib.RoundRobin

/-!
# The choice of a data center

`selectDataCenterLocked` is a smooth weighted round robin among the data centers that have a
session for the route (`selectDataCenterLocked_round`).  What the scheme promises is in
`Lib/RoundRobin.lean`.  This file reads the loop of the source as a round and draws the conclusion
for calls one after the other whose weights do not change: the shares are exact
(`selections_fair`).

A data center that is not ready takes part in a selection with weight zero, whatever its
`currentWeight` is, so the credit of the round robin is `credit` and not `currentWeight`.
-/

set_option autoImplicit false

namespace MarketMesh.GatewayIn

open Protocol RoundRobin

theorem failbackWeight_bounds (elapsed warmup : Int) :
    100 ≤ failbackWeight elapsed warmup ∧ failbackWeight elapsed warmup ≤ 1000 := by
  rw [failbackWeight]
  split_ifs with hfull hnew
  · exact ⟨by decide, by decide⟩
  · exact ⟨by decide, by decide⟩
  · push Not at hfull hnew
    have hpart : 0 ≤ elapsed * (1000 - 100) / warmup ∧ elapsed * (1000 - 100) / warmup < 900 := by
      refine ⟨Int.ediv_nonneg (by omega) (by omega), ?_⟩
      rw [Int.ediv_lt_iff_lt_mul (by omega)]
      linarith
    exact ⟨by omega, by omega⟩

/-- The state with which a data center takes part in a selection. -/
def SelectionState.due (state : SelectionState) (now : Time) : SelectionState :=
  if state.isReady then state
  else { state with isReady := true, readySince := now, currentWeight := 0 }

theorem SelectionState.due_isReady (state : SelectionState) (now : Time) :
    (state.due now).isReady = true := by
  rw [due]
  split_ifs with h
  · exact h
  · rfl

namespace Registry

variable (settings : Settings) (route : RouteId) (now : Time) (r : Registry)

/-- The weight a data center gets in a selection. -/
def weight (dataCenter : String) : Int :=
  failbackWeight (now - (((r.selection ⟨route, dataCenter⟩).getD {}).due now).readySince)
    settings.failbackWarmup

/-- The weight a data center brings to a selection. -/
def credit (dataCenter : String) : Int :=
  (((r.selection ⟨route, dataCenter⟩).getD {}).due 0).currentWeight

/-- A data center with its share for the selection. -/
def funded (dataCenter : String) : SelectionState :=
  let state := ((r.selection ⟨route, dataCenter⟩).getD {}).due now
  { state with currentWeight := state.currentWeight + r.weight settings route now dataCenter }

/-- The selected data center after it has paid for all. -/
def charged (dataCenters : List String) (dataCenter : String) : SelectionState :=
  { r.funded settings route now dataCenter with
    currentWeight :=
      if dataCenters.length = 1 then 0
      else r.credit route dataCenter + r.weight settings route now dataCenter -
        (dataCenters.map (r.weight settings route now)).sum }

variable {settings route now r} {times : List Time} {dataCenters : List String} {d : String}
  {w : Int}

theorem due_currentWeight (state : SelectionState) (now now' : Time) :
    (state.due now).currentWeight = (state.due now').currentWeight := by
  simp only [SelectionState.due]
  split_ifs <;> rfl

theorem funded_currentWeight (dataCenter : String) :
    (r.funded settings route now dataCenter).currentWeight =
      r.credit route dataCenter + r.weight settings route now dataCenter := by
  rw [funded, credit, due_currentWeight _ now 0]

/-! ## The loop -/

/-- The data center selected so far after the loop has met one more. -/
def better (f : String → Int) (best : Option (String × Int)) (dataCenter : String) :
    Option (String × Int) :=
  match best with
  | some (name, w) => if w < f dataCenter then some (dataCenter, f dataCenter) else some (name, w)
  | none => some (dataCenter, f dataCenter)

variable (settings route now) in
/-- **The loop of `selectDataCenterLocked`** funds every data center, adds up the weights and keeps
the first of the greatest. -/
theorem selectDataCenterLoop_spec (dataCenters : List String) (hnodup : dataCenters.Nodup) :
    ∀ (r : Registry) (total : Int) (best : Option (String × Int)),
      (∀ key, (selectDataCenterLoop settings route now r total best dataCenters).1.selection key =
        if key.route = route ∧ key.dataCenter ∈ dataCenters then
          some (r.funded settings route now key.dataCenter)
        else r.selection key) ∧
      (selectDataCenterLoop settings route now r total best dataCenters).2.1 =
        total + (dataCenters.map (r.weight settings route now)).sum ∧
      (selectDataCenterLoop settings route now r total best dataCenters).2.2 =
        dataCenters.foldl
          (better fun d ↦ r.credit route d + r.weight settings route now d) best := by
  induction dataCenters with
  | nil =>
    intro r total best
    simp [selectDataCenterLoop]
  | cons dataCenter rest ih =>
    intro r total best
    obtain ⟨hnew, hrest⟩ := List.nodup_cons.mp hnodup
    set r₁ : Registry :=
      { r with
        selection := Function.update r.selection ⟨route, dataCenter⟩
          (some (r.funded settings route now dataCenter)) } with hr₁
    have hloop : selectDataCenterLoop settings route now r total best (dataCenter :: rest) =
        selectDataCenterLoop settings route now r₁ (total + r.weight settings route now dataCenter)
          (better (fun d ↦ r.credit route d + r.weight settings route now d) best dataCenter)
          rest := by
      simp only [better, ← funded_currentWeight]
      cases best with
      | none => rfl
      | some best =>
        obtain ⟨name, w⟩ := best
        simp only
        rw [← apply_ite some]
        rfl
    -- what the loop reads of the other data centers is as before
    have hsame : ∀ d ∈ rest, r₁.selection ⟨route, d⟩ = r.selection ⟨route, d⟩ := by
      intro d hd
      rw [hr₁]
      exact Function.update_of_ne (fun heq ↦ hnew (by cases heq; exact hd)) _ _
    have hweight : ∀ d ∈ rest, r₁.weight settings route now d = r.weight settings route now d :=
      fun d hd ↦ by rw [weight, hsame d hd, weight]
    have hcredit : ∀ d ∈ rest, r₁.credit route d = r.credit route d :=
      fun d hd ↦ by rw [credit, hsame d hd, credit]
    obtain ⟨hsel, htotal, hbest⟩ := ih hrest r₁ _ _
    rw [hloop]
    refine ⟨fun key ↦ ?_, ?_, ?_⟩
    · rw [hsel]
      by_cases hin : key.route = route ∧ key.dataCenter ∈ rest
      · rw [if_pos hin, if_pos ⟨hin.1, List.mem_cons_of_mem _ hin.2⟩, funded, funded,
          hsame _ hin.2, hweight _ hin.2]
      · rw [if_neg hin, hr₁]
        obtain rfl | hkey := eq_or_ne key ⟨route, dataCenter⟩
        · rw [if_pos ⟨rfl, List.mem_cons_self⟩]
          exact Function.update_self ..
        · rw [if_neg]
          · exact Function.update_of_ne hkey _ _
          · rintro ⟨rfl, hd⟩
            exact (List.mem_cons.mp hd).elim (fun h ↦ hkey (h ▸ rfl)) fun h ↦ hin ⟨rfl, h⟩
    · rw [htotal, List.map_congr_left hweight, List.map_cons, List.sum_cons, add_assoc]
    · rw [hbest, List.foldl_cons]
      refine List.foldl_ext _ _ _ fun best d hd ↦ ?_
      simp only [better, hweight d hd, hcredit d hd]

/-- The loop ends with a data center of the greatest weight. -/
theorem foldl_better (f : String → Int) (rest : List String) :
    ∀ name, ∃ d, rest.foldl (better f) (some (name, f name)) = some (d, f d) ∧
      d ∈ name :: rest ∧ ∀ j ∈ name :: rest, f j ≤ f d := by
  induction rest with
  | nil =>
    intro name
    exact ⟨name, rfl, List.mem_cons_self, fun j hj ↦ by rw [List.mem_singleton.mp hj]⟩
  | cons x rest ih =>
    intro name
    rw [List.foldl_cons, better]
    split_ifs with hlt
    · obtain ⟨d, hfold, hmem, hmax⟩ := ih x
      refine ⟨d, hfold, List.mem_cons_of_mem _ hmem, List.forall_mem_cons.mpr ⟨?_, hmax⟩⟩
      exact hlt.le.trans (hmax x List.mem_cons_self)
    · obtain ⟨d, hfold, hmem, hmax⟩ := ih name
      simp only [List.mem_cons, forall_eq_or_imp] at hmax hmem ⊢
      exact ⟨d, hfold, hmem.imp_right .inr, hmax.1, (not_lt.mp hlt).trans hmax.1, hmax.2⟩

/-! ## A selection -/

variable (settings route now) in
/-- **What `selectDataCenterLocked` does.**  The data center it returns is one of the greatest after
each has got its weight, and pays for all; alone, it is set back to zero. -/
theorem selectDataCenterLocked_spec (hnodup : dataCenters.Nodup) (hne : dataCenters ≠ []) :
    ∃ d ∈ dataCenters, (r.selectDataCenterLocked settings route dataCenters now).2 = d ∧
      (∀ j ∈ dataCenters, r.credit route j + r.weight settings route now j ≤
        r.credit route d + r.weight settings route now d) ∧
      ∀ key, (r.selectDataCenterLocked settings route dataCenters now).1.selection key =
        if key = ⟨route, d⟩ then
          some (r.charged settings route now dataCenters d)
        else if key.route = route ∧ key.dataCenter ∈ dataCenters then
          some (r.funded settings route now key.dataCenter)
        else r.selection key := by
  obtain ⟨first, rest, rfl⟩ := List.exists_cons_of_ne_nil hne
  obtain ⟨hsel, htotal, hbest⟩ := selectDataCenterLoop_spec settings route now (first :: rest)
    hnodup r 0 none
  obtain ⟨d, hfold, hmem, hmax⟩ := foldl_better
    (fun j ↦ r.credit route j + r.weight settings route now j) rest first
  rw [List.foldl_cons, better] at hbest
  simp only [hfold] at hbest
  rw [zero_add] at htotal
  have hpay : (selectDataCenterLoop settings route now r 0 none (first :: rest)).1.selection
      ⟨route, d⟩ = some (r.funded settings route now d) := by
    rw [hsel, if_pos ⟨rfl, hmem⟩]
  refine ⟨d, hmem, ?_, hmax, fun key ↦ ?_⟩
  · simp only [selectDataCenterLocked, hbest]
    rfl
  · simp only [selectDataCenterLocked, hbest, htotal, Option.map_some, Option.getD_some, hpay,
      Function.update_apply, funded_currentWeight]
    rw [hsel]
    rfl

theorem credit_eq_of_selection {r₁ r₂ : Registry}
    (h : r₁.selection ⟨route, d⟩ = r₂.selection ⟨route, d⟩) :
    r₁.credit route d = r₂.credit route d := by
  rw [credit, credit, h]

theorem credit_of_isReady {state}
    (h : r.selection ⟨route, d⟩ = some state) (hready : state.isReady = true) :
    r.credit route d = state.currentWeight := by
  rw [credit, h, Option.getD_some, SelectionState.due, if_pos hready]

theorem funded_isReady (d : String) : (r.funded settings route now d).isReady = true :=
  SelectionState.due_isReady _ _

theorem charged_isReady (dataCenters : List String) (d : String) :
    (r.charged settings route now dataCenters d).isReady = true :=
  SelectionState.due_isReady _ _

variable (settings route now) in
/-- **A selection among several data centers is a round.** -/
theorem selectDataCenterLocked_round (hnodup : dataCenters.Nodup) (hlen : 2 ≤ dataCenters.length) :
    Round dataCenters.toFinset (r.weight settings route now) (r.credit route)
      (r.selectDataCenterLocked settings route dataCenters now).2
      ((r.selectDataCenterLocked settings route dataCenters now).1.credit route) := by
  obtain ⟨d, hmem, hd, hmax, hsel⟩ := selectDataCenterLocked_spec (r := r) settings route now hnodup
    (List.ne_nil_of_length_pos (by omega))
  have hsum : ∑ j ∈ dataCenters.toFinset, r.weight settings route now j =
      (dataCenters.map (r.weight settings route now)).sum := List.sum_toFinset _ hnodup
  rw [hd]
  constructor
  · exact List.mem_toFinset.mpr hmem
  · exact fun j hj ↦ hmax j (List.mem_toFinset.mp hj)
  · rw [credit_of_isReady ((hsel _).trans (if_pos rfl)) (charged_isReady dataCenters d), hsum]
    exact if_neg (by omega)
  · intro j hj hne
    have hkey : (⟨route, j⟩ : SelectionKey) ≠ ⟨route, d⟩ := fun h ↦ hne (by cases h; rfl)
    rw [credit_of_isReady (by rw [hsel, if_neg hkey, if_pos ⟨rfl, List.mem_toFinset.mp hj⟩])
      (funded_isReady j), funded_currentWeight]
  · intro j hj
    have hkey : (⟨route, j⟩ : SelectionKey) ≠ ⟨route, d⟩ := fun h ↦
      hj (by cases h; exact List.mem_toFinset.mpr hmem)
    exact credit_eq_of_selection
      (by rw [hsel, if_neg hkey, if_neg fun h ↦ hj (List.mem_toFinset.mpr h.2)])

/-! ## Calls with constant weights -/

/-- `selectDataCenterLocked` called at the given times: the registry and what the calls return. -/
def selections (settings : Settings) (route : RouteId) (dataCenters : List String) (r : Registry)
    (times : List Time) : Registry × List String :=
  times.foldl (fun out now ↦
    match out.1.selectDataCenterLocked settings route dataCenters now with
    | (r, selected) => (r, out.2 ++ [selected])) (r, [])

theorem selections_append (dataCenters : List String) (times : List Time) :
    r.selections settings route dataCenters (times ++ [now]) =
      let out := r.selections settings route dataCenters times
      let last := out.1.selectDataCenterLocked settings route dataCenters now
      (last.1, out.2 ++ [last.2]) := by
  rw [selections, List.foldl_append]
  rfl

theorem selections_length (dataCenters : List String) (times : List Time) :
    (r.selections settings route dataCenters times).2.length = times.length := by
  induction times using List.reverseRecOn with
  | nil => rfl
  | append_singleton times now ih => simp [selections_append, ih]

/-- The state of a data center is ready, and its weight at the given times is `w`. -/
def Steady (settings : Settings) (route : RouteId) (times : List Time) (w : Int) (r : Registry)
    (dataCenter : String) : Prop :=
  ∃ state, r.selection ⟨route, dataCenter⟩ = some state ∧ state.isReady = true ∧
    ∀ now ∈ times, failbackWeight (now - state.readySince) settings.failbackWarmup = w

theorem Steady.weight_eq (h : Steady settings route times w r d) (hnow : now ∈ times) :
    r.weight settings route now d = w := by
  obtain ⟨state, hstate, hready, hw⟩ := h
  rw [weight, hstate, Option.getD_some, SelectionState.due, if_pos hready]
  exact hw now hnow

theorem Steady.pos (h : Steady settings route (now :: times) w r d) : 0 < w := by
  obtain ⟨state, -, -, hw⟩ := h
  have := (failbackWeight_bounds (now - state.readySince) settings.failbackWarmup).1
  rw [hw now List.mem_cons_self] at this
  omega

theorem Steady.mono {times'} (h : Steady settings route times w r d) (hsub : times' ⊆ times) :
    Steady settings route times' w r d := by
  obtain ⟨state, hstate, hready, hw⟩ := h
  exact ⟨state, hstate, hready, fun t ht ↦ hw t (hsub ht)⟩

theorem Steady.credit_eq
    (h : Steady settings route times w r d) : r.credit route d = r.currentWeight route d := by
  obtain ⟨state, hstate, hready, -⟩ := h
  rw [credit_of_isReady hstate hready, currentWeight, hstate]
  rfl

/-- A selection leaves everybody ready and since when. -/
theorem Steady.select
    (h : Steady settings route times w r d) (hnodup : dataCenters.Nodup) (hne : dataCenters ≠ []) :
    Steady settings route times w
      (r.selectDataCenterLocked settings route dataCenters now).1 d := by
  obtain ⟨state, hstate, hready, hw⟩ := h
  obtain ⟨j, -, -, -, hsel⟩ := selectDataCenterLocked_spec (r := r) settings route now hnodup hne
  have hfunded : (r.funded settings route now d).readySince = state.readySince := by
    rw [funded, hstate, Option.getD_some, SelectionState.due, if_pos hready]
  rw [Steady, hsel]
  split_ifs with hkey hmem
  · cases hkey
    exact ⟨_, rfl, charged_isReady .., fun now' hnow ↦ hfunded ▸ hw now' hnow⟩
  · exact ⟨_, rfl, funded_isReady .., fun now' hnow ↦ hfunded ▸ hw now' hnow⟩
  · exact ⟨state, hstate, hready, hw⟩

/-- Calls with constant weights are rounds with these weights. -/
theorem selections_rounds (hnodup : dataCenters.Nodup)
    (hlen : 2 ≤ dataCenters.length) {w : String → Int}
    (hsteady : ∀ d ∈ dataCenters, Steady settings route times (w d) r d) :
    Rounds dataCenters.toFinset w (r.credit route) (r.selections settings route dataCenters times).2
      ((r.selections settings route dataCenters times).1.credit route) ∧
    ∀ all, (∀ d ∈ dataCenters, Steady settings route all (w d) r d) →
      ∀ d ∈ dataCenters,
        Steady settings route all (w d) (r.selections settings route dataCenters times).1 d := by
  have hne : dataCenters ≠ [] := List.ne_nil_of_length_pos (by omega)
  induction times using List.reverseRecOn with
  | nil => exact ⟨.start, fun _ h ↦ h⟩
  | append_singleton times now ih =>
    obtain ⟨hrounds, hkept⟩ := ih fun d hd ↦ (hsteady d hd).mono (List.subset_append_left ..)
    rw [selections_append]
    refine ⟨hrounds.next ?_, fun all h d hd ↦ (hkept all h d hd).select hnodup hne⟩
    have hround := selectDataCenterLocked_round settings route now
      (r := (r.selections settings route dataCenters times).1) hnodup hlen
    -- the weights of the round are the constant ones
    have hw : ∀ d ∈ dataCenters.toFinset,
        (r.selections settings route dataCenters times).1.weight settings route now d = w d :=
      fun d hd ↦ (hkept _ hsteady d (List.mem_toFinset.mp hd)).weight_eq (by simp)
    exact hround.congr hw

/-- **The shares of the data centers are exact.**  `start` is a time at which the weights are those
of the calls. -/
theorem selections_fair {dataCenters : List String} (hnodup : dataCenters.Nodup)
    (hlen : 2 ≤ dataCenters.length) {w : String → Int} {start : Time} {times : List Time}
    (hsteady : ∀ d ∈ dataCenters, Steady settings route (start :: times) (w d) r d)
    (hzero : ∀ d ∈ dataCenters, r.currentWeight route d = 0) :
    let total := (dataCenters.map w).sum
    let out := r.selections settings route dataCenters times
    (dataCenters.map (out.1.currentWeight route)).sum = 0 ∧
    ∀ d ∈ dataCenters,
      out.2.count d * total < times.length * w d + total ∧
      -total < out.1.currentWeight route d ∧
      ∀ m : ℕ, (times.length : Int) = m * (total / dataCenters.toFinset.gcd w) →
        (out.2.count d : Int) = m * (w d / dataCenters.toFinset.gcd w) ∧
        out.1.currentWeight route d = 0 := by
  intro total out
  obtain ⟨hrounds, hkept⟩ := selections_rounds hnodup hlen fun d hd ↦
    (hsteady d hd).mono (List.subset_cons_self start times)
  have hS : ∀ {d}, d ∈ dataCenters ↔ d ∈ dataCenters.toFinset := List.mem_toFinset.symm
  have htotal : ∑ d ∈ dataCenters.toFinset, w d = total := List.sum_toFinset _ hnodup
  have hcount : out.2.length = times.length := selections_length ..
  have hw : ∀ d ∈ dataCenters.toFinset, 0 < w d := fun d hd ↦
    (hsteady d (hS.mpr hd)).pos
  have hcredit : ∀ d ∈ dataCenters.toFinset, r.credit route d = 0 := fun d hd ↦
    (hsteady d (hS.mpr hd)).credit_eq.trans (hzero d (hS.mpr hd))
  have hout : ∀ d ∈ dataCenters, out.1.credit route d = out.1.currentWeight route d := fun d hd ↦
    (hkept _ hsteady d hd).credit_eq
  refine ⟨?_, fun d hd ↦ ⟨?_, ?_, fun m hm ↦ ?_⟩⟩
  · rw [← List.map_congr_left hout, ← List.sum_toFinset _ hnodup, hrounds.sum_eq,
      Finset.sum_eq_zero hcredit]
  · have := hrounds.count_lt hw hcredit d (hS.mp hd)
    rwa [htotal, hcount] at this
  · have := hrounds.neg_lt hw hcredit d (hS.mp hd)
    rwa [htotal, hout d hd] at this
  · rw [← hcount, ← htotal] at hm
    rw [← hout d hd]
    exact hrounds.count_eq hw hcredit hm d (hS.mp hd)

/-- A warmed up data center and one that has just come back, with the clock frozen. -/
def sampleRegistry : Registry where
  selection := fun key ↦
    if key = ⟨.authLogin, "east"⟩ then some { readySince := 0, isReady := true }
    else if key = ⟨.authLogin, "west"⟩ then some { readySince := 60 * second, isReady := true }
    else none

def sampleSettings : Settings :=
  { (default : Settings) with
    maxTunnels := 4, maxTunnelsPerInstance := 2, failbackWarmup := 30 * second }

def sampleWeight (dataCenter : String) : Int := if dataCenter = "east" then 1000 else 100

theorem sample_steady : ∀ d ∈ ["east", "west"],
    Steady sampleSettings .authLogin (List.replicate 12 (60 * second)) (sampleWeight d)
      sampleRegistry d := by
  have hnow : ∀ now ∈ List.replicate 12 (60 * second), now = 60 * second :=
    fun _ h ↦ List.eq_of_mem_replicate h
  simp only [List.mem_cons, List.not_mem_nil, or_false, forall_eq_or_imp, forall_eq]
  exact ⟨⟨{ readySince := 0, isReady := true }, by decide, rfl, fun t ht ↦ by
      rw [hnow t ht]
      decide⟩,
    ⟨{ readySince := 60 * second, isReady := true }, by decide, rfl, fun t ht ↦ by
      rw [hnow t ht]
      decide⟩⟩

theorem selections_fair_sample :
    let out := sampleRegistry.selections sampleSettings .authLogin ["east", "west"]
      (List.replicate 11 (60 * second))
    out.2.count "east" = 10 ∧ out.2.count "west" = 1 := by
  intro out
  have hfair := (selections_fair (by decide) (by decide) sample_steady (by decide)).2
  have hgcd : ["east", "west"].toFinset.gcd sampleWeight = 100 := by decide
  have heast := (hfair "east" (by decide)).2.2 1 (by rw [hgcd]; decide)
  have hwest := (hfair "west" (by decide)).2.2 1 (by rw [hgcd]; decide)
  rw [hgcd] at heast hwest
  exact ⟨Int.ofNat_inj.mp (heast.1.trans (by decide)),
    Int.ofNat_inj.mp (hwest.1.trans (by decide))⟩

end Registry

end MarketMesh.GatewayIn
