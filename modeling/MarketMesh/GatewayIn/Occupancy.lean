import MarketMesh.GatewayIn.Accounting
import MarketMesh.Tunnel.Handshake
import Mathlib.Algebra.Order.BigOperators.Group.List
import Mathlib.Algebra.Order.Ring.Nat

/-!
# What a server holds

The registry of gateway-in counts the handshakes that are going on, the tunnels of each instance and
the requests on each instance, and refuses what would go over a limit.  `Admitted` says that the two
counters of tunnels follow the registered sessions and the handshakes.  With the slots of
`Accounting` this gives `Accounted`: in every state of the server the counters are the numbers they
stand for, within their limits, and they are back at zero when the calls have ended.
-/

set_option autoImplicit false

namespace MarketMesh.GatewayIn

open Protocol Machine

namespace Fleet

variable {settings : Settings} {f f' : Fleet} {k : SessionRef} {t : ActiveSession}

/-! ## The tunnels of the instances -/

/-- The registered sessions of the instance `i`. -/
def registeredSessions (f : Fleet) (i : OpaqueID) : Nat :=
  f.registry.sessions.entries.countP fun e ↦ f.atInstance i (some e.2)

/-- The counters of the registry are the numbers of handshakes and tunnels there are. -/
structure Admitted (settings : Settings) (f : Fleet) : Prop where
  handshakes : f.registry.handshakes = f.connects.count .handshaking
  tunnels : f.registry.sessions.entries.length + f.registry.handshakes ≤ max settings.maxTunnels 0
  entry : ∀ id k, f.registry.sessions.lookup id = some k →
    ∃ t, f.sessions[k]? = some t ∧ t.params.id = id
  instanceTunnels : ∀ i, f.registry.instanceTunnels i = f.registeredSessions i
  bounded : ∀ i, f.registry.instanceTunnels i ≤ max settings.maxTunnelsPerInstance 0

/-- The registered sessions are counted alike before and after a step that keeps the table. -/
theorem Change.registeredSessions (h : Change settings f f') (hf : Configured settings f)
    (hentry : ∀ id k, f.registry.sessions.lookup id = some k →
      ∃ t, f.sessions[k]? = some t ∧ t.params.id = id) {s : AList fun _ : OpaqueID ↦ SessionRef}
    (hs : ∀ e ∈ s.entries, e ∈ f.registry.sessions.entries) (i : OpaqueID) :
    s.entries.countP (fun e ↦ f'.atInstance i (some e.2)) =
      s.entries.countP fun e ↦ f.atInstance i (some e.2) := by
  refine List.countP_congr fun e he ↦ ?_
  rw [h.atInstance hf (fun k hk ↦ ?_) i]
  cases hk
  obtain ⟨t, ht, -⟩ := hentry e.1 e.2 (AList.mem_lookup_iff.mpr (hs e he))
  exact ⟨t, ht⟩

theorem Admitted.entry_step (ha : Admitted settings f) (hf : Configured settings f)
    (h : Change settings f f') (hadmits : Admission settings f f') :
    ∀ id k, f'.registry.sessions.lookup id = some k →
      ∃ t, f'.sessions[k]? = some t ∧ t.params.id = id := by
  have hkept {id : OpaqueID} {k : SessionRef} (hlookup : f.registry.sessions.lookup id = some k) :
      ∃ t, f'.sessions[k]? = some t ∧ t.params.id = id := by
    obtain ⟨t, hk, hid⟩ := ha.entry id k hlookup
    obtain ⟨t', hk', hkept⟩ := h.kept hf hk
    exact ⟨t', hk', by rw [hkept.params_eq, hid]⟩
  intro id k hlookup
  cases hadmits with
  | same hs | ended hs | begun _ hs => exact hkept (hs ▸ hlookup)
  | @registered t hnew hroom hs ht hh hc hl =>
    rw [hs] at hlookup
    obtain ⟨rfl, rfl⟩ | ⟨-, hlookup⟩ := Pool.of_insert hlookup
    · exact ⟨t, by rw [hl]; simp, rfl⟩
    · exact hkept hlookup
  | @unregistered j t hk hold hs =>
    rw [hs] at hlookup
    exact hkept (Pool.of_erase hlookup)

theorem Admitted.step (ha : Admitted settings f) (hf : Configured settings f)
    (h : Change settings f f') (hadmits : Admission settings f f') : Admitted settings f' := by
  have hentry := ha.entry_step hf h hadmits
  have hcount := ha.handshakes
  have hlength := ha.tunnels
  have hsame (hs : f'.registry.sessions = f.registry.sessions)
      (ht : f'.registry.instanceTunnels = f.registry.instanceTunnels) (i : OpaqueID) :
      f'.registry.instanceTunnels i = f'.registeredSessions i := by
    rw [ht, ha.instanceTunnels, Fleet.registeredSessions, Fleet.registeredSessions, hs,
      h.registeredSessions hf ha.entry fun e he ↦ he]
  cases hadmits with
  | same hs ht hh hc =>
    exact ⟨by rw [hh, hc, hcount], by rw [hs, hh]; exact hlength, hentry, hsame hs ht,
      fun i ↦ by rw [ht]; exact ha.bounded i⟩
  | begun hroom hs ht hh hc =>
    refine ⟨by rw [hh, hc, hcount]; rfl, ?_, hentry, hsame hs ht,
      fun i ↦ by rw [ht]; exact ha.bounded i⟩
    rw [hs, hh]
    omega
  | ended hs ht hh =>
    have hpos : 0 < f.registry.handshakes := by omega
    refine ⟨?_, ?_, hentry, hsame hs ht, fun i ↦ by rw [ht]; exact ha.bounded i⟩
    · rw [hh hpos]
      omega
    · rw [hs, hh hpos]
      omega
  | @registered t hnew hroom hs ht hh hc hl =>
    refine ⟨?_, ?_, hentry, fun i ↦ ?_, fun i ↦ ?_⟩
    · rw [hh]
      omega
    · rw [hs, hh, Tally.length_insert hnew]
      push_cast
      omega
    · rw [ht, registeredSessions, hs,
        AList.entries_insert_of_notMem (AList.lookup_eq_none.mp hnew), List.countP_cons,
        h.registeredSessions hf ha.entry fun e he ↦ he, Tally.update_succ, ha.instanceTunnels,
        atInstance_some (t := t) (by rw [hl]; simp), registeredSessions]
      simp only [decide_eq_true_eq, Int.natCast_add]
    · have hold := ha.bounded i
      rw [ht, Function.update_apply]
      split
      · rename_i hi
        subst hi
        omega
      · exact hold
  | @unregistered j t hk hlookup hs ht hh hc hl =>
    refine ⟨by rw [hh, hc, hcount], ?_, hentry, fun i ↦ ?_, fun i ↦ ?_⟩
    · have := Tally.length_erase hlookup
      rw [hs, hh]
      omega
    · have hperm := (Tally.entries_perm hlookup).countP_eq fun e ↦ f.atInstance i (some e.2)
      rw [List.countP_cons, atInstance_some hk] at hperm
      have hold := ha.instanceTunnels i
      rw [registeredSessions, hperm] at hold
      rw [ht, registeredSessions, hs, h.registeredSessions hf ha.entry fun e he ↦
        (Tally.entries_perm hlookup).mem_iff.mpr (List.mem_cons_of_mem _ he), Tally.update_pred]
      simp only [decide_eq_true_eq] at hold
      omega
    · have := ha.bounded i
      rw [ht, Tally.update_pred]
      omega

theorem admitted {ok : Fleet → Action → Prop} (h : Reach (Fleet.step settings) ok {} f) :
    Admitted settings f := by
  refine h.invariant ⟨rfl, le_max_right _ _, fun id k hlookup ↦ ?_, fun i ↦ rfl,
    fun i ↦ le_max_right _ _⟩ fun _ _ _ hreach ha _ hstep ↦ ?_
  · cases hlookup
  · exact ha.step (configured hreach) (step_change hstep) (step_cases hstep).2

/-! ## The counters of the registry -/

/-- No `Invoke` holds a slot of an instance. -/
def IsIdle (f : Fleet) : Prop :=
  ∀ caller ∈ f.callers, caller.pc.slot = none

/-- Every counter of the registry is the number it stands for. -/
structure Accounted (settings : Settings) (f : Fleet) : Prop where
  handshakes : f.registry.handshakes = f.connects.count .handshaking
  maxTunnels : f.registry.sessions.entries.length + f.registry.handshakes ≤ settings.maxTunnels
  instanceTunnels : ∀ i, f.registry.instanceTunnels i = f.registeredSessions i
  maxTunnelsPerInstance : ∀ i, f.registry.instanceTunnels i ≤ settings.maxTunnelsPerInstance
  instanceActive : ∀ i, f.registry.instanceActive i = f.activeRequests i + f.reservedSlots i
  maxInFlightPerInstance : ∀ i, f.registry.instanceActive i ≤ settings.maxInFlightPerInstance
  /-- The requests in the tables are those of the calls that have one there. -/
  active : ∀ i, f.activeRequests i = f.activeCallers i
  routeActive : ∀ t ∈ f.sessions, t.session.Routed
  nonneg : 0 ≤ f.registry.handshakes ∧ (∀ i, 0 ≤ f.registry.instanceTunnels i) ∧
    (∀ i, 0 ≤ f.registry.instanceActive i) ∧
    ∀ t ∈ f.sessions, ∀ route, 0 ≤ t.session.routeActive route
  /-- Each slot a call took has been given back once, or is the one the call still holds. -/
  returned : f.Returned
  idle : f.IsIdle → (∀ i, f.registry.instanceActive i = 0) ∧
    ∀ t ∈ f.sessions, t.session.requests.entries = [] ∧ ∀ route, t.session.routeActive route = 0

theorem IsIdle.countP (h : f.IsIdle) (b : Caller → Bool) (i : OpaqueID) :
    f.callers.countP (fun caller ↦ b caller && f.atInstance i caller.pc.slot) = 0 := by
  rw [List.countP_eq_zero]
  intro caller hcaller
  rw [h caller hcaller, atInstance_none, Bool.and_false]
  exact Bool.false_ne_true

/-- Without a slot there is no request in any table. -/
theorem IsIdle.requests (h : f.IsIdle) (hcount : Counted settings f) (ht : t ∈ f.sessions) :
    t.session.requests.entries = [] := by
  have hzero : f.activeRequests t.instanceID = 0 := by
    rw [hcount.active]
    exact h.countP _ _
  have hle : requestsOf t.instanceID t ≤ 0 :=
    hzero ▸ List.single_le_sum (fun _ _ ↦ Nat.zero_le _) _ (List.mem_map_of_mem ht)
  rw [requestsOf, if_pos rfl] at hle
  exact List.length_eq_zero_iff.mp (Nat.le_zero.mp hle)

theorem IsIdle.instanceActive (h : f.IsIdle) (hcount : Counted settings f) (i : OpaqueID) :
    f.registry.instanceActive i = 0 := by
  have hactive : f.activeCallers i = 0 := h.countP _ _
  have hreserved : f.reservedSlots i = 0 := h.countP _ _
  rw [hcount.instanceActive, hcount.active, hactive, hreserved]
  rfl

/-- **The registry keeps its accounts.**  In every state of a server with an accepted configuration,
the handshakes and tunnels, the tunnels of each instance and the requests on each instance are
within their limits and are what the counters say; so are the requests of each route of a session.
Each slot is given back once, no counter is negative, and once no call holds a slot, the counters
of the instances and of the routes are zero and the tables are empty. -/
theorem accounted {config : Config} (hconfig : newSettings config = .ok settings)
    (h : Reach (Fleet.step settings) (fun _ _ ↦ True) {} f) : Accounted settings f := by
  have hcapacity := (newSettings_eq_ok hconfig).capacity
  have hadmitted := admitted h
  have hcount := counted h
  have hrouted : ∀ t ∈ f.sessions, t.session.Routed := by
    intro t ht
    obtain ⟨k, hk⟩ := List.mem_iff_getElem?.mp ht
    exact Session.routed (reach_session h hk)
  exact
    { handshakes := hadmitted.handshakes
      maxTunnels := hadmitted.tunnels.trans_eq (max_eq_left hcapacity.1.le)
      instanceTunnels := hadmitted.instanceTunnels
      maxTunnelsPerInstance := fun i ↦
        (hadmitted.bounded i).trans_eq (max_eq_left hcapacity.2.1.le)
      instanceActive := hcount.instanceActive
      maxInFlightPerInstance := fun i ↦
        (hcount.bounded i).trans_eq (max_eq_left hcapacity.2.2.le)
      active := hcount.active
      routeActive := hrouted
      nonneg := by
        refine ⟨?_, fun i ↦ ?_, fun i ↦ ?_, fun t ht route ↦ ?_⟩
        · rw [hadmitted.handshakes]; exact Int.natCast_nonneg _
        · rw [hadmitted.instanceTunnels]; exact Int.natCast_nonneg _
        · rw [hcount.instanceActive]
          exact Int.add_nonneg (Int.natCast_nonneg _) (Int.natCast_nonneg _)
        · rw [hrouted t ht]; exact Int.natCast_nonneg _
      returned := returned h
      idle := fun hidle ↦ ⟨hidle.instanceActive hcount, fun t ht ↦
        ⟨hidle.requests hcount ht, fun route ↦ by
          rw [hrouted t ht, hidle.requests hcount ht]; rfl⟩⟩ }

end Fleet

open Tunnel in
/-- A server with one tunnel that has started the request of a call. -/
theorem accounted_sample :
    ∃ settings f, newSettings (sample sampleLimits 16).gatewayIn = .ok settings ∧
      Reach (Fleet.step settings) (fun _ _ ↦ True) {} f ∧
      f.registry.instanceActive (sampleID 1) = 1 ∧
      f.registry.sessions.entries.length + f.registry.handshakes ≤ settings.maxTunnels := by
  have hrun : ∃ settings, newSettings (sample sampleLimits 16).gatewayIn = .ok settings ∧ ∃ f,
      Reach (Fleet.step settings) (fun _ _ ↦ True) {} f ∧
        f.registry.instanceActive (sampleID 1) = 1 :=
    ⟨_, rfl, exists_of_script _ _ _ [.connect, .register 0 (sampleID 2) (sampleID 1) "a"
      sampleLimits [.userGetMe] [.drain], .run 0, .markSessionReady 0 0 [],
      .invoke { route := .userGetMe, payload := [] } none 0 none none, .selectOrder 0 0 [],
      .reserve 0, .start 0 [sampleID 7]] _ (by decide +kernel)⟩
  obtain ⟨settings, hsettings, f, hreach, hactive⟩ := hrun
  have haccounted := Fleet.accounted hsettings hreach
  exact ⟨settings, f, hsettings, hreach, hactive, haccounted.maxTunnels⟩

end MarketMesh.GatewayIn
