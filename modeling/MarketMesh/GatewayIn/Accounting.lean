import MarketMesh.GatewayIn.Fleet
import MarketMesh.GatewayIn.Tables

/-!
# The slots of the instances

A slot of an instance is taken by `reserveInstance` in the loop over the selection order and given
back by `releaseInstance`, at three places: after a request that could not be started, after one
whose Open was not queued, and after `finishRequest`.  `CallerPc.slot` is the slot that an `Invoke`
goroutine holds at each of its program points, `CallerPc.active` the request it has in the table
of its session meanwhile.

`Held` relates the two to the tables, `Slot` says what a step of a goroutine does to its slot, and
`Counted` follows from it: `instanceActive` is the number of slots that are held.  The goroutine's
own list of slots is `Returned`.
-/

set_option autoImplicit false

namespace MarketMesh.GatewayIn

open Protocol Machine

/-! ## The requests of a session by route -/

namespace Session

variable {p : Params} {s s' : Session} {a : Action} {r : Ref} {x : Invocation}

/-- The route of a request. -/
def routeOf (s : Session) (r : Ref) : Option RouteId :=
  (s.invocations[r]?).map fun x ↦ x.request.route

theorem step_routeOf (h : s.step p a = some s') (hx : s.invocations[r]? = some x) :
    s'.routeOf r = s.routeOf r := by
  have hlt := (List.getElem?_eq_some_iff.mp hx).1
  cases step_change h with
  | same hi | unanswered hi | received hi | control _ hi => rw [routeOf, hi, routeOf]
  | started hid hp hb hi => rw [routeOf, hi, List.getElem?_append_left hlt, routeOf]
  | @moved _ _ r' y y' m f hy hstep hi =>
    rw [routeOf, hi, List.getElem?_set, routeOf]
    split
    · rename_i hr
      subst hr
      rw [if_pos hlt, hy]
      exact congrArg some hstep.request_eq.2.2
    · rfl

/-- `routeActive` counts the active requests of each route. -/
def Routed (s : Session) : Prop :=
  ∀ route, s.routeActive route =
    (s.requests.entries.countP fun e ↦ s.routeOf e.2 = some route : Nat)

/-- The requests that stay in the table keep their routes. -/
theorem countP_routeOf (ht : s.Tabled) (h : s.step p a = some s')
    {entries : List (Sigma fun _ : OpaqueID ↦ Ref)} (hsub : entries ⊆ s.requests.entries)
    (route : RouteId) :
    entries.countP (fun e ↦ s'.routeOf e.2 = some route) =
      entries.countP fun e ↦ s.routeOf e.2 = some route := by
  refine List.countP_congr fun e he ↦ ?_
  obtain ⟨x, hx, -⟩ := ht e.1 e.2 (.inl (AList.mem_lookup_iff.mpr (hsub he)))
  rw [step_routeOf h hx]

theorem Routed.removed (hs : s.Routed) (ht : s.Tabled) (h : s.step p a = some s')
    (hx : s.invocations[r]? = some x) (hlookup : s.requests.lookup x.request.id = some r)
    (hr : s'.requests = s.requests.erase x.request.id)
    (ha : s'.routeActive =
      Function.update s.routeActive x.request.route (s.routeActive x.request.route - 1)) :
    s'.Routed := by
  intro route
  have hperm := Tally.entries_perm hlookup
  have hcount := hperm.countP_eq fun e ↦ decide (s.routeOf e.2 = some route)
  have hsub : (s.requests.erase x.request.id).entries ⊆ s.requests.entries :=
    fun e he ↦ hperm.mem_iff.mpr (List.mem_cons_of_mem _ he)
  have hroute : s.routeOf r = some x.request.route := by rw [routeOf, hx]; rfl
  rw [List.countP_cons] at hcount
  rw [hr, countP_routeOf ht h hsub, ha, Tally.update_pred]
  have hactive := hs route
  simp only [hroute, Option.some_inj, decide_eq_true_eq] at hcount
  omega

theorem Routed.step (hs : s.Routed) (ht : s.Tabled) (h : s.step p a = some s') : s'.Routed := by
  cases step_tables h with
  | same hr _ _ _ ha =>
    intro route
    rw [hr, countP_routeOf ht h (fun _ he ↦ he), ha]
    exact hs route
  | @started call deadline draws id _ hid hroom hreq htomb hlast hr _ _ _ ha hroute =>
    intro route
    obtain ⟨x, hi, -⟩ := hlast
    have hlastRoute : s'.routeOf s.invocations.length = some call.route := by
      have hx : s'.invocations[s.invocations.length]? = some x := by
        rw [hi, List.getElem?_concat_length]
      rw [routeOf, hx, Option.map_some, hroute x hx]
    rw [hr, AList.entries_insert_of_notMem (AList.lookup_eq_none.mp hreq), List.countP_cons,
      countP_routeOf ht h (fun _ he ↦ he), ha, Tally.update_succ]
    have hactive := hs route
    simp only [hlastRoute, Option.some_inj, decide_eq_true_eq]
    omega
  | rolledBack hx _ hlookup hr _ _ _ _ ha | finished hx _ hlookup hr _ ha =>
    exact hs.removed ht h hx hlookup hr ha

theorem routed {ok : Session → Action → Prop} (h : Reach (step p) ok {} s) : s.Routed :=
  h.invariant (P := Routed) (fun _ ↦ rfl) fun _ _ _ hreach hs _ hstep ↦
    hs.step (tabled hreach) hstep

end Session

/-! ## What a goroutine holds -/

namespace CallerPc

variable {pc : CallerPc}

theorem slot_of_active {k r} (h : pc.active = some (k, r)) :
    pc.slot = some k := by
  cases pc <;> cases h <;> rfl

/-- Only the two removals change what a goroutine holds. -/
theorem after_eq {held here m} (hback : m ≠ .rollback) (hfinish : m ≠ .finish) :
    (pc.after held here m).slot = pc.slot ∧ (pc.after held here m).active = pc.active := by
  cases pc with
  | opening =>
    cases m with
    | enqueueOpen =>
      rw [after]
      split <;> exact ⟨rfl, rfl⟩
    | rollback => exact absurd rfl hback
    | _ => exact ⟨rfl, rfl⟩
  | opened =>
    cases m with
    | finish => exact absurd rfl hfinish
    | _ => exact ⟨rfl, rfl⟩
  | _ => exact ⟨rfl, rfl⟩

section

variable {pc : CallerPc} {k : SessionRef} {r : Ref} {m : Move} (hm : m = .rollback ∨ m = .finish)
  (hallows : pc.allows m = true)

include hm hallows

/-- The two places from which a goroutine takes its request out of the table. -/
theorem removal_cases :
    (∃ k r rest, pc = .opening k r rest ∧ m = .rollback) ∨ ∃ k r, pc = .opened k r ∧
      m = .finish := by
  rcases hm with rfl | rfl
  · exact .inl (by cases pc <;> first | exact ⟨_, _, _, rfl, rfl⟩ | cases hallows)
  · exact .inr (by cases pc <;> first | exact ⟨_, _, rfl, rfl⟩ | cases hallows)

/-- A goroutine that takes its request out of the table has it there. -/
theorem active_of_removal (hreq : pc.request = some (k, r)) : pc.active = some (k, r) := by
  obtain ⟨k, r, rest, rfl, -⟩ | ⟨k, r, rfl, -⟩ := removal_cases hm hallows <;> exact hreq

theorem after_of_removal (held : Bool) (here : Pc) : (pc.after held here m).active = none := by
  obtain ⟨k, r, rest, rfl, rfl⟩ | ⟨k, r, rfl, rfl⟩ := removal_cases hm hallows
  all_goals
    rw [after]
    split <;> rfl

/-- The slot outlives the entry. -/
theorem slot_of_removal (hreq : pc.request = some (k, r)) (here : Pc) :
    (pc.after true here m).slot = some k := by
  obtain ⟨k, r, rest, rfl, rfl⟩ | ⟨k, r, rfl, rfl⟩ := removal_cases hm hallows
  all_goals
    cases hreq
    rfl

end

end CallerPc

/-! ## The sessions of a server -/

/-- A request that the registry's session starts is a step of the session. -/
theorem ActiveSession.startRequest_step {t : ActiveSession} {call : Call} {policy : RoutePolicy}
    {deadline : Time} {draws : List OpaqueID} {s : Session}
    (hpolicy : t.params.settings.routes.lookup call.route = some policy)
    (h : t.startRequest call policy deadline draws = .ok s) :
    t.session.step t.params (.start call deadline draws) = some s := by
  have hready : t.isReady = t.session.isReady := by
    obtain ⟨-, id, -, hstarts⟩ := Session.startRequest_eq_ok h
    have hready := hstarts.isReady
    rw [isReady, Bool.and_eq_true] at hready
    exact hstarts.isReady.trans hready.2.symm
  rw [startRequest, hready] at h
  simp only [Session.step, hpolicy]
  rw [h]
  rfl

namespace Fleet

variable {settings : Settings} {f f' : Fleet} {k : SessionRef} {t : ActiveSession}
  {ok : Fleet → Action → Prop} {t' : ActiveSession}

/-- The sessions run under the settings of the server, and every call has the policy of its
route. -/
structure Configured (settings : Settings) (f : Fleet) : Prop where
  session : ∀ t ∈ f.sessions, t.params.settings = settings
  caller : ∀ caller ∈ f.callers, settings.routes.lookup caller.call.route = some caller.policy

theorem getElem?_of_core
    (hs : f'.sessions.map ActiveSession.core = f.sessions.map ActiveSession.core)
    (hk : f.sessions[k]? = some t) : ∃ t', f'.sessions[k]? = some t' ∧ t'.core = t.core := by
  have hcore := congrArg (·[k]?) hs
  simp only [List.getElem?_map, hk, Option.map_some] at hcore
  exact Option.map_eq_some_iff.mp hcore

theorem CallerStep.call_eq {caller caller'} (h : CallerStep settings f caller caller' f') :
    caller'.call = caller.call ∧ caller'.policy = caller.policy := by
  cases h <;> exact ⟨rfl, rfl⟩

/-- What a step leaves of a session. -/
structure Kept (t t' : ActiveSession) : Prop where
  params_eq : t'.params = t.params
  instanceID_eq : t'.instanceID = t.instanceID
  session : t'.session = t.session ∨
    ∃ a, t.session.step t.params a = some t'.session

theorem Kept.of_core {t} (h : t'.core = t.core) : Kept t t' := by
  obtain ⟨hp, hi, hs⟩ : t'.params = t.params ∧ t'.instanceID = t.instanceID ∧
      t'.session = t.session := by simpa [ActiveSession.core] using h
  exact ⟨hp, hi, .inl hs⟩

section

variable (h : Change settings f f') (hf : Configured settings f)
include h hf

/-- What a step does to the sessions: nothing, or one is new, or one makes a step.  A request is
taken out of the table by the goroutine that has it there. -/
theorem Change.sessions :
    f'.sessions.map ActiveSession.core = f.sessions.map ActiveSession.core ∨
    (∃ t : ActiveSession, f'.sessions = f.sessions ++ [t] ∧ t.session = {} ∧
      t.params.settings = settings) ∨
    ∃ j u a s, f.sessions[j]? = some u ∧ u.session.step u.params a = some s ∧
      f'.sessions = f.sessions.set j { u with session := s } ∧
      ∀ r, a = .invoke r .rollback ∨ a = .invoke r .finish → ∃ (d : Nat) (mover : Caller),
        f.callers[d]? = some mover ∧ mover.pc.active = some (j, r) ∧
          ∀ y : Caller, f'.callers[d]? = some y → y.pc.active = none := by
  cases h with
  | quiet hc ha hs => exact .inl hs
  | registered hc ha hs ht hp => exact .inr (.inl ⟨_, hs, ht, hp⟩)
  | entered hc hpolicy ha hs => exact .inl (by rw [hs])
  | session hj hcaller hstep hc ha hs =>
    refine .inr (.inr ⟨_, _, _, _, hj, hstep, hs, fun r ha ↦ ?_⟩)
    rcases ha with rfl | rfl <;> cases hcaller
  | @caller c caller caller' hcaller hc hstep =>
    cases hstep with
    | passed _ _ _ hs => exact .inl hs
    | reserved _ _ _ _ hs | released _ _ _ _ _ _ hs => exact .inl (by rw [hs])
    | @started _ j rest u draws s hpc hj hstart ha hs =>
      have hpolicy : u.params.settings.routes.lookup caller.call.route = some caller.policy := by
        rw [hf.session u (List.mem_of_getElem? hj)]
        exact hf.caller caller (List.mem_of_getElem? hcaller)
      exact .inr (.inr ⟨_, _, _, _, hj, ActiveSession.startRequest_step hpolicy hstart, hs,
        by simp⟩)
    | @moved _ j r' u m s x x' hreq hallows hj hx hstep hx' ha hs =>
      refine .inr (.inr ⟨_, _, _, _, hj, hstep, hs, fun r ha ↦ ?_⟩)
      obtain ⟨rfl, hm⟩ : r' = r ∧ (m = .rollback ∨ m = .finish) := by simpa [and_or_left] using ha
      refine ⟨c, caller, hcaller, CallerPc.active_of_removal hm hallows hreq, fun y hy ↦ ?_⟩
      rw [hc, Pool.set_self hcaller] at hy
      cases hy
      exact CallerPc.after_of_removal hm hallows _ _

/-- **Sessions stay where they are.** -/
theorem Change.kept (hk : f.sessions[k]? = some t) :
    ∃ t', f'.sessions[k]? = some t' ∧ Kept t t' := by
  obtain hs | ⟨t₁, hs, -⟩ | ⟨j, u, a, s, hj, hstep, hs, -⟩ := h.sessions hf
  · obtain ⟨t', hk', ht⟩ := getElem?_of_core hs hk
    exact ⟨t', hk', .of_core ht⟩
  · exact ⟨t, hs ▸ Pool.append hk t₁, rfl, rfl, .inl rfl⟩
  · exact hs ▸ Pool.exists_set hk hj ⟨rfl, rfl, .inl rfl⟩ ⟨rfl, rfl, .inr ⟨a, hstep⟩⟩

/-- A session of the next state was there before, or is new. -/
theorem Change.origin (hk : f'.sessions[k]? = some t') :
    (∃ t, f.sessions[k]? = some t ∧ Kept t t') ∨
      t'.session = {} ∧ t'.params.settings = settings := by
  obtain hs | ⟨t, hs, hnew⟩ | ⟨j, u, a, s, hj, hstep, hs, -⟩ := h.sessions hf
  · obtain ⟨t, hk', ht⟩ := getElem?_of_core hs.symm hk
    exact .inl ⟨t, hk', .of_core ht.symm⟩
  · rw [hs] at hk
    obtain ⟨-, rfl⟩ | hk := Pool.of_append hk
    · exact .inr hnew
    · exact .inl ⟨t', hk, rfl, rfl, .inl rfl⟩
  · rw [hs] at hk
    obtain ⟨rfl, rfl⟩ | ⟨-, hk⟩ := Pool.of_set hk
    · exact .inl ⟨u, hj, rfl, rfl, .inr ⟨a, hstep⟩⟩
    · exact .inl ⟨t', hk, rfl, rfl, .inl rfl⟩

theorem Change.configured : Configured settings f' := by
  refine ⟨fun t' ht' ↦ ?_, fun caller hcaller ↦ ?_⟩
  · obtain ⟨k, hk⟩ := List.mem_iff_getElem?.mp ht'
    obtain ⟨t, hk', hkept⟩ | ⟨-, hp⟩ := h.origin hf hk
    · rw [hkept.params_eq]
      exact hf.session t (List.mem_of_getElem? hk')
    · exact hp
  · cases h with
    | quiet hc | registered hc | session _ _ _ hc => exact hf.caller caller (hc ▸ hcaller)
    | entered hc hpolicy =>
      rw [hc, List.mem_append, List.mem_singleton] at hcaller
      rcases hcaller with hcaller | rfl
      · exact hf.caller caller hcaller
      · exact hpolicy
    | caller hc₀ hc hstep =>
      rw [hc] at hcaller
      rcases List.mem_or_eq_of_mem_set hcaller with hcaller | rfl
      · exact hf.caller caller hcaller
      · rw [hstep.call_eq.1, hstep.call_eq.2]
        exact hf.caller _ (List.mem_of_getElem? hc₀)

end

theorem configured (h : Reach (step settings) ok {} f) :
    Configured settings f :=
  h.invariant ⟨by simp, by simp⟩ fun _ _ _ _ hf _ hstep ↦ (step_change hstep).configured hf

/-- **Every session of a server makes a run of its own.** -/
theorem reach_session (h : Reach (step settings) ok {} f) (hk : f.sessions[k]? = some t) :
    Reach (Session.step t.params) (fun _ _ ↦ True) {} t.session := by
  induction h generalizing t with
  | start => simp at hk
  | next h hok hstep ih =>
    obtain ⟨t₀, hk₀, hkept⟩ | ⟨hnew, -⟩ := (step_change hstep).origin (configured h) hk
    · have hrun := ih hk₀
      rw [hkept.params_eq]
      obtain hs | ⟨a, hs⟩ := hkept.session
      · rw [hs]; exact hrun
      · exact hrun.next trivial hs
    · rw [hnew]; exact .start

end Fleet

/-! ## The entry of a request -/

namespace Session

variable {p : Params} {s s' : Session} {a : Action} {r : Ref} {x : Invocation}

/-- A request stays in the table until its own goroutine takes it out. -/
theorem lookup_of_step (h : s.step p a = some s') (hx : s.invocations[r]? = some x)
    (hlookup : s.requests.lookup x.request.id = some r) (hback : a ≠ .invoke r .rollback)
    (hfinish : a ≠ .invoke r .finish) :
    ∃ x', s'.invocations[r]? = some x' ∧ s'.requests.lookup x'.request.id = some r := by
  obtain ⟨x', hx', hid⟩ := step_getElem? h hx
  refine ⟨x', hx', ?_⟩
  rw [hid]
  cases step_tables h with
  | same hr => rw [hr]; exact hlookup
  | started hmem hroom hreq htomb hlast hr => exact hr ▸ Pool.insert hlookup hreq _
  | rolledBack hy hpc hly hr => exact hr ▸ Pool.erase hlookup hly fun heq ↦ hback (by rw [heq])
  | finished hy hpc hly hr => exact hr ▸ Pool.erase hlookup hly fun heq ↦ hfinish (by rw [heq])

/-- The two moves that take a request out of the table. -/
theorem requests_of_removal (hx : s.invocations[r]? = some x)
    (hlookup : s.requests.lookup x.request.id = some r) {m}
    (hm : m = .rollback ∨ m = .finish) (h : s.step p (.invoke r m) = some s') :
    s'.requests = s.requests.erase x.request.id := by
  have hremove (addTombstone : Bool) : ∃ s₁, s.removeRequest p r x.request.id x.request.route
      addTombstone = some s₁ ∧ s₁.requests = s.requests.erase x.request.id := by
    refine ⟨_, by rw [removeRequest, if_pos hlookup], ?_⟩
    split
    · rw [addTombstoneLocked_eq]
    · rfl
  rcases hm with rfl | rfl
  · obtain ⟨s₁, hs₁, hr⟩ := hremove false
    simp only [step, invoke, hx, Option.bind_eq_bind, Option.bind_some, hs₁, Option.getD_some] at h
    exact (act_tables h).1.trans hr
  · obtain ⟨s₁, hs₁, hr⟩ := hremove true
    simp only [step, invoke, hx, Option.bind_eq_bind, Option.bind_some, hs₁] at h
    exact (act_tables h).1.trans hr

/-- All other steps of a goroutine on its request leave the table alone. -/
theorem requests_of_move {m} (hback : m ≠ .rollback) (hfinish : m ≠ .finish)
    (h : s.step p (.invoke r m) = some s') : s'.requests = s.requests := by
  cases step_tables h with
  | same hr => exact hr
  | rolledBack => exact absurd rfl hback
  | finished => exact absurd rfl hfinish

theorem requests_of_not_ofCaller (ha : a.ofCaller = false) (h : s.step p a = some s') :
    s'.requests = s.requests := by
  cases step_tables h with
  | same hr => exact hr
  | started | rolledBack | finished => cases ha

end Session

/-! ## The slots of the instances -/

namespace Fleet

variable {settings : Settings} {f f' : Fleet} {k : SessionRef} {t : ActiveSession}
  {caller caller' : Caller} {ok : Fleet → Action → Prop} {c : Nat} {s : Session}

/-- The slot is one of the instance `i`. -/
def atInstance (f : Fleet) (i : OpaqueID) (slot : Option SessionRef) : Bool :=
  slot.any fun k ↦ (f.sessions[k]?).any fun t ↦ decide (t.instanceID = i)

/-- The active requests of a session, if it is one of the instance `i`. -/
def requestsOf (i : OpaqueID) (t : ActiveSession) : Nat :=
  if t.instanceID = i then t.session.requests.entries.length else 0

/-- The active requests over all sessions of the instance `i`, registered or not. -/
def activeRequests (f : Fleet) (i : OpaqueID) : Nat := (f.sessions.map (requestsOf i)).sum

/-- The calls that have a request in the table of a session of the instance `i`. -/
def activeCallers (f : Fleet) (i : OpaqueID) : Nat :=
  f.callers.countP fun caller ↦ caller.pc.active.isSome && f.atInstance i caller.pc.slot

/-- The calls that hold a slot of the instance `i` without a request in a table: before
`startRequest` has entered it, and after `removeRequest` has taken it out. -/
def reservedSlots (f : Fleet) (i : OpaqueID) : Nat :=
  f.callers.countP fun caller ↦ caller.pc.active.isNone && f.atInstance i caller.pc.slot

/-- The request `r` of the session `k` is in the table of the session. -/
def HasEntry (f : Fleet) (k : SessionRef) (r : Ref) : Prop :=
  ∃ t x, f.sessions[k]? = some t ∧ t.session.invocations[r]? = some x ∧
    t.session.requests.lookup x.request.id = some r

/-- What the goroutines hold is there: a slot belongs to a session, and an active request is in the
table of its session, once. -/
structure Held (f : Fleet) : Prop where
  slot : ∀ caller ∈ f.callers, ∀ k, caller.pc.slot = some k → ∃ t, f.sessions[k]? = some t
  entry : ∀ caller ∈ f.callers, ∀ k r, caller.pc.active = some (k, r) → f.HasEntry k r
  distinct : ∀ (c c' : Nat) (caller caller' : Caller) (req : SessionRef × Ref),
    f.callers[c]? = some caller → f.callers[c']? = some caller' →
      caller.pc.active = some req → caller'.pc.active = some req → c = c'

theorem activeRequests_of_core
    (hs : f'.sessions.map ActiveSession.core = f.sessions.map ActiveSession.core)
    (i : OpaqueID) : f'.activeRequests i = f.activeRequests i := by
  have hmap (l : List ActiveSession) : l.map (requestsOf i) = (l.map ActiveSession.core).map
      fun core ↦ if core.2.1 = i then core.2.2.requests.entries.length else 0 := by
    rw [List.map_map]
    rfl
  rw [activeRequests, activeRequests, hmap, hmap, hs]

/-- The active requests after a step of one session. -/
theorem activeRequests_set (hk : f.sessions[k]? = some t)
    (hs : f'.sessions = f.sessions.set k { t with session := s }) (i : OpaqueID) :
    f'.activeRequests i + (if t.instanceID = i then t.session.requests.entries.length else 0) =
      f.activeRequests i + (if t.instanceID = i then s.requests.entries.length else 0) := by
  rw [activeRequests, hs]
  exact Tally.sum_map_set (requestsOf i) hk { t with session := s }

theorem atInstance_some (hk : f.sessions[k]? = some t) (i : OpaqueID) :
    f.atInstance i (some k) = decide (t.instanceID = i) := by
  simp only [atInstance, Option.any_some, hk]

@[simp] theorem atInstance_none (i : OpaqueID) : f.atInstance i none = false := rfl

/-- A goroutine counts for the instance of its slot. -/
def slotAt (f : Fleet) (i : OpaqueID) (pc : CallerPc) : Nat :=
  if f.atInstance i pc.slot then 1 else 0

/-- A goroutine with a request in a table counts for the instance of its slot. -/
def activeAt (f : Fleet) (i : OpaqueID) (pc : CallerPc) : Nat :=
  if pc.active.isSome && f.atInstance i pc.slot then 1 else 0

/-- A goroutine that holds a slot without a request counts for the instance of the slot. -/
def reservedAt (f : Fleet) (i : OpaqueID) (pc : CallerPc) : Nat :=
  if pc.active.isNone && f.atInstance i pc.slot then 1 else 0

theorem slotAt_eq (i : OpaqueID) (pc : CallerPc) :
    f.slotAt i pc = f.activeAt i pc + f.reservedAt i pc := by
  rw [slotAt, activeAt, reservedAt]
  cases pc.active <;> simp

theorem activeAt_of_none {pc} (h : pc.active = none) (i : OpaqueID) :
    f.activeAt i pc = 0 := by
  rw [activeAt, h]
  rfl

theorem activeAt_of_some {pc r} (h : pc.active = some (k, r))
    (hk : f.sessions[k]? = some t) (i : OpaqueID) :
    f.activeAt i pc = if t.instanceID = i then 1 else 0 := by
  simp only [activeAt, h, CallerPc.slot_of_active h, atInstance_some hk, Option.isSome_some,
    Bool.true_and, decide_eq_true_eq]

/-- **How a step of an `Invoke` goroutine moves its slot**: the counter of the instance and the
requests in the tables move with what the goroutine holds. -/
structure Slot (settings : Settings) (f : Fleet) (caller caller' : Caller) (f' : Fleet) : Prop where
  valid : ∀ k, caller'.pc.slot = some k → ∃ t, f.sessions[k]? = some t
  active : ∀ i, f'.activeRequests i + f.activeAt i caller.pc =
    f.activeRequests i + f.activeAt i caller'.pc
  instanceActive : (∀ i, f.slotAt i caller.pc ≤ f.registry.instanceActive i) → ∀ i,
    f'.registry.instanceActive i + f.slotAt i caller.pc =
      f.registry.instanceActive i + f.slotAt i caller'.pc
  bounded : ∀ i, f'.registry.instanceActive i ≤
    max (f.registry.instanceActive i) settings.maxInFlightPerInstance
  returned : caller.reserved = caller.released ++ caller.pc.slot.toList →
    caller'.reserved = caller'.released ++ caller'.pc.slot.toList

/-- A step that leaves the slot and the counters alone. -/
theorem Slot.of_same (hvalid : ∀ k, caller.pc.slot = some k → ∃ t, f.sessions[k]? = some t)
    (hslot : caller'.pc.slot = caller.pc.slot) (hreserved : caller'.reserved = caller.reserved)
    (hreleased : caller'.released = caller.released)
    (ha : f'.registry.instanceActive = f.registry.instanceActive)
    (hactive : ∀ i, f'.activeRequests i + f.activeAt i caller.pc =
      f.activeRequests i + f.activeAt i caller'.pc) : Slot settings f caller caller' f' where
  valid := hslot ▸ hvalid
  active := hactive
  instanceActive _ i := by rw [ha, slotAt, slotAt, hslot]
  bounded i := ha ▸ le_max_left _ _
  returned h := by rw [hreserved, hreleased, hslot, h]

/-- A step on a request, by the move that makes it. -/
theorem slot_of_move {r : Ref} {m : Move} {x x' : Invocation}
    (hheld : f.Held) (hcaller : caller ∈ f.callers) (hreq : caller.pc.request = some (k, r))
    (hallows : caller.pc.allows m = true) (hk : f.sessions[k]? = some t)
    (hx : t.session.invocations[r]? = some x)
    (hstep : t.session.step t.params (.invoke r m) = some s)
    (ha : f'.registry.instanceActive = f.registry.instanceActive)
    (hs : f'.sessions = f.sessions.set k { t with session := s }) :
    Slot settings f caller
      { caller with
        pc := caller.pc.after (t.session.requests.lookup x.request.id = some r) x'.pc m } f' := by
  have hcount := activeRequests_set hk hs
  have hvalid := hheld.slot caller hcaller
  by_cases hm : m = .rollback ∨ m = .finish
  · -- the request is in the table, so it is taken out
    have hactive := CallerPc.active_of_removal hm hallows hreq
    obtain ⟨t₁, x₁, hk₁, hx₁, hlookup⟩ := hheld.entry caller hcaller k r hactive
    cases hk₁.symm.trans hk
    cases hx₁.symm.trans hx
    have hrequests := Session.requests_of_removal hx hlookup hm hstep
    have hlength := Tally.length_erase hlookup
    refine .of_same hvalid ?_ rfl rfl ha fun i ↦ ?_
    · rw [decide_eq_true hlookup, CallerPc.slot_of_active hactive]
      exact CallerPc.slot_of_removal hm hallows hreq _
    · have := hcount i
      rw [hrequests] at this
      rw [activeAt_of_some hactive hk, activeAt_of_none (CallerPc.after_of_removal hm hallows _ _)]
      by_cases hi : t.instanceID = i <;> simp only [hi, if_true, if_false] at this ⊢ <;> omega
  · obtain ⟨hback, hfinish⟩ := not_or.mp hm
    obtain ⟨hslot, hactive⟩ := CallerPc.after_eq hback hfinish
    refine .of_same hvalid hslot rfl rfl ha fun i ↦ ?_
    have := hcount i
    rw [Session.requests_of_move hback hfinish hstep] at this
    rw [activeAt, activeAt, hslot, hactive]
    omega

/-- **A step of an `Invoke` goroutine does nothing else to its slot.** -/
theorem CallerStep.slot (hheld : f.Held) (hcaller : caller ∈ f.callers)
    (h : CallerStep settings f caller caller' f') : Slot settings f caller caller' f' := by
  cases h with
  | passed hslot hactive ha hs =>
    refine .of_same (hheld.slot caller hcaller) hslot rfl rfl ha fun i ↦ ?_
    rw [activeRequests_of_core hs, activeAt, activeAt, hslot, hactive]
  | @reserved _ k rest t hpc hk hroom ha hs =>
    have hr := activeRequests_of_core (congrArg _ hs)
    refine ⟨fun _ h ↦ ⟨t, Option.some_inj.mp h ▸ hk⟩, fun i ↦ ?_, fun _ i ↦ ?_, fun i ↦ ?_, ?_⟩
    · rw [hr, activeAt_of_none (by rw [hpc]; rfl), activeAt_of_none rfl]
    · rw [ha, Tally.update_succ, slotAt, slotAt, hpc]
      simp only [CallerPc.slot, atInstance_none, atInstance_some hk, decide_eq_true_eq,
        Bool.false_eq_true, if_false]
      omega
    · rw [ha, Function.update_apply]
      split
      · exact Int.le_trans hroom (le_max_right _ _)
      · exact le_max_left _ _
    · intro h
      rw [h, hpc]
      simp [CallerPc.slot]
  | @started _ k rest t draws s hpc hk hstart ha hs =>
    refine .of_same (hheld.slot caller hcaller) (by rw [hpc]; rfl) rfl rfl ha fun i ↦ ?_
    have hcount := activeRequests_set hk hs i
    have hlength : s.requests.entries.length = t.session.requests.entries.length + 1 := by
      obtain ⟨-, id, -, hstarts⟩ := Session.startRequest_eq_ok hstart
      rw [hstarts.eq]
      exact Tally.length_insert hstarts.requests _
    rw [activeAt_of_none (by rw [hpc]; rfl), activeAt_of_some rfl hk]
    by_cases hi : t.instanceID = i <;> simp only [hi, if_true, if_false] at hcount ⊢ <;> omega
  | @released _ k t pc hslot hactive hslot' hactive' hk ha hs =>
    have hr := activeRequests_of_core (congrArg _ hs)
    have hat (i : OpaqueID) : f.slotAt i caller.pc = if t.instanceID = i then 1 else 0 := by
      simp only [slotAt, hslot, atInstance_some hk, decide_eq_true_eq]
    refine ⟨fun _ h ↦ (by cases hslot'.symm.trans h), fun i ↦ ?_, fun hle i ↦ ?_, fun i ↦ ?_, ?_⟩
    · rw [hr, activeAt_of_none hactive, activeAt_of_none hactive']
    · -- the slot is counted, so there is something to give back
      have hpos := hle t.instanceID
      rw [hat, if_pos rfl] at hpos
      rw [ha, Registry.releaseInstance, if_pos (by omega), hat, slotAt, hslot']
      have := Tally.update_pred f.registry.instanceActive t.instanceID i
      simp only [atInstance_none, Bool.false_eq_true, if_false]
      omega
    · rw [ha, Registry.releaseInstance]
      split
      · have := Tally.update_pred f.registry.instanceActive t.instanceID i
        simp only
        omega
      · exact le_max_left _ _
    · intro h
      rw [hslot', h, hslot]
      simp
  | moved hreq hallows hk hx hstep hx' ha hs =>
    exact slot_of_move hheld hcaller hreq hallows hk hx hstep ha hs

variable {j : SessionRef} {u : ActiveSession} {r : Ref}

theorem HasEntry.of_core (h : f.HasEntry k r)
    (hs : f'.sessions.map ActiveSession.core = f.sessions.map ActiveSession.core) :
    f'.HasEntry k r := by
  obtain ⟨t, x, hk, hx, hlookup⟩ := h
  obtain ⟨t', hk', hcore⟩ := getElem?_of_core hs hk
  have hsession : t'.session = t.session := congrArg (·.2.2) hcore
  exact ⟨t', x, hk', hsession ▸ hx, hsession ▸ hlookup⟩

theorem HasEntry.of_set {a} (h : f.HasEntry k r)
    (hj : f.sessions[j]? = some u) (hstep : u.session.step u.params a = some s)
    (hs : f'.sessions = f.sessions.set j { u with session := s })
    (hno : j = k → a ≠ .invoke r .rollback ∧ a ≠ .invoke r .finish) : f'.HasEntry k r := by
  obtain ⟨t, x, hk, hx, hlookup⟩ := h
  by_cases heq : j = k
  · subst heq
    cases hj.symm.trans hk
    obtain ⟨x', hx', hlookup'⟩ :=
      Session.lookup_of_step hstep hx hlookup (hno rfl).1 (hno rfl).2
    exact ⟨_, x', hs ▸ Pool.set_self hj _, hx', hlookup'⟩
  · exact ⟨t, x, hs ▸ Pool.set_of_ne hk (Ne.symm heq) _, hx, hlookup⟩

theorem CallerStep.active_cases (h : CallerStep settings f caller caller' f') :
    caller'.pc.active = none ∨ caller'.pc.active = caller.pc.active ∨
      ∃ k t draws, f.sessions[k]? = some t ∧ caller'.pc.active =
        some (k, t.session.invocations.length) ∧
        ∃ s, t.startRequest caller.call caller.policy caller.deadline draws = .ok s ∧
          f'.sessions = f.sessions.set k { t with session := s } := by
  cases h with
  | passed _ hactive => exact .inr (.inl hactive)
  | reserved => exact .inl rfl
  | started hpc hk hstart ha hs => exact .inr (.inr ⟨_, _, _, hk, rfl, _, hstart, hs⟩)
  | released _ _ _ hactive' => exact .inl hactive'
  | @moved _ k r t m s x x' hreq hallows =>
    by_cases hm : m = .rollback ∨ m = .finish
    · exact .inl (CallerPc.after_of_removal hm hallows _ _)
    · obtain ⟨hback, hfinish⟩ := not_or.mp hm
      exact .inr (.inl (CallerPc.after_eq hback hfinish).2)

/-- A request in a table stays there, unless the step is the removal by its own goroutine. -/
theorem HasEntry.step (h : f.HasEntry k r) (hf : Configured settings f)
    (hheld : f.Held) (hchange : Change settings f f') (hcaller : f'.callers[c]? = some caller)
    (hactive : caller.pc.active = some (k, r))
    (hbefore : ∃ caller₀, f.callers[c]? = some caller₀ ∧ caller₀.pc.active = some (k, r)) :
    f'.HasEntry k r := by
  obtain hs | ⟨t₁, hs, -⟩ | ⟨j, u, a, s, hj, hstep, hs, hremoves⟩ := hchange.sessions hf
  · exact h.of_core hs
  · obtain ⟨t, x, hk, hx, hlookup⟩ := h
    exact ⟨t, x, hs ▸ Pool.append hk _, hx, hlookup⟩
  · refine h.of_set hj hstep hs fun hjk ↦ not_or.mp fun ha ↦ ?_
    subst hjk
    -- a removal is made by the goroutine of the request, which is not active afterwards
    obtain ⟨d, mover, hmover, hmactive, hnone⟩ := hremoves r ha
    obtain ⟨caller₀, hcaller₀, hactive₀⟩ := hbefore
    obtain rfl := hheld.distinct c d caller₀ mover _ hcaller₀ hmover hactive₀ hmactive
    rw [hnone caller hcaller] at hactive
    cases hactive

/-- **Where a caller comes from**: it was there, it has just entered, or it made the step. -/
theorem Change.caller_origin (h : Change settings f f') (hc : f'.callers[c]? = some caller') :
    f.callers[c]? = some caller' ∨
      (∃ call policy deadline, caller' = { call := call, policy := policy, deadline := deadline }) ∨
      ∃ caller, f.callers[c]? = some caller ∧ CallerStep settings f caller caller' f' := by
  cases h with
  | quiet hcs | registered hcs | session _ _ _ hcs => exact .inl (hcs ▸ hc)
  | entered hcs =>
    rw [hcs] at hc
    obtain ⟨-, hnew⟩ | hc := Pool.of_append hc
    · exact .inr (.inl ⟨_, _, _, hnew⟩)
    · exact .inl hc
  | @caller d caller _ hcaller hcs hstep =>
    rw [hcs] at hc
    obtain ⟨rfl, rfl⟩ | ⟨-, hc⟩ := Pool.of_set hc
    · exact .inr (.inr ⟨caller, hcaller, hstep⟩)
    · exact .inl hc

/-- A slot that a goroutine holds after a step belongs to a session of before. -/
theorem Held.slot_before (hheld : f.Held) (h : Change settings f f') :
    ∀ caller ∈ f'.callers, ∀ k, caller.pc.slot = some k → ∃ t, f.sessions[k]? = some t := by
  intro caller' hcaller' k hslot
  obtain ⟨c, hc⟩ := List.mem_iff_getElem?.mp hcaller'
  obtain hcaller | ⟨call, policy, deadline, rfl⟩ | ⟨caller, hcaller, hstep⟩ := h.caller_origin hc
  · exact hheld.slot caller' (List.mem_of_getElem? hcaller) k hslot
  · cases hslot
  · have hmem := List.mem_of_getElem? hcaller
    exact (hstep.slot hheld hmem).valid k hslot

theorem Held.entry_step (hheld : f.Held) (hf : Configured settings f) (h : Change settings f f') :
    ∀ caller ∈ f'.callers, ∀ k r, caller.pc.active = some (k, r) → f'.HasEntry k r := by
  intro caller' hcaller' k r hactive
  obtain ⟨c, hc⟩ := List.mem_iff_getElem?.mp hcaller'
  have hkept {caller : Caller} (hcaller : f.callers[c]? = some caller)
      (hactive₀ : caller.pc.active = some (k, r)) : f'.HasEntry k r :=
    (hheld.entry caller (List.mem_of_getElem? hcaller) k r hactive₀).step hf hheld h hc hactive
      ⟨caller, hcaller, hactive₀⟩
  obtain hcaller | ⟨call, policy, deadline, rfl⟩ | ⟨caller, hcaller, hstep⟩ := h.caller_origin hc
  · exact hkept hcaller hactive
  · cases hactive
  · obtain hnone | hsame | ⟨j, t, draws, hj, hnew, s, hstart, hs⟩ := hstep.active_cases
    · rw [hnone] at hactive; cases hactive
    · exact hkept hcaller (hsame ▸ hactive)
    · -- the request was entered by this step
      cases hnew.symm.trans hactive
      obtain ⟨-, id, -, hstarts⟩ := Session.startRequest_eq_ok hstart
      rw [hstarts.eq] at hs
      exact ⟨_, _, hs ▸ Pool.set_self hj _, List.getElem?_concat_length, AList.lookup_insert _⟩

/-- The request of a step is not one that another caller has active. -/
theorem Held.ne_of_step {d : Nat} {mover mover'} (hheld : f.Held)
    (hcaller : f.callers[c]? = some caller) (hmover : f.callers[d]? = some mover) (hne : c ≠ d)
    (hstep : CallerStep settings f mover mover' f') {req}
    (hactive : caller.pc.active = some req) : mover'.pc.active ≠ some req := by
  intro hreq
  obtain hnone | hsame | ⟨k, t, draws, hk, hnew, -⟩ := hstep.active_cases
  · rw [hnone] at hreq; cases hreq
  · exact hne (hheld.distinct c d caller mover req hcaller hmover hactive (hsame ▸ hreq))
  · cases hnew.symm.trans hreq
    obtain ⟨t', x, hk', hx, -⟩ := hheld.entry caller (List.mem_of_getElem? hcaller) k _ hactive
    cases hk'.symm.trans hk
    exact absurd (List.getElem?_eq_some_iff.mp hx).1 (lt_irrefl _)

theorem Held.distinct_step (hheld : f.Held) (h : Change settings f f') (c c' : Nat)
    (caller caller' : Caller) (req : SessionRef × Ref) (hc : f'.callers[c]? = some caller)
    (hc' : f'.callers[c']? = some caller') (hactive : caller.pc.active = some req)
    (hactive' : caller'.pc.active = some req) : c = c' := by
  cases h with
  | quiet hcs | registered hcs | session _ _ _ hcs =>
    exact hheld.distinct c c' _ _ req (hcs ▸ hc) (hcs ▸ hc') hactive hactive'
  | entered hcs =>
    -- a new caller has no request
    have hold {d : Nat} {moved : Caller} (hd : f'.callers[d]? = some moved)
        (hreq : moved.pc.active = some req) : f.callers[d]? = some moved := by
      rw [hcs] at hd
      obtain ⟨-, rfl⟩ | hd := Pool.of_append hd
      · cases hreq
      · exact hd
    exact hheld.distinct c c' _ _ req (hold hc hactive) (hold hc' hactive') hactive hactive'
  | @caller d mover mover' hmover hcs hstep =>
    rw [hcs] at hc hc'
    obtain ⟨rfl, rfl⟩ | ⟨hne, hold⟩ := Pool.of_set hc
    · obtain ⟨rfl, -⟩ | ⟨hne', hold'⟩ := Pool.of_set hc'
      · rfl
      · exact absurd hactive (hheld.ne_of_step hold' hmover hne' hstep hactive')
    · obtain ⟨rfl, rfl⟩ | ⟨hne', hold'⟩ := Pool.of_set hc'
      · exact absurd hactive' (hheld.ne_of_step hold hmover hne hstep hactive)
      · exact hheld.distinct c c' _ _ req hold hold' hactive hactive'

theorem Held.step (hheld : f.Held) (hf : Configured settings f) (h : Change settings f f') :
    f'.Held := by
  refine ⟨fun caller hcaller k hslot ↦ ?_, hheld.entry_step hf h, hheld.distinct_step h⟩
  obtain ⟨t, hk⟩ := hheld.slot_before h caller hcaller k hslot
  obtain ⟨t', hk', -⟩ := h.kept hf hk
  exact ⟨t', hk'⟩

theorem held (h : Reach (step settings) ok {} f) : f.Held :=
  h.invariant ⟨by simp, by simp, fun _ _ _ _ _ hc ↦ by simp at hc⟩ fun _ _ _ hreach hheld _ hstep ↦
    hheld.step (configured hreach) (step_change hstep)

/-! ## The counters -/

/-- A step moves no slot to another instance. -/
theorem Change.atInstance (h : Change settings f f') (hf : Configured settings f)
    {slot} (hslot : ∀ k, slot = some k → ∃ t, f.sessions[k]? = some t)
    (i : OpaqueID) : f'.atInstance i slot = f.atInstance i slot := by
  cases slot with
  | none => rfl
  | some k =>
    obtain ⟨t, hk⟩ := hslot k rfl
    obtain ⟨t', hk', hkept⟩ := h.kept hf hk
    rw [atInstance_some hk', atInstance_some hk, hkept.instanceID_eq]

/-- The counters of the slots are right. -/
structure Counted (settings : Settings) (f : Fleet) : Prop where
  active : ∀ i, f.activeRequests i = f.activeCallers i
  instanceActive : ∀ i,
    f.registry.instanceActive i = (f.activeRequests i + f.reservedSlots i : Nat)
  bounded : ∀ i, f.registry.instanceActive i ≤ max settings.maxInFlightPerInstance 0

section

variable (h : Change settings f f') (hf : Configured settings f) (hheld : f.Held)
include h hf hheld

/-- The callers that a step leaves are counted by the instances of before. -/
theorem Change.countP_eq (b : Caller → Bool) (i : OpaqueID) :
    f'.callers.countP (fun x ↦ b x && f'.atInstance i x.pc.slot) =
      f'.callers.countP fun x ↦ b x && f.atInstance i x.pc.slot := by
  refine List.countP_congr fun x hx ↦ ?_
  rw [h.atInstance hf (hheld.slot_before h x hx) i]

/-- A step of another goroutine; a new one holds no slot. -/
theorem Counted.of_same (hcount : Counted settings f) (hc : f'.callers = f.callers ∨
      ∃ caller, f'.callers = f.callers ++ [caller] ∧ caller.pc.slot = none)
    (ha : f'.registry.instanceActive = f.registry.instanceActive)
    (hr : ∀ i, f'.activeRequests i = f.activeRequests i) : Counted settings f' := by
  have hsame (b : Caller → Bool) (i : OpaqueID) :
      f'.callers.countP (fun x ↦ b x && f'.atInstance i x.pc.slot) =
        f.callers.countP fun x ↦ b x && f.atInstance i x.pc.slot := by
    rw [h.countP_eq hf hheld]
    obtain hc | ⟨caller, hc, hnew⟩ := hc
    · rw [hc]
    · simp [hc, hnew]
  have hcallers (i : OpaqueID) : f'.activeCallers i = f.activeCallers i :=
    hsame (fun caller ↦ caller.pc.active.isSome) i
  have hslots (i : OpaqueID) : f'.reservedSlots i = f.reservedSlots i :=
    hsame (fun caller ↦ caller.pc.active.isNone) i
  refine ⟨fun i ↦ ?_, fun i ↦ ?_, fun i ↦ ?_⟩
  · rw [hr, hcallers]; exact hcount.active i
  · rw [ha, hr, hslots]; exact hcount.instanceActive i
  · rw [ha]; exact hcount.bounded i

/-- **A step of an `Invoke` goroutine keeps the counters right.** -/
theorem Counted.caller_step (hcount : Counted settings f)
    (hcaller : f.callers[c]? = some caller) (hc : f'.callers = f.callers.set c caller')
    (hslot : Slot settings f caller caller' f') : Counted settings f' := by
  have hcallers (i : OpaqueID) : f'.activeCallers i + f.activeAt i caller.pc =
      f.activeCallers i + f.activeAt i caller'.pc := by
    rw [activeCallers, h.countP_eq hf hheld, hc]
    exact Tally.countP_set _ hcaller caller'
  have hslots (i : OpaqueID) : f'.reservedSlots i + f.reservedAt i caller.pc =
      f.reservedSlots i + f.reservedAt i caller'.pc := by
    rw [reservedSlots, h.countP_eq hf hheld, hc]
    exact Tally.countP_set _ hcaller caller'
  -- the slot of the goroutine is counted
  have hmem (b : Caller → Bool) (i : OpaqueID) :
      (if b caller && f.atInstance i caller.pc.slot then 1 else 0) ≤
        f.callers.countP fun x ↦ b x && f.atInstance i x.pc.slot := by
    split
    · exact List.countP_pos_iff.mpr ⟨caller, List.mem_of_getElem? hcaller, ‹_›⟩
    · exact Nat.zero_le _
  have hle (i : OpaqueID) : f.slotAt i caller.pc ≤ f.registry.instanceActive i := by
    have : f.activeAt i caller.pc ≤ f.activeCallers i := hmem (fun x ↦ x.pc.active.isSome) i
    have : f.reservedAt i caller.pc ≤ f.reservedSlots i := hmem (fun x ↦ x.pc.active.isNone) i
    have := hcount.active i
    have := hcount.instanceActive i
    rw [slotAt_eq]
    omega
  refine ⟨fun i ↦ ?_, fun i ↦ ?_, fun i ↦ ?_⟩
  · have := hcount.active i
    have := hcallers i
    have := hslot.active i
    omega
  · have := hcount.instanceActive i
    have := hslots i
    have := hslot.active i
    have := hslot.instanceActive hle i
    rw [slotAt_eq, slotAt_eq] at this
    omega
  · exact (hslot.bounded i).trans (max_le (hcount.bounded i) (le_max_left _ _))

theorem Counted.step (hcount : Counted settings f) : Counted settings f' := by
  cases h with
  | quiet hc ha hs =>
    exact hcount.of_same (.quiet hc ha hs) hf hheld (.inl hc) ha (activeRequests_of_core hs)
  | @registered t hc ha hs ht hp =>
    refine hcount.of_same (.registered hc ha hs ht hp) hf hheld (.inl hc) ha fun i ↦ ?_
    have hzero : requestsOf i t = 0 := by
      rw [requestsOf, ht]
      split <;> rfl
    rw [activeRequests, hs, List.map_append, List.sum_append, List.map_singleton,
      List.sum_singleton, hzero]
    rfl
  | entered hc hpolicy ha hs =>
    exact hcount.of_same (.entered hc hpolicy ha hs) hf hheld (.inr ⟨_, hc, rfl⟩) ha
      (activeRequests_of_core (congrArg _ hs))
  | session hj ho hstep hc ha hs =>
    refine hcount.of_same (.session hj ho hstep hc ha hs) hf hheld (.inl hc) ha fun i ↦ ?_
    have := activeRequests_set hj hs i
    rw [Session.requests_of_not_ofCaller ho hstep] at this
    omega
  | caller hcaller hc hstep =>
    exact hcount.caller_step (.caller hcaller hc hstep) hf hheld hcaller hc
      (hstep.slot hheld (List.mem_of_getElem? hcaller))

end

theorem counted (h : Reach (step settings) ok {} f) :
    Counted settings f := by
  refine h.invariant ⟨fun i ↦ rfl, fun i ↦ rfl, fun i ↦ le_max_right _ _⟩
    fun _ _ _ hreach hcount _ hstep ↦ ?_
  exact hcount.step (step_change hstep) (configured hreach) (held hreach)

/-! ## The slots of one call -/

/-- Every slot a call took is given back once, except the one it holds. -/
def Returned (f : Fleet) : Prop :=
  ∀ caller ∈ f.callers, caller.reserved = caller.released ++ caller.pc.slot.toList

theorem Returned.step (hs : f.Returned) (hheld : f.Held) (h : Change settings f f') :
    f'.Returned := by
  intro caller' hcaller'
  obtain ⟨c, hc⟩ := List.mem_iff_getElem?.mp hcaller'
  obtain hcaller | ⟨call, policy, deadline, rfl⟩ | ⟨caller, hcaller, hstep⟩ := h.caller_origin hc
  · exact hs caller' (List.mem_of_getElem? hcaller)
  · rfl
  · have hmem := List.mem_of_getElem? hcaller
    exact (hstep.slot hheld hmem).returned (hs caller hmem)

theorem returned (h : Reach (step settings) ok {} f) :
    f.Returned :=
  h.invariant (P := Returned) (by simp [Returned]) fun _ _ _ hreach hs _ hstep ↦
    hs.step (held hreach) (step_change hstep)

end Fleet
end MarketMesh.GatewayIn
