import MarketMesh.GatewayIn.Step
import MarketMesh.Lib.Stream

/-!
# The tables of a gateway-in session

`Session.Tables` lists what a step can do to the table of active requests and to the ring of
tombstones: a request is entered, a request whose Open was refused is taken out, and a finished
request moves to the ring, where it may push out the oldest tombstone.  `Session.Queues` does the
same for the outbound queue.  With `Session.Change` they are the `Session.Effects` of a step.

`Session.Tabled` is the first thing to know about the tables: an entry points to the invocation of
its identifier.
-/

set_option autoImplicit false

namespace MarketMesh.GatewayIn

open Protocol

/-- The frame the write loop took out of the queue and has not sent. -/
def Writer.held : Writer → List ConnectResponse
  | .idle => []
  | .sending frame => [frame]
  | .stopped lost => [lost]

/-- The lanes, with an empty one for the classes that have none. -/
def Lanes.queues (lanes : Lanes) : Option Lane → List ConnectResponse
  | some lane => lanes lane
  | none => []

theorem Lanes.queues_update (lanes : Lanes) (lane : Lane) (frames : List ConnectResponse) :
    Lanes.queues (Function.update lanes lane frames) =
      Function.update (Lanes.queues lanes) (some lane) frames := by
  funext o
  cases o with
  | none => rw [Function.update_of_ne (by simp)]; rfl
  | some l =>
    by_cases hl : l = lane
    · subst hl
      rw [Function.update_self]
      exact Function.update_self ..
    · rw [Function.update_of_ne (by simpa using hl)]
      exact Function.update_of_ne hl ..

namespace Invocation

variable {p : Params} {lanes : Lanes} {x x' : Invocation} {m : Move} {f : Option ConnectResponse}

/-- What a request is made of does not change. -/
theorem Step.request_eq (h : Step p lanes x m x' f) :
    x'.request.id = x.request.id ∧ x'.request.policy = x.request.policy ∧
      x'.request.route = x.request.route := by
  have htakes : ∀ {r r' : LogicalRequest} {frame : ConnectRequest} {v : LogicalRequest.Inbound},
      LogicalRequest.Takes r frame r' v →
      r'.id = r.id ∧ r'.policy = r.policy ∧ r'.route = r.route := by
    intro r r' frame v h
    cases h with
    | violation hr => obtain rfl | rfl := hr <;> exact ⟨rfl, rfl, rfl⟩
    | _ => exact ⟨rfl, rfl, rfl⟩
  cases h with
  | refused _ _ hr | creditRefused _ _ hr | grantRefused _ _ hr | cancelRefused _ _ _ _ hr =>
    obtain rfl | rfl := hr <;> exact ⟨rfl, rfl, rfl⟩
  | inbound | violated => exact htakes (LogicalRequest.handleInbound_takes x.request _)
  | _ => exact ⟨rfl, rfl, rfl⟩

end Invocation

namespace Session

variable {p : Params} {s s' s₁ : Session} {a : Action} {r : Ref} {m : Move} {view : View}
  {payload : ResponsePayload} {e : Option Err} {P : Invocation → Prop} {route : RouteId}

/-! ## What a step can do to the tables -/

/-- The effect of `addTombstoneLocked` on the ring. -/
inductive Ring (p : Params) (s : Session) (id : OpaqueID) (r : Ref) (s' : Session) : Prop
  | added (hroom : s.tombstoneOrder.length < p.limits.maxInFlightRequests)
      (ho : s'.tombstoneOrder = s.tombstoneOrder ++ [id])
      (ht : s'.tombstones = s.tombstones.insert id r)
      (hp : s'.tombstonePosition = s.tombstonePosition)
  | evicted {oldest} (hfull : p.limits.maxInFlightRequests ≤ s.tombstoneOrder.length)
      (hold : s.tombstoneOrder[s.tombstonePosition]? = some oldest)
      (ho : s'.tombstoneOrder = s.tombstoneOrder.set s.tombstonePosition id)
      (ht : s'.tombstones = (s.tombstones.erase oldest).insert id r)
      (hp : s'.tombstonePosition = (s.tombstonePosition + 1) % p.limits.maxInFlightRequests)
  | dropped (hfull : p.limits.maxInFlightRequests ≤ s.tombstoneOrder.length)
      (hold : s.tombstoneOrder[s.tombstonePosition]? = none)
      (ho : s'.tombstoneOrder = s.tombstoneOrder) (ht : s'.tombstones = s.tombstones)
      (hp : s'.tombstonePosition = s.tombstonePosition)

/-- **What a step can do to the tables.** -/
inductive Tables (p : Params) (s : Session) : Action → Session → Prop
  | same {a : Action} {s' : Session} (hr : s'.requests = s.requests)
      (ht : s'.tombstones = s.tombstones) (ho : s'.tombstoneOrder = s.tombstoneOrder)
      (hp : s'.tombstonePosition = s.tombstonePosition)
      (ha : s'.routeActive = s.routeActive) : Tables p s a s'
  | started {call deadline draws id s'} (hid : id ∈ draws)
      (hroom : s.requests.entries.length < p.limits.maxInFlightRequests)
      (hreq : s.requests.lookup id = none) (htomb : s.tombstones.lookup id = none)
      (hlast : ∃ x, s'.invocations = s.invocations ++ [x] ∧ x.request.id = id)
      (hr : s'.requests = s.requests.insert id s.invocations.length)
      (ht : s'.tombstones = s.tombstones) (ho : s'.tombstoneOrder = s.tombstoneOrder)
      (hp : s'.tombstonePosition = s.tombstonePosition)
      (ha : s'.routeActive =
        Function.update s.routeActive call.route (s.routeActive call.route + 1))
      (hroute : ∀ x, s'.invocations[s.invocations.length]? = some x →
        x.request.route = call.route) :
      Tables p s (.start call deadline draws) s'
  | rolledBack {s' r x e} (hx : s.invocations[r]? = some x) (hpc : x.pc = .openCompleted e)
      (hlookup : s.requests.lookup x.request.id = some r)
      (hr : s'.requests = s.requests.erase x.request.id) (ht : s'.tombstones = s.tombstones)
      (ho : s'.tombstoneOrder = s.tombstoneOrder)
      (hp : s'.tombstonePosition = s.tombstonePosition)
      (hx' : s'.invocations[r]? = some { x with pc := .rolledBack e })
      (ha : s'.routeActive =
        Function.update s.routeActive x.request.route (s.routeActive x.request.route - 1)) :
      Tables p s (.invoke r .rollback) s'
  | finished {s' r x o} (hx : s.invocations[r]? = some x) (hpc : x.pc = .finishing o)
      (hlookup : s.requests.lookup x.request.id = some r)
      (hr : s'.requests = s.requests.erase x.request.id) (hring : Ring p s x.request.id r s')
      (ha : s'.routeActive =
        Function.update s.routeActive x.request.route (s.routeActive x.request.route - 1)) :
      Tables p s (.invoke r .finish) s'

theorem addTombstoneLocked_ring (p : Params) (s : Session) (id : OpaqueID) (r : Ref) :
    Ring p s id r (s.addTombstoneLocked p id r) := by
  simp only [addTombstoneLocked]
  split
  · exact .added ‹_› rfl rfl rfl
  · rename_i hfull
    split
    · exact .evicted (not_lt.mp hfull) ‹_› rfl rfl rfl
    · exact .dropped (not_lt.mp hfull) ‹_› rfl rfl rfl

theorem removeRequest_ring {id} (h : s.removeRequest p r id route true = some s') :
    s.requests.lookup id = some r ∧ s'.requests = s.requests.erase id ∧ Ring p s id r s' := by
  rw [removeRequest] at h
  split at h <;> cases h
  rename_i hlookup
  refine ⟨hlookup, ?_, ?_⟩
  · simp only [if_true]
    rw [addTombstoneLocked_eq]
  · simp only [if_true]
    -- the ring does not depend on the table the request was taken out of
    cases addTombstoneLocked_ring p { s with
        requests := s.requests.erase id
        routeActive := Function.update s.routeActive route (s.routeActive route - 1) } id r with
    | added hroom ho ht hp => exact .added hroom ho ht hp
    | evicted hfull hold ho ht hp => exact .evicted hfull hold ho ht hp
    | dropped hfull hold ho ht hp => exact .dropped hfull hold ho ht hp

theorem removeRequest_routeActive {id addTombstone}
    (h : s.removeRequest p r id route addTombstone = some s') :
    s'.routeActive = Function.update s.routeActive route (s.routeActive route - 1) := by
  rw [removeRequest] at h
  split at h
  · cases h
    split
    · rw [addTombstoneLocked_eq]
    · rfl
  · cases h

theorem act_tables (h : s.act p r m = some s') :
    s'.requests = s.requests ∧ s'.tombstones = s.tombstones ∧
      s'.tombstoneOrder = s.tombstoneOrder ∧ s'.tombstonePosition = s.tombstonePosition ∧
      s'.routeActive = s.routeActive := by
  obtain ⟨x, x', f, -, -, rfl⟩ := act_eq_some h
  refine ⟨?_, ?_, ?_, ?_, ?_⟩
  · show (s.pushAll f).requests = _; rw [pushAll_eq]
  · show (s.pushAll f).tombstones = _; rw [pushAll_eq]
  · show (s.pushAll f).tombstoneOrder = _; rw [pushAll_eq]
  · show (s.pushAll f).tombstonePosition = _; rw [pushAll_eq]
  · show (s.pushAll f).routeActive = _; rw [pushAll_eq]

theorem enqueueControl_tables {view} (h : s.enqueueControl p view payload = some (s', e)) :
    s'.requests = s.requests ∧ s'.tombstones = s.tombstones ∧
      s'.tombstoneOrder = s.tombstoneOrder ∧ s'.tombstonePosition = s.tombstonePosition ∧
      s'.routeActive = s.routeActive := by
  obtain ⟨rfl, -⟩ | ⟨-, rfl, -⟩ := enqueueControl_eq_some h
  · exact ⟨rfl, rfl, rfl, rfl, rfl⟩
  · rw [push]
    split <;> exact ⟨rfl, rfl, rfl, rfl, rfl⟩

/-- A step that makes one move leaves the tables as they were before the move. -/
theorem Tables.of_act {s₁} (h : s.act p r m = some s₁) (hr : s'.requests = s₁.requests)
    (ht : s'.tombstones = s₁.tombstones) (ho : s'.tombstoneOrder = s₁.tombstoneOrder)
    (hp : s'.tombstonePosition = s₁.tombstonePosition) (ha : s'.routeActive = s₁.routeActive) :
    Tables p s a s' := by
  obtain ⟨hr₁, ht₁, ho₁, hp₁, ha₁⟩ := act_tables h
  exact .same (hr.trans hr₁) (ht.trans ht₁) (ho.trans ho₁) (hp.trans hp₁) (ha.trans ha₁)

theorem invoke_tables (h : s.invoke p r m = some s') : Tables p s (.invoke r m) s' := by
  simp only [invoke, Option.bind_eq_bind, Option.bind_eq_some_iff] at h
  obtain ⟨x, hx, h⟩ := h
  split at h
  · split at h
    · rename_i s₁ hs₁
      obtain ⟨hlookup, hr, hring⟩ := removeRequest_ring hs₁
      obtain ⟨-, heq⟩ := removeRequest_eq_some hs₁
      obtain ⟨hr₁, ht₁, ho₁, hp₁, ha₁⟩ := act_tables h
      have ha := ha₁.trans (removeRequest_routeActive hs₁)
      -- the move is only possible at the end of the call
      obtain ⟨y, y', f, hy, hstep, -⟩ := act_eq_some h
      obtain rfl : y = x := by
        rw [heq] at hy
        exact Option.some_inj.mp (hy.symm.trans hx)
      cases hpc : y.pc with
      | finishing =>
        refine .finished hx hpc hlookup (hr₁.trans hr) ?_ ha
        cases hring with
        | added hroom ho ht hp =>
          exact .added hroom (ho₁.trans ho) (ht₁.trans ht) (hp₁.trans hp)
        | evicted hfull hold ho ht hp =>
          exact .evicted hfull hold (ho₁.trans ho) (ht₁.trans ht) (hp₁.trans hp)
        | dropped hfull hold ho ht hp =>
          exact .dropped hfull hold (ho₁.trans ho) (ht₁.trans ht) (hp₁.trans hp)
      | _ => simp [Invocation.step, hpc] at hstep
    · exact .of_act h rfl rfl rfl rfl rfl
  · cases h
  · cases hrem : s.removeRequest p r x.request.id x.request.route false with
    | none =>
      rw [hrem, Option.getD_none] at h
      exact .of_act h rfl rfl rfl rfl rfl
    | some =>
      rw [hrem, Option.getD_some] at h
      obtain ⟨hlookup, heq⟩ := removeRequest_eq_some hrem
      obtain ⟨hr₁, ht₁, ho₁, hp₁, ha₁⟩ := act_tables h
      have ha := ha₁.trans (removeRequest_routeActive hrem)
      obtain ⟨y, y', f, hy, hstep, hs'⟩ := act_eq_some h
      obtain rfl : y = x := by
        rw [heq] at hy
        exact Option.some_inj.mp (hy.symm.trans hx)
      rw [removeRequest, if_pos hlookup] at hrem
      cases hrem
      cases hpc : y.pc with
      | openCompleted =>
        refine .rolledBack hx hpc hlookup hr₁ ht₁ ho₁ hp₁ ?_ ha
        simp only [Invocation.step, hpc, Option.some_inj, Prod.mk.injEq] at hstep
        rw [hs', hstep.1]
        exact Pool.set_self hx _
      | _ => simp [Invocation.step, hpc] at hstep
  · split at h
    · exact .of_act h rfl rfl rfl rfl rfl
    · cases h

/-! ## What a step can do to the outbound queue -/

/-- The outbound queue and the histories at its ends. -/
def outbound (s : Session) : Fifo.Sender ConnectResponse (Option Lane) :=
  ⟨s.accepted, s.sent, s.writer.held, Lanes.queues s.lanes⟩

/-- **What a step can do to the outbound queue.** -/
abbrev Queues (s s' : Session) : Prop :=
  Fifo.Step (fun f : ConnectResponse ↦ queueLane f.header.trafficClass) s.outbound s'.outbound

theorem push_queues (s : Session) (frame : ConnectResponse) : Queues s (s.push frame) := by
  rw [push]
  split
  · rename_i lane hlane
    rw [Queues, outbound, outbound, Lanes.queues_update]
    exact .pushed (by simpa using hlane)
  · exact .same

theorem act_queues (h : s.act p r m = some s') : Queues s s' := by
  obtain ⟨x, x', f, -, -, rfl⟩ := act_eq_some h
  cases f with
  | none => exact .same
  | some frame => exact push_queues s frame

theorem enqueueControl_queues (h : s.enqueueControl p view payload = some (s', e)) :
    Queues s s' := by
  obtain ⟨rfl, -⟩ | ⟨-, rfl, -⟩ := enqueueControl_eq_some h
  · exact .same
  · exact push_queues s _

/-! ## One step -/

/-- What a step does to the invocations and their histories, to the tables, and to the queue. -/
structure Effects (p : Params) (s : Session) (a : Action) (s' : Session) : Prop where
  change : Change p s a s'
  tables : Tables p s a s'
  queues : Queues s s'

theorem Effects.of_act {s₁} (hact : s.act p r m = some s₁)
    (hs' : s' = { s₁ with reader := s'.reader, failing := s'.failing })
    (hr : ∀ x, s.invocations[r]? = some x → Reads p s r x a m s'.reader) : Effects p s a s' := by
  refine ⟨.of_act hact ?_ ?_ ?_ hr, .of_act hact ?_ ?_ ?_ ?_ ?_, ?_⟩
  all_goals rw [hs']
  exact (act_queues hact :)

theorem Effects.of_control {s₁} (hq : s.enqueueControl p view payload = some (s₁, e))
    (hs' : s' = { s₁ with
      reader := s'.reader, keepalive := s'.keepalive, drainer := s'.drainer })
    (hchange : Change p s a s') : Effects p s a s' := by
  obtain ⟨hr, ht, ho, hp, ha⟩ := enqueueControl_tables hq
  refine ⟨hchange, .same ?_ ?_ ?_ ?_ ?_, ?_⟩
  all_goals
    rw [hs']
    try assumption
  exact (enqueueControl_queues hq :)

theorem invoke_effects {move} (h : s.invoke p r move = some s') :
    Effects p s (.invoke r move) s' := by
  obtain ⟨s₁, m', hact, hm, hmm, heq⟩ := invoke_eq_some h
  refine ⟨?_, invoke_tables h, ?_⟩
  · -- the tables are not among the things a change is about
    obtain ⟨x, x', f, hx, hstep, rfl⟩ := act_eq_some hact
    have hstep := Invocation.step_cases hstep
    have hact' : s₁.reader = s.reader := by rw [heq]
    refine .moved (r := r) (x := x) (m := m') (by rw [heq] at hx; exact hx)
      (by rw [heq] at hstep; exact hstep) (by rw [heq]) ?_ ?_ (by rw [pushAll_eq, heq])
    · cases f with
      | none => rw [heq]; simp [pushAll]
      | some =>
        obtain ⟨lane, hlane⟩ := hstep.lane
        rw [heq]
        exact push_accepted hlane
    · have hreader : (s₁.pushAll f).reader = s.reader := by rw [pushAll_eq]; exact hact'
      show Reads p s r x (.invoke r move) m' (s₁.pushAll f).reader
      rw [hreader]
      obtain rfl | ⟨rfl, rfl⟩ := hmm
      · exact .invoke hm
      · exact .absent
  · have hq := act_queues hact
    rw [heq] at hq
    exact hq

/-- **A step has no other effects.** -/
theorem step_effects (h : s.step p a = some s') : Effects p s a s' := by
  cases a with simp only [step] at h
  | start =>
    obtain ⟨policy, hpolicy, h⟩ := start_eq_some h
    obtain ⟨hbytes, id, hid, hstarts⟩ := startRequest_eq_ok h
    cases hstarts.eq
    refine ⟨.started hid hpolicy hbytes rfl rfl rfl rfl rfl, .started hid hstarts.room
      hstarts.requests hstarts.tombstones ⟨_, rfl, rfl⟩ rfl rfl rfl rfl rfl fun x hx ↦ ?_,
      .same⟩
    rw [List.getElem?_concat_length] at hx
    rw [← Option.some_inj.mp hx]
  | invoke => exact invoke_effects h
  | recv frame now =>
    split at h <;> cases h
    rename_i hidle
    refine ⟨.received ?_ ?_ hidle (recv_receives p s frame now hidle) ?_, .same ?_ ?_ ?_ ?_ ?_,
      ?_⟩
    all_goals rw [recv_eq]
    exact .same
  | deliver =>
    split at h
    · rename_i r frame hreader
      obtain ⟨x, s₁, hx, hact, rfl⟩ := deliver_eq_some h
      refine .of_act hact rfl fun y hy ↦ ?_
      cases hx.symm.trans hy
      exact .deliver hreader
    · cases h
  | notify =>
    split at h
    · rename_i r hreader
      obtain ⟨s₁, hact, rfl⟩ := Option.map_eq_some_iff.mp h
      exact .of_act hact rfl fun _ _ ↦ .notify hreader
    · cases h
  | grant view =>
    split at h
    · rename_i r bytes hreader
      obtain ⟨x, s₁, hx, hact, rfl⟩ := grant_eq_some h
      refine .of_act hact rfl fun y hy ↦ ?_
      cases hx.symm.trans hy
      show Reads p s r x (.grant view) (.grantReceiveCredit bytes view)
        (if x.request.isCompleted then _ else _)
      split
      · rename_i hc
        exact .granted hreader (.inl hc)
      · rename_i hc
        split
        · rename_i f hg
          exact .granted hreader (.inr ⟨f, hg⟩)
        · rename_i e hg
          exact .grantRefused hreader (by simpa using hc) hg
    · cases h
  | abort =>
    split at h
    · rename_i r hreader
      obtain ⟨s₁, hact, rfl⟩ := Option.map_eq_some_iff.mp h
      exact .of_act hact rfl fun _ _ ↦ .abort hreader
    · cases h
  | failComplete =>
    split at h
    · obtain ⟨s₁, hact, rfl⟩ := Option.map_eq_some_iff.mp h
      refine .of_act hact rfl fun _ _ ↦ ?_
      show Reads p s _ _ _ _ s₁.reader
      rw [act_reader hact]
      exact .fail
    · cases h
  | pong view =>
    split at h
    · rename_i nonce hreader
      split at h
      · cases h
      all_goals
        rename_i hq
        cases h
        refine .of_control hq rfl ?_
        obtain ⟨hi, hr, hv, ⟨ha, he⟩ | ⟨hq, ha, he⟩⟩ := enqueueControl_change hq
      · exact absurd he (by simp)
      · exact .control hq hi ha (.inr ⟨⟨nonce, hreader⟩, rfl⟩) hv
      · exact .unanswered hi ha hreader (.inl rfl) hv
      · exact absurd he (by simp)
      · exact .unanswered hi ha hreader (.inr rfl) hv
      · exact absurd he (by simp)
    · cases h
  | enqueuePing | enqueueDrain =>
    split at h
    · obtain ⟨⟨s₁, e⟩, hq, rfl⟩ := Option.map_eq_some_iff.mp h
      refine .of_control hq rfl ?_
      obtain ⟨hi, hr, hv, ⟨ha, -⟩ | ⟨hq, ha, -⟩⟩ := enqueueControl_change hq
      · exact .same hi ha hr hv
      · exact .control hq hi ha (.inl hr) hv
    · cases h
  | initiateDrain =>
    split at h
    · split at h
      · obtain ⟨s₁, hdrain, rfl⟩ := Option.map_eq_some_iff.mp h
        obtain rfl := markDraining_eq_some hdrain
        exact ⟨.same rfl rfl rfl rfl, .same rfl rfl rfl rfl rfl, .same⟩
      · cases h
    · cases h
  | dequeue lane =>
    split at h <;> cases h
    rename_i hw hq
    refine ⟨.same rfl rfl rfl rfl, .same rfl rfl rfl rfl rfl, ?_⟩
    rw [Queues, outbound, outbound, Lanes.queues_update]
    exact .taken (by rw [hw]; rfl) (hq : Lanes.queues s.lanes (some lane) = [_] ++ _)
  | send =>
    split at h <;> cases h
    rename_i hw
    refine ⟨.same rfl rfl rfl rfl, .same rfl rfl rfl rfl rfl, ?_⟩
    exact .sent (x := s.outbound) (by rw [outbound, hw]; rfl)
  | sendFail =>
    split at h <;> cases h
    rename_i hw
    refine ⟨.same rfl rfl rfl rfl, .same rfl rfl rfl rfl rfl, ?_⟩
    rw [Queues, outbound, outbound, hw]
    exact .same
  | _ =>
    repeat' split at h
    all_goals cases h
    all_goals exact ⟨.same rfl rfl rfl rfl, .same rfl rfl rfl rfl rfl, .same⟩

theorem step_change (h : s.step p a = some s') : Change p s a s' := (step_effects h).change

theorem step_tables (h : s.step p a = some s') : Tables p s a s' := (step_effects h).tables

theorem step_queues (h : s.step p a = some s') : Queues s s' := (step_effects h).queues

/-! ## One invocation -/

/-- A request as `startRequest` enters it. -/
def startedInvocation (call : Call) (policy : RoutePolicy) (deadline : Time) (id : OpaqueID) :
    Invocation where
  call := call
  request := { id := id, route := call.route, policy := policy, deadline := deadline }

end Session

/-- The request the read loop works on. -/
def Reader.ref : Reader → Option Ref
  | .deliver r _ | .notify r | .grant r _ | .grantRefused r _ => some r
  | _ => none

namespace Session

variable {p : Params} {s s' : Session} {a : Action} {r : Ref} {m : Move} {x : Invocation}

/-- **Where an invocation comes from**: it was there and was not touched, it was moved, or it is
new. -/
inductive Origin (p : Params) (s s' : Session) (r : Ref) (x' : Invocation) : Action → Prop
  | kept {a : Action} (hx : s.invocations[r]? = some x')
      (hr : s'.reader = s.reader ∨ s.reader.ref ≠ some r ∧
        (s'.reader.ref ≠ some r ∨ ∃ frame, s'.reader = .deliver r frame)) : Origin p s s' r x' a
  | moved {a x m f} (hx : s.invocations[r]? = some x) (hstep : Invocation.Step p s.lanes x m x' f)
      (hr : Reads p s r x a m s'.reader) : Origin p s s' r x' a
  | started {call deadline draws policy id} (hid : id ∈ draws)
      (hp : p.settings.routes.lookup call.route = some policy)
      (hb : (call.payload.length : Int) ≤ (effectivePolicy p policy).maxRequestBytes)
      (hlen : r = s.invocations.length)
      (hx : x' = startedInvocation call (effectivePolicy p policy) deadline id)
      (hr : s'.reader = s.reader) (hlookup : s'.requests.lookup id = some r) :
      Origin p s s' r x' (.start call deadline draws)

theorem Reads.ref {reader} (h : Reads p s r x a m reader) {r'}
    (hr : r ≠ r') : reader = s.reader ∨ s.reader.ref ≠ some r' ∧ reader.ref ≠ some r' := by
  cases h with
  | invoke | absent | fail => exact .inl rfl
  | deliver h =>
    refine .inr ⟨by rw [h]; simpa [Reader.ref] using hr, ?_⟩
    split <;> simp [Reader.ref, hr]
  | notify h | granted h | abort h =>
    exact .inr ⟨by rw [h]; simpa [Reader.ref] using hr, by simp [Reader.ref]⟩
  | grantRefused h =>
    exact .inr ⟨by rw [h]; simpa [Reader.ref] using hr, by simpa [Reader.ref] using hr⟩

/-- **An invocation comes from nowhere else.** -/
theorem step_origin (h : s.step p a = some s') {x'}
    (hx' : s'.invocations[r]? = some x') : Origin p s s' r x' a := by
  cases step_change h with
  | same hi ha hr => exact .kept (hi ▸ hx') (.inl hr)
  | control hq hi ha hr =>
    refine .kept (hi ▸ hx') ?_
    obtain hr | ⟨⟨nonce, hp⟩, hr⟩ := hr
    · exact .inl hr
    · exact .inr ⟨by rw [hp]; simp [Reader.ref], .inl (by rw [hr]; simp [Reader.ref])⟩
  | unanswered hi ha hp hr =>
    refine .kept (hi ▸ hx') (.inr ⟨by rw [hp]; simp [Reader.ref], .inl ?_⟩)
    obtain hr | hr := hr <;> rw [hr] <;> simp [Reader.ref]
  | @received frame now _ hi ha hidle hr hv =>
    refine .kept (hi ▸ hx') (.inr ⟨by rw [hidle]; simp [Reader.ref], ?_⟩)
    generalize s'.reader = reader at hr
    cases hr with
    | @deliver r₁ =>
      by_cases hrr : r₁ = r
      · subst hrr; exact .inr ⟨frame, rfl⟩
      · exact .inl (by simpa [Reader.ref] using hrr)
    | control hv hk hr =>
      obtain rfl | ⟨nonce, rfl⟩ := hr <;> exact .inl (by simp [Reader.ref])
    | failed => exact .inl (by simp [Reader.ref])
  | @started call deadline draws _ policy id hid hp hb hi ha hr hv hq =>
    rw [hi] at hx'
    obtain ⟨hlen, heq⟩ | hx' := Pool.of_append hx'
    · refine .started hid hp hb hlen heq hr ?_
      rw [hq, AList.lookup_insert, hlen]
    · exact .kept hx' (.inl hr)
  | @moved _ _ r₁ x y m f hx hstep hi ha hr =>
    rw [hi] at hx'
    obtain ⟨rfl, rfl⟩ | ⟨hrr, hx'⟩ := Pool.of_set hx'
    · exact .moved hx hstep hr
    · refine .kept hx' ?_
      obtain heq | ⟨h₁, h₂⟩ := hr.ref hrr.symm
      · exact .inl heq
      · exact .inr ⟨h₁, .inl h₂⟩

/-- The invariant rule for properties of single invocations. -/
theorem forall_invocations {P : Invocation → Prop} {ok : Session → Action → Prop}
    (hnew : ∀ call policy deadline id,
      P (startedInvocation call (effectivePolicy p policy) deadline id))
    (hstep : ∀ {lanes x m x' f}, Invocation.Step p lanes x m x' f → P x → P x')
    (h : Machine.Reach (step p) ok {} s) : ∀ x ∈ s.invocations, P x := by
  refine h.invariant (by simp) ?_
  intro s a s' _ hs _ h x' hx'
  obtain ⟨r, hr⟩ := List.mem_iff_getElem?.mp hx'
  cases step_origin h hr with
  | kept hx => exact hs x' (List.mem_of_getElem? hx)
  | moved hx hm => exact hstep hm (hs _ (List.mem_of_getElem? hx))
  | started _ _ _ _ hx => exact hx ▸ hnew _ _ _ _

/-! ## The entries -/

/-- An entry of a table points to the invocation of its identifier. -/
def Tabled (s : Session) : Prop :=
  ∀ (id : OpaqueID) (r : Ref), s.requests.lookup id = some r ∨ s.tombstones.lookup id = some r →
    ∃ x, s.invocations[r]? = some x ∧ x.request.id = id

theorem Tabled.init : Tabled {} := by
  intro id r h
  simp at h

/-- Invocations stay where they are, under the identifier they have. -/
theorem step_getElem? (h : s.step p a = some s') (hx : s.invocations[r]? = some x) :
    ∃ x', s'.invocations[r]? = some x' ∧ x'.request.id = x.request.id := by
  cases step_change h with
  | same hi | control _ hi | unanswered hi | received hi => exact ⟨x, hi ▸ hx, rfl⟩
  | started hid hp hb hi => exact ⟨x, hi ▸ Pool.append hx _, rfl⟩
  | @moved _ _ r' y y' m f hy hstep hi =>
    rw [hi]
    exact Pool.exists_set (R := fun x x' ↦ x'.request.id = x.request.id) hx hy rfl
      hstep.request_eq.1

theorem Tabled.step (hs : s.Tabled) (h : s.step p a = some s') : s'.Tabled := by
  -- what was in a table still points to its invocation
  have hold : ∀ {id : OpaqueID} {r : Ref}, s.requests.lookup id = some r ∨
      s.tombstones.lookup id = some r → ∃ x, s'.invocations[r]? = some x ∧ x.request.id = id := by
    intro id r hr
    obtain ⟨x, hx, rfl⟩ := hs _ _ hr
    exact step_getElem? h hx
  intro id r hr
  cases step_tables h with
  | same hr' ht =>
    rw [hr', ht] at hr
    exact hold hr
  | @started call deadline draws id' _ hid hroom hreq htomb hlast hr' ht =>
    rw [hr', ht] at hr
    obtain hr | hr := hr
    · obtain ⟨rfl, rfl⟩ | ⟨-, hr⟩ := Pool.of_insert hr
      · obtain ⟨x, hx, hxid⟩ := hlast
        exact ⟨x, by rw [hx]; simp, hxid⟩
      · exact hold (.inl hr)
    · exact hold (.inr hr)
  | @rolledBack _ r' x e hx hpc hlookup hr' ht =>
    rw [hr', ht] at hr
    exact hold (hr.imp_left Pool.of_erase)
  | @finished _ r' x o hx hpc hlookup hr' hring =>
    -- the finished request is entered in the ring under its own identifier
    obtain hr | hr := hr
    · exact hold (.inl (Pool.of_erase (hr' ▸ hr)))
    · cases hring with
      | added hroom ho ht =>
        rw [ht] at hr
        obtain ⟨rfl, rfl⟩ | ⟨-, hr⟩ := Pool.of_insert hr
        · exact hold (.inl hlookup)
        · exact hold (.inr hr)
      | evicted hfull hold' ho ht =>
        rw [ht] at hr
        obtain ⟨rfl, rfl⟩ | ⟨-, hr⟩ := Pool.of_insert hr
        · exact hold (.inl hlookup)
        · exact hold (.inr (Pool.of_erase hr))
      | dropped hfull hold' ho ht => exact hold (.inr (ht ▸ hr))

theorem tabled {ok : Session → Action → Prop} (h : Machine.Reach (step p) ok {} s) : s.Tabled :=
  h.invariant Tabled.init fun _ _ _ _ hs _ hstep ↦ hs.step hstep

theorem Tabled.requestFor (hs : s.Tabled) {id} (h : s.requestFor id = some r) :
    ∃ x, s.invocations[r]? = some x ∧ x.request.id = id := by
  rw [Session.requestFor, Option.or_eq_some_iff] at h
  exact hs _ _ (h.imp_right And.right)

end Session

end MarketMesh.GatewayIn
