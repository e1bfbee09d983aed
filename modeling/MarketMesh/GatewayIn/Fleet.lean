import MarketMesh.GatewayIn.Registry
import MarketMesh.Lib.Run
import MarketMesh.Lib.Pool

/-!
# The tunnel server of gateway-in

All tunnels of one gateway-in, with its registry and the goroutines that work on both:

* a `Connect` goroutine for each stream gateway-out opens, from the handshake to the end of the
  session (`ConnectPc`);
* an `Invoke` goroutine for each call (`Caller`), which tries the sessions of the selection order
  one after the other until one takes its Open.  Its steps on a session are moves on the invocation
  that `startRequest` made for it there;
* the goroutines of every session, which make the steps of `Session.step`.

`selectionMu` is held from the choice of the order until a session is committed or all are tried;
`selecting` is the caller that holds it.

The peers are arbitrary here: a session may receive any frame at any time.

`tried`, `reserved` and `released` of a caller are history: the requests that were started for it,
and the sessions on whose instance it took and gave back a slot, each in order.

`Fleet.Change` lists what a step can do to the callers, the sessions and the slots of the
instances, `Fleet.Admission` what it can do to the registered sessions and the handshakes, and
`Fleet.step_cases` says that there is nothing else.
-/

set_option autoImplicit false

namespace MarketMesh.GatewayIn

open Protocol

/-! ## The goroutines -/

/-- Where a `Connect` goroutine stands. -/
inductive ConnectPc where
  /-- `beginHandshake` returned true. -/
  | handshaking
  /-- The session is registered; its Hello is being sent. -/
  | registered (k : SessionRef)
  /-- `run` made the session ready; `markSessionReady` is next. -/
  | ready (k : SessionRef)
  | running (k : SessionRef)
  /-- The session is canceled; `unregister` is next. -/
  | closing (k : SessionRef)
  | ended
  deriving DecidableEq, Repr

/-- Where an `Invoke` goroutine stands; `rest` are the sessions it has yet to try. -/
inductive CallerPc where
  /-- The call is admitted; `selectAndOpenRequest` is next. -/
  | entered
  /-- The head of the loop over the selection order. -/
  | selecting (rest : List SessionRef)
  /-- `reserveInstance` accepted; `startRequest` is next. -/
  | reserved (k : SessionRef) (rest : List SessionRef)
  /-- `startRequest` failed; `releaseInstance` is next. -/
  | refused (k : SessionRef) (rest : List SessionRef)
  /-- `startRequest` returned the request `r`; its Open is not queued. -/
  | opening (k : SessionRef) (r : Ref) (rest : List SessionRef)
  /-- `rollbackRequestBeforeOpen` took the request out of the table; `releaseInstance` is next. -/
  | rolledBack (k : SessionRef) (r : Ref) (rest : List SessionRef)
  /-- `ctx.Err()` is looked at next. -/
  | checking (k : SessionRef) (r : Ref) (rest : List SessionRef)
  /-- The Open is queued; `commitSessionSelection` is next. -/
  | committing (k : SessionRef) (r : Ref)
  /-- `selectAndOpenRequest` returned the request. -/
  | opened (k : SessionRef) (r : Ref)
  /-- `finishRequest` took the request out of the table; `compactForTombstone` and
  `releaseInstance` are next. -/
  | removed (k : SessionRef) (r : Ref)
  | returned (k : SessionRef) (r : Ref)
  /-- `selectAndOpenRequest` returned an error. -/
  | failed
  deriving DecidableEq, Repr

namespace CallerPc

/-- The request the goroutine has started and not left behind. -/
def request : CallerPc → Option (SessionRef × Ref)
  | .opening k r _ | .rolledBack k r _ | .checking k r _ | .committing k r | .opened k r
  | .removed k r | .returned k r => some (k, r)
  | _ => none

/-- The moves the goroutine makes on its request.  Its context may end at any time. -/
def allows : CallerPc → Move → Bool
  | _, .expire _ => true
  | .opening _ _ _, .enqueueOpen _ | .opening _ _ _, .completeRefused
  | .opening _ _ _, .rollback => true
  | .opened _ _, .enqueueOpen _ | .opened _ _, .completeRefused | .opened _ _, .rollback
  | .opened _ _, .compact => false
  | .opened _ _, _ => true
  | .removed _ _, .compact => true
  | _, _ => false

/-- Where a move leads: `held` says whether the table held the request, and `pc` is where the
invocation stands afterwards. -/
def after (held : Bool) (pc : Pc) : CallerPc → Move → CallerPc
  | .opening k r rest, .enqueueOpen _ =>
    if pc = .credit then .committing k r else .opening k r rest
  | .opening k r rest, .rollback => if held then .rolledBack k r rest else .checking k r rest
  | .opened k r, .finish => if held then .removed k r else .returned k r
  | here, _ => here

end CallerPc

structure Caller where
  call : Call
  policy : RoutePolicy
  deadline : Time
  pc : CallerPc := .entered
  /-- `selectionErr`, or what `selectAndOpenRequest` returned. -/
  errs : List Err := []
  tried : List (SessionRef × Ref) := []
  reserved : List SessionRef := []
  released : List SessionRef := []

structure Fleet where
  registry : Registry := {}
  sessions : List ActiveSession := []
  connects : List ConnectPc := []
  callers : List Caller := []
  selecting : Option Nat := none

/-- The steps a session makes before `run` has started its loops: those of `initiateDrain`, of a
failure, and of the stream. -/
def Action.beforeRun : Action → Bool
  | .initiateDrain _ _ | .enqueueDrain _ | .fail _ | .failComplete | .failCancel
  | .streamDone _ => true
  | _ => false

/-- The steps of a session that an `Invoke` goroutine makes. -/
def Action.ofCaller : Action → Bool
  | .start _ _ _ | .invoke _ _ => true
  | _ => false

namespace Fleet

/-- One atomic step of some goroutine of the server. -/
inductive Action where
  /-- `Connect` calls `beginHandshake`. -/
  | connect
  | handshakeFailed (h : Nat)
  /-- The handshake negotiated these parameters; `registerFromHandshake`. -/
  | register (h : Nat) (id instanceID : OpaqueID) (dataCenter : String) (limits : Limits)
      (routes : List RouteId) (capabilities : List Capability)
  | run (h : Nat)
  | markSessionReady (h : Nat) (now : Time) (stale : List SessionRef)
  /-- The Hello could not be sent: `abortBeforeRun` cancels the session. -/
  | abortBeforeRun (h : Nat)
  /-- `run` receives the failure of its session. -/
  | terminate (h : Nat)
  | unregister (h : Nat) (stale : List SessionRef)
  /-- `Registry.Drain` stops new calls. -/
  | drain
  /-- `IsRouteReady` finds a session stale. -/
  | stale (k : SessionRef)
  | invoke (call : Call) (span : Option SpanContext) (now : Time) (deadline : Option Time)
      (ctxErr : Option ContextError)
  | selectOrder (c : Nat) (now : Time) (stale : List SessionRef)
  /-- The head of the loop: `reserveInstance` for the next session, or the end. -/
  | reserve (c : Nat)
  | start (c : Nat) (draws : List OpaqueID)
  | release (c : Nat)
  | checkContext (c : Nat)
  | commit (c : Nat) (stale : List SessionRef)
  | move (c : Nat) (m : Move)
  /-- A step of a goroutine of the session `k`. -/
  | session (k : SessionRef) (a : GatewayIn.Action)

variable (settings : Settings) (f : Fleet)

def setCaller (c : Nat) (caller : Caller) : Fleet :=
  { f with callers := f.callers.set c caller }

def setConnect (h : Nat) (pc : ConnectPc) : Fleet :=
  { f with connects := f.connects.set h pc }

def setSession (k : SessionRef) (t : ActiveSession) : Fleet :=
  { f with sessions := f.sessions.set k t }

/-- The effect of `accepts` on the sessions the clock finds stale. -/
def markStale (stale : List SessionRef) : List ActiveSession :=
  f.sessions.mapIdx fun k t ↦
    if k ∈ f.registry.sessions.entries.map Sigma.snd ∧ t.serves ∧ k ∈ stale then
      { t with isStale := true }
    else t

/-! ## The steps of `Connect` -/

def register (h : Nat) (params : Params) (instanceID : OpaqueID) (dataCenter : String) : Fleet :=
  match f.registry.registerFromHandshake settings f.sessions.length params.id instanceID with
  | (registry, some _) => { f.setConnect h .ended with registry := registry }
  | (registry, none) =>
    { f.setConnect h (.registered f.sessions.length) with
      registry := registry
      sessions := f.sessions ++
        [{ params := params, instanceID := instanceID, dataCenter := dataCenter }] }

/-! ## The steps of `Invoke` -/

/-- `selectionOrder`; the order is decided while `selectionMu` is held. -/
def selectOrder (c : Nat) (caller : Caller) (now : Time) (stale : List SessionRef) : Fleet :=
  if f.registry.isDraining then
    f.setCaller c { caller with pc := .failed, errs := [.draining] }
  else
    let out := f.registry.selectionOrder settings f.sessions stale caller.call.route now
    { f.setCaller c { caller with pc := .selecting out.2 } with
      registry := out.1
      sessions := f.markStale stale
      selecting := some c }

/-- `selectAndOpenRequest` returns an error and unlocks `selectionMu`. -/
def giveUp (c : Nat) (caller : Caller) (errs : List Err) : Fleet :=
  { f.setCaller c { caller with pc := .failed, errs := errs } with selecting := none }

def reserve (c : Nat) (caller : Caller) : List SessionRef → Option Fleet
  | [] => some (f.giveUp c caller (if caller.errs = [] then [.noTunnel] else caller.errs))
  | k :: rest => do
    let t ← f.sessions[k]?
    match f.registry.reserveInstance settings t.instanceID with
    | (_, .draining) => some (f.giveUp c caller [.draining])
    | (_, .saturated) =>
      some (f.setCaller c
        { caller with pc := .selecting rest, errs := caller.errs ++ [.queueFull] })
    | (registry, .accepted) =>
      some { f.setCaller c
        { caller with pc := .reserved k rest, reserved := caller.reserved ++ [k] } with
        registry := registry }

def start (c : Nat) (caller : Caller) (k : SessionRef) (rest : List SessionRef)
    (draws : List OpaqueID) : Option Fleet := do
  let t ← f.sessions[k]?
  match t.startRequest caller.call caller.policy caller.deadline draws with
  | .error e =>
    some (f.setCaller c { caller with pc := .refused k rest, errs := caller.errs ++ [e] })
  | .ok s =>
    some ((f.setSession k { t with session := s }).setCaller c
      { caller with
        pc := .opening k t.session.invocations.length rest
        tried := caller.tried ++ [(k, t.session.invocations.length)] })

/-- `releaseInstance` for the session `k`. -/
def release (c : Nat) (caller : Caller) (k : SessionRef) (pc : CallerPc) : Option Fleet := do
  let t ← f.sessions[k]?
  some { f.setCaller c { caller with pc := pc, released := caller.released ++ [k] } with
    registry := f.registry.releaseInstance t.instanceID }

/-- The error `enqueueOpen` returned for a request that was rolled back. -/
def openError (x : Invocation) : List Err :=
  match x.pc with
  | .rolledBack e => [e]
  | _ => []

def move (c : Nat) (caller : Caller) (m : Move) : Option Fleet := do
  let (k, r) ← caller.pc.request
  if caller.pc.allows m then
    let t ← f.sessions[k]?
    let x ← t.session.invocations[r]?
    let s ← t.session.step t.params (.invoke r m)
    let x' ← s.invocations[r]?
    let held := t.session.requests.lookup x.request.id = some r
    some ((f.setSession k { t with session := s }).setCaller c
      { caller with pc := caller.pc.after held x'.pc m })
  else none

/-! ## The server -/

def step : Action → Option Fleet
  | .connect => (f.registry.beginHandshake settings).map fun registry ↦
      { f with registry := registry, connects := f.connects ++ [.handshaking] }
  | .handshakeFailed h =>
    match f.connects[h]? with
    | some .handshaking =>
      some { f.setConnect h .ended with registry := f.registry.releaseHandshake }
    | _ => none
  | .register h id instanceID dataCenter limits routes capabilities =>
    match f.connects[h]? with
    | some .handshaking =>
      some (f.register settings h
        { settings := settings, id := id, limits := limits, routes := routes
          capabilities := capabilities } instanceID dataCenter)
    | _ => none
  | .run h =>
    match f.connects[h]? with
    | some (.registered k) => (f.sessions[k]?).map fun t ↦
        (f.setSession k { t with isRunning := true }).setConnect h (.ready k)
    | _ => none
  | .markSessionReady h now stale =>
    match f.connects[h]? with
    | some (.ready k) => (f.sessions[k]?).map fun t ↦
        { f.setConnect h (.running k) with
          registry := f.registry.markSessionReady f.sessions stale k t now }
    | _ => none
  | .abortBeforeRun h =>
    match f.connects[h]? with
    | some (.registered k) => do
      let t ← f.sessions[k]?
      let s ← t.session.step t.params (.streamDone .canceled)
      some ((f.setSession k { t with session := s }).setConnect h (.closing k))
    | _ => none
  | .terminate h =>
    match f.connects[h]? with
    | some (.running k) => do
      let t ← f.sessions[k]?
      match t.session.failing, t.session.ctxErr with
      | some ([], _), some _ => some (f.setConnect h (.closing k))
      | _, _ => none
    | _ => none
  | .unregister h stale =>
    match f.connects[h]? with
    | some (.closing k) => (f.sessions[k]?).map fun t ↦
        { f.setConnect h .ended with registry := f.registry.unregister f.sessions stale k t }
    | _ => none
  | .drain => some { f with registry := { f.registry with isDraining := true } }
  | .stale k =>
    match f.sessions[k]? with
    | some t => if t.serves then some (f.setSession k { t with isStale := true }) else none
    | none => none
  | .invoke call span now deadline ctxErr =>
    match admitCall settings call span now deadline ctxErr with
    | .ok (call, policy, deadline) =>
      some { f with
        callers := f.callers ++ [{ call := call, policy := policy, deadline := deadline }] }
    | .error _ => none
  | .selectOrder c now stale =>
    match f.callers[c]? with
    | some caller =>
      if caller.pc = .entered ∧ f.selecting = none then
        some (f.selectOrder settings c caller now stale)
      else none
    | none => none
  | .reserve c =>
    match f.callers[c]? with
    | some caller =>
      match caller.pc with
      | .selecting rest => f.reserve settings c caller rest
      | _ => none
    | none => none
  | .start c draws =>
    match f.callers[c]? with
    | some caller =>
      match caller.pc with
      | .reserved k rest => f.start c caller k rest draws
      | _ => none
    | none => none
  | .release c =>
    match f.callers[c]? with
    | some caller =>
      match caller.pc with
      | .refused k rest => f.release c caller k (.selecting rest)
      | .rolledBack k r rest => f.release c caller k (.checking k r rest)
      | .removed k r => do
        let t ← f.sessions[k]?
        let x ← t.session.invocations[r]?
        match x.pc with
        | .returned _ => f.release c caller k (.returned k r)
        | _ => none
      | _ => none
    | none => none
  | .checkContext c =>
    match f.callers[c]? with
    | some caller =>
      match caller.pc with
      | .checking k r rest => do
        let t ← f.sessions[k]?
        let x ← t.session.invocations[r]?
        let errs := caller.errs ++ openError x
        if x.ctxErr.isSome then some (f.giveUp c caller errs)
        else some (f.setCaller c { caller with pc := .selecting rest, errs := errs })
      | _ => none
    | none => none
  | .commit c stale =>
    match f.callers[c]? with
    | some caller =>
      match caller.pc with
      | .committing k r => (f.sessions[k]?).map fun t ↦
          { f.setCaller c { caller with pc := .opened k r } with
            registry := f.registry.commitSessionSelection f.sessions stale caller.call.route k t
            selecting := none }
      | _ => none
    | none => none
  | .move c m => (f.callers[c]?).bind fun caller ↦ f.move c caller m
  | .session k a =>
    match f.sessions[k]? with
    | some t =>
      if !a.ofCaller && (t.isRunning || a.beforeRun) then
        (t.session.step t.params a).map fun s ↦ f.setSession k { t with session := s }
      else none
    | none => none

end Fleet

/-! ## What a step can do -/

/-- What never changes of a session, and the session itself. -/
def ActiveSession.core (t : ActiveSession) : Params × OpaqueID × Session :=
  (t.params, t.instanceID, t.session)

namespace CallerPc

/-- The session on whose instance the goroutine holds a slot. -/
def slot : CallerPc → Option SessionRef
  | .reserved k _ | .refused k _ | .opening k _ _ | .rolledBack k _ _ | .committing k _
  | .opened k _ | .removed k _ => some k
  | _ => none

/-- The request of the goroutine that is in the table of its session. -/
def active : CallerPc → Option (SessionRef × Ref)
  | .opening k r _ | .committing k r | .opened k r => some (k, r)
  | _ => none

end CallerPc

namespace Registry

variable (settings : Settings) (r : Registry) (all : List ActiveSession) (stale : List SessionRef)

theorem selectDataCenterLoop_eq (route : RouteId) (now : Time) (dataCenters : List String) :
    ∀ (r : Registry) (total : Int) (best : Option (String × Int)),
      (selectDataCenterLoop settings route now r total best dataCenters).1 =
        { r with selection :=
          (selectDataCenterLoop settings route now r total best dataCenters).1.selection } := by
  induction dataCenters with
  | nil => intro r total best; rfl
  | cons dataCenter rest ih =>
    intro r total best
    simp only [selectDataCenterLoop]
    rw [ih]

/-- Choosing the order of the sessions only touches the state of the selection. -/
theorem selectionOrder_eq (route : RouteId) (now : Time) :
    (r.selectionOrder settings all stale route now).1 =
      { r with selection := (r.selectionOrder settings all stale route now).1.selection } := by
  simp only [selectionOrder, selectDataCenterLocked]
  split
  · rfl
  · simp only
    rw [selectDataCenterLoop_eq]
    rfl

theorem commitSessionSelection_eq (route : RouteId) (k : SessionRef) (t : ActiveSession) :
    r.commitSessionSelection all stale route k t =
      { r with selection := (r.commitSessionSelection all stale route k t).selection } := by
  simp only [commitSessionSelection]
  split
  · rfl
  · split_ifs <;> rfl

end Registry

namespace Fleet

variable {settings : Settings} {f f' : Fleet} {caller : Caller} {k : SessionRef} {h c : Nat}
  {stale : List SessionRef} {rest : List SessionRef} {instanceID : OpaqueID} {dataCenter : String}
  {params : Params}

/-- What a step of an `Invoke` goroutine does to the goroutine and to the rest of the server. -/
inductive CallerStep (settings : Settings) (f : Fleet) (caller : Caller) :
    Caller → Fleet → Prop
  | passed {f' pc errs} (hslot : pc.slot = caller.pc.slot) (hactive : pc.active = caller.pc.active)
      (ha : f'.registry.instanceActive = f.registry.instanceActive)
      (hs : f'.sessions.map ActiveSession.core = f.sessions.map ActiveSession.core) :
      CallerStep settings f caller { caller with pc := pc, errs := errs } f'
  | reserved {f' k rest t} (hpc : caller.pc = .selecting (k :: rest)) (hk : f.sessions[k]? = some t)
      (hroom : f.registry.instanceActive t.instanceID < settings.maxInFlightPerInstance)
      (ha : f'.registry.instanceActive = Function.update f.registry.instanceActive t.instanceID
        (f.registry.instanceActive t.instanceID + 1))
      (hs : f'.sessions = f.sessions) :
      CallerStep settings f caller
        { caller with pc := .reserved k rest, reserved := caller.reserved ++ [k] } f'
  | started {f' k rest t draws s} (hpc : caller.pc = .reserved k rest)
      (hk : f.sessions[k]? = some t)
      (hstart : t.startRequest caller.call caller.policy caller.deadline draws = .ok s)
      (ha : f'.registry.instanceActive = f.registry.instanceActive)
      (hs : f'.sessions = f.sessions.set k { t with session := s }) :
      CallerStep settings f caller
        { caller with
          pc := .opening k t.session.invocations.length rest
          tried := caller.tried ++ [(k, t.session.invocations.length)] } f'
  | released {f' k t pc} (hslot : caller.pc.slot = some k) (hactive : caller.pc.active = none)
      (hslot' : pc.slot = none) (hactive' : pc.active = none) (hk : f.sessions[k]? = some t)
      (ha : f'.registry.instanceActive =
        (f.registry.releaseInstance t.instanceID).instanceActive)
      (hs : f'.sessions = f.sessions) :
      CallerStep settings f caller
        { caller with pc := pc, released := caller.released ++ [k] } f'
  | moved {f' k r t m s x x'} (hreq : caller.pc.request = some (k, r))
      (hallows : caller.pc.allows m = true) (hk : f.sessions[k]? = some t)
      (hx : t.session.invocations[r]? = some x)
      (hstep : t.session.step t.params (.invoke r m) = some s)
      (hx' : s.invocations[r]? = some x')
      (ha : f'.registry.instanceActive = f.registry.instanceActive)
      (hs : f'.sessions = f.sessions.set k { t with session := s }) :
      CallerStep settings f caller
        { caller with
          pc := caller.pc.after (t.session.requests.lookup x.request.id = some r) x'.pc m } f'

/-- **What a step can do to the callers, the sessions and the slots of the instances.** -/
inductive Change (settings : Settings) (f : Fleet) : Fleet → Prop
  | quiet {f' : Fleet} (hc : f'.callers = f.callers)
      (ha : f'.registry.instanceActive = f.registry.instanceActive)
      (hs : f'.sessions.map ActiveSession.core = f.sessions.map ActiveSession.core) :
      Change settings f f'
  | registered {f' : Fleet} {t : ActiveSession} (hc : f'.callers = f.callers)
      (ha : f'.registry.instanceActive = f.registry.instanceActive)
      (hs : f'.sessions = f.sessions ++ [t]) (ht : t.session = {})
      (hp : t.params.settings = settings) : Change settings f f'
  | entered {f' call policy deadline}
      (hc : f'.callers = f.callers ++ [{ call := call, policy := policy, deadline := deadline }])
      (hpolicy : settings.routes.lookup call.route = some policy)
      (ha : f'.registry.instanceActive = f.registry.instanceActive)
      (hs : f'.sessions = f.sessions) : Change settings f f'
  | session {f' k t a s} (hk : f.sessions[k]? = some t) (hcaller : a.ofCaller = false)
      (hstep : t.session.step t.params a = some s) (hc : f'.callers = f.callers)
      (ha : f'.registry.instanceActive = f.registry.instanceActive)
      (hs : f'.sessions = f.sessions.set k { t with session := s }) : Change settings f f'
  | caller {f' c caller caller'} (hcaller : f.callers[c]? = some caller)
      (hc : f'.callers = f.callers.set c caller')
      (hstep : CallerStep settings f caller caller' f') : Change settings f f'

/-- **What a step can do to the registered sessions and the handshakes.** -/
inductive Admission (settings : Settings) (f : Fleet) : Fleet → Prop
  | same {f' : Fleet} (hs : f'.registry.sessions = f.registry.sessions)
      (ht : f'.registry.instanceTunnels = f.registry.instanceTunnels)
      (hh : f'.registry.handshakes = f.registry.handshakes)
      (hc : f'.connects.count .handshaking = f.connects.count .handshaking) :
      Admission settings f f'
  | begun {f' : Fleet}
      (hroom : f.registry.sessions.entries.length + f.registry.handshakes < settings.maxTunnels)
      (hs : f'.registry.sessions = f.registry.sessions)
      (ht : f'.registry.instanceTunnels = f.registry.instanceTunnels)
      (hh : f'.registry.handshakes = f.registry.handshakes + 1)
      (hc : f'.connects.count .handshaking = f.connects.count .handshaking + 1) :
      Admission settings f f'
  | ended {f' : Fleet} (hs : f'.registry.sessions = f.registry.sessions)
      (ht : f'.registry.instanceTunnels = f.registry.instanceTunnels)
      (hh : 0 < f.registry.handshakes → f'.registry.handshakes = f.registry.handshakes - 1)
      (hc : f'.connects.count .handshaking + 1 = f.connects.count .handshaking) :
      Admission settings f f'
  | registered {f' t} (hnew : f.registry.sessions.lookup t.params.id = none)
      (hroom : f.registry.instanceTunnels t.instanceID < settings.maxTunnelsPerInstance)
      (hs : f'.registry.sessions =
        f.registry.sessions.insert t.params.id f.sessions.length)
      (ht : f'.registry.instanceTunnels = Function.update f.registry.instanceTunnels t.instanceID
        (f.registry.instanceTunnels t.instanceID + 1))
      (hh : f'.registry.handshakes = f.registry.handshakes - 1)
      (hc : f'.connects.count .handshaking + 1 = f.connects.count .handshaking)
      (hl : f'.sessions = f.sessions ++ [t]) : Admission settings f f'
  | unregistered {f' k t} (hk : f.sessions[k]? = some t)
      (hlookup : f.registry.sessions.lookup t.params.id = some k)
      (hs : f'.registry.sessions = f.registry.sessions.erase t.params.id)
      (ht : f'.registry.instanceTunnels = Function.update f.registry.instanceTunnels t.instanceID
        (f.registry.instanceTunnels t.instanceID - 1))
      (hh : f'.registry.handshakes = f.registry.handshakes)
      (hc : f'.connects.count .handshaking = f.connects.count .handshaking)
      (hl : f'.sessions = f.sessions) : Admission settings f f'

theorem map_core_set {l : List ActiveSession} {t t' : ActiveSession}
    (hk : l[k]? = some t) (ht : t'.core = t.core) :
    (l.set k t').map ActiveSession.core = l.map ActiveSession.core := by
  refine List.ext_getElem? fun j ↦ ?_
  rw [List.getElem?_map, List.getElem?_map, List.getElem?_set]
  split
  · rename_i hj
    subst hj
    rw [hk, if_pos (List.getElem?_eq_some_iff.mp hk).1]
    exact congrArg some ht
  · rfl

theorem map_core_markStale (stale : List SessionRef) :
    (f.markStale stale).map ActiveSession.core = f.sessions.map ActiveSession.core := by
  refine List.ext_getElem? fun j ↦ ?_
  rw [markStale, List.getElem?_map, List.getElem?_map, List.getElem?_mapIdx, Option.map_map]
  refine congrArg (Option.map · _) (funext fun t ↦ ?_)
  rw [Function.comp_apply]
  split <;> rfl

theorem admitCall_eq_ok {call call' span now deadline' deadline ctxErr policy}
    (h : admitCall settings call span now deadline ctxErr = .ok (call', policy, deadline')) :
    settings.routes.lookup call'.route = some policy := by
  rw [admitCall] at h
  split at h
  · cases h
  · rename_i policy' hpolicy
    split at h
    · cases h
    · split at h
      · cases h
      · simp only at h
        split at h
        · cases h
        · cases h
          exact hpolicy

theorem register_change (hp : params.settings = settings) :
    Change settings f (f.register settings h params instanceID dataCenter) := by
  rw [register]
  have hactive : (f.registry.registerFromHandshake settings f.sessions.length params.id
      instanceID).1.instanceActive = f.registry.instanceActive := by
    simp only [Registry.registerFromHandshake]
    split_ifs <;> rfl
  split
  · rename_i registry e heq
    rw [heq] at hactive
    exact .quiet rfl hactive rfl
  · rename_i registry heq
    rw [heq] at hactive
    exact .registered rfl hactive rfl rfl hp

theorem count_setConnect {pc pc'} (hpc : f.connects[h]? = some pc) (hpc' : pc' ≠ .handshaking) :
    (f.setConnect h pc').connects.count .handshaking + (if pc = .handshaking then 1 else 0) =
      f.connects.count .handshaking := by
  have := Tally.countP_set (· == .handshaking) hpc pc'
  simp only [beq_iff_eq, hpc', if_false] at this
  exact this

theorem count_setConnect_of_ne {pc pc'} (hpc : f.connects[h]? = some pc)
    (hne : pc ≠ .handshaking) (hpc' : pc' ≠ .handshaking) :
    (f.setConnect h pc').connects.count .handshaking = f.connects.count .handshaking := by
  have := count_setConnect hpc hpc'
  rw [if_neg hne] at this
  exact this

theorem register_admission (hpc : f.connects[h]? = some .handshaking) :
    Admission settings f (f.register settings h params instanceID dataCenter) := by
  have hended := @count_setConnect f _ _ .ended hpc (by simp)
  have hregistered := @count_setConnect f _ _ (.registered f.sessions.length) hpc (by simp)
  simp only [register, Registry.registerFromHandshake]
  by_cases hz : f.registry.handshakes = 0
  · rw [if_pos hz]
    exact .ended rfl rfl (fun hpos ↦ absurd hz hpos.ne') hended
  · rw [if_neg hz]
    split_ifs with hdrain hfull hinstance hid
    case neg =>
      exact .registered
        (t := { params := params, instanceID := instanceID, dataCenter := dataCenter })
        (by simpa using hid) (not_le.mp hinstance) rfl rfl rfl hregistered rfl
    all_goals exact .ended rfl rfl (fun _ ↦ rfl) hended

theorem unregister_admission {t}
    (hpc : f.connects[h]? = some (.closing k)) (hk : f.sessions[k]? = some t) :
    Admission settings f { f.setConnect h .ended with
      registry := f.registry.unregister f.sessions stale k t } := by
  have hne : ConnectPc.ended ≠ .handshaking := by simp
  have hcount := count_setConnect_of_ne hpc (by simp) hne
  simp only [Registry.unregister]
  split
  · rename_i hlookup
    exact .unregistered hk hlookup rfl rfl rfl hcount rfl
  · exact .same rfl rfl rfl hcount

/-- What the admission of tunnels reads and writes. -/
def admission (f : Fleet) :
    AList (fun _ : OpaqueID ↦ SessionRef) × (OpaqueID → Int) × Int × List ConnectPc :=
  (f.registry.sessions, f.registry.instanceTunnels, f.registry.handshakes, f.connects)

theorem Admission.of_eq (h : f'.admission = f.admission) : Admission settings f f' := by
  simp only [admission, Prod.mk.injEq] at h
  obtain ⟨hs, ht, hh, hc⟩ := h
  exact .same hs ht hh (by rw [hc])

theorem selectOrder_cases {now}
    (hcaller : f.callers[c]? = some caller) (hpc : caller.pc = .entered) :
    Change settings f (f.selectOrder settings c caller now stale) ∧
      (f.selectOrder settings c caller now stale).admission = f.admission := by
  have hbetween : none = caller.pc.slot ∧ none = caller.pc.active := by rw [hpc]; exact ⟨rfl, rfl⟩
  rw [selectOrder]
  split
  · exact ⟨.caller hcaller rfl (.passed hbetween.1 hbetween.2 rfl rfl), rfl⟩
  · refine ⟨.caller hcaller rfl (@CallerStep.passed settings f caller _ _ caller.errs hbetween.1
      hbetween.2 ?_ (map_core_markStale stale)), ?_⟩
    · simp only
      rw [Registry.selectionOrder_eq]
    · simp only [admission]
      rw [Registry.selectionOrder_eq]
      rfl

theorem reserve_cases (hcaller : f.callers[c]? = some caller) (hpc : caller.pc = .selecting rest)
    (h : f.reserve settings c caller rest = some f') :
    Change settings f f' ∧ f'.admission = f.admission := by
  have hbetween : none = caller.pc.slot ∧ none = caller.pc.active := by rw [hpc]; exact ⟨rfl, rfl⟩
  cases rest with
  | nil =>
    cases h
    exact ⟨.caller hcaller rfl (.passed hbetween.1 hbetween.2 rfl rfl), rfl⟩
  | cons k rest =>
    obtain ⟨t, hk, h⟩ := Option.bind_eq_some_iff.mp h
    simp only [Registry.reserveInstance] at h
    split_ifs at h with hd hfull
    all_goals cases h
    case neg => exact ⟨.caller hcaller rfl (.reserved hpc hk (not_le.mp hfull) rfl rfl), rfl⟩
    all_goals exact ⟨.caller hcaller rfl (.passed hbetween.1 hbetween.2 rfl rfl), rfl⟩

theorem start_cases {draws} (hcaller : f.callers[c]? = some caller)
    (hpc : caller.pc = .reserved k rest) (h : f.start c caller k rest draws = some f') :
    Change settings f f' ∧ f'.admission = f.admission := by
  obtain ⟨t, hk, h⟩ := Option.bind_eq_some_iff.mp h
  split at h
  · cases h
    exact ⟨.caller hcaller rfl (.passed (by rw [hpc]; rfl) (by rw [hpc]; rfl) rfl rfl), rfl⟩
  · rename_i s hstart
    cases h
    exact ⟨.caller hcaller rfl (.started hpc hk hstart rfl rfl), rfl⟩

theorem release_cases {pc} (hcaller : f.callers[c]? = some caller)
    (hheld : caller.pc.slot = some k ∧ caller.pc.active = none)
    (hnone : pc.slot = none ∧ pc.active = none) (h : f.release c caller k pc = some f') :
    Change settings f f' ∧ f'.admission = f.admission := by
  obtain ⟨t, hk, h⟩ := Option.bind_eq_some_iff.mp h
  cases h
  refine ⟨.caller hcaller rfl (.released hheld.1 hheld.2 hnone.1 hnone.2 hk rfl rfl), ?_⟩
  simp only [admission, Registry.releaseInstance]
  split <;> rfl

theorem move_cases {m} (hcaller : f.callers[c]? = some caller)
    (h : f.move c caller m = some f') : Change settings f f' ∧ f'.admission = f.admission := by
  obtain ⟨⟨k, r⟩, hreq, h⟩ := Option.bind_eq_some_iff.mp h
  simp only at h
  split at h
  · rename_i hallows
    obtain ⟨t, hk, h⟩ := Option.bind_eq_some_iff.mp h
    obtain ⟨x, hx, h⟩ := Option.bind_eq_some_iff.mp h
    obtain ⟨s, hs, h⟩ := Option.bind_eq_some_iff.mp h
    obtain ⟨x', hx', h⟩ := Option.bind_eq_some_iff.mp h
    cases h
    exact ⟨.caller hcaller rfl (.moved hreq hallows hk hx hs hx' rfl rfl), rfl⟩
  · cases h

/-- **A step does nothing else.** -/
theorem step_cases {a : Action} (h : f.step settings a = some f') :
    Change settings f f' ∧ Admission settings f f' := by
  have hcount {h : Nat} {pc pc' : ConnectPc} := @count_setConnect_of_ne f h pc pc'
  cases a with simp only [step] at h
  | connect =>
    obtain ⟨registry, hr, rfl⟩ := Option.map_eq_some_iff.mp h
    rw [Registry.beginHandshake] at hr
    split at hr
    · cases hr
    · rename_i hroom
      cases hr
      simp only [Bool.or_eq_true, decide_eq_true_eq, not_or, not_le] at hroom
      exact ⟨.quiet rfl rfl rfl, .begun hroom.2 rfl rfl rfl (by simp)⟩
  | handshakeFailed h' =>
    split at h <;> cases h
    rename_i hpc
    have hcount := @count_setConnect f _ _ .ended hpc (by simp)
    refine ⟨.quiet rfl ?_ rfl, .ended ?_ ?_ (fun hpos ↦ ?_) (by simpa using hcount)⟩
    all_goals simp only [Registry.releaseHandshake]
    case refine_4 => rw [if_pos hpos]
    all_goals split <;> rfl
  | register h' id instanceID dataCenter limits routes capabilities =>
    split at h <;> cases h
    rename_i hpc
    exact ⟨register_change rfl, register_admission hpc⟩
  | run h' =>
    split at h
    · rename_i hpc
      obtain ⟨t, hk, rfl⟩ := Option.map_eq_some_iff.mp h
      exact ⟨.quiet rfl rfl (map_core_set hk rfl),
        .same rfl rfl rfl (hcount hpc (by simp) (by simp))⟩
    · cases h
  | markSessionReady h' now stale =>
    split at h
    · rename_i hpc
      obtain ⟨t, hk, rfl⟩ := Option.map_eq_some_iff.mp h
      exact ⟨.quiet rfl rfl rfl, .same rfl rfl rfl (hcount hpc (by simp) (by simp))⟩
    · cases h
  | abortBeforeRun h' =>
    split at h
    · rename_i hpc
      obtain ⟨t, hk, h⟩ := Option.bind_eq_some_iff.mp h
      obtain ⟨s, hs, h⟩ := Option.bind_eq_some_iff.mp h
      cases h
      exact ⟨.session hk rfl hs rfl rfl rfl, .same rfl rfl rfl (hcount hpc (by simp) (by simp))⟩
    · cases h
  | terminate h' =>
    split at h
    · rename_i hpc
      obtain ⟨t, hk, h⟩ := Option.bind_eq_some_iff.mp h
      split at h
      · cases h
        exact ⟨.quiet rfl rfl rfl, .same rfl rfl rfl (hcount hpc (by simp) (by simp))⟩
      · cases h
    · cases h
  | unregister h' stale =>
    split at h
    · rename_i hpc
      obtain ⟨t, hk, rfl⟩ := Option.map_eq_some_iff.mp h
      refine ⟨.quiet rfl ?_ rfl, unregister_admission hpc hk⟩
      simp only [Registry.unregister]
      split <;> rfl
    · cases h
  | drain => cases h; exact ⟨.quiet rfl rfl rfl, .of_eq rfl⟩
  | stale k =>
    split at h
    · rename_i t hk
      split at h
      · cases h
        exact ⟨.quiet rfl rfl (map_core_set hk rfl), .of_eq rfl⟩
      · cases h
    · cases h
  | invoke call span now deadline ctxErr =>
    split at h <;> cases h
    rename_i call' policy deadline' hok
    exact ⟨.entered rfl (admitCall_eq_ok hok) rfl rfl, .of_eq rfl⟩
  | selectOrder c now stale =>
    split at h
    · rename_i caller hcaller
      split at h <;> cases h
      rename_i hpc
      exact (selectOrder_cases hcaller hpc.1).imp_right .of_eq
    · cases h
  | reserve c =>
    split at h
    · rename_i caller hcaller
      split at h
      · rename_i rest hpc
        exact (reserve_cases hcaller hpc h).imp_right .of_eq
      · cases h
    · cases h
  | start c draws =>
    split at h
    · rename_i caller hcaller
      split at h
      · rename_i k rest hpc
        exact (start_cases hcaller hpc h).imp_right .of_eq
      · cases h
    · cases h
  | release c =>
    split at h
    · rename_i caller hcaller
      split at h
      · rename_i k rest hpc
        exact (release_cases hcaller (hpc ▸ ⟨rfl, rfl⟩) ⟨rfl, rfl⟩ h).imp_right .of_eq
      · rename_i k r rest hpc
        exact (release_cases hcaller (hpc ▸ ⟨rfl, rfl⟩) ⟨rfl, rfl⟩ h).imp_right .of_eq
      · rename_i k r hpc
        obtain ⟨t, hk, h⟩ := Option.bind_eq_some_iff.mp h
        obtain ⟨x, hx, h⟩ := Option.bind_eq_some_iff.mp h
        split at h
        · exact (release_cases hcaller (hpc ▸ ⟨rfl, rfl⟩) ⟨rfl, rfl⟩ h).imp_right .of_eq
        · cases h
      · cases h
    · cases h
  | checkContext c =>
    split at h
    · rename_i caller hcaller
      split at h
      · rename_i k r rest hpc
        obtain ⟨t, hk, h⟩ := Option.bind_eq_some_iff.mp h
        obtain ⟨x, hx, h⟩ := Option.bind_eq_some_iff.mp h
        split at h
        all_goals
          cases h
          exact ⟨.caller hcaller rfl (.passed (by rw [hpc]; rfl) (by rw [hpc]; rfl) rfl rfl),
            .of_eq rfl⟩
      · cases h
    · cases h
  | commit c stale =>
    split at h
    · rename_i caller hcaller
      split at h
      · rename_i k r hpc
        obtain ⟨t, hk, rfl⟩ := Option.map_eq_some_iff.mp h
        have heq := f.registry.commitSessionSelection_eq f.sessions stale caller.call.route k t
        refine ⟨.caller hcaller rfl (.passed (by rw [hpc]; rfl) (by rw [hpc]; rfl) ?_ rfl),
          .of_eq ?_⟩
        · simp only
          rw [heq]
        · simp only [admission]
          rw [heq]
          rfl
      · cases h
    · cases h
  | move =>
    obtain ⟨caller, hcaller, h⟩ := Option.bind_eq_some_iff.mp h
    exact (move_cases hcaller h).imp_right .of_eq
  | session k a =>
    split at h
    · rename_i t hk
      split at h
      · rename_i ha
        obtain ⟨s, hs, rfl⟩ := Option.map_eq_some_iff.mp h
        rw [Bool.and_eq_true, Bool.not_eq_true'] at ha
        exact ⟨.session hk ha.1 hs rfl rfl rfl, .of_eq rfl⟩
      · cases h
    · cases h

theorem step_change {a} (h : f.step settings a = some f') : Change settings f f' :=
  (step_cases h).1

end Fleet
end MarketMesh.GatewayIn
