import MarketMesh.GatewayOut.Step
import MarketMesh.Lib.Stream

/-!
# The tables of a gateway-out session

`Session.Tables` lists what a step can do to the table of active requests and to the ring of
terminal ones, `Session.Queues` what to the send queues and `Session.Ends` what to the flags.
`Session.step_effects` is the one inversion of the step function.  `Session.Tabled` says that an
entry points to the conversation of its key, and `Session.Held` what is known of the frame the
receive loop works on.
-/

set_option autoImplicit false

namespace MarketMesh.GatewayOut

open Protocol Machine

/-- The frame is an Open that passed the checks of `handleFrame`. -/
structure Opens (p : Params) (frame : ConnectResponse) : Prop where
  admitted : Session.admitsInbound p frame = true
  payload : ∃ request, frame.payload = .opened request
  sequence : frame.header.sequence = 1

variable {frame : ConnectResponse} {p : Params}

theorem valid_of_admitsInbound (h : Session.admitsInbound p frame = true) : frame.Valid := by
  simp only [Session.admitsInbound, Bool.and_eq_true, decide_eq_true_eq] at h
  exact h.1.1

theorem requestId_length
    (h : Session.admitsInbound p frame = true) (hk : frame.payload.ofRequest = true) :
    frame.header.requestId.length = 16 :=
  (valid_of_admitsInbound h).requestId_length hk

theorem Opens.requestId_length (h : Opens p frame) :
    frame.header.requestId.length = 16 := by
  obtain ⟨request, hk⟩ := h.payload
  exact GatewayOut.requestId_length h.admitted (by rw [hk]; rfl)

theorem Opens.requestId_ne_nil (h : Opens p frame) :
    frame.header.requestId ≠ [] := by
  intro hnil
  have hlength := h.requestId_length
  rw [hnil] at hlength
  exact absurd hlength (by decide)

/-- The frames the send loop took out of a queue and has not sent. -/
def Sender.held : Sender → List ConnectRequest
  | .sending frames _ => frames
  | .stopped lost => lost
  | _ => []

/-- The frames in the queues. -/
def frames (queues : Queue → List Queued) (q : Queue) : List ConnectRequest :=
  (queues q).flatMap Queued.frames

theorem frames_update (queues : Queue → List Queued) (q : Queue) (batches : List Queued) :
    frames (Function.update queues q batches) =
      Function.update (frames queues) q (batches.flatMap Queued.frames) := by
  funext q'
  by_cases hq : q' = q
  · subst hq
    rw [Function.update_self, frames, Function.update_self]
  · rw [Function.update_of_ne hq, frames, Function.update_of_ne hq, frames]

/-- The actions that change a flag other than `loopEnded`. -/
def Action.isControl : Action → Bool
  | .recv _ _ | .cancelSession _ | .send | .runCancel | .drainStart | .drainClaim _
  | .drainEnqueue _ _ _ | .drainDelivered _ | .drainFail _ | .drainPoll _ | .drainWake _
  | .drainExpire _ | .drainAborted _ | .drainCancel _ => true
  | _ => false

/-- The header is one of a frame of this conversation. -/
def Session.Of (x : Conv) (header : FrameHeader) : Prop :=
  header.requestId = x.request.requestID ∧ header.trafficClass = x.request.route.trafficClass

namespace Conv

variable {p : Params} {env : Env} {x x' : Conv} {m : Move} {frames : List ConnectRequest}
  {err : Option Err}

/-- What a request is made of does not change. -/
theorem Step.request_eq (h : Step p env x m x' frames err) :
    x'.request.key = x.request.key ∧ x'.request.requestID = x.request.requestID ∧
      x'.request.route = x.request.route := by
  cases h with
  | dataGranted _ _ hr | dataRefused _ _ hr => subst hr; exact ⟨rfl, rfl, rfl⟩
  | _ => exact ⟨rfl, rfl, rfl⟩

/-- A numbered Data is a frame of the conversation. -/
def Framed (x : Conv) : Prop :=
  ∀ (f : ConnectRequest) (response : Bytes), x.completer = .numbered f response →
    Session.Of x f.header

theorem Framed.step (hx : x.Framed) (h : Step p env x m x' frames err) : x'.Framed := by
  intro f response hc
  cases h with
  | claimed =>
    simp only [firstPc] at hc
    split at hc <;> cases hc
  | aborted | took | woken | dataQueued | dataUnqueued | finished | unfinished | cleanup => cases hc
  | goes hs =>
    cases hs with
    | watcherDone | watcherExpired => exact hx f response hc
    | _ => cases hc
  | numberData =>
    obtain ⟨rfl, rfl⟩ := Completer.numbered.inj hc
    exact ⟨rfl, rfl⟩
  | dataGranted _ _ hr | dataRefused _ _ hr => subst hr; exact hx f response hc
  | _ => exact hx f response hc

/-- A queued frame carries the identifier and the class of its request. -/
theorem Step.frame_of (h : Step p env x m x' frames err) (hx : x.Framed)
    (hopen : ∀ f choice, m = .enqueueOpen f choice → Session.Of x f.header) :
    ∀ f ∈ frames, Session.Of x f.header := by
  intro f hf
  cases h with
  | dataGranted _ _ hr hframe =>
    obtain rfl := List.mem_singleton.mp hf
    subst hframe hr
    exact ⟨rfl, rfl⟩
  | openGranted =>
    obtain rfl := List.mem_singleton.mp hf
    exact hopen _ _ rfl
  | dataQueued h =>
    obtain rfl := List.mem_singleton.mp hf
    exact hx _ _ h
  | finished =>
    simp only [lastFrames, List.mem_cons, List.not_mem_nil, or_false] at hf
    obtain rfl | rfl := hf <;> exact ⟨rfl, rfl⟩
  | _ => exact absurd hf (by simp)

end Conv

namespace Session

variable {p : Params} {s s' s₁ : Session} {a : Action} {k : Ref} {m : Move} {err : Option Err}
  {batch : List ConnectRequest} {ctxErr : Option ContextError} {signal : Bool}
  {ok : Session → Action → Prop} {choice : Select} {q : Queue} {t : TerminalRequest}
  {key : OpaqueID} {t' : TerminalRequest} {key' : OpaqueID} {P : Conv → Prop}

/-! ## What a step can do to the tables -/

/-- The step changes one of the tables. -/
def retables (p : Params) (s : Session) : Action → Bool
  | .reserve =>
    match s.receiver with
    | .reserving frame route =>
      s.canReserve p (OpaqueID.copy frame.header.requestId) route.trafficClass
    | _ => false
  | .release k => (s.convs[k]?).any fun x ↦ s.requests.lookup x.request.key = some k
  | .addTerminal => true
  | .late =>
    match s.receiver with
    | .late frame => ((s.terminal.lookup (OpaqueID.copy frame.header.requestId)).bind
        (updateTerminal frame)).isSome
    | _ => false
  | _ => false

/-- **What a step can do to the tables.** -/
inductive Tables (p : Params) (s : Session) : Action → Session → Prop
  | same {a : Action} {s' : Session} (hr : s'.requests = s.requests)
      (ht : s'.terminal = s.terminal) (hsame : s.retables p a = false) : Tables p s a s'
  | reserved {frame route s'} (hres : s.receiver = .reserving frame route)
      (hcan : s.canReserve p (OpaqueID.copy frame.header.requestId) route.trafficClass = true)
      (hr : s'.requests = s.requests.insert (OpaqueID.copy frame.header.requestId) s.convs.length)
      (ht : s'.terminal = s.terminal) : Tables p s .reserve s'
  | released {s' k x} (hx : s.convs[k]? = some x)
      (hpc : x.completer = .release) (hlookup : s.requests.lookup x.request.key = some k)
      (hr : s'.requests = s.requests.erase x.request.key)
      (ht : s'.terminal =
        (s.addTerminalLocked p x.request.key (terminalOf p k x.request)).terminal)
      (hx' : s'.convs[k]? = some { x with completer := .done }) : Tables p s (.release k) s'
  | rejected {frame : ConnectResponse} {k : Ref} {s' : Session}
      (hrej : s.receiver = .rejected frame k) (hr : s'.requests = s.requests)
      (ht : s'.terminal = (s.addTerminalLocked p (OpaqueID.copy frame.header.requestId)
        { trafficClass := frame.header.trafficClass
          incomingSequence := frame.header.sequence
          maximumCredit := p.limits.maxMessageBytes
          ref := k }).terminal) : Tables p s .addTerminal s'
  | late {frame : ConnectResponse} {t t' : TerminalRequest} {s' : Session}
      (hlate : s.receiver = .late frame)
      (ht : s.terminal.lookup (OpaqueID.copy frame.header.requestId) = some t)
      (ht' : updateTerminal frame t = some t') (hr : s'.requests = s.requests)
      (hs : s'.terminal = s.terminal.insert (OpaqueID.copy frame.header.requestId) t') :
      Tables p s .late s'

theorem act_tables (h : s.act p k m = some (s', err)) :
    s'.requests = s.requests ∧ s'.terminal = s.terminal := by
  rw [act_rest h]
  exact ⟨rfl, rfl⟩

/-- A step that makes one move, or offers one batch, leaves the tables as they were before. -/
theorem Tables.of_rest
    (h : s₁ = { s with convs := s₁.convs, queues := s₁.queues, accepted := s₁.accepted })
    (hr : s'.requests = s₁.requests) (ht : s'.terminal = s₁.terminal)
    (hsame : s.retables p a = false) : Tables p s a s' := by
  rw [h] at hr ht
  exact .same hr ht hsame

theorem Hands.tables (frame : ConnectResponse) (now : Time) (h : Hands p s s') :
    Tables p s (.recv frame now) s' := by
  cases h with
  | looked hs' =>
    rw [hs']
    exact .same rfl rfl rfl
  | acted hact hm hs' =>
    rw [hs']
    exact .of_rest (act_rest hact) rfl rfl rfl
  | drain =>
    rw [handlePeerDrain]
    split <;> exact .same rfl rfl rfl

theorem release_tables (h : s.release p k = some s') : Tables p s (.release k) s' := by
  simp only [release, Option.bind_eq_bind, Option.bind_eq_some_iff, Option.some_inj] at h
  obtain ⟨x, hx, ⟨s₁, err⟩, hact, rfl⟩ := h
  obtain ⟨hr, ht⟩ := act_tables hact
  -- the move is only possible at the end of the request
  obtain ⟨y, y', frames, hy, hstep, hs₁⟩ := act_eq_some hact
  obtain rfl : y = x := by
    rw [releaseEntry_eq] at hy
    exact Option.some_inj.mp (hy.symm.trans hx)
  have hpc : y.completer = .release := by
    cases hpc : y.completer with
    | release => rfl
    | _ => simp [Conv.step, hpc] at hstep
  by_cases hlookup : s.requests.lookup y.request.key = some k
  · have hconvs : s₁.convs[k]? = some { y with completer := .done } := by
      simp only [Conv.step, hpc, Option.some_inj, Prod.mk.injEq] at hstep
      rw [hs₁, hstep.1]
      exact Pool.set_self hy _
    simp only [releaseEntry, if_pos hlookup] at hr ht
    refine .released hx hpc hlookup (hr.trans ?_) ht hconvs
    rw [addTerminalLocked_eq]
  · simp only [releaseEntry, if_neg hlookup] at hr ht
    exact .same hr ht (by simpa [retables, hx] using hlookup)

/-! ## What a step can do to the queues and the flags -/

/-- The frame was looked up: it names the conversation `k`. -/
def Names (p : Params) (s : Session) (k : Ref) (frame : ConnectResponse) : Prop :=
  admitsInbound p frame = true ∧
    ∃ x, s.convs[k]? = some x ∧ x.request.requestID = frame.header.requestId

/-- What is known of the frame the receive loop works on. -/
def Held (p : Params) (s : Session) : Prop :=
  match s.receiver with
  | .rejecting frame code => Opens p frame ∧ code ≠ .ok
  | .rejected frame k => Opens p frame ∧ Names p s k frame
  | .reserving frame route =>
    Opens p frame ∧ frame.header.trafficClass = route.trafficClass ∧ route.id ∈ p.routes
  | .openNumbered k frame => ∃ x, s.convs[k]? = some x ∧ Of x frame.header
  | .data k frame => Names p s k frame ∧ ∃ b, frame.payload = .data b
  | .halfClose k frame => Names p s k frame ∧ frame.payload = .halfClose
  | .late frame => admitsInbound p frame = true ∧
    ((∃ n, frame.payload = .credit n) ∨ ∃ reason, frame.payload = .cancel reason)
  | _ => True

/-- The send queues and the histories at their ends. -/
def outbound (s : Session) : Fifo.Sender ConnectRequest Queue :=
  ⟨s.accepted, s.sent, s.sender.held, frames s.queues⟩

/-- **What a step can do to the send queues.** -/
abbrev Queues (s s' : Session) : Prop :=
  Fifo.Step (fun f : ConnectRequest ↦ queue f.header.trafficClass) s.outbound s'.outbound

theorem push_queues (hclass : ∀ f ∈ batch, queue f.header.trafficClass = q) :
    Queues s (s.push q signal batch) := by
  cases batch with
  | nil => exact .same
  | cons frame following =>
    have hframes : frames (Function.update s.queues q (s.queues q ++
        [⟨frame, following, signal⟩])) =
        Function.update (frames s.queues) q (frames s.queues q ++ frame :: following) := by
      rw [frames_update, List.flatMap_append, List.flatMap_singleton]
      rfl
    rw [push, Queues, outbound, outbound, hframes]
    exact .pushed hclass

theorem act_queues (h : s.act p k m = some (s', err)) (hframed : ∀ x ∈ s.convs, x.Framed)
    (hopen : ∀ f choice, m = .enqueueOpen f choice → ∃ x, s.convs[k]? = some x ∧ Of x f.header) :
    Queues s s' := by
  obtain ⟨x, x', fs, hx, hstep, rfl⟩ := act_eq_some h
  refine push_queues fun f hf ↦ ?_
  have hof : Of x f.header := by
    refine (Conv.step_cases hstep).frame_of (hframed x (List.mem_of_getElem? hx)) ?_ f hf
    intro g choice hm
    obtain ⟨y, hy, hof⟩ := hopen g choice hm
    cases hy.symm.trans hx
    exact hof
  rw [hof.2]

theorem offer_queues (h : s.offer p q choice ctxErr signal batch = some (s', err))
    (hclass : ∀ f ∈ batch, queue f.header.trafficClass = q) : Queues s s' := by
  obtain ⟨-, rfl, -⟩ | ⟨rfl, -⟩ := offer_eq_some h
  · exact push_queues hclass
  · exact .same

theorem Hands.queues (h : Hands p s s') (hframed : ∀ x ∈ s.convs, x.Framed) : Queues s s' := by
  cases h with
  | looked hs' =>
    rw [hs']
    exact .same
  | acted hact hm hs' =>
    rw [hs']
    exact (act_queues hact hframed fun f choice h ↦ absurd h (hm f choice) :)
  | drain =>
    rw [handlePeerDrain]
    split <;> exact .same

/-- The flags that end a session, and the calls of `drain`. -/
structure Flags where
  isDone : Bool
  draining : Bool
  drainSent : Bool
  drainDelivered : Bool
  loopEnded : Bool
  aborting : Bool
  drains : Drainer → DrainPc

def flags (s : Session) : Flags where
  isDone := s.isDone
  draining := s.draining
  drainSent := s.drainSent
  drainDelivered := s.drainDelivered
  loopEnded := s.loopEnded
  aborting := s.aborting
  drains := s.drains

theorem act_flags (h : s.act p k m = some (s', err)) :
    s'.flags = s.flags := by
  rw [act_rest h]
  rfl

theorem offer_flags
    (h : s.offer p q choice ctxErr signal batch = some (s', err)) : s'.flags = s.flags := by
  rw [offer_rest h]
  rfl

/-- The flags stay as they are, except that a loop may have ended. -/
def Ends (s s' : Session) : Prop :=
  s'.flags = s.flags ∨ s'.flags = { s.flags with loopEnded := true }

theorem Ends.of_eq (h : s₁.flags = s.flags)
    (hs : s'.flags = s₁.flags ∨ s'.flags = { s₁.flags with loopEnded := true }) : Ends s s' := by
  rwa [Ends, ← h]

/-- The counters of the active requests after a step. -/
def classesAfter (p : Params) (s : Session) : Action → TrafficClass → Nat
  | .reserve =>
    match s.receiver with
    | .reserving frame route => (s.reserve p frame route).activeByClass
    | _ => s.activeByClass
  | .release k =>
    match s.convs[k]? with
    | some x => (s.releaseEntry p k x.request).activeByClass
    | none => s.activeByClass
  | _ => s.activeByClass

/-- What a step does to the parts of a session. -/
structure Effects (p : Params) (s : Session) (a : Action) (s' : Session) : Prop where
  change : Change p s a s'
  tables : Tables p s a s'
  queues : (∀ x ∈ s.convs, x.Framed) → Held p s → Queues s s'
  ends : a.isControl = false → Ends s s'
  classes : s'.activeByClass = s.classesAfter p a

theorem act_classes (h : s.act p k m = some (s', err)) : s'.activeByClass = s.activeByClass := by
  rw [act_rest h]

theorem classesAfter_eq (h : s.retables p a = false) : s.classesAfter p a = s.activeByClass := by
  cases a with
  | reserve =>
    simp only [classesAfter, retables] at h ⊢
    split
    · rename_i hres
      rw [hres] at h
      rw [reserve, if_neg (by simpa using h)]
    · rfl
  | release k =>
    simp only [classesAfter]
    split
    · rename_i x hx
      simp only [retables, hx, Option.any_some, decide_eq_false_iff_not] at h
      rw [releaseEntry, if_neg h]
    · rfl
  | _ => rfl

theorem Hands.classes (h : Hands p s s') : s'.activeByClass = s.activeByClass := by
  cases h with
  | looked hs' => rw [hs']
  | acted hact hm hs' =>
    rw [hs']
    exact (act_classes hact :)
  | drain =>
    rw [handlePeerDrain]
    split <;> rfl

theorem Effects.of_act (h : s.step p a = some s') (ha : isAct a = true) : Effects p s a s' := by
  obtain ⟨k, m, s₁, err, hact, hadv, hm, hdone, hended, hs'⟩ := step_act h ha
  constructor
  case change => exact .of_act hact (by rw [hs']) (by rw [hs']) (by rw [hs']) hadv
  all_goals rw [hs']
  case tables =>
    refine .of_rest (act_rest hact) rfl rfl ?_
    cases a <;> first | rfl | cases ha
  case queues =>
    intro hframed hheld
    refine (act_queues hact hframed fun f choice he ↦ ?_ :)
    rw [Held, hm f choice he] at hheld
    exact hheld
  case ends =>
    intro hc
    refine .of_eq (act_flags hact) ?_
    rw [hdone.resolve_right fun ⟨k, hk⟩ ↦ by rw [hk] at hc; cases hc]
    exact hended.imp (fun h ↦ by rw [h]; rfl) (fun h ↦ by rw [h]; rfl)
  case classes => cases a <;> first | exact (act_classes hact :) | cases ha

theorem Effects.of_offer (h : s.offer p q choice ctxErr signal batch = some (s₁, err))
    (hs' : s' = { s₁ with
      convs := s'.convs, receiver := s'.receiver, nonce := s'.nonce, drains := s'.drains,
      loopEnded := s'.loopEnded })
    (hclass : ∀ f ∈ batch, queue f.header.trafficClass = q) (hsame : s.retables p a = false)
    (hends : a.isControl = false →
      s'.flags = s₁.flags ∨ s'.flags = { s₁.flags with loopEnded := true })
    (hchange : Change p s a s') : Effects p s a s' where
  change := hchange
  tables := .of_rest (offer_rest h) (by rw [hs']) (by rw [hs']) hsame
  queues _ _ := by
    rw [hs']
    exact (offer_queues h hclass :)
  ends ha := .of_eq (offer_flags h) (hends ha)
  classes := by
    rw [hs', classesAfter_eq hsame, offer_rest h]

/-- A step of the receive loop that moves no conversation and touches no table. -/
theorem Effects.of_waits (hs' : s' = { s with
      receiver := s'.receiver, loopEnded := s'.loopEnded })
    (hr : Waits s a s'.receiver) (hsame : s.retables p a = false)
    (hends : s'.loopEnded = s.loopEnded ∨ s'.loopEnded = true) : Effects p s a s' := by
  constructor
  case change => exact .waited (by rw [hs']) (by rw [hs']) hr (by rw [hs'])
  all_goals rw [hs']
  case tables => exact .same rfl rfl hsame
  case queues => exact fun _ _ ↦ .same
  case ends => exact fun _ ↦ hends.imp (fun h ↦ by rw [h]; rfl) (fun h ↦ by rw [h]; rfl)
  case classes => exact (classesAfter_eq hsame).symm

/-- A step of the send loop, the keepalive loop or a drain. -/
theorem Effects.of_rest (hs' : s' = { s with
      isDone := s'.isDone, draining := s'.draining, drainSent := s'.drainSent,
      drainDelivered := s'.drainDelivered, loopEnded := s'.loopEnded, aborting := s'.aborting,
      queues := s'.queues, nonce := s'.nonce, sender := s'.sender, drains := s'.drains,
      sent := s'.sent })
    (hsame : s.retables p a = false) (hq : Queues s s')
    (hf : a.isControl = false → Ends s s') : Effects p s a s' := by
  refine ⟨.same ?_ ?_ ?_ ?_, .same ?_ ?_ hsame, fun _ _ ↦ hq, hf, ?_⟩
  case refine_7 => rw [hs', classesAfter_eq hsame]
  all_goals rw [hs']

/-- **A step has no other effects.** -/
theorem step_effects (h : s.step p a = some s') : Effects p s a s' := by
  by_cases hacts : isAct a = true
  · exact .of_act h hacts
  cases a with simp only [step] at h
  | numberOpen | enqueueOpen | abortOpen | data | halfClose | cancelContext | claimCancel
  | worker | cancelSession | abort => exact absurd rfl hacts
  | recv frame now =>
    split at h
    · obtain ⟨hchange, hhands⟩ := handleFrame_change ‹_› h
      refine ⟨hchange, ?_, fun hframed _ ↦ ?_, by rintro ⟨⟩, hhands.classes⟩
      · cases hhands.tables frame now with
        | same hr ht hsame => exact .same hr ht hsame
      · exact (hhands.queues hframed :)
    · cases h
  | recvError =>
    split at h
    · cases h
      exact .of_waits rfl (.ended ‹_›) rfl (.inr rfl)
    · cases h
  | enqueueReject choice =>
    split at h
    · rename_i frame code hrej
      have hclass : ∀ f ∈ rejection p frame.header code,
          queue f.header.trafficClass = queue frame.header.trafficClass := by
        intro f hf
        simp only [rejection, List.mem_cons, List.not_mem_nil, or_false] at hf
        obtain rfl | rfl := hf <;> rfl
      rw [enqueueReject] at h
      split at h
      · cases h
      · rename_i hoffer
        cases h
        refine .of_offer hoffer rfl hclass rfl (fun _ ↦ .inl rfl) ?_
        obtain ⟨hadm, rfl, -⟩ | ⟨-, e, ⟨⟩⟩ := offer_eq_some hoffer
        refine .rejected hrej hadm ?_ ?_ ?_ ?_ <;> simp only <;> rw [push_eq]
      · rename_i hoffer
        cases h
        obtain ⟨-, -, ⟨⟩⟩ | ⟨rfl, -⟩ := offer_eq_some hoffer
        exact .of_waits rfl (.refused hrej) rfl (.inr rfl)
    · cases h
  | addTerminal =>
    split at h <;> cases h
    rename_i frame k hrej
    have hterminal := addTerminalLocked_eq p s (OpaqueID.copy frame.header.requestId)
      { trafficClass := frame.header.trafficClass
        incomingSequence := frame.header.sequence
        maximumCredit := p.limits.maxMessageBytes
        ref := k }
    rw [addRejected, hterminal]
    exact ⟨.waited rfl rfl (.entered hrej) rfl, .rejected hrej rfl rfl, fun _ _ ↦ .same,
      fun _ ↦ .inl rfl, rfl⟩
  | reserve =>
    split at h <;> cases h
    rename_i frame route hres
    simp only [reserve]
    split
    · rename_i hcan
      exact ⟨.reserved hres rfl rfl rfl rfl, .reserved hres hcan rfl rfl,
        fun _ _ ↦ .same, fun _ ↦ .inl rfl,
        by simp [classesAfter, hres, reserve, hcan]⟩
    · rename_i hcan
      exact .of_waits rfl (.full hres) (by simpa [retables, hres] using hcan) (.inl rfl)
  | awaited =>
    split at h
    · rename_i k hawait
      simp only [Option.bind_eq_bind, Option.bind_eq_some_iff] at h
      obtain ⟨x, hx, h⟩ := h
      split at h
      · cases h
        exact .of_waits rfl (.awaited hawait) rfl (.inl rfl)
      · cases h
    · cases h
  | late =>
    split at h
    · rename_i frame hlate
      simp only [handleTerminalFrame] at h
      split at h
      · rename_i ht
        cases h
        exact .of_waits rfl (.unknown hlate) (by simp [retables, hlate, ht]) (.inr rfl)
      · rename_i t ht
        split at h
        · rename_i ht'
          cases h
          exact .of_waits rfl (.unknown hlate) (by simp [retables, hlate, ht, ht']) (.inr rfl)
        · rename_i t' ht'
          obtain ⟨⟨s₁, err⟩, hact, rfl⟩ := Option.map_eq_some_iff.mp h
          obtain ⟨x, x', frames, hx, hstep, hi, ha, -, hv⟩ := act_change hact
          obtain ⟨hr, hs⟩ := act_tables hact
          refine ⟨.moved hx hstep hi ha (.late hlate ht ht' rfl) hv, .late hlate ht ht' hr hs,
            fun hframed _ ↦ ?_, fun _ ↦ .inl (act_flags hact :),
            (act_classes hact :)⟩
          exact (act_queues hact hframed (by simp) :)
    · cases h
  | pong choice =>
    split at h
    · rename_i nonce hpong
      split at h
      · cases h
      · rename_i hoffer
        cases h
        refine .of_offer hoffer rfl (by simp [tunnelFrame, queue]) rfl (fun _ ↦ .inl rfl) ?_
        obtain ⟨hadm, rfl, -⟩ | ⟨-, e, ⟨⟩⟩ := offer_eq_some hoffer
        exact .tunnel (hadm _ List.mem_cons_self) rfl rfl (.inr ⟨⟨nonce, hpong⟩, rfl⟩) rfl
          (by simp)
      · rename_i hoffer
        cases h
        obtain ⟨-, -, ⟨⟩⟩ | ⟨rfl, -⟩ := offer_eq_some hoffer
        exact .of_waits rfl (.unanswered hpong) rfl (.inr rfl)
    · cases h
  | release k =>
    refine ⟨?_, release_tables h, fun hframed _ ↦ ?_, fun _ ↦ ?_, ?_⟩ <;>
      simp only [release, Option.bind_eq_bind, Option.bind_eq_some_iff, Option.some_inj] at h <;>
      obtain ⟨x, hx, ⟨s₁, err⟩, hact, rfl⟩ := h <;> rw [releaseEntry_eq] at hact
    · obtain ⟨y, y', frames, hy, hstep, hi, ha, hr, hv⟩ := act_change hact
      exact .moved hy hstep hi ha (hr ▸ .release) hv
    · exact (act_queues hact hframed (by simp) :)
    · exact .inl (act_flags hact :)
    · rw [classesAfter, hx, act_classes hact]
  | ping choice =>
    repeat' split at h
    all_goals cases h
    all_goals rename_i hoffer
    · refine .of_offer hoffer rfl (by simp [tunnelFrame, queue]) rfl (fun _ ↦ .inl rfl) ?_
      obtain ⟨hadm, rfl, -⟩ | ⟨-, e, ⟨⟩⟩ := offer_eq_some hoffer
      exact .tunnel (hadm _ List.mem_cons_self) rfl rfl (.inl rfl) rfl (by simp)
    · refine .of_offer hoffer rfl (by simp [tunnelFrame, queue]) rfl (fun _ ↦ .inr rfl) ?_
      obtain ⟨-, -, ⟨⟩⟩ | ⟨rfl, -⟩ := offer_eq_some hoffer
      exact .same rfl rfl rfl rfl
  | drainEnqueue d deadline choice =>
    repeat' split at h
    all_goals cases h
    all_goals
      rename_i hoffer
      refine .of_offer hoffer rfl (by simp [drainFrame, tunnelFrame, queue]) rfl
        (by rintro ⟨⟩) ?_
    · obtain ⟨hadm, rfl, -⟩ | ⟨-, e, ⟨⟩⟩ := offer_eq_some hoffer
      exact .tunnel (hadm _ List.mem_cons_self) rfl rfl (.inl rfl) rfl (by simp)
    · obtain ⟨-, -, ⟨⟩⟩ | ⟨rfl, -⟩ := offer_eq_some hoffer
      exact .same rfl rfl rfl rfl
  | poll | senderDone | sendFail =>
    repeat' split at h
    all_goals cases h
    all_goals
      refine .of_rest rfl rfl ?_ fun _ ↦ ?_
      · rw [Queues, outbound, outbound, ‹s.sender = _›]
        exact .same
      · first | exact .inl rfl | exact .inr rfl
  | take q =>
    repeat' split at h
    all_goals cases h
    all_goals
      refine .of_rest rfl rfl ?_ fun _ ↦ .inl rfl
      rw [Queues, outbound, outbound, frames_update]
      refine .taken (by rw [‹s.sender = _›]; rfl) ?_
      show (s.queues q).flatMap Queued.frames = _
      rw [‹s.queues q = _›]
      rfl
  | send =>
    repeat' split at h
    all_goals cases h
    all_goals
      refine .of_rest rfl rfl ?_ (by rintro ⟨⟩)
      exact .sent (x := s.outbound) (by rw [outbound, ‹s.sender = _›]; rfl)
  | keepaliveTimeout =>
    cases h
    exact .of_rest rfl rfl .same fun _ ↦ .inr rfl
  | _ =>
    -- the drains touch only the flags
    repeat' split at h
    all_goals cases h
    all_goals
      exact .of_rest rfl rfl .same (by rintro ⟨⟩)

theorem step_change (h : s.step p a = some s') : Change p s a s' :=
  (step_effects h).change

theorem step_tables (h : s.step p a = some s') : Tables p s a s' :=
  (step_effects h).tables

theorem step_queues (hframed : ∀ x ∈ s.convs, x.Framed) (hheld : Held p s)
    (h : s.step p a = some s') : Queues s s' :=
  (step_effects h).queues hframed hheld

theorem step_flags (h : s.step p a = some s') (ha : a.isControl = false) : Ends s s' :=
  (step_effects h).ends ha

/-- Every frame that entered a queue has passed the checks of `enqueue`. -/
theorem admits_of_mem_accepted (h : Reach (step p) ok {} s) :
    ∀ f ∈ s.accepted, admits p f = true := by
  refine h.invariant (by simp) ?_
  intro s a s' _ hs _ hstep f hf
  have happend : ∀ {frames : List ConnectRequest}, s'.accepted = s.accepted ++ frames →
      (∀ f ∈ frames, admits p f = true) → admits p f = true := by
    intro frames ha hframes
    rw [ha, List.mem_append] at hf
    exact hf.elim (hs f) (hframes f)
  cases step_change hstep with
  | same _ ha | waited _ ha | looked _ ha | applied _ _ _ _ _ _ ha | reserved _ _ ha =>
    exact hs f (ha ▸ hf)
  | tunnel hadm hi ha => exact happend ha fun f hf ↦ List.mem_singleton.mp hf ▸ hadm
  | rejected hrej hadm hi ha => exact happend ha hadm
  | moved hx hstep hi ha => exact happend ha hstep.admits

/-! ## One conversation -/

/-- **Where a conversation comes from**: it was there and was not touched, it was moved by the
receive loop or by one of its goroutines, or it is new. -/
inductive Origin (p : Params) (s s' : Session) (k : Ref) (x' : Conv) : Action → Prop
  | kept {a : Action} (hx : s.convs[k]? = some x')
      (hr : s'.receiver = s.receiver ∨ s'.receiver.ref ≠ some k ∧ (s.receiver.ref ≠ some k ∨
        (∃ frame, s.receiver = .rejected frame k) ∨ s.receiver = .awaiting k)) :
      Origin p s s' k x' a
  | applied {frame now x m} (hidle : s.receiver = .idle) (hadm : admitsInbound p frame = true)
      (hlookup : s.requests.lookup (OpaqueID.copy frame.header.requestId) = some k)
      (hx : s.convs[k]? = some x) (hstep : Conv.Step p (s.envOf p x) x m x' [] none)
      (hr : Applies k frame m s'.receiver) : Origin p s s' k x' (.recv frame now)
  | advanced {a x m frames err}
      (hx : s.convs[k]? = some x) (hstep : Conv.Step p (s.envOf p x) x m x' frames err)
      (hr : Advances p s k x x' a m err s'.receiver) : Origin p s s' k x' a
  | rejected {frame code choice}
      (hrej : s.receiver = .rejecting frame code) (hk : k = s.convs.length)
      (hx : x' = rejectedConv p frame code) (hr : s'.receiver = .rejected frame k) :
      Origin p s s' k x' (.enqueueReject choice)
  | reserved {frame route} (hres : s.receiver = .reserving frame route) (hk : k = s.convs.length)
      (hx : x' = reservedConv frame route) (hr : s'.receiver = .reserved k) :
      Origin p s s' k x' .reserve

theorem Advances.ref {x x' receiver} (h : Advances p s k x x' a m err receiver) {k'} (hk : k ≠ k') :
    receiver = s.receiver ∨ receiver.ref ≠ some k' ∧ s.receiver.ref ≠ some k' := by
  have hne : ∀ {r r' : Receiver}, (r.ref = some k ∨ r.ref = none) →
      (r'.ref = some k ∨ r'.ref = none) → r.ref ≠ some k' ∧ r'.ref ≠ some k' := by
    intro r r' hr hr'
    refine ⟨?_, ?_⟩
    · rcases hr with hr | hr <;> rw [hr] <;> simp [hk]
    · rcases hr' with hr' | hr' <;> rw [hr'] <;> simp [hk]
  cases h with
  | worker | session | release | abort => exact .inl rfl
  | numberOpen hr | openRefused hr | canceled hr => rw [hr]; exact .inr (hne (.inl rfl) (.inl rfl))
  | openGranted hr | data hr | dataFailed hr | halfClose hr | halfCloseFailed hr =>
    rw [hr]; exact .inr (hne (.inr rfl) (.inl rfl))
  | openAborted hr | completed hr =>
    rw [hr]
    refine .inr (hne ?_ (.inl rfl))
    split
    · exact .inr rfl
    · exact .inl rfl
  | late hr => rw [hr]; exact .inr (hne (.inr rfl) (.inr rfl))

/-- **A conversation comes from nowhere else.** -/
theorem step_origin (h : s.step p a = some s') {x'} (hx' : s'.convs[k]? = some x') :
    Origin p s s' k x' a := by
  -- a conversation that was there is not the new one
  have hne (hx : s.convs[k]? = some x') : s.convs.length ≠ k :=
    ((List.getElem?_eq_some_iff.mp hx).1).ne'
  cases step_change h with
  | same hi ha hr => exact .kept (hi ▸ hx') (.inl hr)
  | tunnel hadm hi ha hr =>
    obtain hr | ⟨⟨nonce, hp⟩, hr⟩ := hr
    · exact .kept (hi ▸ hx') (.inl hr)
    · exact .kept (hi ▸ hx') (.inr ⟨by rw [hr]; simp [Receiver.ref],
        .inl (by rw [hp]; simp [Receiver.ref])⟩)
  | waited hi ha hr =>
    refine .kept (hi ▸ hx') (.inr ?_)
    generalize s'.receiver = receiver at hr
    cases hr with
    | @entered frame k₁ hr =>
      refine ⟨by simp [Receiver.ref], ?_⟩
      by_cases hk : k₁ = k
      · exact .inr (.inl ⟨frame, hk ▸ hr⟩)
      · exact .inl (by rw [hr]; simpa [Receiver.ref] using hk)
    | @awaited k₁ hr =>
      refine ⟨by simp [Receiver.ref], ?_⟩
      by_cases hk : k₁ = k
      · exact .inr (.inr (hk ▸ hr))
      · exact .inl (by rw [hr]; simpa [Receiver.ref] using hk)
    | ended hr | refused hr | full hr | unknown hr | unanswered hr =>
      exact ⟨by simp [Receiver.ref], .inl (by rw [hr]; simp [Receiver.ref])⟩
  | looked hi ha hidle hr =>
    refine .kept (hi ▸ hx') (.inr ⟨?_, .inl (by rw [hidle]; simp [Receiver.ref])⟩)
    generalize s'.receiver = receiver at hr
    cases hr <;> simp [Receiver.ref]
  | @applied frame now _ k₁ y y' m hidle hadm hlookup hy hstep hi ha hr =>
    rw [hi] at hx'
    obtain ⟨rfl, rfl⟩ | ⟨hk, hx'⟩ := Pool.of_set hx'
    · exact .applied hidle hadm hlookup hy hstep hr
    · refine .kept hx' (.inr ⟨?_, .inl (by rw [hidle]; simp [Receiver.ref])⟩)
      generalize s'.receiver = receiver at hr
      cases hr <;> simp [Receiver.ref, hk.symm]
  | rejected hrej hadm hi ha hr =>
    obtain ⟨rfl, rfl⟩ | hx := Pool.of_append (hi ▸ hx')
    · exact .rejected hrej rfl rfl hr
    · refine .kept hx (.inr ⟨?_, .inl (by rw [hrej]; simp [Receiver.ref])⟩)
      rw [hr]
      simpa [Receiver.ref] using hne hx
  | reserved hres hi ha hr =>
    obtain ⟨rfl, rfl⟩ | hx := Pool.of_append (hi ▸ hx')
    · exact .reserved hres rfl rfl hr
    · refine .kept hx (.inr ⟨?_, .inl (by rw [hres]; simp [Receiver.ref])⟩)
      rw [hr]
      simpa [Receiver.ref] using hne hx
  | @moved _ _ k₁ y y' m frames err hy hstep hi ha hr =>
    rw [hi] at hx'
    obtain ⟨rfl, rfl⟩ | ⟨hk, hx'⟩ := Pool.of_set hx'
    · exact .advanced hy hstep hr
    · exact .kept hx' ((hr.ref hk.symm).imp_right fun hne ↦ ⟨hne.1, .inl hne.2⟩)

/-! ## The frame in hand -/

/-- Conversations stay where they are, under the identifier they have. -/
theorem step_getElem? (h : s.step p a = some s') {x} (hx : s.convs[k]? = some x) :
    ∃ x', s'.convs[k]? = some x' ∧ x'.request.requestID = x.request.requestID ∧
      x'.request.route = x.request.route := by
  cases step_change h with
  | same hi | waited hi | tunnel _ hi | looked hi => exact ⟨x, hi ▸ hx, rfl, rfl⟩
  | applied _ _ _ hy hstep hi | moved hy hstep hi =>
    rw [hi]
    exact Pool.exists_set (R := fun x x' : Conv ↦ x'.request.requestID = x.request.requestID ∧
      x'.request.route = x.request.route) hx hy ⟨rfl, rfl⟩ hstep.request_eq.2
  | rejected _ _ hi | reserved _ hi => exact ⟨x, hi ▸ Pool.append hx _, rfl, rfl⟩

theorem named_step {id} (h : s.step p a = some s')
    (hs : ∃ x, s.convs[k]? = some x ∧ x.request.requestID = id) :
    ∃ x, s'.convs[k]? = some x ∧ x.request.requestID = id := by
  obtain ⟨x, hx, hid⟩ := hs
  obtain ⟨x', hx', hid', -⟩ := step_getElem? h hx
  exact ⟨x', hx', hid'.trans hid⟩

theorem Names.step {frame} (hs : Names p s k frame)
    (h : s.step p a = some s') : Names p s' k frame :=
  ⟨hs.1, named_step h hs.2⟩

/-- An entry of a table points to the conversation of its key. -/
structure Tabled (s : Session) : Prop where
  requests : ∀ {key : OpaqueID} {k : Ref}, s.requests.lookup key = some k →
    ∃ x, s.convs[k]? = some x ∧ x.request.requestID = key.toList
  terminal : ∀ {key : OpaqueID} {t : TerminalRequest}, s.terminal.lookup key = some t →
    ∃ x, s.convs[t.ref]? = some x ∧ x.request.requestID = key.toList

theorem Tabled.init : Tabled {} where
  requests h := by simp at h
  terminal h := by simp at h

/-- The frame in hand is known to be what it is as long as it stays there. -/
theorem Held.of_eq (hs : Held p s) (h : s.step p a = some s') (hr : s'.receiver = s.receiver) :
    Held p s' := by
  rw [Held] at hs ⊢
  rw [hr]
  cases hreceiver : s.receiver <;> rw [hreceiver] at hs
  case rejected => exact ⟨hs.1, hs.2.step h⟩
  case openNumbered =>
    obtain ⟨x, hx, hof⟩ := hs
    obtain ⟨x', hx', hid, hroute⟩ := step_getElem? h hx
    exact ⟨x', hx', by rw [Of, hid, hroute]; exact hof⟩
  case data | halfClose => exact ⟨hs.1.step h, hs.2⟩
  all_goals exact hs

theorem Held.init : Held p {} := trivial

theorem Held.step (hs : Held p s) (ht : s.Tabled) (h : s.step p a = some s') : Held p s' := by
  cases step_change h with
  | same hi ha hr => exact hs.of_eq h hr
  | tunnel hadm hi ha hr =>
    obtain hr | ⟨-, hr⟩ := hr
    · exact hs.of_eq h hr
    · rw [Held, hr]; trivial
  | waited hi ha hr =>
    rw [Held] at hs ⊢
    generalize s'.receiver = receiver at hr
    cases hr with
    | full hres => rw [hres] at hs; exact ⟨hs.1, by simp⟩
    | _ => trivial
  | looked hi ha hidle hr =>
    rw [Held]
    generalize s'.receiver = receiver at hr
    cases hr with
    | stopped | pong | control => trivial
    | rejecting hadm hk hseq hcode => exact ⟨⟨hadm, ⟨_, hk⟩, hseq⟩, hcode⟩
    | reserving hadm hk hseq hroute hmem hclass => exact ⟨⟨hadm, ⟨_, hk⟩, hseq⟩, hclass, hmem⟩
    | late hadm hk => exact ⟨hadm, hk⟩
  | @applied frame now _ k x x' m hidle hadm hlookup hx hstep hi ha hr =>
    -- the table sent the frame to the conversation it names
    have hnames : frame.payload.ofRequest = true → Names p s' k frame := by
      intro hk
      refine Names.step ⟨hadm, x, hx, ?_⟩ h
      obtain ⟨y, hy, hid⟩ := ht.requests hlookup
      cases hx.symm.trans hy
      rw [hid, OpaqueID.toList_copy (requestId_length hadm hk)]
    rw [Held]
    generalize s'.receiver = receiver at hr
    cases hr with
    | data hk => exact ⟨hnames (by rw [hk]; rfl), _, hk⟩
    | halfClose hk => exact ⟨hnames (by rw [hk]; rfl), hk⟩
    | credit | cancel => trivial
  | @rejected frame code choice _ hrej hadm hi ha hr =>
    rw [Held, hrej] at hs
    rw [Held, hr]
    refine ⟨hs.1, hs.1.admitted, rejectedConv p frame code, ?_, rfl⟩
    rw [hi]
    exact List.getElem?_concat_length
  | reserved hres hi ha hr => rw [Held, hr]; trivial
  | @moved _ _ k x x' m frames err hx hstep hi ha hr =>
    generalize hreceiver : s'.receiver = receiver at hr
    cases hr with
    | worker | session | release | abort => exact hs.of_eq h hreceiver
    | numberOpen =>
      rw [Held, hreceiver]
      refine ⟨x', ?_, rfl, rfl⟩
      rw [hi]
      exact Pool.set_self hx _
    | openAborted | completed => rw [Held, hreceiver]; cases x.request.terminal <;> trivial
    | _ => rw [Held, hreceiver]; trivial

theorem updateTerminal_eq_some {frame} (h : updateTerminal frame t = some t') :
    frame.header.sequence = t.incomingSequence + 1 ∧ t'.ref = t.ref ∧
      t'.incomingSequence = frame.header.sequence := by
  simp only [updateTerminal] at h
  split at h
  · cases h
  · rename_i hopen
    simp only [not_or, ne_eq, not_not] at hopen
    refine ⟨hopen.2.1, ?_⟩
    repeat' split at h
    all_goals cases h
    all_goals exact ⟨rfl, rfl⟩

/-- What is in the ring after an entry was added was there before, or is that entry. -/
theorem lookup_addTerminalLocked
    (h : (s.addTerminalLocked p key t).terminal.lookup key' = some t') :
    s.terminal.lookup key' = some t' ∨ key' = key ∧ t' = t := by
  simp only [addTerminalLocked] at h
  split at h
  · exact (Pool.of_insert h).symm.imp_left And.right
  · split at h
    · exact (Pool.of_insert h).symm.imp_left And.right
    · split at h
      · exact (Pool.of_insert h).symm.imp_left fun hold ↦ Pool.of_erase hold.2
      · exact .inl h

theorem Tabled.step (hs : s.Tabled) (hheld : Held p s) (h : s.step p a = some s') :
    s'.Tabled := by
  -- what was in a table still points to its conversation
  have hreq {key : OpaqueID} {k : Ref} (hk : s.requests.lookup key = some k) :=
    named_step h (hs.requests hk)
  have hterm {key : OpaqueID} {t : TerminalRequest} (ht : s.terminal.lookup key = some t) :=
    named_step h (hs.terminal ht)
  cases step_tables h with
  | same hr ht => exact ⟨fun hk ↦ hreq (hr ▸ hk), fun hk ↦ hterm (ht ▸ hk)⟩
  | @reserved frame route _ hres hcan hr ht =>
    refine ⟨fun {key k} hk ↦ ?_, fun hk ↦ hterm (ht ▸ hk)⟩
    rw [hr] at hk
    obtain ⟨rfl, rfl⟩ | ⟨-, hk⟩ := Pool.of_insert hk
    · rw [Held, hres] at hheld
      refine ⟨reservedConv frame route, ?_, ?_⟩
      · simp only [Session.step, hres, Option.some_inj, Session.reserve, hcan, if_true] at h
        rw [← h]
        exact List.getElem?_concat_length
      · exact (OpaqueID.toList_copy hheld.1.requestId_length).symm
    · exact hreq hk
  | @released _ k x hx hpc hlookup hr ht =>
    refine ⟨fun hk ↦ hreq (Pool.of_erase (hr ▸ hk)), fun {key t} hk ↦ ?_⟩
    obtain hk | ⟨rfl, rfl⟩ := lookup_addTerminalLocked (ht ▸ hk)
    · exact hterm hk
    · exact hreq hlookup
  | @rejected frame k _ hrej hr ht =>
    refine ⟨fun hk ↦ hreq (hr ▸ hk), fun {key t} hk ↦ ?_⟩
    obtain hk | ⟨rfl, rfl⟩ := lookup_addTerminalLocked (ht ▸ hk)
    · exact hterm hk
    · rw [Held, hrej] at hheld
      obtain ⟨-, x, hx, hid⟩ := hheld.2.step h
      exact ⟨x, hx, by rw [hid, OpaqueID.toList_copy hheld.1.requestId_length]⟩
  | @late frame t t' _ hlate ht ht' hr hs' =>
    refine ⟨fun hk ↦ hreq (hr ▸ hk), fun {key t₁} hk ↦ ?_⟩
    rw [hs'] at hk
    obtain ⟨rfl, rfl⟩ | ⟨-, hk⟩ := Pool.of_insert hk
    · rw [(updateTerminal_eq_some ht').2.1]
      exact hterm ht
    · exact hterm hk

/-- The two invariants hold in every run. -/
theorem tabled (h : Reach (step p) ok {} s) :
    s.Tabled ∧ Held p s :=
  h.invariant ⟨.init, .init⟩
    fun _ _ _ _ hs _ hstep ↦ ⟨hs.1.step hs.2 hstep, hs.2.step hs.1 hstep⟩

/-- New conversations have the property. -/
structure Begins (p : Params) (P : Conv → Prop) : Prop where
  rejected : ∀ frame code, Opens p frame → code ≠ .ok → P (rejectedConv p frame code)
  reserved : ∀ frame route, Opens p frame → frame.header.trafficClass = route.trafficClass →
    P (reservedConv frame route)

/-- A property of single conversations that new ones have and moves keep holds in every run.  `S` is
what is known of the moves the session makes. -/
theorem forall_convs_of {S : Conv → Move → Prop} (hnew : Begins p P)
    (happ : ∀ {s k frame x m receiver}, Reach (step p) ok {} s → s.convs[k]? = some x →
      Applies k frame m receiver → S x m)
    (hadv : ∀ {s a k x x' m err receiver}, Reach (step p) ok {} s → s.convs[k]? = some x →
      Advances p s k x x' a m err receiver → S x m)
    (hstep : ∀ {env x m x' frames err}, Conv.Step p env x m x' frames err → S x m → P x → P x')
    (h : Reach (step p) ok {} s) : ∀ x ∈ s.convs, P x := by
  refine h.invariant (by simp) ?_
  intro s a s' hreach hs _ h x' hx'
  have hheld := (tabled hreach).2
  obtain ⟨k, hk⟩ := List.mem_iff_getElem?.mp hx'
  cases step_origin h hk with
  | kept hx => exact hs x' (List.mem_of_getElem? hx)
  | applied hidle hadm hlookup hx hm hr =>
    exact hstep hm (happ hreach hx hr) (hs _ (List.mem_of_getElem? hx))
  | advanced hx hm hr => exact hstep hm (hadv hreach hx hr) (hs _ (List.mem_of_getElem? hx))
  | rejected hreject hlen hx =>
    rw [Held, hreject] at hheld
    exact hx ▸ hnew.rejected _ _ hheld.1 hheld.2
  | reserved hreserve hlen hx =>
    rw [Held, hreserve] at hheld
    exact hx ▸ hnew.reserved _ _ hheld.1 hheld.2.1

/-- The invariant rule for properties that all moves keep. -/
theorem forall_convs (hnew : Begins p P)
    (hstep : ∀ {env x m x' frames err}, Conv.Step p env x m x' frames err → P x → P x')
    (h : Reach (step p) ok {} s) : ∀ x ∈ s.convs, P x :=
  forall_convs_of (S := fun _ _ ↦ True) hnew (fun _ _ _ ↦ trivial) (fun _ _ _ ↦ trivial)
    (fun h _ ↦ hstep h) h

end Session

end MarketMesh.GatewayOut
