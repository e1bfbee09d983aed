import MarketMesh.GatewayOut.Drain

/-!
# Every Open has one answer

A request leaves the table either through `completeRequest`, which queues its HalfClose and Result
first, or through `abortRequest`, which queues nothing.  As long as the session is not canceled,
`abortRequest` runs in two places: for an Open whose first Credit was refused, and for all active
requests when the deadline of a drain has passed.  An Open that is refused is answered by
`rejectOpen`, whose two frames may be refused by the queue as well.

* `Session.answersAdmitted` says that none of this happens.
* `Session.Replies` says that then whatever is over was answered.
* `Session.Traced` says that a received Open is in the hands of the receive loop or has a
  conversation.
-/

set_option autoImplicit false

namespace MarketMesh.GatewayOut

open Protocol

/-- The frames end with one HalfClose and one Result, and have no other. -/
def AnsweredOnce (frames : List ConnectRequest) : Prop :=
  ∃ body close last result, frames = body ++ [close, last] ∧ Body body ∧
    close.payload = .halfClose ∧ last.payload = .result result

/-- The Open is still being handled: it will be refused or reserved, or it broke the protocol. -/
def Receiver.Holds (r : Receiver) (frame : ConnectResponse) : Prop :=
  (∃ code, r = .rejecting frame code) ∨ (∃ route, r = .reserving frame route) ∨
    r = .stopped (some frame) .protocol

namespace Conv

variable {p : Params} {env : Env} {x x' : Conv} {m : Move} {fs : List ConnectRequest}
  {err : Option Err}

theorem not_body_lastFrames (frames : List ConnectRequest) (r : RequestState) (code : ResultCode) :
    ¬ Body (frames ++ lastFrames p r code) := by
  intro h
  obtain ⟨n, h⟩ | ⟨b, h⟩ := h (r.advance.frame p .halfClose)
    (List.mem_append_right _ List.mem_cons_self)
  · cases h
  · cases h

/-- How a request comes to be over. -/
theorem Step.over_cases (h : Step p env x m x' fs err) (hover : x'.completer.isOver = true) :
    x.completer.isOver = true ∨ ¬ Body x'.queued ∨
      m = .claimAbort ∧ x.request.terminal = false ∨ m = .cancelSession := by
  cases h with
  | claimed =>
    obtain h | h := firstPc_eq _ _
    all_goals
      rw [h] at hover
      cases hover
  | aborted ht => exact .inr (.inr (.inl ⟨rfl, ht⟩))
  | goes hs =>
    cases hs with
    | watcherDone | watcherExpired => exact .inl hover
    | session => exact .inr (.inr (.inr rfl))
    | released h => exact .inl (by rw [h]; rfl)
    | _ => cases hover
  | finished => exact .inr (.inl (not_body_lastFrames x.queued x.request _))
  | cleanup h => exact .inl (by rw [h]; rfl)
  | took | woken | numberData | dataQueued | dataUnqueued | unfinished => cases hover
  | _ => exact .inl hover

theorem Step.not_body (h : Step p env x m x' fs err) (hx : ¬ Body x.queued) : ¬ Body x'.queued := by
  rw [h.queued_eq]
  exact fun hbody ↦ hx fun f hf ↦ hbody f (List.mem_append_left _ hf)

/-- What is over was answered. -/
def Replied (x : Conv) : Prop := x.completer.isOver = true → ¬ Body x.queued

theorem Replied.step (hx : x.Replied) (h : Step p env x m x' fs err)
    (habort : m = .claimAbort → x.request.terminal = true) (hcancel : m ≠ .cancelSession) :
    x'.Replied := by
  intro hover
  obtain hold | hbody | ⟨hm, ht⟩ | hm := h.over_cases hover
  · exact h.not_body (hx hold)
  · exact hbody
  · rw [habort hm] at ht
    cases ht
  · exact absurd hm hcancel

end Conv

namespace Session

variable {p : Params} {s s' : Session} {a : Action} {k : Ref} {ok : Session → Action → Prop}
  {frame : ConnectResponse} {hand : Option ConnectResponse} {e : Err} {next : Ref → Receiver}

/-! ## Cancellation -/

/-- **Who cancels a session**: `run`, when one of the loops has ended, the caller of `drain`, and
the end of a response that was refused. -/
theorem isDone_cases (h : s.step p a = some s') : s'.isDone = s.isDone ∨
    s'.isDone = true ∧ (a = .runCancel ∨ (∃ d, a = .drainCancel d) ∨ ∃ k,
      a = .cancelSession k) := by
  by_cases ha : a.isControl = false
  · obtain h | h := step_flags h ha
    · exact .inl (congrArg Flags.isDone h)
    · exact .inl (congrArg Flags.isDone h)
  cases a with simp only [step] at h
  | recv =>
    split at h
    · obtain (h | h) | rfl := (handleFrame_change ‹_› h).2.flags
      · exact .inl (congrArg Flags.isDone h)
      · exact .inl (congrArg Flags.isDone h)
      · rw [handlePeerDrain]
        split <;> exact .inl rfl
    · cases h
  | cancelSession k =>
    obtain ⟨⟨s₁, err⟩, hact, rfl⟩ := Option.map_eq_some_iff.mp h
    exact .inr ⟨rfl, .inr (.inr ⟨k, rfl⟩)⟩
  | drainEnqueue d deadline choice =>
    repeat' split at h
    all_goals cases h
    all_goals
      rename_i hoffer
      exact .inl (congrArg Flags.isDone (offer_flags hoffer))
  | runCancel =>
    split at h <;> cases h
    exact .inr ⟨rfl, .inl rfl⟩
  | drainCancel d =>
    split at h <;> cases h
    exact .inr ⟨rfl, .inr (.inl ⟨d, rfl⟩)⟩
  | send | drainStart | drainClaim | drainDelivered | drainFail | drainPoll | drainWake
  | drainExpire | drainAborted =>
    repeat' split at h
    all_goals cases h
    all_goals exact .inl rfl
  | _ => exact absurd rfl ha

/-- A canceled session stays canceled. -/
theorem step_isDone (h : s.step p a = some s') (hd : s'.isDone = false) : s.isDone = false := by
  obtain heq | ⟨hd', -⟩ := isDone_cases h
  · exact heq ▸ hd
  · rw [hd'] at hd
    cases hd

theorem isDone_of_cancelSession (h : s.step p (.cancelSession k) = some s') : s'.isDone = true := by
  simp only [step] at h
  obtain ⟨⟨s₁, err⟩, hact, rfl⟩ := Option.map_eq_some_iff.mp h
  rfl

/-! ## Whatever is over was answered -/

/-- While the session is not canceled, the queue is sure to take the first Credit of a request and
the refusal of an Open, and `abortAll` finds nothing to abort. -/
def answersAdmitted (p : Params) (s : Session) : Action → Bool
  | .enqueueOpen _ =>
    match s.receiver with
    | .openNumbered k frame => s.isDone || admits p frame &&
      (s.convs[k]?).all fun x ↦ s.room p (queue x.request.route.trafficClass)
    | _ => true
  | .enqueueReject _ =>
    match s.receiver with
    | .rejecting frame code => s.isDone || s.room p (queue frame.header.trafficClass) &&
      (rejection p frame.header code).all (admits p)
    | _ => true
  | .abort k => s.isDone || (s.convs[k]?).all fun x ↦ x.request.terminal
  | _ => true

/-- A queue with room takes what passes the checks, while the contexts are alive. -/
theorem enqueue_of_room {choice ctxErr frames err} (hadm : frames.all (admits p) = true)
    (hctx : ctxErr = none) (h : enqueue p choice ctxErr false true frames = some err) :
    err = none := by
  subst hctx
  cases choice <;> simp_all [enqueue]

/-- The refusal of an Open that finds room does not stop the receive loop. -/
theorem not_stopped_of_room {choice code}
    (hr : s.receiver = .rejecting frame code) (hd : s.isDone = false)
    (hroom : s.room p (queue frame.header.trafficClass) = true)
    (hadm : (rejection p frame.header code).all (admits p) = true)
    (h : s.step p (.enqueueReject choice) = some s') : s'.receiver.isStopped = false := by
  simp only [step, hr, enqueueReject, offer, hd, hroom] at h
  split at h
  · cases h
  · cases h
    rfl
  · rename_i hoffer
    split at hoffer
    · cases hoffer
    · cases hoffer
    · rename_i hq
      cases enqueue_of_room hadm rfl hq

/-- Whatever is over was answered, and no first Credit was refused, while the session is not
canceled. -/
structure Replies (s : Session) : Prop where
  replied : s.isDone = false → ∀ x ∈ s.convs, x.Replied
  granted : s.isDone = false → ∀ k, s.receiver ≠ .openRefused k

theorem Replies.init : Replies {} :=
  ⟨fun _ _ hx ↦ absurd hx List.not_mem_nil, nofun⟩

theorem Replies.granted_step (hs : s.Replies) (hok : s.answersAdmitted p a = true)
    (h : s.step p a = some s') (hd : s'.isDone = false) (k : Ref) :
    s'.receiver ≠ .openRefused k := by
  have hd₀ := step_isDone h hd
  have hs₀ := hs.granted hd₀
  intro hr'
  cases step_change h with
  | same hi ha hr => exact hs₀ k (hr ▸ hr')
  | tunnel hadm hi ha hr =>
    obtain hr | ⟨-, hr⟩ := hr
    · exact hs₀ k (hr ▸ hr')
    · rw [hr] at hr'
      cases hr'
  | waited _ _ hr | looked _ _ _ hr | applied _ _ _ _ _ _ _ hr =>
    rw [hr'] at hr
    cases hr
  | rejected _ _ _ _ hr | reserved _ _ _ hr =>
    rw [hr] at hr'
    cases hr'
  | @moved _ _ k' x x' m fs err hx hstep hi ha hr =>
    generalize s'.receiver = receiver at hr hr'
    cases hr with
    | openRefused hopen =>
      -- the queue was sure to take the Credit
      cases hstep with
      | violation hm => cases hm
      | openRefused hq =>
        simp only [answersAdmitted, hopen, hd₀, Bool.false_or, Bool.and_eq_true, hx,
          Option.all_some] at hok
        simp only [envOf, hd₀, hok.2] at hq
        cases enqueue_of_room (by simpa using hok.1) rfl hq
    | worker | session | release | abort => exact hs₀ k hr'
    | openAborted | completed =>
      split at hr' <;> cases hr'
    | _ => cases hr'

theorem Replies.replied_step (hs : s.Replies) (hok : s.answersAdmitted p a = true)
    (h : s.step p a = some s') (hd : s'.isDone = false) : ∀ x ∈ s'.convs, x.Replied := by
  have hd₀ := step_isDone h hd
  intro x' hx'
  obtain ⟨k, hk⟩ := List.getElem?_of_mem hx'
  cases step_origin h hk with
  | kept hx => exact hs.replied hd₀ x' (List.mem_of_getElem? hx)
  | applied hidle hadm hlookup hx hstep hr =>
    refine (hs.replied hd₀ _ (List.mem_of_getElem? hx)).step hstep (fun hm ↦ ?_) (fun hm ↦ ?_)
    all_goals
      subst hm
      generalize s'.receiver = receiver at hr
      cases hr
  | @advanced _ x m fs err hx hstep hr =>
    refine (hs.replied hd₀ _ (List.mem_of_getElem? hx)).step hstep (fun hm ↦ ?_) (fun hm ↦ ?_)
    · subst hm
      generalize s'.receiver = receiver at hr
      cases hr with
      | worker hm => simp [Move.isWorker] at hm
      | abort => simpa [answersAdmitted, hd₀, hx] using hok
      | openAborted hopen => exact absurd hopen (hs.granted hd₀ k)
    · subst hm
      generalize s'.receiver = receiver at hr
      cases hr with
      | worker hm => simp [Move.isWorker] at hm
      | session =>
        rw [isDone_of_cancelSession h] at hd
        cases hd
  | rejected hrej hlen hx =>
    intro _ hbody
    subst hx
    obtain ⟨n, ⟨⟩⟩ | ⟨b, h⟩ := hbody _ List.mem_cons_self
    cases h
  | reserved hres hlen hx =>
    intro hover
    subst hx
    cases hover

theorem replies (h : Machine.Reach (step p) ok {} s)
    (hok : ∀ s a, ok s a → s.answersAdmitted p a = true) : s.Replies :=
  h.invariant Replies.init fun _ _ _ _ hs hok' hstep ↦
    ⟨hs.replied_step (hok _ _ hok') hstep, hs.granted_step (hok _ _ hok') hstep⟩

/-! ## Every Open is in someone's hands -/

theorem err_of_requestForFrame
    (h : s.act p k (.requestForFrame frame) = some (s', some e)) : e = .protocol := by
  obtain ⟨x, x', fs, hx, hstep, -⟩ := act_change h
  cases hstep
  rfl

theorem handleOpen_stopped {request now}
    (hr : (s.handleOpen p frame request now).receiver = .stopped hand e) : e = .protocol := by
  simp only [handleOpen] at hr
  repeat' split at hr
  all_goals first | (cases hr; rfl) | cases hr

theorem handleBody_stopped (hnext : ∀ k, next k ≠ .stopped hand e)
    (h : s.handleBody p frame next = some s') (hr : s'.receiver = .stopped hand e) :
    e = .protocol := by
  rw [handleBody] at h
  repeat' split at h
  all_goals cases h
  · cases hr
    rfl
  · exact absurd hr (hnext _)
  · rename_i hact
    cases hr
    exact err_of_requestForFrame hact

theorem handleUpdate_stopped {move} (hnext : ∀ k, next k ≠ .stopped hand e)
    (h : s.handleUpdate p frame move next = some s') : s'.receiver ≠ .stopped hand e := by
  intro hr
  rw [handleUpdate] at h
  repeat' split at h
  all_goals cases h
  · cases hr
  · exact hnext _ hr
  · cases hr

/-- The receive loop only stops at a frame it has just received because of a protocol violation. -/
theorem stopped_of_recv {now}
    (h : s.step p (.recv frame now) = some s') (hr : s'.receiver = .stopped hand e) :
    e = .protocol := by
  simp only [step] at h
  split at h
  swap
  · cases h
  rename_i hidle
  rw [handleFrame] at h
  repeat' split at h
  all_goals try exact handleBody_stopped (fun _ h ↦ by cases h) h hr
  all_goals try exact absurd hr (handleUpdate_stopped (fun _ h ↦ by cases h) h)
  all_goals cases h
  · exact handleOpen_stopped hr
  · cases hr
  · rw [show _ = Receiver.idle from hidle] at hr
    cases hr
  · rw [handlePeerDrain] at hr
    split at hr
    all_goals
      rw [show _ = Receiver.idle from hidle] at hr
      cases hr
  all_goals
    cases hr
    rfl

/-- The frame of a received Open is in the hands of the receive loop, or has a conversation. -/
def Traces (s : Session) (frame : ConnectResponse) : Prop :=
  s.receiver.Holds frame ∨ ∃ x ∈ s.convs, frame ∈ x.handled

/-- Every received Open can be found. -/
def Traced (s : Session) : Prop :=
  s.isDone = false → ∀ frame ∈ s.received, ∀ request, frame.payload = .opened request →
    s.Traces frame

/-- A conversation stays at its place, and never forgets what it handled. -/
theorem handled_of_step {x} (h : s.step p a = some s') (hx : s.convs[k]? = some x) :
    ∃ x', s'.convs[k]? = some x' ∧ x.handled <+: x'.handled := by
  cases step_change h with
  | same hi | waited hi | tunnel _ hi | looked hi => exact ⟨x, hi ▸ hx, List.prefix_rfl⟩
  | applied _ _ _ hy hstep hi | moved hy hstep hi =>
    rw [hi]
    exact Pool.exists_set (R := fun x x' : Conv ↦ x.handled <+: x'.handled) hx hy List.prefix_rfl
      hstep.prefix_of_handled
  | rejected _ _ hi | reserved _ hi => exact ⟨x, hi ▸ Pool.append hx _, List.prefix_rfl⟩

/-- An Open in the hands of the receive loop stays there, or gets its conversation. -/
theorem Traces.step (hs : s.Traces frame)
    (hok : s.answersAdmitted p a = true) (h : s.step p a = some s') (hd : s'.isDone = false) :
    s'.Traces frame := by
  have hd₀ := step_isDone h hd
  obtain hholds | ⟨x, hx, hf⟩ := hs
  swap
  · obtain ⟨k, hk⟩ := List.getElem?_of_mem hx
    obtain ⟨x', hx', hpre⟩ := handled_of_step h hk
    exact .inr ⟨x', List.mem_of_getElem? hx', hpre.subset hf⟩
  have hkeep : s'.receiver = s.receiver → s'.Traces frame := fun hr ↦ .inl (hr ▸ hholds)
  cases step_change h with
  | same hi ha hr => exact hkeep hr
  | tunnel hadm hi ha hr =>
    obtain hr | ⟨⟨nonce, hpong⟩, -⟩ := hr
    · exact hkeep hr
    · simp [Receiver.Holds, hpong] at hholds
  | waited hi ha hr hv =>
    generalize hr' : s'.receiver = receiver at hr
    cases hr with
    | @refused frame' code choice e hrej =>
      -- the queue was sure to take the refusal
      simp only [answersAdmitted, hrej, hd₀, Bool.false_or, Bool.and_eq_true] at hok
      have hgoes := not_stopped_of_room hrej hd₀ hok.1 hok.2 h
      rw [hr'] at hgoes
      cases hgoes
    | full hres =>
      simp only [Receiver.Holds, hres, Receiver.reserving.injEq, reduceCtorEq, exists_false,
        false_or, or_false, exists_and_left, exists_eq', and_true] at hholds
      exact .inl (.inl ⟨_, by rw [hr', hholds]⟩)
    | ended hidle | entered hidle | awaited hidle | unknown hidle | unanswered hidle =>
      simp [Receiver.Holds, hidle] at hholds
  | looked _ _ hidle | applied hidle => simp [Receiver.Holds, hidle] at hholds
  | rejected hopen hadm hi | reserved hopen hi =>
    refine .inr ⟨_, hi ▸ List.mem_append_right _ (List.mem_singleton_self _), ?_⟩
    simp [Receiver.Holds, hopen] at hholds
    subst hholds
    exact List.mem_singleton_self _
  | moved hx hstep hi ha hr hv =>
    generalize hr' : s'.receiver = receiver at hr
    cases hr with
    | worker | session | release | abort => exact hkeep hr'
    | late hlate => simp [Receiver.Holds, hlate] at hholds
    | _ =>
      rename_i hopen
      simp [Receiver.Holds, hopen] at hholds

theorem Traced.step (hs : s.Traced) (hok : s.answersAdmitted p a = true)
    (h : s.step p a = some s') : s'.Traced := by
  intro hd frame hf request hk
  have hold : frame ∈ s.received → s'.Traces frame := fun hf ↦
    (hs (step_isDone h hd) frame hf request hk).step hok h hd
  obtain hv | ⟨frame', now, rfl, hv⟩ := step_received h
  · exact hold (hv ▸ hf)
  rw [hv, List.mem_append, List.mem_singleton] at hf
  obtain hf | rfl := hf
  · exact hold hf
  cases step_change h with
  | looked hi ha hidle hr =>
    generalize hr' : s'.receiver = receiver at hr
    cases hr with
    | stopped =>
      obtain rfl := stopped_of_recv h hr'
      exact .inl (.inr (.inr hr'))
    | rejecting => exact .inl (.inl ⟨_, hr'⟩)
    | reserving => exact .inl (.inr (.inl ⟨_, hr'⟩))
    | late _ hk' | pong _ hk' | control _ hk' => simp [hk] at hk'
  | applied hidle hadm hlookup hx hstep hi ha hr =>
    generalize s'.receiver = receiver at hr
    cases hr with
    | data hk' | halfClose hk' | credit hk' | cancel hk' => simp [hk] at hk'
  | _ => simp_all

theorem traced (h : Machine.Reach (step p) ok {} s)
    (hok : ∀ s a, ok s a → s.answersAdmitted p a = true) : s.Traced :=
  h.invariant (P := Traced) (fun _ _ hf ↦ absurd hf List.not_mem_nil)
    fun _ _ _ _ hs hok' hstep ↦ hs.step (hok _ _ hok') hstep

/-- A conversation that left the table was answered, and one that is in the table at most once. -/
theorem answered_or_active (h : Machine.Reach (step p) ok {} s)
    (hok : ∀ s a, ok s a → s.answersAdmitted p a = true) (hd : s.isDone = false) {x}
    (hx : s.convs[k]? = some x) :
    s.requests.lookup x.request.key = some k ∧ Body x.queued ∨ AnsweredOnce x.queued := by
  obtain hbody | hended := (conv_sound h x (List.mem_of_getElem? hx)).body_or_ended
  · refine .inl ⟨?_, hbody⟩
    obtain hdone | hlookup := active h k x hx
    · exact absurd hbody ((replies h hok).replied hd x (List.mem_of_getElem? hx)
        (by rw [hdone]; rfl))
    · exact hlookup
  · exact .inr hended

end Session

end MarketMesh.GatewayOut
