import MarketMesh.GatewayOut.Trace

/-!
# What a conversation answers

A conversation queues Credits while it takes the request, then the Data of the response, and then
the two frames that end it.  `Conv.Sound` is the invariant behind this: it ties the frames queued so
far, and the bytes still to be queued, to the one run of the route.

The invariant is kept by the moves that `suit` a conversation: the receive loop makes a move only
with a frame of the kind the move is for, and offers the first Credit of a request before anyone
else has queued anything for it (`Session.Opening`).
-/

set_option autoImplicit false

namespace MarketMesh.GatewayOut

open Protocol

/-- The request is over but for the bookkeeping. -/
def Completer.isOver : Completer → Bool
  | .cleanup | .release | .done => true
  | _ => false

/-- The moves of the goroutines other than the receive loop. -/
def Move.isOwn : Move → Bool
  | .expire _ | .cancelSession | .released | .claimAbort => true
  | m => m.isWorker

/-- The frame of a move is of the kind the move is for. -/
def Move.Fits : Move → Prop
  | .data f _ => ∃ b, f.payload = .data b
  | .halfClose f => f.payload = .halfClose
  | .credit f => ∃ n, f.payload = .credit n
  | .cancel f => ∃ reason, f.payload = .cancel reason
  | .late f => (∃ n, f.payload = .credit n) ∨ ∃ reason, f.payload = .cancel reason
  | _ => True

theorem Move.fits_of_isOwn {m : Move} (h : m.isOwn = true) : m.Fits := by
  cases m <;> trivial

namespace Conv

variable {p : Params} {env : Env} {x x' : Conv} {m : Move} {fs : List ConnectRequest}
  {err : Option Err}

/-! ## Before the first Credit -/

/-- Nothing was queued yet, and nobody but `abortRequest` has touched the request. -/
structure Silent (x : Conv) : Prop where
  queued : x.queued = []
  executor : x.executor = .none
  watcher : x.watcher = .none
  completer : x.completer = .none ∨ x.completer.isOver = true

/-- The other goroutines leave a silent conversation silent. -/
theorem Silent.step (hx : x.Silent) (h : Step p env x m x' fs err) (hm : m.isOwn = true) :
    x'.Silent ∧ x'.request.outgoingSequence = x.request.outgoingSequence := by
  obtain ⟨hq, he, hw, hc⟩ := hx
  -- the completer is at none of the points a response is sent from
  have hpc : ∀ c : Completer, c ≠ .none → c.isOver = false → x.completer ≠ c := by
    rintro c hnone hover rfl
    rcases hc with hc | hc
    · exact hnone hc
    · rw [hover] at hc; exact Bool.noConfusion hc
  cases h with
  | violation hchecks =>
    cases m <;> first | exact Bool.noConfusion hchecks | exact Bool.noConfusion hm
  | claimed hs | unclaimed hs =>
    cases hs with
    | cancel => exact Bool.noConfusion hm
    | executor h => rw [he] at h; cases h
    | watcher h => rw [hw] at h; cases h
  | aborted | cleanup => exact ⟨⟨hq, he, hw, .inr rfl⟩, rfl⟩
  | unaborted | contextDone => exact ⟨⟨hq, he, hw, hc⟩, rfl⟩
  | executed h => rw [he] at h; cases h
  | goes hs =>
    cases hs with
    | watcherDone h | watcherExpired h => rw [hw] at h; cases h
    | sent h | awaitCredit h | expired h | failed h | session h =>
      exact absurd h (hpc _ (by simp) rfl)
    | released => exact ⟨⟨hq, he, hw, .inr rfl⟩, rfl⟩
  | took h | woken h | numberData h | dataQueued h | dataUnqueued h | finished h | unfinished h =>
    exact absurd h (hpc _ (by simp) rfl)
  | _ => exact Bool.noConfusion hm

/-- What is known of a move and of the conversation it is made on. -/
structure Suits (p : Params) (x : Conv) (m : Move) : Prop where
  fits : m.Fits
  opening : ∀ f choice, m = .enqueueOpen f choice →
    x.Silent ∧ x.request.outgoingSequence = 1 ∧ f = Session.openCredit p x.request

theorem Suits.of_isOwn (h : m.isOwn = true) : Suits p x m :=
  ⟨Move.fits_of_isOwn h, fun f choice hm ↦ by rw [hm] at h; exact Bool.noConfusion h⟩

end Conv

namespace Session

variable {p : Params} {s s' : Session} {a : Action} {k : Ref} {m : Move}
  {ok : Session → Action → Prop} {receiver : Receiver} {x : Conv} {err : Option Err}

/-- Until the receive loop has offered the first Credit of a request, its conversation is silent. -/
def Opening (p : Params) (s : Session) : Prop :=
  match s.receiver with
  | .reserved k =>
    ∃ x, s.convs[k]? = some x ∧ x.Silent ∧ x.request.outgoingSequence = 0
  | .openNumbered k f =>
    ∃ x, s.convs[k]? = some x ∧ x.Silent ∧ x.request.outgoingSequence = 1 ∧
      f = openCredit p x.request
  | .openRefused k => ∃ x, s.convs[k]? = some x ∧ x.Silent
  | _ => True

theorem Opening.init : Opening p {} := trivial

theorem openCredit_congr {r r'} (hid : r'.requestID = r.requestID)
    (hroute : r'.route = r.route) (hseq : r'.outgoingSequence = r.outgoingSequence) :
    openCredit p r' = openCredit p r := by
  simp only [openCredit, RequestState.frame, RequestState.initialGrant, RequestState.window, hid,
    hroute, hseq]

/-- A move of another goroutine. -/
theorem Opening.of_own {env x' fs}
    (hs : s.Opening p) (hx : s.convs[k]? = some x) (hstep : Conv.Step p env x m x' fs err)
    (hm : m.isOwn = true) (hi : s'.convs = s.convs.set k x') (hr : s'.receiver = s.receiver) :
    s'.Opening p := by
  -- the conversation that is being opened, if it is the one that moved
  have hkeep : ∀ {k' : Ref} {y : Conv}, s.convs[k']? = some y → y.Silent →
      ∃ y', s'.convs[k']? = some y' ∧ y'.Silent ∧
        y'.request.outgoingSequence = y.request.outgoingSequence ∧
        openCredit p y'.request = openCredit p y.request := by
    intro k' y hy hsilent
    rw [hi]
    by_cases hkk : k' = k
    · subst hkk
      cases hx.symm.trans hy
      obtain ⟨hsilent', hseq⟩ := hsilent.step hstep hm
      refine ⟨x', Pool.set_self hx x', hsilent', hseq, ?_⟩
      exact openCredit_congr hstep.request_eq.2.1 hstep.request_eq.2.2 hseq
    · exact ⟨y, Pool.set_of_ne hy hkk x', hsilent, rfl, rfl⟩
  rw [Opening] at hs ⊢
  rw [hr]
  cases hreceiver : s.receiver <;> rw [hreceiver] at hs
  case reserved =>
    obtain ⟨y, hy, hsilent, hseq⟩ := hs
    obtain ⟨y', hy', hsilent', hseq', -⟩ := hkeep hy hsilent
    exact ⟨y', hy', hsilent', hseq'.trans hseq⟩
  case openNumbered =>
    obtain ⟨y, hy, hsilent, hseq, hf⟩ := hs
    obtain ⟨y', hy', hsilent', hseq', hf'⟩ := hkeep hy hsilent
    exact ⟨y', hy', hsilent', hseq'.trans hseq, hf.trans hf'.symm⟩
  case openRefused =>
    obtain ⟨y, hy, hsilent⟩ := hs
    obtain ⟨y', hy', hsilent', -⟩ := hkeep hy hsilent
    exact ⟨y', hy', hsilent'⟩
  all_goals trivial

theorem Opening.of_same (hs : s.Opening p) (hi : s'.convs = s.convs)
    (hr : s'.receiver = s.receiver) : s'.Opening p := by
  rwa [Opening, hr, hi]

theorem isOwn_of_worker (h : m.isWorker = true ∨ ∃ e, m = .expire e) : m.isOwn = true := by
  rcases h with h | ⟨e, rfl⟩
  · cases m <;> first | rfl | exact h
  · rfl

theorem Opening.step (hs : s.Opening p) (h : s.step p a = some s') : s'.Opening p := by
  cases step_change h with
  | same hi ha hr => exact hs.of_same hi hr
  | tunnel hadm hi ha hr =>
    obtain hr | ⟨-, hr⟩ := hr
    · exact hs.of_same hi hr
    · rw [Opening, hr]; trivial
  | waited _ _ hr | looked _ _ _ hr | applied _ _ _ _ _ _ _ hr =>
    rw [Opening]
    generalize s'.receiver = receiver at hr
    cases hr <;> trivial
  | rejected hrej hadm hi ha hr => rw [Opening, hr]; trivial
  | reserved hres hi ha hr =>
    rw [Opening, hr]
    refine ⟨_, by rw [hi]; exact List.getElem?_concat_length, ⟨rfl, rfl, rfl, .inl rfl⟩, rfl⟩
  | @moved _ _ k x x' m fs err hx hstep hi ha hr =>
    have hx' : s'.convs[k]? = some x' := by
      rw [hi]
      exact Pool.set_self hx x'
    generalize hreceiver : s'.receiver = receiver at hr
    cases hr with
    | worker hm => exact hs.of_own hx hstep (isOwn_of_worker hm) hi hreceiver
    | session | release | abort => exact hs.of_own hx hstep rfl hi hreceiver
    | numberOpen hres =>
      rw [Opening, hres] at hs
      obtain ⟨y, hy, hsilent, hseq⟩ := hs
      cases hx.symm.trans hy
      rw [Opening, hreceiver]
      cases hstep with
      | numberOpen =>
        refine ⟨_, hx', ⟨hsilent.queued, hsilent.executor, hsilent.watcher, hsilent.completer⟩,
          ?_, rfl⟩
        rw [RequestState.advance, hseq]
      | violation hchecks => exact Bool.noConfusion hchecks
      | claimed hs' | unclaimed hs' | goes hs' => cases hs'
      | contextDone hm => simp at hm
    | openRefused hnum =>
      rw [Opening, hnum] at hs
      obtain ⟨y, hy, hsilent, -⟩ := hs
      cases hx.symm.trans hy
      rw [Opening, hreceiver]
      cases hstep with
      | openRefused => exact ⟨_, hx', hsilent⟩
      | violation hchecks => exact Bool.noConfusion hchecks
    | openAborted | completed => rw [Opening, hreceiver]; cases x.request.terminal <;> trivial
    | _ => rw [Opening, hreceiver]; trivial

theorem opening (h : Machine.Reach (step p) ok {} s) :
    s.Opening p :=
  h.invariant Opening.init fun _ _ _ _ hs _ hstep ↦ hs.step hstep

theorem Applies.suits {frame} (h : Applies k frame m receiver) : Conv.Suits p x m := by
  cases h with
  | data | halfClose => exact ⟨trivial, by simp⟩
  | credit hk | cancel hk => exact ⟨⟨_, hk⟩, by simp⟩

theorem Advances.suits {x'} (hheld : Held p s) (hopening : s.Opening p) (hx : s.convs[k]? = some x)
    (h : Advances p s k x x' a m err receiver) : Conv.Suits p x m := by
  -- the Credit of an Open is the one the receive loop holds
  have hopen : ∀ {f : ConnectRequest} {choice : Select}, s.receiver = .openNumbered k f →
      Conv.Suits p x (.enqueueOpen f choice) := by
    intro f choice hnum
    rw [Opening, hnum] at hopening
    obtain ⟨y, hy, hsilent, hseq, hf⟩ := hopening
    cases hx.symm.trans hy
    refine ⟨trivial, fun f' choice' hm ↦ ?_⟩
    obtain ⟨rfl, -⟩ := Move.enqueueOpen.inj hm
    exact ⟨hsilent, hseq, hf⟩
  cases h with
  | worker hm => exact .of_isOwn (isOwn_of_worker hm)
  | session | release | abort | openAborted => exact .of_isOwn rfl
  | numberOpen | canceled | completed => exact ⟨trivial, by simp⟩
  | openGranted hreceiver | openRefused hreceiver => exact hopen hreceiver
  | data hreceiver | dataFailed hreceiver | halfClose hreceiver | halfCloseFailed hreceiver
  | late hreceiver =>
    rw [Held, hreceiver] at hheld; exact ⟨hheld.2, by simp⟩

/-- The invariant rule for properties of single conversations that only suitable moves keep. -/
theorem forall_convs_of_suits {P : Conv → Prop} (hnew : Begins p P)
    (hstep : ∀ {env x m x' fs err}, Conv.Step p env x m x' fs err → x.Suits p m → P x → P x')
    (h : Machine.Reach (step p) ok {} s) : ∀ x ∈ s.convs, P x :=
  forall_convs_of (S := Conv.Suits p) hnew (fun _ _ ↦ Applies.suits)
    (fun hreach hx hadv ↦ hadv.suits (tabled hreach).2 (opening hreach) hx) hstep h

end Session

/-! ## The run of the route and its answer -/

/-- A frame that does not end a response. -/
def isBody (f : ConnectRequest) : Prop :=
  (∃ n, f.payload = .credit n) ∨ ∃ b, f.payload = .data b

/-- None of the frames ends a response. -/
def Body (frames : List ConnectRequest) : Prop := ∀ f ∈ frames, isBody f

theorem Body.concat {frames f} (h : Body frames) (hf : isBody f) : Body (frames ++ [f]) := by
  intro g hg
  rcases List.mem_append.mp hg with hg | hg
  · exact h g hg
  · rwa [List.mem_singleton.mp hg]

namespace Conv

variable {p : Params} {env : Env} {x x' : Conv} {m : Move} {fs : List ConnectRequest}
  {err : Option Err}

/-- The peer closed the request after the bytes `b`. -/
def Closed (x : Conv) (b : Bytes) : Prop :=
  ∃ l f l', x.handled = l ++ f :: l' ∧ f.payload = .halfClose ∧ b = requestBytes l

/-- The route ran once, on all of the request, and returned the response `r`. -/
def Answered (x : Conv) (r : Bytes) : Prop := ∃ b, x.executions = [(b, r, .ok)]

/-- The route runs once, when the request is closed. -/
def Executes (x : Conv) : Prop :=
  match x.executor with
  | .none => x.executions = [] ∧ x.request.halfClosed = false ∧
    (x.request.terminal = false → x.request.requestBytes = requestBytes x.handled)
  | .running b => x.executions = [] ∧ x.request.halfClosed = true ∧ x.Closed b
  | .completing r c => x.request.halfClosed = true ∧
    ∃ b code, x.executions = [(b, r, code)] ∧ c = resultCode code ∧ x.Closed b
  | .done => x.request.halfClosed = true ∧
    ∃ b r code, x.executions = [(b, r, code)] ∧ x.Closed b

/-- The response ended with its HalfClose and its Result. -/
def Ended (x : Conv) : Prop :=
  ∃ l last close result, x.queued = l ++ [close, last] ∧ Body l ∧ close.payload = .halfClose ∧
    last.payload = .result result ∧ (result.code = .ok → x.Answered (responseBytes l))

/-- What was queued so far, and what is still to be queued of the response. -/
def Answers (x : Conv) : Prop :=
  match x.completer with
  | .none => Body x.queued ∧ responseBytes x.queued = []
  | .sending rest | .awaitCredit rest =>
    Body x.queued ∧ x.Answered (responseBytes x.queued ++ rest)
  | .taken chunk rest => Body x.queued ∧ x.Answered (responseBytes x.queued ++ chunk ++ rest)
  | .numbered f rest => Body x.queued ∧ isBody f ∧
    x.Answered (responseBytes x.queued ++ f.data ++ rest)
  | .sendFailed | .batchRefused => Body x.queued
  | .batch code => Body x.queued ∧ (code = .ok → x.Answered (responseBytes x.queued))
  | .cleanup | .release | .done => Body x.queued ∨ x.Ended

/-- **What a conversation keeps.** -/
structure Sound (x : Conv) : Prop where
  owned : x.completer = .none ↔ x.request.terminal = false
  watches : ∀ code, x.watcher = .completing code → code ≠ .ok
  executes : x.Executes
  answers : x.Answers

theorem Step.owned (h : Step p env x m x' fs err)
    (hx : x.completer = .none ↔ x.request.terminal = false) :
    x'.completer = .none ↔ x'.request.terminal = false := by
  -- a goroutine that is finishing the request goes on doing so
  have hgoes : ∀ {c c' : Completer}, x.completer = c → c ≠ .none → c' ≠ .none →
      (c' = .none ↔ x.request.terminal = false) := by
    intro c c' hc hne hne'
    refine ⟨fun h ↦ absurd h hne', fun h ↦ ?_⟩
    exact absurd (hc.symm.trans (hx.mpr h)) hne
  cases h with
  | claimed =>
    refine ⟨fun h ↦ ?_, fun h ↦ absurd h (by simp)⟩
    obtain hc | hc := firstPc_eq _ _ <;> cases hc.symm.trans h
  | aborted => simp
  | goes hs =>
    cases hs with
    | watcherDone | watcherExpired => exact hx
    | sent h | awaitCredit h | expired h | failed h | session h | released h =>
      exact hgoes h (by simp) (by simp)
  | took h | woken h | numberData h | dataQueued h | dataUnqueued h | finished h | unfinished h
  | cleanup h => exact hgoes h (by simp) (by simp)
  | dataGranted _ _ hr | dataRefused _ _ hr =>
    subst hr; exact hx
  | _ => exact hx

theorem Step.watches (h : Step p env x m x' fs err)
    (hx : ∀ code, x.watcher = .completing code → code ≠ .ok) :
    ∀ code, x'.watcher = .completing code → code ≠ .ok := by
  cases h with
  | openGranted => intro code h; cases h
  | claimed hs | unclaimed hs =>
    cases hs with
    | watcher h => intro code h; cases h
    | _ => exact hx
  | goes hs =>
    cases hs with
    | watcherDone => intro code h; cases h
    | watcherExpired =>
      intro code h
      obtain rfl := Watcher.completing.inj h
      split <;> simp
    | _ => exact hx
  | _ => exact hx

theorem Closed.mono {b} (h : x.Closed b) (hp : x.handled <+: x'.handled) :
    x'.Closed b := by
  obtain ⟨l, f, l', hl, hk, hb⟩ := h
  obtain ⟨rest, hrest⟩ := hp
  exact ⟨l, f, l' ++ rest, by rw [← hrest, hl]; simp, hk, hb⟩

/-- A step that leaves the executor alone. -/
theorem Executes.of_eq (hx : x.Executes) (he : x'.executor = x.executor)
    (hn : x'.executions = x.executions) (hh : x'.request.halfClosed = x.request.halfClosed)
    (hp : x.handled <+: x'.handled)
    (hb : x'.request.terminal = false → x.request.terminal = false ∧
      (x.request.requestBytes = requestBytes x.handled →
        x'.request.requestBytes = requestBytes x'.handled)) : x'.Executes := by
  rw [Executes] at hx ⊢
  rw [he]
  cases hexec : x.executor <;> rw [hexec] at hx
  case none =>
    obtain ⟨hnone, hopen, hbytes⟩ := hx
    exact ⟨hn.trans hnone, hh.trans hopen, fun ht ↦ (hb ht).2 (hbytes (hb ht).1)⟩
  case running =>
    obtain ⟨hnone, hclosed, hc⟩ := hx
    exact ⟨hn.trans hnone, hh.trans hclosed, hc.mono hp⟩
  case completing =>
    obtain ⟨hclosed, b, code, hone, hcode, hc⟩ := hx
    exact ⟨hh.trans hclosed, b, code, hn.trans hone, hcode, hc.mono hp⟩
  case done =>
    obtain ⟨hclosed, b, r, code, hone, hc⟩ := hx
    exact ⟨hh.trans hclosed, b, r, code, hn.trans hone, hc.mono hp⟩

/-- The executor is not started while the request is open. -/
theorem Executes.executor_none (hx : x.Executes) (hopen : x.request.halfClosed = false) :
    x.executor = .none := by
  rw [Executes] at hx
  cases hexec : x.executor with
  | none => rfl
  | running => rw [hexec] at hx; exact absurd hopen (by simp [hx.2.1])
  | completing | done => rw [hexec] at hx; exact absurd hopen (by simp [hx.1])

/-- A frame that carries no data leaves the request bytes as they are. -/
theorem requestBytes_concat {frames f}
    (hf : f.data = []) : requestBytes (frames ++ [f]) = requestBytes frames := by
  rw [requestBytes_append, requestBytes_singleton, hf, List.append_nil]

theorem Step.executes (h : Step p env x m x' fs err) (hsuits : x.Suits p m)
    (howned : x.completer = .none ↔ x.request.terminal = false) (hx : x.Executes) :
    x'.Executes := by
  have hfits := hsuits.fits
  cases h with
  | violation => exact hx
  | data =>
    refine hx.of_eq rfl rfl rfl (List.prefix_append _ _) fun ht ↦ ⟨ht, fun hb ↦ ?_⟩
    rw [requestBytes_append, requestBytes_singleton, ← hb]
    rfl
  | dataGranted _ _ hr | dataRefused _ _ hr =>
    subst hr
    refine hx.of_eq rfl rfl rfl (List.prefix_append _ _) fun ht ↦ ⟨ht, fun hb ↦ ?_⟩
    rw [requestBytes_append, requestBytes_singleton, ← hb]
    rfl
  | @halfClose frame hopen =>
    have hnone := hx.executor_none hopen.1
    rw [Executes, hnone] at hx
    exact ⟨hx.1, rfl, x.handled, frame, [], rfl, hfits, hx.2.2 hopen.2⟩
  | credit =>
    obtain ⟨n, hk⟩ := hfits
    refine hx.of_eq rfl rfl rfl (List.prefix_append _ _) fun ht ↦ ⟨ht, fun hb ↦ ?_⟩
    rw [requestBytes_concat (by rw [ConnectResponse.data, hk])]
    exact hb
  | cancel =>
    obtain ⟨reason, hk⟩ := hfits
    refine hx.of_eq rfl rfl rfl (List.prefix_append _ _) fun ht ↦ ⟨ht, fun hb ↦ ?_⟩
    rw [requestBytes_concat (by rw [ConnectResponse.data, hk])]
    exact hb
  | late =>
    refine hx.of_eq rfl rfl rfl (List.prefix_append _ _) fun ht ↦ ⟨ht, fun hb ↦ ?_⟩
    rw [requestBytes_concat]
    · exact hb
    · obtain ⟨n, hk⟩ | ⟨reason, hk⟩ := hfits <;> rw [ConnectResponse.data, hk]
  | claimed hs =>
    cases hs with
    | executor h =>
      rw [Executes, h] at hx
      obtain ⟨hclosed, b, code, hone, -, hc⟩ := hx
      exact ⟨hclosed, b, _, code, hone, hc⟩
    | _ => exact hx.of_eq rfl rfl rfl List.prefix_rfl (fun h ↦ absurd h (by simp))
  | unclaimed hs =>
    cases hs with
    | executor h =>
      rw [Executes, h] at hx
      obtain ⟨hclosed, b, code, hone, -, hc⟩ := hx
      exact ⟨hclosed, b, _, code, hone, hc⟩
    | _ => exact hx.of_eq rfl rfl rfl List.prefix_rfl (fun h ↦ ⟨h, id⟩)
  | aborted => exact hx.of_eq rfl rfl rfl List.prefix_rfl (fun h ↦ absurd h (by simp))
  | @executed payload rpc h =>
    rw [Executes, h] at hx
    obtain ⟨hnone, hclosed, hc⟩ := hx
    exact ⟨hclosed, payload, _, by rw [hnone]; rfl, rfl, hc⟩
  | cleanup h =>
    refine hx.of_eq rfl rfl rfl List.prefix_rfl fun ht ↦ ?_
    cases h.symm.trans (howned.mpr ht)
  | _ => exact hx.of_eq rfl rfl rfl List.prefix_rfl (fun h ↦ ⟨h, id⟩)

/-- A route that is still running has answered nothing. -/
theorem Executes.not_answered {b r} (hx : x.Executes) (h : x.executor = .running b) :
    ¬ x.Answered r := by
  rintro ⟨b', hone⟩
  rw [Executes, h] at hx
  rw [hx.1] at hone
  cases hone

theorem Answers.of_executed (hx : x.Answers) (hnot : ∀ r, ¬ x.Answered r)
    (hc : x'.completer = x.completer) (hq : x'.queued = x.queued) : x'.Answers := by
  rw [Answers] at hx ⊢
  rw [hc]
  have hended : x.Ended → x'.Ended := by
    rintro ⟨l, last, close, result, hl, hbody, hclose, hlast, hok⟩
    exact ⟨l, last, close, result, hq.trans hl, hbody, hclose, hlast,
      fun h ↦ absurd (hok h) (hnot _)⟩
  cases hcomp : x.completer <;> rw [hcomp] at hx
  case none => rwa [hq]
  case sending | awaitCredit | taken => exact absurd hx.2 (hnot _)
  case numbered => exact absurd hx.2.2 (hnot _)
  case sendFailed | batchRefused => rwa [hq]
  case batch => exact ⟨hq ▸ hx.1, fun h ↦ absurd (hx.2 h) (hnot _)⟩
  case cleanup | release | done =>
    rw [hq]
    exact hx.imp_right hended

/-- Where the winner of the right to finish a request begins, it has all of the response to send. -/
theorem Answers.of_claimed {response code executor watcher}
    (hs : x.Claims m response code executor watcher) (hexec : x.Executes)
    (hwatch : ∀ code, x.watcher = .completing code → code ≠ .ok) (hbody : Body x.queued)
    (hnone : responseBytes x.queued = []) (hc : x'.completer = firstPc response code)
    (hq : x'.queued = x.queued) (hn : x'.executions = x.executions) : x'.Answers := by
  have hanswered : code = .ok → x'.Answered response := by
    intro hok
    cases hs with
    | cancel => cases hok
    | watcher h => exact absurd hok (hwatch _ h)
    | executor h =>
      rw [Executes, h] at hexec
      obtain ⟨-, b, code', hone, hcode, -⟩ := hexec
      rw [hok] at hcode
      exact ⟨b, by rw [hn, hone, resultCode_eq_ok.mp hcode.symm]⟩
  rw [Answers, hc, firstPc]
  by_cases hok : code = .ok ∧ response ≠ []
  · rw [if_pos hok]
    exact ⟨hq ▸ hbody, by rw [hq, hnone]; exact hanswered hok.1⟩
  · rw [if_neg hok]
    refine ⟨hq ▸ hbody, fun h ↦ ?_⟩
    obtain rfl : response = [] := by
      by_contra hne
      exact hok ⟨h, hne⟩
    rw [hq, hnone]
    exact hanswered h

theorem Step.answers (h : Step p env x m x' fs err) (hsuits : x.Suits p m) (hx : x.Sound) :
    x'.Answers := by
  obtain ⟨howned, hwatch, hexec, hx⟩ := hx
  cases h with
  | dataGranted htakes hgrant hr hf =>
    rw [Answers, howned.mpr htakes.isOpen.2] at hx
    rw [Answers, howned.mpr htakes.isOpen.2]
    refine ⟨hx.1.concat (.inl ⟨_, by rw [hf]; rfl⟩), ?_⟩
    rw [responseBytes_append, hx.2, hf]
    rfl
  | openGranted =>
    obtain ⟨hsilent, -, rfl⟩ := hsuits.opening _ _ rfl
    have hbody : Body (x.queued ++ [Session.openCredit p x.request]) := by
      rw [hsilent.queued]
      exact Body.concat (by simp [Body]) (.inl ⟨_, rfl⟩)
    rw [Answers]
    obtain hc | hc := hsilent.completer
    · rw [hc]
      exact ⟨hbody, by rw [hsilent.queued]; rfl⟩
    · cases hcomp : x.completer <;> rw [hcomp] at hc
      case cleanup | release | done => exact .inl hbody
      all_goals exact Bool.noConfusion hc
  | claimed hs ht =>
    rw [Answers, howned.mpr ht] at hx
    exact .of_claimed hs hexec hwatch hx.1 hx.2 rfl rfl rfl
  | aborted ht =>
    rw [Answers, howned.mpr ht] at hx
    exact .inl hx.1
  | executed h => exact hx.of_executed (fun _ ↦ hexec.not_answered h) rfl rfl
  | goes hs =>
    cases hs with
    | watcherDone | watcherExpired => exact hx
    | sent h =>
      rw [Answers, h] at hx
      obtain ⟨hbody, hans⟩ := hx
      rw [List.append_nil] at hans
      exact ⟨hbody, fun _ ↦ hans⟩
    | awaitCredit h | released h => rw [Answers, h] at hx; exact hx
    | expired h => rw [Answers, h] at hx; exact hx.1
    | failed h hcode => rw [Answers, h] at hx; exact ⟨hx, fun hok ↦ absurd hok hcode⟩
    | session h => rw [Answers, h] at hx; exact .inl hx
  | took h =>
    rw [Answers, h] at hx
    refine ⟨hx.1, ?_⟩
    rw [List.append_assoc, List.take_append_drop]
    exact hx.2
  | woken h | cleanup h => rw [Answers, h] at hx; exact hx
  | numberData h =>
    rw [Answers, h] at hx
    exact ⟨hx.1, .inr ⟨_, rfl⟩, hx.2⟩
  | dataQueued h =>
    rw [Answers, h] at hx
    refine ⟨hx.1.concat hx.2.1, ?_⟩
    rw [responseBytes_append, responseBytes_singleton]
    exact hx.2.2
  | dataUnqueued h | unfinished h => rw [Answers, h] at hx; exact hx.1
  | finished h =>
    rw [Answers, h] at hx
    exact .inr ⟨x.queued, _, _, _, rfl, hx.1, rfl, rfl, hx.2⟩
  | _ => exact hx

/-- **A suitable move keeps what a conversation keeps.** -/
theorem Sound.step (hx : x.Sound) (h : Step p env x m x' fs err) (hsuits : x.Suits p m) :
    x'.Sound :=
  ⟨h.owned hx.owned, h.watches hx.watches, h.executes hsuits hx.owned hx.executes,
    h.answers hsuits hx⟩

/-- A response is not ended, or ends with its HalfClose and its Result. -/
theorem Sound.body_or_ended (hx : x.Sound) : Body x.queued ∨
    ∃ body close last result, x.queued = body ++ [close, last] ∧ Body body ∧
      close.payload = .halfClose ∧ last.payload = .result result := by
  have hended : Body x.queued ∨ x.Ended := by
    have hanswers := hx.answers
    cases hc : x.completer <;> simp only [Answers, hc] at hanswers
    case sendFailed => exact .inl hanswers
    case batchRefused => exact .inl hanswers
    case cleanup => exact hanswers
    case release => exact hanswers
    case done => exact hanswers
    all_goals exact .inl hanswers.1
  obtain hbody | ⟨body, last, close, result, hq, hbody, hclose, hlast, -⟩ := hended
  · exact .inl hbody
  · exact .inr ⟨body, close, last, result, hq, hbody, hclose, hlast⟩

end Conv

namespace Session

variable {p : Params} {s : Session}

/-- Every conversation of every run is sound. -/
theorem conv_sound {ok : Session → Action → Prop} (h : Machine.Reach (step p) ok {} s) :
    ∀ x ∈ s.convs, x.Sound := by
  refine forall_convs_of_suits ⟨fun frame code _ hcode ↦ ?_, fun frame route hopens _ ↦ ?_⟩
    (fun hstep hsuits hx ↦ hx.step hstep hsuits) h
  · refine ⟨by simp [rejectedConv], by simp [rejectedConv], ?_, .inr ?_⟩
    · exact ⟨rfl, rfl, by simp [rejectedConv]⟩
    · exact ⟨[], _, _, _, rfl, by simp [Body], rfl, rfl, fun h ↦ absurd h hcode⟩
  · obtain ⟨request, hk⟩ := hopens.payload
    refine ⟨by simp [reservedConv], by simp [reservedConv], ⟨rfl, rfl, fun _ ↦ ?_⟩, ?_⟩
    · show [] = requestBytes [frame]
      rw [requestBytes_singleton, ConnectResponse.data, hk]
    · exact ⟨by simp [Body, reservedConv], rfl⟩

end Session

end MarketMesh.GatewayOut
