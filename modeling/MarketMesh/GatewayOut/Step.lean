import MarketMesh.GatewayOut.Session
import MarketMesh.Lib.Pool
import MarketMesh.Lib.Run

/-!
# What a step of gateway-out can do

The counterpart of `GatewayIn/Step.lean`.

* `enqueue_eq_some_none` is the specification of an accepted offer.
* `Conv.Step` lists the effects a move has on a conversation, and `Conv.step_cases` says that there
  are no others.
* `Session.Change` does the same for a session: a step leaves the conversations alone, adds a new
  one, or makes one move on one of them, and the receive loop goes on as it says.
-/

set_option autoImplicit false

namespace MarketMesh.GatewayOut

open Protocol

variable {p : Params} {env : Env} {choice : Select}

/-! ## Offers -/

/-- A batch that enters a queue has passed every check of `enqueue`, and there was room for it. -/
theorem enqueue_eq_some_none {ctxErr isDone room frames}
    (h : enqueue p choice ctxErr isDone room frames = some none) :
    (∀ f ∈ frames, admits p f = true) ∧ room = true := by
  simp only [enqueue] at h
  split at h
  · rename_i hall
    refine ⟨List.all_eq_true.mp hall, ?_⟩
    cases choice with
    | room => simpa using h
    | ctxDone => cases ctxErr <;> simp at h
    | sessionDone | full => simp at h
  · cases h

namespace RequestState

/-- The request with the bytes of a Data taken. -/
def taken (payload : Bytes) (r : RequestState) : RequestState :=
  { r with
    requestBytes := r.requestBytes ++ payload
    receiveCredit := r.receiveCredit - payload.length }

/-- The grant `handleData` computes once the bytes are taken. -/
def dataGrant (p : Params) (r : RequestState) : Nat :=
  min (min (sub64 (sub64 (r.maximumRequest p) r.requestBytes.length) r.receiveCredit)
    (sub64 (r.window p) r.receiveCredit)) p.limits.maxCreditBytes

/-- The request after a grant got its number. -/
def granted (grant : Nat) (r : RequestState) : RequestState :=
  { r with
    receiveCredit := r.receiveCredit + grant
    outgoingSequence := r.outgoingSequence + 1 }

/-- `r.outgoingSequence++`. -/
def advance (r : RequestState) : RequestState :=
  { r with outgoingSequence := r.outgoingSequence + 1 }

variable {r r' : RequestState} {header : FrameHeader} {payload : Bytes}

/-- A Data is taken if the request is open, the credit covers it and the body stays in bounds. -/
structure Takes (p : Params) (r : RequestState) (payload : Bytes) : Prop where
  isOpen : r.halfClosed = false ∧ r.terminal = false
  credit : payload.length ≤ r.receiveCredit
  max : r.requestBytes.length + payload.length ≤ r.maximumRequest p

theorem takeData_eq_some {grant : Nat} (h : r.takeData p payload = some (r', grant)) :
    r.Takes p payload ∧ r' = r.taken payload ∧ grant = (r.taken payload).dataGrant p := by
  simp only [takeData] at h
  split at h
  · cases h
  · rename_i hopen
    split at h
    · cases h
    · rename_i hcredit
      split at h
      · cases h
      · rename_i hmax
        cases h
        exact ⟨⟨by simpa using hopen, not_lt.mp hcredit, not_lt.mp hmax⟩, rfl, rfl⟩

theorem Takes.takeData_eq (h : r.Takes p payload) :
    r.takeData p payload = some (r.taken payload, (r.taken payload).dataGrant p) := by
  simp only [takeData]
  rw [if_neg (by simp [h.isOpen]), if_neg (not_lt.mpr h.credit), if_neg (not_lt.mpr h.max)]
  rfl

theorem handleCredit_eq_some {n : Nat} (h : r.handleCredit p header n = some r') :
    r.expects header = true ∧ n ≤ r.maximumResponse p ∧
      r.sendCredit ≤ r.maximumResponse p - n ∧
      r' = { r with
        sendCredit := r.sendCredit + n
        creditChanged := true
        incomingSequence := header.sequence } := by
  simp only [handleCredit] at h
  split at h
  · rename_i hexp
    split at h
    · cases h
    · rename_i hmax
      rw [not_or, not_lt, not_lt] at hmax
      exact ⟨hexp, hmax.1, hmax.2, (Option.some_inj.mp h).symm⟩
  · cases h

theorem handleCancel_eq_some (h : r.handleCancel header = some r') :
    r.expects header = true ∧ r.peerCanceled = false ∧
      r' = { r with peerCanceled := true, incomingSequence := header.sequence } := by
  simp only [handleCancel] at h
  split at h
  · rename_i hexp
    split at h
    · cases h
    · rename_i hpeer
      exact ⟨hexp, by simpa using hpeer, (Option.some_inj.mp h).symm⟩
  · cases h

theorem requestForFrame_eq_some (h : r.requestForFrame header = some r') :
    r.expects header = true ∧ r' = { r with incomingSequence := header.sequence } := by
  rw [requestForFrame] at h
  split at h
  · exact ⟨‹_›, (Option.some_inj.mp h).symm⟩
  · cases h

end RequestState

/-! ## Moves -/

/-- The moves of the receive loop that may find a protocol violation. -/
def Move.checks : Move → Bool
  | .requestForFrame _ | .data _ _ | .halfClose _ | .credit _ | .cancel _ => true
  | _ => false

namespace Conv

/-- The two frames a finished request ends with. -/
def lastFrames (p : Params) (r : RequestState) (code : ResultCode) : List ConnectRequest :=
  [r.advance.frame p .halfClose, r.advance.advance.frame p (.result { code := code })]

/-- Where the winner of the right to finish a request begins. -/
def firstPc (response : Bytes) (code : ResultCode) : Completer :=
  if code = .ok ∧ response ≠ [] then .sending response else .batch code

theorem firstPc_eq (response : Bytes) (code : ResultCode) :
    firstPc response code = .sending response ∨ firstPc response code = .batch code := by
  rw [firstPc]
  split
  · exact .inl rfl
  · exact .inr rfl

/-- Who calls `completeRequest`, with what, and where it stands then. -/
inductive Claims (x : Conv) : Move → Bytes → ResultCode → Executor → Watcher → Prop
  | cancel : Claims x .claimCancel [] .canceled x.executor x.watcher
  | executor {response code} (h : x.executor = .completing response code) :
      Claims x .claimExecutor response code .done x.watcher
  | watcher {code} (h : x.watcher = .completing code) :
      Claims x .claimWatcher [] code x.executor .done

/-- The moves of the goroutines of a request that touch nothing but its program counters. -/
inductive Goes (p : Params) (x : Conv) : Move → Watcher → Completer → Prop
  | watcherDone (h : x.watcher = .watching) (hd : x.request.isDone = true) :
      Goes p x .watcherDone .done x.completer
  | watcherExpired {e} (h : x.watcher = .watching) (he : x.request.ctxErr = some e) :
      Goes p x .watcherExpired
        (.completing (if e = .deadlineExceeded then .deadlineExceeded else .canceled)) x.completer
  | sent (h : x.completer = .sending []) : Goes p x .consumeSendCredit x.watcher (.batch .ok)
  | awaitCredit {response} (h : x.completer = .sending response) (hne : response ≠ [])
      (hc : x.request.sendCredit < min response.length p.limits.maxDataBytes) :
      Goes p x .consumeSendCredit x.watcher (.awaitCredit response)
  | expired {response e} (h : x.completer = .awaitCredit response)
      (he : x.request.ctxErr = some e) : Goes p x .creditContext x.watcher .sendFailed
  | failed {code} (h : x.completer = .sendFailed) (hcode : code ≠ .ok) :
      Goes p x .sendError x.watcher (.batch code)
  | session (h : x.completer = .batchRefused) : Goes p x .cancelSession x.watcher .cleanup
  | released (h : x.completer = .release) : Goes p x .released x.watcher .done

/-- **The effects a move can have on a conversation**: the new conversation, the batch it put into
the queue, and the error it returns. -/
inductive Step (p : Params) (env : Env) (x : Conv) :
    Move → Conv → List ConnectRequest → Option Err → Prop
  | violation {m} (hm : m.checks = true)
      (hd : ∀ frame choice, m = .data frame choice → x.request.takeData p frame.data = none) :
      Step p env x m x [] (some .protocol)
  | expected {frame} (he : x.request.expects frame.header = true) :
      Step p env x (.requestForFrame frame)
        { x with request := { x.request with incomingSequence := frame.header.sequence } } [] none
  | data {frame choice} (htakes : x.request.Takes p frame.data)
      (hgrant : (x.request.taken frame.data).dataGrant p = 0) :
      Step p env x (.data frame choice)
        { x with request := x.request.taken frame.data, handled := x.handled ++ [frame] } [] none
  | dataGranted {frame choice r f} (htakes : x.request.Takes p frame.data)
      (hgrant : (x.request.taken frame.data).dataGrant p ≠ 0)
      (hr : r = (x.request.taken frame.data).granted ((x.request.taken frame.data).dataGrant p))
      (hf : f = r.frame p (.credit (toUint32 ((x.request.taken frame.data).dataGrant p))))
      (hq : admits p f = true) (hroom : env.room = true) :
      Step p env x (.data frame choice)
        { x with request := r, handled := x.handled ++ [frame], queued := x.queued ++ [f] } [f] none
  | dataRefused {frame choice r f e} (htakes : x.request.Takes p frame.data)
      (hgrant : (x.request.taken frame.data).dataGrant p ≠ 0)
      (hr : r = (x.request.taken frame.data).granted ((x.request.taken frame.data).dataGrant p))
      (hf : f = r.frame p (.credit (toUint32 ((x.request.taken frame.data).dataGrant p))))
      (hq : enqueue p choice r.ctxErr env.isDone env.room [f] = some (some e)) :
      Step p env x (.data frame choice)
        { x with request := r, handled := x.handled ++ [frame] } [] (some e)
  | halfClose {frame} (hopen : x.request.halfClosed = false ∧ x.request.terminal = false) :
      Step p env x (.halfClose frame)
        { x with
          request := { x.request with halfClosed := true, requestBytes := [] }
          executor := .running x.request.requestBytes
          handled := x.handled ++ [frame] } [] none
  | credit {frame} (he : x.request.expects frame.header = true)
      (hmax : frame.credit ≤ x.request.maximumResponse p)
      (hc : x.request.sendCredit ≤ x.request.maximumResponse p - frame.credit) :
      Step p env x (.credit frame)
        { x with
          request := { x.request with
            sendCredit := x.request.sendCredit + frame.credit
            creditChanged := true
            incomingSequence := frame.header.sequence }
          handled := x.handled ++ [frame] } [] none
  | cancel {frame} (he : x.request.expects frame.header = true)
      (hpeer : x.request.peerCanceled = false) :
      Step p env x (.cancel frame)
        { x with
          request := { x.request with
            peerCanceled := true, incomingSequence := frame.header.sequence }
          handled := x.handled ++ [frame] } [] none
  | late {frame} :
      Step p env x (.late frame) { x with handled := x.handled ++ [frame] } [] none
  | numberOpen : Step p env x .numberOpen
      { x with request := { x.request.advance with
        receiveCredit := x.request.initialGrant p } } [] none
  | openGranted {frame choice} (hq : admits p frame = true) (hroom : env.room = true) :
      Step p env x (.enqueueOpen frame choice)
        { x with queued := x.queued ++ [frame], watcher := .watching } [frame] none
  | openRefused {frame choice e}
      (hq : enqueue p choice (sessionErr env.isDone) env.isDone env.room [frame] =
        some (some e)) :
      Step p env x (.enqueueOpen frame choice) x [] (some e)
  | claimed {m response code executor watcher} (hs : x.Claims m response code executor watcher)
      (ht : x.request.terminal = false) :
      Step p env x m
        { x with
          request := { x.request with terminal := true }
          executor := executor
          watcher := watcher
          completer := firstPc response code } [] none
  | unclaimed {m response code executor watcher} (hs : x.Claims m response code executor watcher)
      (ht : x.request.terminal = true) :
      Step p env x m { x with executor := executor, watcher := watcher } [] none
  | aborted (ht : x.request.terminal = false) :
      Step p env x .claimAbort
        { x with request := { x.request with terminal := true }, completer := .cleanup } [] none
  | unaborted (ht : x.request.terminal = true) : Step p env x .claimAbort x [] none
  | executed {payload rpc} (h : x.executor = .running payload) :
      Step p env x (.execute rpc)
        { x with
          executor := .completing (x.request.route.invoke payload rpc).1
            (resultCode (x.request.route.invoke payload rpc).2)
          executions := x.executions ++ [(payload, x.request.route.invoke payload rpc)] } [] none
  | goes {m watcher completer} (hs : x.Goes p m watcher completer) :
      Step p env x m { x with watcher := watcher, completer := completer } [] none
  | took {response} (h : x.completer = .sending response) (hne : response ≠ [])
      (hc : min response.length p.limits.maxDataBytes ≤ x.request.sendCredit) :
      Step p env x .consumeSendCredit
        { x with
          request := { x.request with
            sendCredit := x.request.sendCredit - min response.length p.limits.maxDataBytes }
          completer := .taken (response.take (min response.length p.limits.maxDataBytes))
            (response.drop (min response.length p.limits.maxDataBytes)) } [] none
  | woken {response} (h : x.completer = .awaitCredit response)
      (ht : x.request.creditChanged = true) :
      Step p env x .creditWoken
        { x with
          request := { x.request with creditChanged := false }
          completer := .sending response } [] none
  | numberData {chunk response} (h : x.completer = .taken chunk response) :
      Step p env x .numberData
        { x with
          request := x.request.advance
          completer := .numbered (x.request.advance.frame p (.data chunk)) response } [] none
  | dataQueued {frame response choice}
      (h : x.completer = .numbered frame response) (hq : admits p frame = true)
      (hroom : env.room = true) :
      Step p env x (.enqueueData choice)
        { x with queued := x.queued ++ [frame], completer := .sending response } [frame] none
  | dataUnqueued {frame response choice e} (h : x.completer = .numbered frame response)
      (hq : enqueue p choice (sessionErr env.isDone) env.isDone env.room [frame] =
        some (some e)) :
      Step p env x (.enqueueData choice) { x with completer := .sendFailed } [] none
  | finished {code choice} (h : x.completer = .batch code)
      (hq : ∀ f ∈ lastFrames p x.request code, admits p f = true) (hroom : env.room = true) :
      Step p env x (.enqueueBatch choice)
        { x with
          request := x.request.advance.advance
          queued := x.queued ++ lastFrames p x.request code
          completer := .cleanup } (lastFrames p x.request code) none
  | unfinished {code choice e} (h : x.completer = .batch code)
      (hq : enqueue p choice (sessionErr env.isDone) env.isDone env.room
        (lastFrames p x.request code) = some (some e)) :
      Step p env x (.enqueueBatch choice)
        { x with request := x.request.advance.advance, completer := .batchRefused } [] none
  | cleanup (h : x.completer = .cleanup) :
      Step p env x .cleanup
        { x with
          request := { x.request with
            requestBytes := []
            ctxErr := some (x.request.ctxErr.getD .canceled)
            isDone := true }
          completer := .release } [] none
  | contextDone {m e} (hm : m = .cancelContext ∧ e = x.request.ctxErr.getD .canceled ∨
        m = .expire e ∧ x.request.ctxErr = none) :
      Step p env x m { x with request := { x.request with ctxErr := some e } } [] none

variable {x x' : Conv} {m : Move} {frames : List ConnectRequest} {err : Option Err}

/-- An offer either records the batch and returns nothing, or changes nothing and returns an
error. -/
theorem offer_eq_some {y ctxErr batch}
    (h : y.offer p env choice ctxErr batch = some (x', frames, err)) :
    ((∀ f ∈ batch, admits p f = true) ∧ env.room = true ∧
        x' = { y with queued := y.queued ++ batch } ∧ frames = batch ∧ err = none) ∨
      ∃ e, enqueue p choice ctxErr env.isDone env.room batch = some (some e) ∧ x' = y ∧
        frames = [] ∧ err = some e := by
  rw [offer] at h
  split at h
  · cases h
  · rename_i hq
    cases h
    obtain ⟨hadm, hroom⟩ := enqueue_eq_some_none hq
    exact .inl ⟨hadm, hroom, rfl, rfl, rfl⟩
  · rename_i e hq
    cases h
    exact .inr ⟨e, hq, rfl, rfl, rfl⟩

/-- The compare-and-swap of `completeRequest`. -/
theorem Step.of_claim (env : Env) {response code executor watcher}
    (hs : x.Claims m response code executor watcher) :
    Step p env x m
      { x.claim response code with executor := executor, watcher := watcher } [] none := by
  rw [claim]
  split
  · exact .unclaimed hs ‹_›
  · exact .claimed hs (by simpa using ‹¬ x.request.terminal = true›)

/-- **A move has no other effects.** -/
theorem step_cases (h : x.step p env m = some (x', frames, err)) :
    Step p env x m x' frames err := by
  cases m with simp only [step] at h
  | requestForFrame frame =>
    split at h
    · rename_i r hr
      obtain ⟨hexp, rfl⟩ := RequestState.requestForFrame_eq_some hr
      cases h
      exact .expected hexp
    · cases h
      exact .violation rfl (by simp)
  | data frame choice =>
    split at h
    · rename_i htake
      cases h
      exact .violation rfl fun f c hm ↦ by rw [← (Move.data.inj hm).1]; exact htake
    · rename_i r grant htake
      obtain ⟨htakes, rfl, rfl⟩ := RequestState.takeData_eq_some htake
      split at h
      · rename_i hgrant
        cases h
        exact .data htakes hgrant
      · rename_i hgrant
        obtain ⟨hadm, hroom, rfl, rfl, rfl⟩ | ⟨e, hq, rfl, rfl, rfl⟩ := offer_eq_some h
        · exact .dataGranted htakes hgrant rfl rfl (hadm _ List.mem_cons_self) hroom
        · exact .dataRefused htakes hgrant rfl rfl hq
  | halfClose frame =>
    split at h
    · cases h
      exact .violation rfl (by simp)
    · rename_i hopen
      cases h
      exact .halfClose (by simpa using hopen)
  | credit frame =>
    split at h
    · rename_i r hr
      obtain ⟨hexp, hmax, hc, rfl⟩ := RequestState.handleCredit_eq_some hr
      cases h
      exact .credit hexp hmax hc
    · cases h
      exact .violation rfl (by simp)
  | cancel frame =>
    split at h
    · rename_i r hr
      obtain ⟨hexp, hpeer, rfl⟩ := RequestState.handleCancel_eq_some hr
      cases h
      exact .cancel hexp hpeer
    · cases h
      exact .violation rfl (by simp)
  | late =>
    cases h
    exact .late
  | numberOpen =>
    cases h
    exact .numberOpen
  | enqueueOpen frame choice =>
    split at h
    · cases h
    · rename_i hoffer
      cases h
      obtain ⟨hadm, hroom, rfl, rfl, -⟩ | ⟨e, -, -, -, ⟨⟩⟩ := offer_eq_some hoffer
      exact .openGranted (hadm _ List.mem_cons_self) hroom
    · rename_i hoffer
      cases h
      obtain ⟨-, -, -, -, ⟨⟩⟩ | ⟨e, hq, rfl, rfl, he⟩ := offer_eq_some hoffer
      cases he
      exact .openRefused hq
  | cancelContext =>
    cases h
    exact .contextDone (.inl ⟨rfl, rfl⟩)
  | claimCancel =>
    cases h
    have hclaim := Step.of_claim (p := p) env (.cancel : x.Claims .claimCancel [] .canceled _ _)
    rw [claim] at hclaim ⊢
    split at hclaim <;> rename_i ht <;> simp only [ht] <;> exact hclaim
  | claimAbort =>
    split at h <;> cases h
    · exact .unaborted ‹_›
    · exact .aborted (by simpa using ‹¬ x.request.terminal = true›)
  | execute rpc =>
    split at h <;> cases h
    rename_i payload hexec
    exact .executed hexec
  | claimExecutor =>
    split at h <;> cases h
    rename_i response code hexec
    have hclaim := Step.of_claim (p := p) env (.executor hexec)
    rw [claim] at hclaim ⊢
    split at hclaim <;> rename_i ht <;> simp only [ht] <;> exact hclaim
  | watcherDone =>
    split at h
    · rename_i hw
      split at h <;> cases h
      rename_i hd
      exact .goes (.watcherDone hw hd)
    · cases h
  | watcherExpired =>
    split at h <;> cases h
    rename_i e hw he
    exact .goes (.watcherExpired hw he)
  | claimWatcher =>
    split at h <;> cases h
    rename_i code hw
    have hclaim := Step.of_claim (p := p) env (.watcher hw)
    rw [claim] at hclaim ⊢
    split at hclaim <;> rename_i ht <;> simp only [ht] <;> exact hclaim
  | consumeSendCredit =>
    split at h
    · rename_i hc
      cases h
      exact .goes (.sent hc)
    · rename_i response hne hc
      have hne : response ≠ [] := by simpa using hne
      split at h
      · rename_i hcredit
        cases h
        exact .took hc hne hcredit
      · rename_i hcredit
        cases h
        exact .goes (.awaitCredit hc hne (not_le.mp hcredit))
    · cases h
  | creditWoken =>
    split at h
    · rename_i response hc
      split at h <;> cases h
      rename_i ht
      exact .woken hc ht
    · cases h
  | creditContext =>
    split at h <;> cases h
    rename_i response e hc he
    exact .goes (.expired hc he)
  | numberData =>
    split at h <;> cases h
    rename_i chunk response hc
    exact .numberData hc
  | enqueueData choice =>
    split at h
    · rename_i frame response hc
      split at h
      · cases h
      · rename_i hoffer
        cases h
        obtain ⟨hadm, hroom, rfl, rfl, -⟩ | ⟨e, -, -, -, ⟨⟩⟩ := offer_eq_some hoffer
        exact .dataQueued hc (hadm _ List.mem_cons_self) hroom
      · rename_i hoffer
        cases h
        obtain ⟨-, -, -, -, ⟨⟩⟩ | ⟨e, hq, rfl, rfl, -⟩ := offer_eq_some hoffer
        exact .dataUnqueued hc hq
    · cases h
  | sendError =>
    split at h <;> cases h
    rename_i hc
    refine .goes (.failed hc ?_)
    split
    · simp
    · split <;> simp
  | enqueueBatch choice =>
    split at h
    · rename_i code hc
      split at h
      · cases h
      · rename_i hoffer
        cases h
        obtain ⟨hadm, hroom, rfl, rfl, -⟩ | ⟨e, -, -, -, ⟨⟩⟩ := offer_eq_some hoffer
        exact .finished hc hadm hroom
      · rename_i hoffer
        cases h
        obtain ⟨-, -, -, -, ⟨⟩⟩ | ⟨e, hq, rfl, rfl, -⟩ := offer_eq_some hoffer
        exact .unfinished hc hq
    · cases h
  | cancelSession =>
    split at h <;> cases h
    rename_i hc
    exact .goes (.session hc)
  | cleanup =>
    split at h <;> cases h
    rename_i hc
    exact .cleanup hc
  | released =>
    split at h <;> cases h
    rename_i hc
    exact .goes (.released hc)
  | expire e =>
    split at h <;> cases h
    rename_i hctx
    exact .contextDone (.inr ⟨rfl, hctx⟩)

/-- What enters a queue has passed the checks. -/
theorem Step.admits (h : Step p env x m x' frames err) : ∀ f ∈ frames, admits p f = true := by
  cases h with
  | dataGranted _ _ _ hf hq | openGranted hq | dataQueued _ hq =>
    exact fun f hf ↦ List.mem_singleton.mp hf ▸ hq
  | finished h hq => exact hq
  | _ => exact fun f hf ↦ absurd hf List.not_mem_nil

end Conv

/-! ## Sessions -/

/-- The conversation the receive loop works on. -/
def Receiver.ref : Receiver → Option Ref
  | .rejected _ k | .reserved k | .openNumbered k _ | .openRefused k | .data k _ | .halfClose k _
  | .canceling k | .completing k | .awaiting k => some k
  | _ => none

namespace Session

variable {s s' s₁ : Session} {a : Action} {k : Ref} {m : Move} {err : Option Err}
  {frame : ConnectResponse} {now : Time} {next : Ref → Receiver}

/-- Putting a batch into a queue touches the queue and the history, and nothing else. -/
theorem push_eq (s : Session) (q : Queue) (signal : Bool) (frames : List ConnectRequest) :
    s.push q signal frames =
      { s with
        queues := (s.push q signal frames).queues
        accepted := s.accepted ++ frames } := by
  cases frames with
  | nil => simp [push]
  | cons => rfl

/-- What a step on a conversation sees of the session. -/
def envOf (p : Params) (s : Session) (x : Conv) : Env :=
  ⟨s.isDone, s.room p (queue x.request.route.trafficClass)⟩

/-- One move on one conversation. -/
theorem act_eq_some (h : s.act p k m = some (s', err)) :
    ∃ x x' frames, s.convs[k]? = some x ∧
      x.step p (s.envOf p x) m = some (x', frames, err) ∧
      s' = { s.push (queue x.request.route.trafficClass) false frames with
        convs := s.convs.set k x' } := by
  simp only [act, Option.bind_eq_bind, Option.bind_eq_some_iff, Option.some_inj,
    Prod.mk.injEq] at h
  obtain ⟨x, hx, ⟨x', frames, err'⟩, hstep, rfl, rfl⟩ := h
  exact ⟨x, x', frames, hx, hstep, rfl⟩

/-- A move touches the conversations, the queues and the history, and nothing else. -/
theorem act_rest (h : s.act p k m = some (s', err)) :
    s' = { s with convs := s'.convs, queues := s'.queues, accepted := s'.accepted } := by
  obtain ⟨x, x', frames, -, -, rfl⟩ := act_eq_some h
  rw [push_eq]

theorem act_change (h : s.act p k m = some (s', err)) :
    ∃ x x' frames, s.convs[k]? = some x ∧ Conv.Step p (s.envOf p x) x m x' frames err ∧
      s'.convs = s.convs.set k x' ∧ s'.accepted = s.accepted ++ frames ∧
      s'.receiver = s.receiver ∧ s'.received = s.received := by
  have hr : s'.receiver = s.receiver := by rw [act_rest h]
  have hv : s'.received = s.received := by rw [act_rest h]
  obtain ⟨x, x', frames, hx, hstep, rfl⟩ := act_eq_some h
  refine ⟨x, x', frames, hx, Conv.step_cases hstep, rfl, ?_, hr, hv⟩
  show (s.push _ false frames).accepted = _
  rw [push_eq]

/-- The actions that are one move on a conversation. -/
def isAct : Action → Bool
  | .numberOpen | .enqueueOpen _ | .abortOpen | .data _ | .halfClose | .cancelContext | .claimCancel
  | .worker _ _ | .cancelSession _ | .abort _ => true
  | _ => false

theorem offer_eq_some {q ctxErr signal batch}
    (h : s.offer p q choice ctxErr signal batch = some (s', err)) :
    ((∀ f ∈ batch, admits p f = true) ∧ s' = s.push q signal batch ∧ err = none) ∨
      s' = s ∧ ∃ e, err = some e := by
  rw [offer] at h
  split at h
  · cases h
  · rename_i hq
    cases h
    exact .inl ⟨(enqueue_eq_some_none hq).1, rfl, rfl⟩
  · rename_i e hq
    cases h
    exact .inr ⟨rfl, e, rfl⟩

theorem offer_rest {q ctxErr signal batch}
    (h : s.offer p q choice ctxErr signal batch = some (s', err)) :
    s' = { s with convs := s'.convs, queues := s'.queues, accepted := s'.accepted } := by
  obtain ⟨-, rfl, -⟩ | ⟨rfl, -⟩ := offer_eq_some h
  · rw [push_eq]
  · rfl

/-- Adding a terminal entry only touches the ring. -/
theorem addTerminalLocked_eq (p : Params) (s : Session) (key : OpaqueID) (t : TerminalRequest) :
    s.addTerminalLocked p key t =
      { s with
        terminal := (s.addTerminalLocked p key t).terminal
        terminalOrder := (s.addTerminalLocked p key t).terminalOrder
        terminalNext := (s.addTerminalLocked p key t).terminalNext } := by
  simp only [addTerminalLocked]
  repeat' split
  all_goals rfl

/-- Releasing an entry only touches the tables. -/
theorem releaseEntry_eq (p : Params) (s : Session) (k : Ref) (r : RequestState) :
    s.releaseEntry p k r =
      { s with
        requests := (s.releaseEntry p k r).requests
        activeByClass := (s.releaseEntry p k r).activeByClass
        terminal := (s.releaseEntry p k r).terminal
        terminalOrder := (s.releaseEntry p k r).terminalOrder
        terminalNext := (s.releaseEntry p k r).terminalNext } := by
  simp only [releaseEntry]
  split
  · rw [addTerminalLocked_eq]
  · rfl

/-- The conversation of a reserved request. -/
def reservedConv (frame : ConnectResponse) (route : RouteSpec) : Conv where
  request :=
    { key := OpaqueID.copy frame.header.requestId
      requestID := frame.header.requestId
      route := route
      incomingSequence := frame.header.sequence }
  handled := [frame]

/-- Where the receive loop goes with a frame it received, as long as no conversation is touched. -/
inductive Looks (p : Params) (frame : ConnectResponse) : Receiver → Prop
  | stopped {e} : Looks p frame (.stopped (some frame) e)
  | rejecting {request code} (hadm : admitsInbound p frame = true)
      (hk : frame.payload = .opened request) (hseq : frame.header.sequence = 1)
      (hcode : code ≠ .ok) : Looks p frame (.rejecting frame code)
  | reserving {request route} (hadm : admitsInbound p frame = true)
      (hk : frame.payload = .opened request) (hseq : frame.header.sequence = 1)
      (hroute : p.registry.lookup request.routeId = some route) (hmem : route.id ∈ p.routes)
      (hclass : frame.header.trafficClass = route.trafficClass) :
      Looks p frame (.reserving frame route)
  | late (hadm : admitsInbound p frame = true)
      (hk : (∃ n, frame.payload = .credit n) ∨ ∃ reason, frame.payload = .cancel reason) :
      Looks p frame (.late frame)
  | pong {nonce} (hadm : admitsInbound p frame = true) (hk : frame.payload = .ping nonce) :
      Looks p frame (.pong nonce)
  | control (hadm : admitsInbound p frame = true)
      (hk : (∃ nonce, frame.payload = .pong nonce) ∨ ∃ d, frame.payload = .drain d) :
      Looks p frame .idle

/-- Where it goes when the frame was applied to the conversation `k`. -/
inductive Applies (k : Ref) (frame : ConnectResponse) : Move → Receiver → Prop
  | data {b} (hk : frame.payload = .data b) :
      Applies k frame (.requestForFrame frame) (.data k frame)
  | halfClose (hk : frame.payload = .halfClose) :
      Applies k frame (.requestForFrame frame) (.halfClose k frame)
  | credit {n} (hk : frame.payload = .credit n) : Applies k frame (.credit frame) .idle
  | cancel {reason} (hk : frame.payload = .cancel reason) :
      Applies k frame (.cancel frame) (.canceling k)

/-- The steps of the receive loop that touch nothing else of interest here. -/
inductive Waits (s : Session) : Action → Receiver → Prop
  | ended (h : s.receiver = .idle) : Waits s .recvError (.stopped none .sessionClosed)
  | refused {frame code choice e} (h : s.receiver = .rejecting frame code) :
      Waits s (.enqueueReject choice) (.stopped (some frame) e)
  | entered {frame : ConnectResponse} {k : Ref} (h : s.receiver = .rejected frame k) :
      Waits s .addTerminal .idle
  | full {frame route} (h : s.receiver = .reserving frame route) :
      Waits s .reserve (.rejecting frame .resourceExhausted)
  | awaited {k : Ref} (h : s.receiver = .awaiting k) : Waits s .awaited .idle
  | unknown {frame : ConnectResponse} (h : s.receiver = .late frame) :
      Waits s .late (.stopped (some frame) .protocol)
  | unanswered {nonce choice e} (h : s.receiver = .pong nonce) :
      Waits s (.pong choice) (.stopped none e)

/-- Which action makes which move on the conversation `x` at `k`, and where the receive loop stands
afterwards. -/
inductive Advances (p : Params) (s : Session) (k : Ref) (x x' : Conv) :
    Action → Move → Option Err → Receiver → Prop
  | worker {m : Move} {err : Option Err} (hm : m.isWorker = true ∨ ∃ e, m = .expire e) :
      Advances p s k x x' (.worker k m) m err s.receiver
  | session {err : Option Err} :
      Advances p s k x x' (.cancelSession k) .cancelSession err s.receiver
  | release {err : Option Err} : Advances p s k x x' (.release k) .released err s.receiver
  | abort {err : Option Err} : Advances p s k x x' (.abort k) .claimAbort err s.receiver
  | numberOpen {err : Option Err} (h : s.receiver = .reserved k) :
      Advances p s k x x' .numberOpen .numberOpen err (.openNumbered k (openCredit p x'.request))
  | openGranted {frame : ConnectRequest} {choice : Select}
      (h : s.receiver = .openNumbered k frame) :
      Advances p s k x x' (.enqueueOpen choice) (.enqueueOpen frame choice) none .idle
  | openRefused {frame choice e} (h : s.receiver = .openNumbered k frame) :
      Advances p s k x x' (.enqueueOpen choice) (.enqueueOpen frame choice) (some e)
        (.openRefused k)
  | openAborted {err : Option Err} (h : s.receiver = .openRefused k) :
      Advances p s k x x' .abortOpen .claimAbort err
        (if x.request.terminal then .idle else .awaiting k)
  | data {frame : ConnectResponse} {choice : Select} (h : s.receiver = .data k frame) :
      Advances p s k x x' (.data choice) (.data frame choice) none .idle
  | dataFailed {frame choice e} (h : s.receiver = .data k frame) :
      Advances p s k x x' (.data choice) (.data frame choice) (some e)
        (.stopped (if (x.request.takeData p frame.data).isSome then none else some frame) e)
  | halfClose {frame : ConnectResponse} (h : s.receiver = .halfClose k frame) :
      Advances p s k x x' .halfClose (.halfClose frame) none .idle
  | halfCloseFailed {frame e} (h : s.receiver = .halfClose k frame) :
      Advances p s k x x' .halfClose (.halfClose frame) (some e) (.stopped (some frame) e)
  | canceled {err : Option Err} (h : s.receiver = .canceling k) :
      Advances p s k x x' .cancelContext .cancelContext err (.completing k)
  | completed {err : Option Err} (h : s.receiver = .completing k) :
      Advances p s k x x' .claimCancel .claimCancel err
        (if x.request.terminal then .idle else .awaiting k)
  | late {frame err t t'} (h : s.receiver = .late frame)
      (ht : s.terminal.lookup (OpaqueID.copy frame.header.requestId) = some t)
      (ht' : updateTerminal frame t = some t') (hk : t.ref = k) :
      Advances p s k x x' .late (.late frame) err .idle

/-- **What a step can do to the conversations, the receive loop and the two histories they
share.** -/
inductive Change (p : Params) (s : Session) : Action → Session → Prop
  | same {a : Action} {s' : Session} (hi : s'.convs = s.convs) (ha : s'.accepted = s.accepted)
      (hr : s'.receiver = s.receiver) (hv : s'.received = s.received) : Change p s a s'
  | tunnel {a s' payload} (hadm : admits p (tunnelFrame p payload) = true) (hi : s'.convs = s.convs)
      (ha : s'.accepted = s.accepted ++ [tunnelFrame p payload])
      (hr : s'.receiver = s.receiver ∨ (∃ nonce, s.receiver = .pong nonce) ∧ s'.receiver = .idle)
      (hv : s'.received = s.received) (hk : ∀ hello, payload ≠ .hello hello) : Change p s a s'
  | waited {a : Action} {s' : Session} (hi : s'.convs = s.convs) (ha : s'.accepted = s.accepted)
      (hr : Waits s a s'.receiver) (hv : s'.received = s.received) : Change p s a s'
  | looked {frame : ConnectResponse} {now : Time} {s' : Session} (hi : s'.convs = s.convs)
      (ha : s'.accepted = s.accepted) (hidle : s.receiver = .idle)
      (hr : Looks p frame s'.receiver) (hv : s'.received = s.received ++ [frame]) :
      Change p s (.recv frame now) s'
  | applied {frame now s' k x x' m} (hidle : s.receiver = .idle)
      (hadm : admitsInbound p frame = true)
      (hlookup : s.requests.lookup (OpaqueID.copy frame.header.requestId) = some k)
      (hx : s.convs[k]? = some x)
      (hstep : Conv.Step p (s.envOf p x) x m x' [] none)
      (hi : s'.convs = s.convs.set k x') (ha : s'.accepted = s.accepted)
      (hr : Applies k frame m s'.receiver) (hv : s'.received = s.received ++ [frame]) :
      Change p s (.recv frame now) s'
  | rejected {frame code choice s'} (hrej : s.receiver = .rejecting frame code)
      (hadm : ∀ f ∈ rejection p frame.header code, admits p f = true)
      (hi : s'.convs = s.convs ++ [rejectedConv p frame code])
      (ha : s'.accepted = s.accepted ++ rejection p frame.header code)
      (hr : s'.receiver = .rejected frame s.convs.length) (hv : s'.received = s.received) :
      Change p s (.enqueueReject choice) s'
  | reserved {frame route s'} (hres : s.receiver = .reserving frame route)
      (hi : s'.convs = s.convs ++ [reservedConv frame route]) (ha : s'.accepted = s.accepted)
      (hr : s'.receiver = .reserved s.convs.length) (hv : s'.received = s.received) :
      Change p s .reserve s'
  | moved {a s' k x x' m frames err} (hx : s.convs[k]? = some x)
      (hstep : Conv.Step p (s.envOf p x) x m x' frames err) (hi : s'.convs = s.convs.set k x')
      (ha : s'.accepted = s.accepted ++ frames) (hr : Advances p s k x x' a m err s'.receiver)
      (hv : s'.received = s.received) : Change p s a s'

/-- A step that makes one move. -/
theorem Change.of_act (hact : s.act p k m = some (s₁, err)) (hi : s'.convs = s₁.convs)
    (ha : s'.accepted = s₁.accepted) (hv : s'.received = s₁.received)
    (hr : ∀ x x', s.convs[k]? = some x → s₁.convs = s.convs.set k x' →
      s₁.receiver = s.receiver → Advances p s k x x' a m err s'.receiver) : Change p s a s' := by
  obtain ⟨x, x', frames, hx, hstep, hi₁, ha₁, hr₁, hv₁⟩ := act_change hact
  exact .moved hx hstep (hi.trans hi₁) (ha.trans ha₁) (hr x x' hx hi₁ hr₁) (hv.trans hv₁)

/-- Apart from the move, such an action only changes the receive loop and two flags. -/
theorem step_act (h : s.step p a = some s') (ha : isAct a = true) :
    ∃ k m s₁ err, s.act p k m = some (s₁, err) ∧
      (∀ x x', s.convs[k]? = some x → s₁.convs = s.convs.set k x' → s₁.receiver = s.receiver →
        Advances p s k x x' a m err s'.receiver) ∧
      (∀ frame choice, m = .enqueueOpen frame choice → s.receiver = .openNumbered k frame) ∧
      (s'.isDone = s₁.isDone ∨ ∃ k, a = .cancelSession k) ∧
      (s'.loopEnded = s₁.loopEnded ∨ s'.loopEnded = true) ∧
      s' = { s₁ with
        receiver := s'.receiver, isDone := s'.isDone, loopEnded := s'.loopEnded } := by
  cases a with simp only [step] at h
  | numberOpen =>
    split at h
    · rename_i k hres
      simp only [Option.bind_eq_bind, Option.bind_eq_some_iff, Option.some_inj] at h
      obtain ⟨⟨s₁, err⟩, hact, x₁, hx₁, rfl⟩ := h
      refine ⟨k, _, s₁, err, hact, fun x x' hx hi _ ↦ ?_, by simp, .inl rfl, .inl rfl, rfl⟩
      rw [hi, Pool.set_self hx] at hx₁
      cases hx₁
      exact .numberOpen hres
    · cases h
  | enqueueOpen choice =>
    split at h
    · rename_i k frame hnum
      have hopen : ∀ f c, Move.enqueueOpen frame choice = .enqueueOpen f c →
          s.receiver = .openNumbered k f := by
        rintro f c ⟨⟩
        exact hnum
      split at h <;> cases h <;> rename_i hact
      · exact ⟨k, _, _, _, hact, fun _ _ _ _ _ ↦ .openGranted hnum, hopen, .inl rfl, .inl rfl, rfl⟩
      · exact ⟨k, _, _, _, hact, fun _ _ _ _ _ ↦ .openRefused hnum, hopen, .inl rfl, .inl rfl, rfl⟩
    · cases h
  | abortOpen =>
    split at h
    · rename_i k href
      simp only [Option.bind_eq_bind, Option.bind_eq_some_iff, Option.some_inj] at h
      obtain ⟨x, hx, ⟨s₁, err⟩, hact, rfl⟩ := h
      refine ⟨k, _, s₁, err, hact, fun y _ hy _ _ ↦ ?_, by simp, .inl rfl, .inl rfl, rfl⟩
      cases hx.symm.trans hy
      exact .openAborted href
    · cases h
  | data choice =>
    split at h
    · rename_i k frame hdata
      simp only [Option.bind_eq_bind, Option.bind_eq_some_iff] at h
      obtain ⟨x, hx, h⟩ := h
      split at h <;> cases h <;> rename_i hact
      · exact ⟨k, _, _, _, hact, fun _ _ _ _ _ ↦ .data hdata, by simp, .inl rfl, .inl rfl, rfl⟩
      · refine ⟨k, _, _, _, hact, fun y _ hy _ _ ↦ ?_, by simp, .inl rfl, .inr rfl, rfl⟩
        cases hx.symm.trans hy
        exact .dataFailed hdata
    · cases h
  | halfClose =>
    split at h
    · rename_i k frame hclose
      split at h <;> cases h <;> rename_i hact
      · exact ⟨k, _, _, _, hact, fun _ _ _ _ _ ↦ .halfClose hclose, by simp, .inl rfl,
          .inl rfl, rfl⟩
      · exact ⟨k, _, _, _, hact, fun _ _ _ _ _ ↦ .halfCloseFailed hclose, by simp, .inl rfl,
          .inr rfl, rfl⟩
    · cases h
  | cancelContext =>
    split at h
    · rename_i k hcancel
      obtain ⟨⟨s₁, err⟩, hact, rfl⟩ := Option.map_eq_some_iff.mp h
      exact ⟨k, _, s₁, err, hact, fun _ _ _ _ _ ↦ .canceled hcancel, by simp, .inl rfl, .inl rfl,
        rfl⟩
    · cases h
  | claimCancel =>
    split at h
    · rename_i k hcomp
      simp only [Option.bind_eq_bind, Option.bind_eq_some_iff, Option.some_inj] at h
      obtain ⟨x, hx, ⟨s₁, err⟩, hact, rfl⟩ := h
      refine ⟨k, _, s₁, err, hact, fun y _ hy _ _ ↦ ?_, by simp, .inl rfl, .inl rfl, rfl⟩
      cases hx.symm.trans hy
      exact .completed hcomp
    · cases h
  | abort k =>
    split at h
    · obtain ⟨⟨s₁, err⟩, hact, rfl⟩ := Option.map_eq_some_iff.mp h
      exact ⟨k, _, s₁, err, hact, fun _ _ _ _ hr ↦ hr ▸ .abort, by simp, .inl rfl, .inl rfl, rfl⟩
    · cases h
  | worker k move =>
    split at h
    · rename_i e
      split at h
      · obtain ⟨⟨s₁, err⟩, hact, rfl⟩ := Option.map_eq_some_iff.mp h
        exact ⟨k, _, s₁, err, hact, fun _ _ _ _ hr ↦ hr ▸ .worker (.inr ⟨e, rfl⟩), by simp,
          .inl rfl, .inl rfl, rfl⟩
      · cases h
    · split at h
      · rename_i hm
        obtain ⟨⟨s₁, err⟩, hact, rfl⟩ := Option.map_eq_some_iff.mp h
        refine ⟨k, _, s₁, err, hact, fun _ _ _ _ hr ↦ hr ▸ .worker (.inl hm), fun f choice he ↦ ?_,
          .inl rfl, .inl rfl, rfl⟩
        rw [he] at hm
        exact Bool.noConfusion hm
      · cases h
  | cancelSession k =>
    obtain ⟨⟨s₁, err⟩, hact, rfl⟩ := Option.map_eq_some_iff.mp h
    exact ⟨k, _, s₁, err, hact, fun _ _ _ _ hr ↦ hr ▸ .session, by simp, .inr ⟨k, rfl⟩, .inl rfl,
      rfl⟩
  | _ => cases ha

/-- The first critical section of a frame either applies it or changes nothing. -/
theorem update_eq {x x' frames} (h : Conv.Step p env x m x' frames err)
    (hm : m = .requestForFrame frame ∨ m = .credit frame ∨ m = .cancel frame) :
    frames = [] ∧ (err.isSome = true → x' = x) := by
  obtain rfl | rfl | rfl := hm
  all_goals
    cases h with
    | claimed hs | unclaimed hs | goes hs => cases hs
    | contextDone hm => simp at hm
    | violation => exact ⟨rfl, fun _ ↦ rfl⟩
    | _ => exact ⟨rfl, fun h ↦ absurd h (by simp)⟩

/-- The update either is applied to the conversation, or leaves all conversations alone. -/
theorem update_change {receiver} (hidle : s.receiver = .idle) (hadm : admitsInbound p frame = true)
    (hlookup : s.requests.lookup (OpaqueID.copy frame.header.requestId) = some k)
    (hm : m = .requestForFrame frame ∨ m = .credit frame ∨ m = .cancel frame)
    (hact : act p { s with received := s.received ++ [frame] } k m = some (s₁, err))
    (hok : err = none → Applies k frame m receiver)
    (herr : err.isSome = true → Looks p frame receiver) (hi : s'.convs = s₁.convs)
    (ha : s'.accepted = s₁.accepted) (hr : s'.receiver = receiver)
    (hv : s'.received = s₁.received) : Change p s (.recv frame now) s' := by
  obtain ⟨x, x', frames, hx, hstep, hi₁, ha₁, -, hv₁⟩ := act_change hact
  obtain ⟨rfl, hsame⟩ := update_eq hstep hm
  rw [List.append_nil] at ha₁
  cases err with
  | none =>
    exact .applied hidle hadm hlookup hx hstep (hi.trans hi₁) (ha.trans ha₁)
      (hr ▸ hok rfl) (hv.trans hv₁)
  | some =>
    obtain rfl := hsame rfl
    refine .looked ?_ (ha.trans ha₁) hidle (hr ▸ herr rfl) (hv.trans hv₁)
    obtain ⟨hk, rfl⟩ := List.getElem?_eq_some_iff.mp hx
    rw [hi, hi₁]
    exact List.set_getElem_self hk

theorem handleOpen_looks (now : Time) {request}
    (hadm : admitsInbound p frame = true) (hk : frame.payload = .opened request) :
    Looks p frame (s.handleOpen p frame request now).receiver ∧
      (s.handleOpen p frame request now).convs = s.convs ∧
      (s.handleOpen p frame request now).accepted = s.accepted ∧
      (s.handleOpen p frame request now).received = s.received := by
  simp only [handleOpen]
  split
  · exact ⟨.stopped, rfl, rfl, rfl⟩
  · rename_i hseq
    have hseq : frame.header.sequence = 1 := by simpa using hseq
    split
    · exact ⟨.rejecting hadm hk hseq (by simp), rfl, rfl, rfl⟩
    · split
      · exact ⟨.rejecting hadm hk hseq (by simp), rfl, rfl, rfl⟩
      · rename_i route hroute
        split
        · exact ⟨.rejecting hadm hk hseq (by simp), rfl, rfl, rfl⟩
        · rename_i hmem
          split
          · exact ⟨.stopped, rfl, rfl, rfl⟩
          · rename_i hclass
            split
            · exact ⟨.rejecting hadm hk hseq (by simp), rfl, rfl, rfl⟩
            · split
              · exact ⟨.rejecting hadm hk hseq (by simp), rfl, rfl, rfl⟩
              · split
                · exact ⟨.rejecting hadm hk hseq (by simp), rfl, rfl, rfl⟩
                · simp only [not_or, not_not] at hclass
                  exact ⟨.reserving hadm hk hseq hroute (by simpa using hmem) hclass.2,
                    rfl, rfl, rfl⟩

/-- What `handleFrame` does apart from the receive loop: nothing, one move, or the start of a
drain. -/
inductive Hands (p : Params) (s : Session) : Session → Prop
  | looked {s' : Session}
      (hs' : s' = { s with receiver := s'.receiver, loopEnded := s'.loopEnded })
      (hended : s'.loopEnded = s.loopEnded ∨ s'.loopEnded = true) : Hands p s s'
  | acted {s' s₁ : Session} {k : Ref} {m : Move} {err : Option Err}
      (hact : s.act p k m = some (s₁, err)) (hm : ∀ f choice, m ≠ .enqueueOpen f choice)
      (hs' : s' = { s₁ with receiver := s'.receiver, loopEnded := s'.loopEnded })
      (hended : s'.loopEnded = s₁.loopEnded ∨ s'.loopEnded = true) : Hands p s s'
  | drain : Hands p s s.handlePeerDrain

theorem handleBody_change (hidle : s.receiver = .idle) (hadm : admitsInbound p frame = true)
    (hnext : ∀ k, Applies k frame (.requestForFrame frame) (next k))
    (h : handleBody p { s with received := s.received ++ [frame] } frame next = some s') :
    Change p s (.recv frame now) s' ∧ Hands p { s with received := s.received ++ [frame] } s' := by
  rw [handleBody] at h
  split at h
  · cases h
    exact ⟨.looked rfl rfl hidle .stopped rfl, .looked rfl (.inr rfl)⟩
  · rename_i k hlookup
    split at h
    · cases h
    · rename_i hact
      cases h
      refine ⟨?_, .acted hact (by simp) rfl (.inl rfl)⟩
      exact update_change hidle hadm hlookup (.inl rfl) hact (fun _ ↦ hnext k) (by simp)
        rfl rfl rfl rfl
    · rename_i e hact
      cases h
      refine ⟨?_, .acted hact (by simp) rfl (.inr rfl)⟩
      exact update_change hidle hadm hlookup (.inl rfl) hact (by simp)
        (fun _ ↦ .stopped (e := e)) rfl rfl rfl rfl

theorem handleUpdate_change (hidle : s.receiver = .idle) (hadm : admitsInbound p frame = true)
    (hk : (∃ n, frame.payload = .credit n) ∨ ∃ reason, frame.payload = .cancel reason)
    (hm : m = .credit frame ∨ m = .cancel frame) (hnext : ∀ k, Applies k frame m (next k))
    (h : handleUpdate p { s with received := s.received ++ [frame] } frame m next = some s') :
    Change p s (.recv frame now) s' ∧ Hands p { s with received := s.received ++ [frame] } s' := by
  have hopen : ∀ f choice, m ≠ .enqueueOpen f choice := by
    obtain rfl | rfl := hm <;> simp
  rw [handleUpdate] at h
  split at h
  · cases h
    exact ⟨.looked rfl rfl hidle (.late hadm hk) rfl, .looked rfl (.inl rfl)⟩
  · rename_i k hlookup
    split at h
    · cases h
    · rename_i hact
      cases h
      refine ⟨?_, .acted hact hopen rfl (.inl rfl)⟩
      exact update_change hidle hadm hlookup (.inr hm) hact (fun _ ↦ hnext k) (by simp)
        rfl rfl rfl rfl
    · rename_i hact
      cases h
      refine ⟨?_, .acted hact hopen rfl (.inl rfl)⟩
      exact update_change hidle hadm hlookup (.inr hm) hact (by simp)
        (fun _ ↦ .late hadm hk) rfl rfl rfl rfl

theorem handleFrame_change (hidle : s.receiver = .idle)
    (h : handleFrame p { s with received := s.received ++ [frame] } frame now = some s') :
    Change p s (.recv frame now) s' ∧ Hands p { s with received := s.received ++ [frame] } s' := by
  rw [handleFrame] at h
  split at h
  · rename_i hadm
    split at h
    · rename_i request hk
      cases h
      obtain ⟨hlooks, hi, ha, hv⟩ := handleOpen_looks now hadm hk
        (s := { s with received := s.received ++ [frame] })
      refine ⟨.looked hi ha hidle hlooks hv, ?_⟩
      simp only [handleOpen]
      repeat' split
      all_goals first | exact .looked rfl (.inl rfl) | exact .looked rfl (.inr rfl)
    · rename_i b hk
      exact handleBody_change hidle hadm (fun _ ↦ .data hk) h
    · rename_i hk
      exact handleBody_change hidle hadm (fun _ ↦ .halfClose hk) h
    · rename_i reason hk
      exact handleUpdate_change hidle hadm (.inr ⟨_, hk⟩) (.inr rfl) (fun _ ↦ .cancel hk) h
    · rename_i n hk
      exact handleUpdate_change hidle hadm (.inl ⟨_, hk⟩) (.inl rfl) (fun _ ↦ .credit hk) h
    · rename_i nonce hk
      cases h
      exact ⟨.looked rfl rfl hidle (.pong hadm hk) rfl, .looked rfl (.inl rfl)⟩
    · rename_i nonce hk
      cases h
      exact ⟨.looked rfl rfl hidle (hidle ▸ .control hadm (.inl ⟨_, hk⟩)) rfl,
        .looked rfl (.inl rfl)⟩
    · rename_i d hk
      cases h
      refine ⟨?_, .drain⟩
      rw [handlePeerDrain]
      split <;> exact .looked rfl rfl hidle (hidle ▸ .control hadm (.inr ⟨_, hk⟩)) rfl
    all_goals
      cases h
      exact ⟨.looked rfl rfl hidle .stopped rfl, .looked rfl (.inr rfl)⟩
  · cases h
    exact ⟨.looked rfl rfl hidle .stopped rfl, .looked rfl (.inr rfl)⟩

end Session

end MarketMesh.GatewayOut
