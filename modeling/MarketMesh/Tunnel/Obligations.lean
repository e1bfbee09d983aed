import MarketMesh.GatewayOut.Conforming
import MarketMesh.Tunnel.Link

/-!
# What gateway-out owes its peer

* The responses of a session that drains are sent before the session is canceled.  But `drain`
  waits only until no request is active; the last frames of a response may still be in a queue then,
  and the send loop may see the canceled context before it takes them.
* Every Open is answered once.  But the deadline of a drain, or a full queue, ends a request without
  an answer.
* A class of requests leaves the others alone.  But a full queue of one class may end the session of
  all.
* A request that gateway-out ends early does not cost the tunnel.  But a Data or a HalfClose that is
  on the wire by then breaks the protocol for gateway-out.

For each this file says in which runs it holds, with a run in which it does not.
-/

set_option autoImplicit false

namespace MarketMesh.Tunnel

open Protocol Machine

namespace Link

/-- A drain of gateway-out only ends when no frame of a response waits to be sent. -/
def drainsEmpty (l : Link) : Action → Bool
  | .gatewayIn _ => true
  | .gatewayOut a => l.gatewayOut.drainsEmpty a

end Link

namespace Script

/-- The conversation 0 queues its HalfClose and Result and leaves the table. -/
def finished : List (Link → Action) :=
  [worker 0 (.enqueueBatch .room), worker 0 .cleanup, gout (.release 0)]

/-- A local shutdown sends its Drain and, after the steps `rest`, finds no active request and
cancels the session. -/
def shutdown (rest : List (Link → Action)) : List (Link → Action) :=
  [gout .drainStart, gout (.drainClaim .localShutdown),
    gout (.drainEnqueue .localShutdown 1000 .room), gout (.take .control), gout .send,
    gout (.drainDelivered .localShutdown)] ++ rest ++
  [gout (.drainPoll .localShutdown), gout (.drainCancel .localShutdown), gout .poll,
    gout .senderDone]

/-- The deadline of a local shutdown passes while the conversation 0 is active, and it is aborted.
-/
def drainExpired : List (Link → Action) :=
  [gout .drainStart, gout (.drainClaim .localShutdown),
    gout (.drainEnqueue .localShutdown 1000 .room), gout (.take .control), gout .send,
    gout (.drainDelivered .localShutdown), gout (.drainPoll .localShutdown),
    gout (.drainExpire .localShutdown), gout (.abort 0), worker 0 .cleanup, gout (.release 0)]

/-- A second call reaches gateway-out while the Credit of the first one fills the queue. -/
def openRefused : List (Link → Action) :=
  opened (forward ++ accept ++ forward) ++ [start 8 []] ++ openRequest 1 ++ forward ++
  [gout .reserve, gout .numberOpen, gout (.enqueueOpen .full), gout .abortOpen,
    worker 1 .cleanup, gout (.release 1), gout .awaited]

/-- The only call is answered while its Credit fills the queue, so that the end of the response is
refused. -/
def batchRefused : List (Link → Action) :=
  opened (forward ++ accept ++ forward ++ [invoke 0 (.enqueueHalfClose calm)] ++ forward ++
    [gout .halfClose, worker 0 (.execute (.replied [])), worker 0 .claimExecutor,
      worker 0 (.enqueueBatch .full), gout (.cancelSession 0)])

end Script

/-- **A drain that finds no active request leaves no response behind**, in the runs in which none
waits to be sent when it looks: whatever was queued for a request that `completeRequest` ended has
been handed to `Send`. -/
theorem sent_of_drained (p : GatewayOut.Params) :
    ∀ s, Reach (GatewayOut.Session.step p) (fun s a ↦ s.drainsEmpty a = true) {} s →
      ∀ d, (s.drains d).isSettled = true → ∀ x ∈ s.convs, x.refused = false →
        x.completer = .done ∧
          ∀ f ∈ x.queued, GatewayOut.isResponse f = true → f ∈ s.sent :=
  fun _ h ↦ (GatewayOut.Session.settled h).sent

open Script in
/-- The response is sent before the shutdown looks at the table. -/
theorem sent_of_drained_answer :
    ∃ pin pout, (sample sampleLimits 16).params = some (pin, pout) ∧ ∃ l,
      Reach (Link.step pin pout) (fun l a ↦ (l.fresh a && l.drainsEmpty a) = true) {} l ∧
      l.gatewayOut.drains .localShutdown = .canceled true ∧ l.gatewayOut.convs.length = 1 ∧
      (l.gatewayOut.convs.all fun x ↦ x.queued.any GatewayOut.isResponse) = true ∧
      ∀ x ∈ l.gatewayOut.convs, x.refused = false → x.completer = .done ∧
        ∀ f ∈ x.queued, GatewayOut.isResponse f = true → f ∈ l.gatewayOut.sent := by
  obtain ⟨pin, pout, hp, l, hreach, hd, hlen, hresp⟩ := (sample sampleLimits 16).exists_of_replay
    (answered [] ++ finished ++ shutdown (emit 2)) (fun _ _ l a ↦ l.fresh a && l.drainsEmpty a)
    (fun _ _ l ↦ l.gatewayOut.drains .localShutdown = .canceled true ∧
      l.gatewayOut.convs.length = 1 ∧
      (l.gatewayOut.convs.all fun x ↦ x.queued.any GatewayOut.isResponse) = true)
    (by decide +kernel)
  refine ⟨pin, pout, hp, l, hreach, hd, hlen, hresp, ?_⟩
  refine sent_of_drained pout l.gatewayOut (Link.reach_gatewayOut (fun l a h ↦ ?_) hreach)
    .localShutdown (by rw [hd]; rfl)
  exact (Bool.and_eq_true_iff.mp h).2

open Script in
/-- **A finished response is lost.**  The HalfClose and the Result of the only call are queued when
the shutdown finds no active request and cancels the session, and the send loop sees the canceled
context first. -/
theorem drain_loses_response :
    ∃ pin pout, (sample sampleLimits 16).params = some (pin, pout) ∧ ∃ l,
      Reach (Link.step pin pout) (fun l a ↦ l.fresh a = true) {} l ∧
      l.gatewayOut.drains .localShutdown = .canceled true ∧
      l.gatewayOut.sender = .stopped [] ∧
      ∃ x ∈ l.gatewayOut.convs, x.refused = false ∧ x.completer = .done ∧
        ∃ f ∈ x.queued, f.payload = .result { code := .ok } ∧ f ∉ l.gatewayOut.sent := by
  exact (sample sampleLimits 16).exists_of_replay (answered [] ++ finished ++ shutdown []) _ _
    (by decide +kernel)

/-! ## One answer for every Open -/

namespace Link

/-- Gateway-out ends no request without an answer. -/
def answersAdmitted (pout : GatewayOut.Params) (l : Link) : Action → Bool
  | .gatewayIn _ => true
  | .gatewayOut a => l.gatewayOut.answersAdmitted pout a

end Link

/-- **Every Open is answered once**, in the runs in which no queue refuses the first Credit of a
request or the refusal of an Open, and no drain reaches its deadline: as long as the session is not
canceled, a received Open is still being handled, or its request is active and not yet answered, or
one HalfClose and one Result were queued for it. -/
theorem answered_once (p : GatewayOut.Params) :
    ∀ s, Reach (GatewayOut.Session.step p)
        (fun s a ↦ (s.freshOpen a && s.answersAdmitted p a) = true) {} s → s.isDone = false →
      ∀ frame ∈ s.received, ∀ request, frame.payload = .opened request →
        s.receiver.Holds frame ∨
        ((s.requests.lookup (OpaqueID.copy frame.header.requestId)).isSome = true ∧
          GatewayOut.Body (s.accepted.filter
            fun f ↦ f.header.requestId = frame.header.requestId)) ∨
        GatewayOut.AnsweredOnce (s.accepted.filter
          fun f ↦ f.header.requestId = frame.header.requestId) := by
  intro s h hd frame hf request hk
  have hok : ∀ (s : GatewayOut.Session) (a : GatewayOut.Action),
      (s.freshOpen a && s.answersAdmitted p a) = true → s.answersAdmitted p a = true :=
    fun s a h ↦ (Bool.and_eq_true_iff.mp h).2
  have hfresh := h.mono fun s a h ↦ (Bool.and_eq_true_iff.mp h).1
  obtain hholds | ⟨x, hx, hfx⟩ := GatewayOut.Session.traced h hok hd frame hf request hk
  · exact .inl hholds
  obtain ⟨k, hk⟩ := List.getElem?_of_mem hx
  obtain ⟨hqueued, log, -, hhandled⟩ := GatewayOut.Session.histories hfresh
  have hid : frame.header.requestId = x.request.requestID := by
    rw [← hhandled.own_eq hk] at hfx
    simpa using List.of_mem_filter hfx
  rw [hid, hqueued.own_eq hk, ← GatewayOut.Session.key_eq h x hx]
  obtain ⟨hlookup, hbody⟩ | hanswered := GatewayOut.Session.answered_or_active h hok hd hk
  · exact .inr (.inl ⟨by rw [hlookup]; rfl, hbody⟩)
  · exact .inr (.inr hanswered)

open Script in
/-- A call that is answered and leaves the table. -/
theorem answered_once_call :
    ∃ pin pout, (sample sampleLimits 16).params = some (pin, pout) ∧ ∃ l,
      Reach (Link.step pin pout)
        (fun l a ↦ (l.fresh a && l.answersAdmitted pout a) = true) {} l ∧
      ∃ frame ∈ l.gatewayOut.received, (∃ request, frame.payload = .opened request) ∧
        GatewayOut.AnsweredOnce (l.gatewayOut.accepted.filter
          fun f ↦ f.header.requestId = frame.header.requestId) := by
  obtain ⟨pin, pout, hp, l, hreach, hd, hidle, hempty, frame, hf, hopen⟩ :=
    (sample sampleLimits 16).exists_of_replay (answered [] ++ finished)
      (fun _ pout l a ↦ l.fresh a && l.answersAdmitted pout a)
      (fun _ _ l ↦ l.gatewayOut.isDone = false ∧ l.gatewayOut.receiver = .idle ∧
        l.gatewayOut.requests.entries = [] ∧
        ∃ f ∈ l.gatewayOut.received, GatewayIn.isOpen f = true)
      (by decide +kernel)
  obtain ⟨request, hk⟩ : ∃ request, frame.payload = .opened request := by
    unfold GatewayIn.isOpen at hopen
    split at hopen
    · exact ⟨_, by assumption⟩
    · cases hopen
  refine ⟨pin, pout, hp, l, hreach, frame, hf, ⟨request, hk⟩, ?_⟩
  have hout : Reach (GatewayOut.Session.step pout)
      (fun s a ↦ (s.freshOpen a && s.answersAdmitted pout a) = true) {} l.gatewayOut :=
    Link.reach_freshOpen (fun l a h ↦ (Bool.and_eq_true_iff.mp h).1)
      (fun l a h ↦ (Bool.and_eq_true_iff.mp h).2) hreach
  obtain hholds | ⟨hactive, -⟩ | hanswered :=
    answered_once pout l.gatewayOut hout hd frame hf request hk
  · simp [GatewayOut.Receiver.Holds, hidle] at hholds
  · rw [AList.ext (t := ∅) hempty] at hactive
    cases hactive
  · exact hanswered

open Script in
/-- **An Open is dropped.**  The deadline of a drain aborts the only request, or the first Credit of
a second request is refused because the queue is full; in either run the session is not canceled,
the request has left the table, and nothing of an answer was queued for it. -/
theorem open_dropped :
    ∃ pin pout, (sample sampleLimits 16).params = some (pin, pout) ∧
      (∃ l, Reach (Link.step pin pout) (fun l a ↦ l.fresh a = true) {} l ∧
        l.gatewayOut.isDone = false ∧ l.gatewayOut.requests.entries = [] ∧
        l.gatewayOut.convs.length = 1 ∧
        ∀ f ∈ l.gatewayOut.accepted, GatewayOut.isResponse f = false) ∧
      ∃ l, Reach (Link.step pin pout) (fun l a ↦ l.fresh a = true) {} l ∧
        l.gatewayOut.isDone = false ∧ l.gatewayOut.receiver = .idle ∧
        l.gatewayOut.requests.entries.length = 1 ∧ l.gatewayOut.convs.length = 2 ∧
        ∀ f ∈ l.gatewayOut.accepted, GatewayOut.isResponse f = false := by
  refine Deployment.both ?_ ?_
  · exact (sample sampleLimits 16).exists_of_replay (opened (forward ++ accept) ++ drainExpired) _ _
      (by decide +kernel)
  · exact (sample sampleLimits 16).exists_of_replay openRefused _ _ (by decide +kernel)

/-! ## Traffic classes -/

namespace Link

/-- The peer of gateway-out keeps to the protocol. -/
def conforms (pout : GatewayOut.Params) (l : Link) : Action → Bool
  | .gatewayIn _ => true
  | .gatewayOut a => l.gatewayOut.conforms pout a

/-- The peer of gateway-out keeps to the protocol, and nothing of the classes gives gateway-out a
reason to end the session. -/
def goesOn (classes : TrafficClass → Bool) (pout : GatewayOut.Params) (l : Link) : Action → Bool
  | .gatewayIn _ => true
  | .gatewayOut a => l.gatewayOut.goesOn classes pout a

end Link

section

variable {classes : TrafficClass → Bool} {p : GatewayOut.Params} {s : GatewayOut.Session}
  (h : Reach (GatewayOut.Session.step p) (fun s a ↦ s.goesOn classes p a = true) {} s)

include h

/-- Who cancels a session, when nothing of the classes gives a reason to. -/
theorem canceled_cases (hd : s.isDone = false) {a s'}
    (hstep : s.step p a = some s') (hd' : s'.isDone = true) :
    a = .runCancel ∨ (∃ d, a = .drainCancel d) ∨ ∃ k x, a = .cancelSession k ∧
      s.convs[k]? = some x ∧ classes x.request.route.trafficClass = false := by
  obtain heq | ⟨-, ha | ha | ⟨k, rfl⟩⟩ := GatewayOut.Session.isDone_cases hstep
  · rw [heq, hd] at hd'
    cases hd'
  · exact .inl ha
  · exact .inr (.inl ha)
  · simp only [GatewayOut.Session.step] at hstep
    obtain ⟨⟨s₁, err⟩, hact, -⟩ := Option.map_eq_some_iff.mp hstep
    obtain ⟨x, x', fs, hx, hmove, -⟩ := GatewayOut.Session.act_eq_some hact
    refine .inr (.inr ⟨k, x, rfl, hx, Bool.eq_false_iff.mpr fun hclass ↦ ?_⟩)
    refine (GatewayOut.Session.spared h).2 hd x (List.mem_of_getElem? hx) hclass ?_
    simp only [GatewayOut.Conv.step] at hmove
    split at hmove
    · assumption
    · cases hmove

/-- Where the receive loop ends, as `stops_cases` says for any classes. -/
theorem stopped_cases (classes' : TrafficClass → Bool) {a s'} (hok : s.goesOn classes' p a = true)
    (hstop : GatewayOut.Session.Stops p s a s') :
    s'.receiver = .stopped none .sessionClosed ∨ (∃ nonce, s.receiver = .pong nonce) ∨
      ∃ f, s'.received.getLast? = some f ∧ f.payload.ofRequest = true ∧
        classes' f.header.trafficClass = false := by
  refine GatewayOut.Session.stops_cases (GatewayOut.Session.spared h).1 (h.mono fun s a h ↦ ?_)
    hok hstop
  simp only [GatewayOut.Session.goesOn, Bool.and_eq_true] at h
  exact GatewayOut.Session.freshOpen_of_conforms h.1.1

end

/-- **A frame of a request does not cost the tunnel**, when the peer keeps to the protocol and in
the runs in which its Data and HalfClose find the request active, its Credit and Cancel find it in
one of the tables, and no queue refuses a frame: as long as the session is not canceled,
`handleFrame` returns no error for a frame of a request, and the session is not canceled for one. -/
theorem request_spares_tunnel (p : GatewayOut.Params) :
    ∀ s, Reach (GatewayOut.Session.step p) (fun s a ↦ s.goesOn (fun _ ↦ true) p a = true) {} s →
      s.isDone = false →
      (∀ a s', s.goesOn (fun _ ↦ true) p a = true → GatewayOut.Session.Stops p s a s' →
        s'.receiver = .stopped none .sessionClosed ∨ ∃ nonce, s.receiver = .pong nonce) ∧
      ∀ a s', s.step p a = some s' → s'.isDone = true →
        a = .runCancel ∨ ∃ d, a = .drainCancel d := by
  intro s h hd
  constructor
  · intro a s' hok hstop
    simpa using stopped_cases h _ hok hstop
  · intro a s' hstep hd'
    simpa using canceled_cases h hd hstep hd'

namespace Script

/-- The HalfClose of the only call is on the wire when its deadline passes: gateway-out answers, and
the request has left the table when the frame arrives. -/
def finishedEarly : List (Link → Action) :=
  opened (forward ++ accept ++ emit 1 ++ forward ++ [invoke 0 (.enqueueHalfClose calm),
    gin (.dequeue GatewayIn.regularLane), gin .send,
    worker 0 (.expire .deadlineExceeded), worker 0 .watcherExpired,
    worker 0 .claimWatcher] ++ finished ++ [goutRecv 0])

end Script

open Script in
/-- The deadline of the only call passes before its Credit arrives, which the terminal ring takes.
-/
theorem request_spares_tunnel_call :
    ∃ pin pout, (sample sampleLimits 16).params = some (pin, pout) ∧ ∃ l,
      Reach (Link.step pin pout)
        (fun l a ↦ (l.fresh a && l.goesOn (fun _ ↦ true) pout a) = true) {} l ∧
      l.gatewayOut.requests.entries = [] ∧ l.gatewayOut.receiver = .idle ∧
      (l.gatewayOut.received.map (·.payload)).getLast? = some (.credit 16) ∧
      (∀ a s', l.gatewayOut.goesOn (fun _ ↦ true) pout a = true →
        GatewayOut.Session.Stops pout l.gatewayOut a s' →
        s'.receiver = .stopped none .sessionClosed ∨ ∃ nonce, l.gatewayOut.receiver = .pong nonce) ∧
      ∀ a s', l.gatewayOut.step pout a = some s' → s'.isDone = true →
        a = .runCancel ∨ ∃ d, a = .drainCancel d := by
  obtain ⟨pin, pout, hp, l, hreach, hd, hempty, hidle, hlast⟩ :=
    (sample sampleLimits 16).exists_of_replay
      (opened (forward ++ accept ++ emit 1 ++ [worker 0 (.expire .deadlineExceeded),
        worker 0 .watcherExpired, worker 0 .claimWatcher] ++ finished ++ forward ++ [gout .late]))
      (fun _ pout l a ↦ l.fresh a && l.goesOn (fun _ ↦ true) pout a)
      (fun _ _ l ↦ l.gatewayOut.isDone = false ∧ l.gatewayOut.requests.entries = [] ∧
        l.gatewayOut.receiver = .idle ∧
        (l.gatewayOut.received.map (·.payload)).getLast? = some (.credit 16))
      (by decide +kernel)
  refine ⟨pin, pout, hp, l, hreach, hempty, hidle, hlast,
    request_spares_tunnel pout l.gatewayOut (Link.reach_gatewayOut (fun l a h ↦ ?_) hreach) hd⟩
  exact (Bool.and_eq_true_iff.mp h).2

open Script in
/-- **A request that ends early costs the tunnel.**  The peer keeps to the protocol, no queue is
full, and `handleFrame` returns an error for the HalfClose of a call that was answered before. -/
theorem finished_early_ends_session :
    ∃ pin pout, (sample sampleLimits 16).params = some (pin, pout) ∧ ∃ l,
      Reach (Link.step pin pout) (fun l a ↦ (l.fresh a && l.conforms pout a) = true) {} l ∧
      l.gatewayOut.isDone = false ∧ ∃ f, f.payload = .halfClose ∧
        l.gatewayOut.received.getLast? = some f ∧
        l.gatewayOut.receiver = .stopped (some f) .protocol := by
  obtain ⟨pin, pout, hp, l, hreach, hd, f, -, hf⟩ := (sample sampleLimits 16).exists_of_replay
    finishedEarly (fun _ pout l a ↦ l.fresh a && l.conforms pout a)
    (fun _ _ l ↦ l.gatewayOut.isDone = false ∧ ∃ f ∈ l.gatewayOut.received,
      f.payload = .halfClose ∧ l.gatewayOut.received.getLast? = some f ∧
      l.gatewayOut.receiver = .stopped (some f) .protocol)
    (by decide +kernel)
  exact ⟨pin, pout, hp, l, hreach, hd, f, hf⟩

end MarketMesh.Tunnel
