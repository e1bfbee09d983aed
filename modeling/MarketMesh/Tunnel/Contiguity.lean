import MarketMesh.GatewayIn.Sequence
import MarketMesh.GatewayOut.Incoming
import MarketMesh.GatewayOut.Sequence
import MarketMesh.Tunnel.Link

/-!
# The numbers on the wire

Either end checks that a frame it receives carries the number after the last one of its request.
Both ends spend a number before they know whether their queue takes the frame, so a refusal can
leave a gap in what the other end sees, and the other end then gives up the whole tunnel.

For both directions this file says which refusals do so, with a run of each, and shows that no
check fails in the runs without them.
-/

set_option autoImplicit false

namespace MarketMesh

open Protocol Machine

namespace GatewayOut.Session

variable {p : Params} {s : Session}

/-- The number `handleTerminalFrame` compares is the expected one. -/
def expectsTerminal (s : Session) (frame : ConnectResponse) : Bool :=
  (s.terminal.lookup (OpaqueID.copy frame.header.requestId)).all fun t ↦
    frame.header.sequence = t.incomingSequence + 1

/-- The number the handler of a received frame compares is the expected one.  A frame that is not
admitted is not looked at, and a frame of no known request has no number to be compared with. -/
def expectsReceived (p : Params) (s : Session) (frame : ConnectResponse) : Bool :=
  !admitsInbound p frame ||
    match frame.payload with
    | .opened _ => frame.header.sequence = 1
    | .data _ | .halfClose | .credit _ | .cancel _ =>
      (s.requests.lookup (OpaqueID.copy frame.header.requestId)).all fun k ↦
        (s.convs[k]?).all fun x ↦ frame.header.sequence = x.request.incomingSequence + 1
    | _ => true

end GatewayOut.Session

namespace Tunnel

namespace Link

variable {pin : GatewayIn.Params} {pout : GatewayOut.Params} {l : Link} {frame : ConnectResponse}

/-- The number of the frame gateway-out looks at, or will look at next, is the expected one. -/
def expectedByGatewayOut (pout : GatewayOut.Params) (l : Link) : Bool :=
  match l.gatewayOut.receiver with
  | .idle =>
    (l.gatewayIn.sent[l.gatewayOut.received.length]?).all (l.gatewayOut.expectsReceived pout)
  | .late frame => l.gatewayOut.expectsTerminal frame
  | _ => true

/-- The number of the frame gateway-in looks at is the expected one. -/
def expectedByGatewayIn (l : Link) : Bool :=
  match l.gatewayIn.reader with
  | .deliver r frame => (l.gatewayIn.invocations[r]?).all fun x ↦
    frame.header.sequence = x.request.inboundSequence + 1
  | _ => true

/-- No frame of a request is offered behind a refused one. -/
def calmGatewayIn (l : Link) : Action → Bool
  | .gatewayIn a => !l.gatewayIn.offersAfterRefusal a
  | .gatewayOut _ => true

/-- The queues of gateway-out take the Data and the Credits they are offered. -/
def calmGatewayOut (pout : GatewayOut.Params) (l : Link) : Action → Bool
  | .gatewayIn _ => true
  | .gatewayOut a => l.gatewayOut.offersAdmitted pout a

/-! ## From gateway-in to gateway-out -/

/-- The next frame of a request carries the number after those gateway-out received of it. -/
theorem Sound.sequence_next (hs : Sound pin pout l)
    (hnum : ∀ x ∈ l.gatewayIn.invocations, GatewayIn.SequenceNumbered x.queued)
    (hnext : l.gatewayIn.sent[l.gatewayOut.received.length]? = some frame)
    (hid : frame.header.requestId ≠ []) :
    frame.header.sequence = (l.gatewayOut.received.filter
      fun f ↦ f.header.requestId = frame.header.requestId).length + 1 := by
  have hpre := prefix_concat hs.requests hnext
  obtain ⟨r, x, hx, hfx⟩ := hs.exists_sender (hpre.subset (by simp)) hid
  have hfilter := (hpre.filter (fun f ↦ f.header.requestId = x.request.id.toList)).trans
    (GatewayIn.Session.prefix_of_sent hs.gatewayIn hx)
  rw [List.filter_append, ← hfx, List.filter_cons_of_pos (by simp), List.filter_nil] at hfilter
  exact (hnum x (List.mem_of_getElem? hx)).next hfilter

/-- What an idle receive loop received of a conversation is what the conversation handled. -/
theorem Sound.received_of_idle (hs : Sound pin pout l) (hidle : l.gatewayOut.receiver = .idle)
    {k : GatewayOut.Ref} {y : GatewayOut.Conv} (hy : l.gatewayOut.convs[k]? = some y) :
    l.gatewayOut.received.filter (fun f ↦ f.header.requestId = y.request.requestID) =
      y.handled := by
  rw [GatewayOut.Session.received_filter hs.gatewayOut hy, hidle,
    GatewayOut.Receiver.hand_idle, List.filter_nil, List.append_nil]

/-- Nothing was received of a request that has no conversation. -/
theorem Sound.received_of_no_conv (hs : Sound pin pout l) (hidle : l.gatewayOut.receiver = .idle)
    {id} (hid : id ≠ []) (hno : ∀ y ∈ l.gatewayOut.convs, y.request.requestID ≠ id) :
    l.gatewayOut.received.filter (fun f ↦ f.header.requestId = id) = [] := by
  obtain ⟨log, hlog, hattr⟩ := (GatewayOut.Session.histories hs.gatewayOut).2
  rw [hidle, GatewayOut.Receiver.hand_idle, List.append_nil] at hlog
  rw [hlog, List.filter_eq_nil_iff]
  intro f hf hfid
  rw [decide_eq_true_eq] at hfid
  obtain hnil | ⟨y, hy, hfy⟩ := hattr.owned f hf
  · exact hid (hfid ▸ hnil)
  · exact hno y hy (by rw [← hfid, hfy])

/-- The frame an idle receive loop receives next has the number it expects. -/
theorem Sound.expectsReceived (hs : Sound pin pout l)
    (hnum : ∀ x ∈ l.gatewayIn.invocations, GatewayIn.SequenceNumbered x.queued)
    (hidle : l.gatewayOut.receiver = .idle)
    (hnext : l.gatewayIn.sent[l.gatewayOut.received.length]? = some frame) :
    l.gatewayOut.expectsReceived pout frame = true := by
  by_cases hadm : GatewayOut.Session.admitsInbound pout frame = true
  swap
  · rw [GatewayOut.Session.expectsReceived, Bool.eq_false_iff.mpr hadm]
    rfl
  have hcounted := GatewayOut.Session.counted hs.gatewayOut (by rw [hidle]; rfl)
  -- the frames of a request that is active
  have hactive : frame.payload.ofRequest = true →
      ((l.gatewayOut.requests.lookup (OpaqueID.copy frame.header.requestId)).all fun k ↦
        (l.gatewayOut.convs[k]?).all fun x ↦
          frame.header.sequence = x.request.incomingSequence + 1) = true := by
    intro hk
    have hlength := GatewayOut.requestId_length hadm hk
    rw [Option.all_eq_true]
    intro k hlookup
    rw [Option.all_eq_true]
    intro y hy
    obtain ⟨z, hz, hid⟩ := (GatewayOut.Session.tabled hs.gatewayOut).1.requests hlookup
    cases hy.symm.trans hz
    rw [OpaqueID.toList_copy hlength] at hid
    have hseq := hs.sequence_next hnum hnext (List.ne_nil_of_length_eq_add_one hlength)
    rw [← hid, hs.received_of_idle hidle hy] at hseq
    rw [decide_eq_true_eq, hseq, hcounted.active hlookup hy, GatewayOut.Session.count, hidle]
    rfl
  rw [GatewayOut.Session.expectsReceived, hadm, Bool.not_true, Bool.false_or]
  cases hk : frame.payload with
  | opened =>
    have hlength := GatewayOut.requestId_length hadm (by rw [hk]; rfl)
    have hnil := List.ne_nil_of_length_eq_add_one hlength
    have hfresh := hs.freshOpen (a := .recv frame 0) fun f now h ↦ by cases h; exact hnext
    simp only [GatewayOut.Session.freshOpen, hk] at hfresh
    have hseq := hs.sequence_next hnum hnext hnil
    rw [hs.received_of_no_conv hidle hnil fun y hy ↦ by
      simpa using List.all_eq_true.mp hfresh y hy] at hseq
    simpa using hseq
  | data | halfClose | credit | cancel => exact hactive (by rw [hk]; rfl)
  | _ => rfl

/-- A late frame has the number its terminal entry expects. -/
theorem Sound.expectsTerminal (hs : Sound pin pout l)
    (hnum : ∀ x ∈ l.gatewayIn.invocations, GatewayIn.SequenceNumbered x.queued)
    (hlate : l.gatewayOut.receiver = .late frame) :
    l.gatewayOut.expectsTerminal frame = true := by
  obtain ⟨htab, hheld⟩ := GatewayOut.Session.tabled hs.gatewayOut
  rw [GatewayOut.Session.Held, hlate] at hheld
  have hlength := GatewayOut.requestId_length hheld.1 (by
    obtain ⟨n, hk⟩ | ⟨reason, hk⟩ := hheld.2 <;> rw [hk] <;> rfl)
  rw [GatewayOut.Session.expectsTerminal, Option.all_eq_true]
  intro t ht
  obtain ⟨y, hy, hid⟩ := htab.terminal ht
  rw [OpaqueID.toList_copy hlength] at hid
  obtain ⟨r, x, hx, hxy⟩ := hs.exists_invocation hy
  have hpre := hs.prefix_of_handled hx hy hxy
  rw [hlate, GatewayOut.Receiver.hand_late, List.filter_cons_of_pos (by simp [hid]),
    List.filter_nil] at hpre
  have hcounted := GatewayOut.Session.counted hs.gatewayOut (by rw [hlate]; rfl)
  rw [decide_eq_true_eq, (hnum x (List.mem_of_getElem? hx)).next hpre, hcounted.terminal ht hy,
    GatewayOut.Session.count, hlate]
  rfl

/-- **The frames gateway-in queues for a request are numbered without a gap, and gateway-out's
checks do not fail on them**, in the runs in which no frame is offered behind a refused one.  The
first half needs nothing of the peer. -/
theorem gatewayIn_contiguous (pin : GatewayIn.Params) (pout : GatewayOut.Params) :
    (∀ s, Reach (GatewayIn.Session.step pin) (fun s a ↦ s.offersAfterRefusal a = false) {} s →
      ∀ x ∈ s.invocations, GatewayIn.SequenceNumbered x.queued) ∧
    ∀ l, Reach (step pin pout) (fun l a ↦ (l.fresh a && l.calmGatewayIn a) = true) {} l →
      l.expectedByGatewayOut pout = true := by
  have hrun : ∀ s, Reach (GatewayIn.Session.step pin)
      (fun s a ↦ s.offersAfterRefusal a = false) {} s →
      ∀ x ∈ s.invocations, GatewayIn.SequenceNumbered x.queued := by
    intro s h x hx
    have hcont := h.invariant (P := GatewayIn.Session.Contiguous) .init
      fun _ _ _ _ hs hok hstep ↦ hs.step hok hstep
    obtain ⟨r, hr⟩ := List.mem_iff_getElem?.mp hx
    exact (hcont r x hr).1
  refine ⟨hrun, fun l h ↦ ?_⟩
  have hs := sound (h.mono fun l a hok ↦ (Bool.and_eq_true_iff.mp hok).1)
  have hnum := hrun _ (reach_gatewayIn (fun l a hok ↦ by
    simpa [calmGatewayIn] using (Bool.and_eq_true_iff.mp hok).2) h)
  rw [expectedByGatewayOut]
  split
  · rename_i hidle
    rw [Option.all_eq_true]
    exact fun frame hnext ↦ hs.expectsReceived hnum hidle hnext
  · rename_i frame hlate
    exact hs.expectsTerminal hnum hlate
  · rfl

/-! ## From gateway-out to gateway-in -/

/-- The frame the read loop delivers has the number its request expects. -/
theorem Sound.expectedByGatewayIn (hs : Sound pin pout l)
    (hnum : ∀ y ∈ l.gatewayOut.convs, GatewayOut.SequenceNumbered y.queued) :
    l.expectedByGatewayIn = true := by
  rw [Link.expectedByGatewayIn]
  split
  · rename_i r frame hreader
    rw [Option.all_eq_true]
    intro x hx
    have hhand : l.gatewayIn.reader.hand.filter
        (fun f ↦ f.header.requestId = x.request.id.toList) = [frame] := by
      obtain ⟨-, -, z, hz, hid⟩ := GatewayIn.Session.aimed hs.gatewayIn r frame hreader
      cases hx.symm.trans hz
      rw [hreader, GatewayIn.Reader.hand_deliver, List.filter_cons_of_pos (by simpa using hid),
        List.filter_nil]
    obtain ⟨k, y, hy, hid⟩ := hs.exists_response hx (f := frame) (by rw [hhand]; simp)
    have hpre := hs.prefix_of_response hx hy hid
    rw [hhand] at hpre
    have hcounted := GatewayIn.Session.counted hs.gatewayIn (by rw [hreader]; rfl)
    rw [decide_eq_true_eq, (hnum y (List.mem_of_getElem? hy)).next hpre,
      hcounted x (List.mem_of_getElem? hx)]
  · rfl

/-- **The frames gateway-out queues for a request are numbered without a gap and end with
HalfClose and Result, and gateway-in's checks do not fail on them**, in the runs in which the
queues take the Data and the Credits they are offered.  The first half needs nothing of the
peer. -/
theorem gatewayOut_contiguous (pin : GatewayIn.Params) (pout : GatewayOut.Params) :
    (∀ s, Reach (GatewayOut.Session.step pout)
      (fun s a ↦ s.offersAdmitted pout a = true) {} s →
      ∀ y ∈ s.convs, GatewayOut.SequenceNumbered y.queued ∧
        (GatewayOut.Body y.queued ∨ ∃ body close last result, y.queued = body ++ [close, last] ∧
          GatewayOut.Body body ∧ close.payload = .halfClose ∧ last.payload = .result result)) ∧
    ∀ l, Reach (step pin pout)
      (fun l a ↦ (l.fresh a && l.calmGatewayOut pout a) = true) {} l →
      l.expectedByGatewayIn = true := by
  refine ⟨fun s h y hy ↦ ⟨GatewayOut.Session.sequenceNumbered (fun _ _ h ↦ h) h y hy, ?_⟩,
    fun l h ↦ ?_⟩
  · exact (GatewayOut.Session.conv_sound h y hy).body_or_ended
  · have hs := sound (h.mono fun l a hok ↦ (Bool.and_eq_true_iff.mp hok).1)
    exact hs.expectedByGatewayIn (GatewayOut.Session.sequenceNumbered (fun _ _ h ↦ h)
      (reach_gatewayOut (fun l a hok ↦ (Bool.and_eq_true_iff.mp hok).2) h))

end Link

open Script in
/-- A caller that gives up after the queue refused its HalfClose sends no Cancel if the request was
aborted first: nothing follows the refused frame. -/
theorem gatewayIn_contiguous_abort :
    ∃ pin pout, (sample sampleLimits 16).params = some (pin, pout) ∧ ∃ l,
      Reach (Link.step pin pout) (fun l a ↦ (l.fresh a && l.calmGatewayIn a) = true) {} l ∧
      l.gatewayOut.received.length = 2 ∧
      (∀ x ∈ l.gatewayIn.invocations, GatewayIn.SequenceNumbered x.queued) ∧
      l.expectedByGatewayOut pout = true := by
  obtain ⟨pin, pout, hparams, l, hreach, hl⟩ := (sample sampleLimits 16).exists_of_replay
    (opened (invoke 0 (.enqueueHalfClose calm) :: invoke 0 (.bodyError calm) ::
      forward ++ accept ++ forward))
    (fun _ _ l a ↦ l.fresh a && l.calmGatewayIn a) (fun _ _ l ↦ l.gatewayOut.received.length = 2)
    (by decide +kernel)
  obtain ⟨hnum, hexp⟩ := Link.gatewayIn_contiguous pin pout
  refine ⟨pin, pout, hparams, l, hreach, hl, ?_, hexp l hreach⟩
  exact hnum _ (Link.reach_gatewayIn (fun l a hok ↦ by
    simpa [Link.calmGatewayIn] using (Bool.and_eq_true_iff.mp hok).2) hreach)

open Script in
/-- **A gap.**  The queue refuses the HalfClose, which has cost the number 3; before the `Invoke`
goroutine has aborted the request, its context ends, and its Cancel is queued with the number 4.
gateway-out ends the tunnel. -/
theorem gatewayIn_gap :
    ∃ pin pout, (sample sampleLimits 16).params = some (pin, pout) ∧ ∃ l,
      Reach (Link.step pin pout) (fun l a ↦ l.fresh a = true) {} l ∧
      (∃ x ∈ l.gatewayIn.invocations,
        x.queued.map (fun f ↦ f.header.sequence) = [1, 2, 4]) ∧
      ∃ frame, l.gatewayOut.receiver = .stopped (some frame) .protocol := by
  obtain ⟨pin, pout, hparams, l, hreach, hx, frame, -, hstop⟩ :=
    (sample sampleLimits 16).exists_of_replay
      (opened (invoke 0 (.enqueueHalfClose calm) :: forward ++ accept ++
        [invoke 0 (.expire .deadlineExceeded), invoke 0 (.bodyError calm)] ++
        forward ++ forward ++ [gout .late]))
      (fun _ _ ↦ Link.fresh)
      (fun _ _ l ↦ (∃ x ∈ l.gatewayIn.invocations,
          x.queued.map (fun f ↦ f.header.sequence) = [1, 2, 4]) ∧
        ∃ f ∈ l.gatewayOut.received, l.gatewayOut.receiver = .stopped (some f) .protocol)
      (by decide +kernel)
  exact ⟨pin, pout, hparams, l, hreach, hx, frame, hstop⟩

open Script in
/-- A response of two pieces, each sent before the next one is offered. -/
theorem gatewayOut_contiguous_call :
    ∃ pin pout, (sample sampleLimits 16).params = some (pin, pout) ∧ ∃ l,
      Reach (Link.step pin pout)
        (fun l a ↦ (l.fresh a && l.calmGatewayOut pout a) = true) {} l ∧
      l.gatewayIn.received.length = 4 ∧
      (∀ y ∈ l.gatewayOut.convs, GatewayOut.SequenceNumbered y.queued) ∧
      l.expectedByGatewayIn = true := by
  obtain ⟨pin, pout, hparams, l, hreach, hl⟩ := (sample sampleLimits 16).exists_of_replay
    (answered [1, 2, 3, 4, 5, 6, 7, 8] ++ respond 0 .room ++ emit 1 ++ respond 0 .room ++
      emit 1 ++ [worker 0 .consumeSendCredit, worker 0 (.enqueueBatch .room)] ++ emit 2 ++
      delivered ++ [gin .notify] ++ delivered ++ delivered ++ [ginRecv 0])
    (fun _ pout l a ↦ l.fresh a && l.calmGatewayOut pout a)
    (fun _ _ l ↦ l.gatewayIn.received.length = 4) (by decide +kernel)
  obtain ⟨hnum, hexp⟩ := Link.gatewayOut_contiguous pin pout
  refine ⟨pin, pout, hparams, l, hreach, hl, fun y hy ↦ ?_, hexp l hreach⟩
  exact (hnum _ (Link.reach_gatewayOut (fun l a hok ↦ (Bool.and_eq_true_iff.mp hok).2) hreach)
    y hy).1

open Script in
/-- **A gap.**  The queue refuses the second piece of a response, which has cost the number 3, and
`completeRequest` goes on with HalfClose and Result.  gateway-in ends the tunnel. -/
theorem gatewayOut_gap :
    ∃ pin pout, (sample sampleLimits 16).params = some (pin, pout) ∧ ∃ l,
      Reach (Link.step pin pout) (fun l a ↦ l.fresh a = true) {} l ∧
      (∃ y ∈ l.gatewayOut.convs, y.queued.map (fun f ↦ f.header.sequence) = [1, 2, 4, 5]) ∧
      ∃ frame, l.gatewayIn.reader = .failed (some frame) := by
  obtain ⟨pin, pout, hparams, l, hreach, hy, frame, -, hfail⟩ :=
    (sample sampleLimits 16).exists_of_replay
      (answered [1, 2, 3, 4, 5, 6, 7, 8] ++ respond 0 .room ++ respond 0 .full ++
        [worker 0 .sendError] ++ emit 1 ++ [worker 0 (.enqueueBatch .room)] ++ emit 2 ++
        delivered ++ [gin .notify] ++ delivered ++ delivered)
      (fun _ _ ↦ Link.fresh)
      (fun _ _ l ↦ (∃ y ∈ l.gatewayOut.convs,
          y.queued.map (fun f ↦ f.header.sequence) = [1, 2, 4, 5]) ∧
        ∃ f ∈ l.gatewayIn.received, l.gatewayIn.reader = .failed (some f))
      (by decide +kernel)
  exact ⟨pin, pout, hparams, l, hreach, hy, frame, hfail⟩

end Tunnel

end MarketMesh
