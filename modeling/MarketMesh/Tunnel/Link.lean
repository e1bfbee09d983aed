import MarketMesh.GatewayIn.Trace
import MarketMesh.GatewayOut.Trace
import MarketMesh.Tunnel.Handshake

/-!
# The two ends of a tunnel

A `Link` is a gateway-in session and a gateway-out session on the two directions of one stream.
The stream delivers what was sent, in order: the next frame an end receives is the next one the
other end has sent, so what is on a wire is what was sent and not yet received.  It may break at
any time, after which nothing more is received.

`Link.Sound` is what every run of a link keeps as long as the identifiers of the requests are
fresh: each end is a run of its own, and what it received is the beginning of what the other end
sent.  For one request this says that the frames either end has handled are the first ones the
other end has queued (`Sound.prefix_of_handled`, `Sound.prefix_of_response`), which is what every
property of a call across the tunnel rests on.
-/

set_option autoImplicit false

namespace MarketMesh

open Protocol Machine

namespace Tunnel

structure Link where
  gatewayIn : GatewayIn.Session := {}
  gatewayOut : GatewayOut.Session := {}

/-- A step of one of the two ends. -/
inductive Action where
  | gatewayIn (a : GatewayIn.Action)
  | gatewayOut (a : GatewayOut.Action)

namespace Link

/-- A frame that is received is the next one the other end sent. -/
def carries (l : Link) : Action → Bool
  | .gatewayIn (.recv frame _) => l.gatewayOut.sent[l.gatewayIn.received.length]? = some frame
  | .gatewayOut (.recv frame _) => l.gatewayIn.sent[l.gatewayOut.received.length]? = some frame
  | _ => true

def step (pin : GatewayIn.Params) (pout : GatewayOut.Params) (l : Link) (a : Action) :
    Option Link :=
  if l.carries a then
    match a with
    | .gatewayIn a => (l.gatewayIn.step pin a).map fun s ↦ { l with gatewayIn := s }
    | .gatewayOut a => (l.gatewayOut.step pout a).map fun s ↦ { l with gatewayOut := s }
  else none

/-- The identifiers a step draws are fresh. -/
def fresh (l : Link) : Action → Bool
  | .gatewayIn a => l.gatewayIn.freshDraws a
  | .gatewayOut _ => true

variable {pin : GatewayIn.Params} {pout : GatewayOut.Params} {l l' : Link} {a : Action}
  {f : ConnectRequest}

theorem step_gatewayIn {a} (h : l.step pin pout (.gatewayIn a) = some l') :
    ∃ s, l.gatewayIn.step pin a = some s ∧ l' = { l with gatewayIn := s } ∧
      ∀ frame now, a = .recv frame now →
        l.gatewayOut.sent[l.gatewayIn.received.length]? = some frame := by
  simp only [step] at h
  split at h
  · rename_i hcarries
    obtain ⟨s, hs, rfl⟩ := Option.map_eq_some_iff.mp h
    refine ⟨s, hs, rfl, fun frame now ha ↦ ?_⟩
    subst ha
    simpa [carries] using hcarries
  · cases h

theorem step_gatewayOut {a} (h : l.step pin pout (.gatewayOut a) = some l') :
    ∃ s, l.gatewayOut.step pout a = some s ∧ l' = { l with gatewayOut := s } ∧
      ∀ frame now, a = .recv frame now →
        l.gatewayIn.sent[l.gatewayOut.received.length]? = some frame := by
  simp only [step] at h
  split at h
  · rename_i hcarries
    obtain ⟨s, hs, rfl⟩ := Option.map_eq_some_iff.mp h
    refine ⟨s, hs, rfl, fun frame now ha ↦ ?_⟩
    subst ha
    simpa [carries] using hcarries
  · cases h

/-! ## What every run keeps -/

section

variable {ok : Link → Action → Prop}

/-- A run of the link is a run of gateway-in. -/
theorem reach_gatewayIn {okIn : GatewayIn.Session → GatewayIn.Action → Prop}
    (hok : ∀ l a, ok l (.gatewayIn a) → okIn l.gatewayIn a)
    (h : Reach (step pin pout) ok {} l) :
    Reach (GatewayIn.Session.step pin) okIn {} l.gatewayIn := by
  refine h.project Link.gatewayIn fun l a l' hok' hstep ↦ ?_
  cases a with
  | gatewayIn a =>
    obtain ⟨s, hs, rfl, -⟩ := step_gatewayIn hstep
    exact .inr ⟨a, hok l a hok', hs⟩
  | gatewayOut =>
    obtain ⟨s, -, rfl, -⟩ := step_gatewayOut hstep
    exact .inl rfl

/-- A run of the link is a run of gateway-out. -/
theorem reach_gatewayOut {okOut : GatewayOut.Session → GatewayOut.Action → Prop}
    (hok : ∀ l a, ok l (.gatewayOut a) → okOut l.gatewayOut a)
    (h : Reach (step pin pout) ok {} l) :
    Reach (GatewayOut.Session.step pout) okOut {} l.gatewayOut := by
  refine h.project Link.gatewayOut fun l a l' hok' hstep ↦ ?_
  cases a with
  | gatewayIn =>
    obtain ⟨s, -, rfl, -⟩ := step_gatewayIn hstep
    exact .inl rfl
  | gatewayOut a =>
    obtain ⟨s, hs, rfl, -⟩ := step_gatewayOut hstep
    exact .inr ⟨a, hok l a hok', hs⟩

end

/-- **Each end is a run of its own, and what it received is the beginning of what the other end
sent.** -/
structure Sound (pin : GatewayIn.Params) (pout : GatewayOut.Params) (l : Link) : Prop where
  gatewayIn : Reach (GatewayIn.Session.step pin) (fun s a ↦ s.freshDraws a = true) {}
    l.gatewayIn
  gatewayOut : Reach (GatewayOut.Session.step pout) (fun s a ↦ s.freshOpen a = true) {}
    l.gatewayOut
  responses : l.gatewayIn.received <+: l.gatewayOut.sent
  requests : l.gatewayOut.received <+: l.gatewayIn.sent

theorem prefix_concat {α : Type} {xs ys : List α} {y : α} (h : xs <+: ys)
    (hy : ys[xs.length]? = some y) : xs ++ [y] <+: ys := by
  obtain ⟨rest, rfl⟩ := h
  cases rest with
  | nil => simp at hy
  | cons z rest =>
    rw [List.getElem?_append_right le_rfl, Nat.sub_self, List.getElem?_cons_zero] at hy
    cases hy
    exact ⟨rest, by simp⟩

/-- Every frame gateway-in sent for a request was queued by it. -/
theorem Sound.exists_sender (hs : Sound pin pout l) {f}
    (hf : f ∈ l.gatewayIn.sent) (hid : f.header.requestId ≠ []) :
    ∃ (r : GatewayIn.Ref) (x : GatewayIn.Invocation), l.gatewayIn.invocations[r]? = some x ∧
      f.header.requestId = x.request.id.toList := by
  have hacc := (GatewayIn.Session.ordered hs.gatewayIn).mem_sent hf
  obtain hnil | ⟨x, hx, hfx⟩ := (GatewayIn.Session.histories hs.gatewayIn).1.owned f hacc
  · exact absurd hnil hid
  · obtain ⟨r, hr⟩ := List.mem_iff_getElem?.mp hx
    exact ⟨r, x, hr, hfx⟩

/-- Every frame gateway-out sent for a request was queued by its conversation. -/
theorem Sound.exists_conv (hs : Sound pin pout l)
    (hf : f ∈ l.gatewayOut.sent) (hid : f.header.requestId ≠ []) :
    ∃ (k : GatewayOut.Ref) (y : GatewayOut.Conv), l.gatewayOut.convs[k]? = some y ∧
      f.header.requestId = y.request.requestID := by
  have hacc := (GatewayOut.Session.ordered hs.gatewayOut).mem_sent hf
  obtain hnil | ⟨y, hy, hfy⟩ := (GatewayOut.Session.histories hs.gatewayOut).1.owned f hacc
  · exact absurd hnil hid
  · obtain ⟨k, hk⟩ := List.mem_iff_getElem?.mp hy
    exact ⟨k, y, hk, hfy⟩

/-- The next Open gateway-out receives is of an identifier it has not met: otherwise gateway-in
would have queued two Opens for one request. -/
theorem Sound.freshOpen (hs : Sound pin pout l) {a} (ha : ∀ frame now, a = .recv frame now →
      l.gatewayIn.sent[l.gatewayOut.received.length]? = some frame) :
    l.gatewayOut.freshOpen a = true := by
  cases a with
  | recv frame now =>
    rw [GatewayOut.Session.freshOpen]
    split
    · rename_i request hk
      refine List.all_eq_true.mpr fun y hy ↦ ?_
      rw [decide_eq_true_eq]
      intro hid
      obtain ⟨k, hyk⟩ := List.mem_iff_getElem?.mp hy
      have hnil : y.request.requestID ≠ [] := by
        obtain ⟨log, -, hlog⟩ := (GatewayOut.Session.histories hs.gatewayOut).2
        exact hlog.not_foreign hyk
      -- both Opens are among the first frames that gateway-in sent for the request
      have hpre := prefix_concat hs.requests (ha frame now rfl)
      obtain ⟨r, x, hx, hfx⟩ := hs.exists_sender (hpre.subset (by simp)) (hid ▸ hnil)
      have hfilter : (l.gatewayOut.received ++ [frame]).filter
          (fun f ↦ f.header.requestId = x.request.id.toList) <+: x.queued :=
        (hpre.filter _).trans (GatewayIn.Session.prefix_of_sent hs.gatewayIn hx)
      have hreceived := GatewayOut.Session.received_filter hs.gatewayOut hyk
      rw [List.filter_append, show x.request.id.toList = y.request.requestID by rw [← hfx, hid],
        hreceived] at hfilter
      obtain ⟨f, request', hhead, hk', -⟩ := GatewayOut.Session.opened hs.gatewayOut y hy
      have hone := (GatewayIn.Session.opensOnce hs.gatewayIn x (List.mem_of_getElem? hx)).1
      have hfirst : 0 < y.handled.countP GatewayIn.isOpen :=
        List.countP_pos_iff.mpr ⟨f, List.mem_of_head? hhead, by rw [GatewayIn.isOpen, hk']⟩
      have hcount := hfilter.sublist.countP_le (p := GatewayIn.isOpen)
      have hlast : ([frame].filter (fun f ↦ f.header.requestId = y.request.requestID)).countP
          GatewayIn.isOpen = 1 := by
        rw [List.filter_cons_of_pos (by simpa using hid.symm)]
        simp [GatewayIn.isOpen, hk]
      rw [List.countP_append, List.countP_append, hlast] at hcount
      omega
    · rfl
  | _ => rfl

theorem Sound.init : Sound pin pout {} :=
  ⟨.start, .start, ⟨[], rfl⟩, ⟨[], rfl⟩⟩

theorem Sound.step (hs : Sound pin pout l) (hfresh : l.fresh a = true)
    (h : l.step pin pout a = some l') : Sound pin pout l' := by
  cases a with
  | gatewayIn =>
    obtain ⟨s, hstep, rfl, hrecv⟩ := step_gatewayIn h
    refine ⟨hs.gatewayIn.next hfresh hstep, hs.gatewayOut, ?_, ?_⟩
    · obtain hv | ⟨frame, now, rfl, hv⟩ := GatewayIn.Session.step_received hstep
      · exact hv ▸ hs.responses
      · exact hv ▸ prefix_concat hs.responses (hrecv frame now rfl)
    · exact hs.requests.trans (GatewayIn.Session.step_queues hstep).prefix_of_sent
  | gatewayOut =>
    obtain ⟨s, hstep, rfl, hrecv⟩ := step_gatewayOut h
    refine ⟨hs.gatewayIn, hs.gatewayOut.next (hs.freshOpen hrecv) hstep, ?_, ?_⟩
    · have hq := GatewayOut.Session.step_queues (GatewayOut.Session.framed hs.gatewayOut)
        (GatewayOut.Session.tabled hs.gatewayOut).2 hstep
      exact hs.responses.trans hq.prefix_of_sent
    · obtain hv | ⟨frame, now, rfl, hv⟩ := GatewayOut.Session.step_received hstep
      · exact hv ▸ hs.requests
      · exact hv ▸ prefix_concat hs.requests (hrecv frame now rfl)

/-- The runs of a link in which every drawn identifier is fresh. -/
theorem sound (h : Reach (step pin pout) (fun l a ↦ l.fresh a = true) {} l) :
    Sound pin pout l :=
  h.invariant (P := Sound pin pout) Sound.init fun _ _ _ _ hs hok hstep ↦ hs.step hok hstep

/-- A run of the link with fresh identifiers is a run of gateway-out with fresh Opens. -/
theorem reach_freshOpen {ok : Link → Action → Prop}
    {okOut : GatewayOut.Session → GatewayOut.Action → Bool}
    (hfresh : ∀ l a, ok l a → l.fresh a = true)
    (hok : ∀ l a, ok l (.gatewayOut a) → okOut l.gatewayOut a = true)
    (h : Reach (step pin pout) ok {} l) :
    Reach (GatewayOut.Session.step pout)
      (fun s a ↦ (s.freshOpen a && okOut s a) = true) {} l.gatewayOut := by
  induction h with
  | start => exact .start
  | @next l l' a hl hok' hstep ih =>
    cases a with
    | gatewayIn =>
      obtain ⟨s, -, rfl, -⟩ := step_gatewayIn hstep
      exact ih
    | gatewayOut a =>
      obtain ⟨s, hs, rfl, hrecv⟩ := step_gatewayOut hstep
      exact ih.next (Bool.and_eq_true_iff.mpr
        ⟨(sound (hl.mono hfresh)).freshOpen hrecv, hok l a hok'⟩) hs

/-! ## One request at both ends -/

variable {r : GatewayIn.Ref} {x : GatewayIn.Invocation} {k : GatewayOut.Ref} {y : GatewayOut.Conv}

/-- What a conversation handled, and what the receive loop holds of it, are the first frames that
its request queued. -/
theorem Sound.prefix_of_handled (hs : Sound pin pout l) (hx : l.gatewayIn.invocations[r]? = some x)
    (hy : l.gatewayOut.convs[k]? = some y) (hid : y.request.requestID = x.request.id.toList) :
    y.handled ++ l.gatewayOut.receiver.hand.filter
      (fun f ↦ f.header.requestId = y.request.requestID) <+: x.queued := by
  rw [← GatewayOut.Session.received_filter hs.gatewayOut hy, hid]
  exact (hs.requests.filter _).trans (GatewayIn.Session.prefix_of_sent hs.gatewayIn hx)

/-- What a request handled, and what the read loop holds of it, are the first frames that its
conversation queued. -/
theorem Sound.prefix_of_response (hs : Sound pin pout l) (hx : l.gatewayIn.invocations[r]? = some x)
    (hy : l.gatewayOut.convs[k]? = some y) (hid : y.request.requestID = x.request.id.toList) :
    x.handled ++ l.gatewayIn.reader.hand.filter
      (fun f ↦ f.header.requestId = x.request.id.toList) <+: y.queued := by
  rw [← GatewayIn.Session.received_filter hs.gatewayIn hx, ← hid]
  exact (hs.responses.filter _).trans (GatewayOut.Session.prefix_of_sent hs.gatewayOut hy)

/-- Every conversation has its request. -/
theorem Sound.exists_invocation (hs : Sound pin pout l)
    (hy : l.gatewayOut.convs[k]? = some y) :
    ∃ (r : GatewayIn.Ref) (x : GatewayIn.Invocation), l.gatewayIn.invocations[r]? = some x ∧
      y.request.requestID = x.request.id.toList := by
  obtain ⟨log, hlog, hattr⟩ := (GatewayOut.Session.histories hs.gatewayOut).2
  obtain ⟨f, request, hhead, hk, -⟩ :=
    GatewayOut.Session.opened hs.gatewayOut y (List.mem_of_getElem? hy)
  have hf : f ∈ log.filter (fun f ↦ f.header.requestId = y.request.requestID) :=
    hattr.own_eq hy ▸ List.mem_of_head? hhead
  have hid : f.header.requestId = y.request.requestID := by simpa using List.of_mem_filter hf
  have hsent : f ∈ l.gatewayIn.sent := by
    refine hs.requests.subset ?_
    rw [hlog]
    exact List.mem_append_left _ (List.mem_of_mem_filter hf)
  obtain ⟨r, x, hx, hfx⟩ := hs.exists_sender hsent (hid ▸ hattr.not_foreign hy)
  exact ⟨r, x, hx, hid ▸ hfx⟩

/-- A frame that arrives for a request comes from its conversation. -/
theorem Sound.exists_response (hs : Sound pin pout l) (hx : l.gatewayIn.invocations[r]? = some x)
    (hf : f ∈ x.handled ++ l.gatewayIn.reader.hand.filter
      (fun f ↦ f.header.requestId = x.request.id.toList)) :
    ∃ (k : GatewayOut.Ref) (y : GatewayOut.Conv), l.gatewayOut.convs[k]? = some y ∧
      y.request.requestID = x.request.id.toList := by
  rw [← GatewayIn.Session.received_filter hs.gatewayIn hx] at hf
  have hid : f.header.requestId = x.request.id.toList := by simpa using List.of_mem_filter hf
  have hsent := hs.responses.subset (List.mem_of_mem_filter hf)
  obtain ⟨k, y, hy, hfy⟩ := hs.exists_conv hsent (hid ▸ OpaqueID.toList_ne_nil _)
  exact ⟨k, y, hy, by rw [← hfy, hid]⟩

end Link

/-! ## Replayed runs -/

/-- Execute a script on the link of a deployment, under a condition on its steps, and test the
state it ends in. -/
def Deployment.replay (d : Deployment) (script : List (Link → Action))
    (ok : GatewayIn.Params → GatewayOut.Params → Link → Action → Bool)
    (P : GatewayIn.Params → GatewayOut.Params → Link → Bool) : Bool :=
  d.params.any fun (pin, pout) ↦
    (Machine.replay (Link.step pin pout) (fun l a ↦ ok pin pout l a = true) {} script).any
      (P pin pout)

/-- A script that can be executed is a run of the link. -/
theorem Deployment.exists_of_replay (d : Deployment) (script : List (Link → Action))
    (ok : GatewayIn.Params → GatewayOut.Params → Link → Action → Bool)
    (P : GatewayIn.Params → GatewayOut.Params → Link → Prop)
    [∀ pin pout l, Decidable (P pin pout l)]
    (h : d.replay script ok (fun pin pout l ↦ P pin pout l) = true) :
    ∃ pin pout, d.params = some (pin, pout) ∧ ∃ l,
      Reach (Link.step pin pout) (fun l a ↦ ok pin pout l a = true) {} l ∧ P pin pout l := by
  obtain ⟨⟨pin, pout⟩, hparams, hrun⟩ := (Option.any_eq_true _ _).mp h
  obtain ⟨l, hreach, hP⟩ := Reach.exists_of_replay hrun
  exact ⟨pin, pout, hparams, l, hreach, of_decide_eq_true hP⟩

/-- Two runs of one deployment. -/
theorem Deployment.both {d : Deployment} {P Q : GatewayIn.Params → GatewayOut.Params → Prop}
    (hP : ∃ pin pout, d.params = some (pin, pout) ∧ P pin pout)
    (hQ : ∃ pin pout, d.params = some (pin, pout) ∧ Q pin pout) :
    ∃ pin pout, d.params = some (pin, pout) ∧ P pin pout ∧ Q pin pout := by
  obtain ⟨pin, pout, hparams, hP⟩ := hP
  obtain ⟨pin', pout', hparams', hQ⟩ := hQ
  cases hparams.symm.trans hparams'
  exact ⟨pin, pout, hparams, hP, hQ⟩

namespace Script

/-- A step of gateway-in. -/
def gin (a : GatewayIn.Action) : Link → Action := fun _ ↦ .gatewayIn a

/-- A step of gateway-out. -/
def gout (a : GatewayOut.Action) : Link → Action := fun _ ↦ .gatewayOut a

/-- gateway-in receives the next frame on the wire. -/
def ginRecv (now : Time) : Link → Action := fun l ↦
  .gatewayIn (.recv (l.gatewayOut.sent[l.gatewayIn.received.length]?.getD default) now)

/-- gateway-out receives the next frame on the wire. -/
def goutRecv (now : Time) : Link → Action := fun l ↦
  .gatewayOut (.recv (l.gatewayIn.sent[l.gatewayOut.received.length]?.getD default) now)

/-- A goroutine that has seen no flag set. -/
def calm : GatewayIn.View := ⟨false, none⟩

/-- gateway-in starts the call of `userGetMe` whose request gets the identifier `sampleID n`. -/
def start (n : UInt8) (payload : Bytes) : Link → Action :=
  gin (.start { route := .userGetMe, payload := payload } 1000 [sampleID n])

/-- The same for a call of the control class. -/
def login (n : UInt8) : Link → Action :=
  gin (.start { route := .authLogin, payload := [] } 1000 [sampleID n])

/-- A step of the `Invoke` goroutine of the request `r`. -/
def invoke (r : GatewayIn.Ref) (move : GatewayIn.Move) : Link → Action := gin (.invoke r move)

/-- A step of a goroutine of the conversation `k`. -/
def worker (k : GatewayOut.Ref) (move : GatewayOut.Move) : Link → Action := gout (.worker k move)

/-- gateway-in puts Open and the first Credit of the request `r` into the queue. -/
def openRequest (r : GatewayIn.Ref) : List (Link → Action) :=
  [invoke r (.enqueueOpen calm), invoke r (.sendInitialResponseCredit calm)]

/-- The next frame of the lane crosses to gateway-out. -/
def forwardOn (lane : GatewayIn.Lane) : List (Link → Action) :=
  [gin (.dequeue lane), gin .send, goutRecv 0]

def forward : List (Link → Action) := forwardOn GatewayIn.regularLane

/-- gateway-out accepts the Open it received and offers the first Credit. -/
def accept : List (Link → Action) :=
  [gout .reserve, gout .numberOpen, gout (.enqueueOpen .room)]

/-- The next batch of the regular queue is sent, `n` frames of it. -/
def emit (n : Nat) : List (Link → Action) :=
  [gout .poll, gout (.take .regular)] ++ List.replicate n (gout .send)

/-- A call with its Open and its response credit queued, and the steps `rest`. -/
def opened (rest : List (Link → Action)) : List (Link → Action) :=
  start 7 [] :: openRequest 0 ++ rest

/-- The call reaches gateway-out, whose route answers with `response`. -/
def answered (response : Bytes) : List (Link → Action) :=
  opened (forward ++ accept ++ emit 1 ++ forward ++ [invoke 0 (.enqueueHalfClose calm)] ++
    forward ++ [gout .halfClose, worker 0 (.execute (.replied response)), worker 0 .claimExecutor])

/-- The next piece of the response of the conversation `k` gets its number and is offered. -/
def respond (k : GatewayOut.Ref) (choice : GatewayOut.Select) : List (Link → Action) :=
  [worker k .consumeSendCredit, worker k .numberData, worker k (.enqueueData choice)]

/-- gateway-in receives the next frame and delivers it. -/
def delivered : List (Link → Action) := [ginRecv 0, gin .deliver]

end Script

end Tunnel

end MarketMesh
