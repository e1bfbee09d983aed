import MarketMesh.GatewayIn.Registry
import MarketMesh.GatewayOut.Answer
import MarketMesh.Tunnel.Link

/-!
# What one end queues the other end admits

Both ends check a frame against the negotiated limits, once before it is queued and once when it is
received, and the three checks are written separately.

From gateway-out to gateway-in they agree: gateway-in's `validateInbound` admits every frame that
enters a queue of gateway-out.  In the other direction `enqueueFrame` does not look at metadata,
while gateway-out's `withinNegotiatedLimits` does, so the two agree exactly on the frames whose
metadata is within the limits (`Tunnel.admission`).
-/

set_option autoImplicit false

namespace MarketMesh

open Protocol Machine

/-- The number of entries and the size of their values are within the limits.  The value of a nil
entry is empty. -/
def metadataWithin (limits : Limits) (entries : List (Option Metadata)) : Bool :=
  decide (entries.length ≤ limits.maxMetadataEntries) &&
  entries.all fun entry ↦
    decide (((entry.map Metadata.value).getD []).length ≤ limits.maxMetadataValueBytes)

namespace GatewayOut

variable {p : Params} {fs : List ConnectRequest} {err : Option Err}

/-- The frame names the session's tunnel and is no Hello. -/
def Ours (p : Params) (f : ConnectRequest) : Prop :=
  f.header.tunnelId = p.tunnelID ∧ ∀ hello, f.payload ≠ .hello hello

/-- The Data a conversation holds is one of the session. -/
def Conv.HoldsOurs (p : Params) (x : Conv) : Prop :=
  ∀ (f : ConnectRequest) (response : Bytes), x.completer = .numbered f response → Ours p f

theorem Conv.HoldsOurs.step {env x x' m}
    (hx : x.HoldsOurs p) (h : Step p env x m x' fs err) : x'.HoldsOurs p := by
  intro f response hf
  cases h with
  | claimed hs ht =>
    rename_i r code executor watcher
    obtain hc | hc := firstPc_eq r code <;> cases hc.symm.trans hf
  | goes hs =>
    cases hs with
    | watcherDone | watcherExpired => exact hx f response hf
    | _ => cases hf
  | numberData =>
    obtain ⟨rfl, -⟩ := Completer.numbered.inj hf
    exact ⟨rfl, by simp [RequestState.frame, requestFrame]⟩
  | aborted | took | woken | dataQueued | dataUnqueued | finished | unfinished | cleanup => cases hf
  | _ => exact hx f response hf

/-- What a conversation queues are frames of the session. -/
theorem Conv.Step.ours {env x x' m}
    (h : Step p env x m x' fs err) (hx : x.HoldsOurs p) (hsuits : x.Suits p m) :
    ∀ f ∈ fs, Ours p f := by
  cases h with
  | dataGranted _ _ hr hf =>
    intro f hf'
    rw [List.mem_singleton.mp hf', hf]
    exact ⟨rfl, by simp [RequestState.frame, requestFrame]⟩
  | openGranted =>
    intro f hf
    rw [List.mem_singleton.mp hf, (hsuits.opening _ _ rfl).2.2]
    exact ⟨rfl, by simp [Session.openCredit, RequestState.frame, requestFrame]⟩
  | dataQueued h =>
    intro f hf
    rw [List.mem_singleton.mp hf]
    exact hx _ _ h
  | finished =>
    intro f hf
    simp only [lastFrames, List.mem_cons, List.not_mem_nil, or_false] at hf
    obtain rfl | rfl := hf <;> exact ⟨rfl, by simp [RequestState.frame, requestFrame]⟩
  | _ => exact fun f hf ↦ absurd hf List.not_mem_nil

namespace Session

variable {s : Session} {ok : Session → Action → Prop}

theorem holdsOurs (h : Reach (step p) ok {} s) : ∀ x ∈ s.convs, x.HoldsOurs p :=
  forall_convs (P := Conv.HoldsOurs p)
    ⟨fun _ _ _ _ _ _ h ↦ (by cases h), fun _ _ _ _ _ _ h ↦ (by cases h)⟩ (fun h hx ↦ hx.step h) h

/-- Every frame that enters a queue is one of the session. -/
theorem ours_of_mem_accepted (h : Reach (step p) ok {} s) :
    ∀ f ∈ s.accepted, Ours p f := by
  refine h.invariant (by simp) ?_
  intro s a s' hreach hs _ hstep f hf
  have happend : ∀ {frames : List ConnectRequest}, s'.accepted = s.accepted ++ frames →
      (∀ f ∈ frames, Ours p f) → Ours p f := by
    intro frames ha hframes
    rw [ha, List.mem_append] at hf
    exact hf.elim (hs f) (hframes f)
  cases step_change hstep with
  | same _ ha | waited _ ha | looked _ ha | applied _ _ _ _ _ _ ha | reserved _ _ ha =>
    exact hs f (ha ▸ hf)
  | tunnel hadm hi ha hr hv hk =>
    exact happend ha fun f hf ↦ List.mem_singleton.mp hf ▸ ⟨rfl, hk⟩
  | rejected hrej hadm hi ha =>
    refine happend ha fun f hf ↦ ?_
    simp only [rejection, List.mem_cons, List.not_mem_nil, or_false] at hf
    obtain rfl | rfl := hf <;> exact ⟨rfl, by simp [requestFrame]⟩
  | moved hx hstep hi ha hr =>
    exact happend ha (hstep.ours (holdsOurs hreach _ (List.mem_of_getElem? hx))
      (hr.suits (tabled hreach).2 (opening hreach) hx))

end Session

end GatewayOut

namespace Tunnel

variable {pin : GatewayIn.Params} {pout : GatewayOut.Params}

/-- gateway-out's check of a received frame, for one that gateway-in queued. -/
theorem Negotiated.admitsInbound_iff (hn : Negotiated pin pout) {view lanes frame}
    (h : GatewayIn.enqueueFrame pin view lanes frame = none) :
    GatewayOut.Session.admitsInbound pout frame = true ↔
      metadataWithin pin.limits (GatewayOut.responseEntries frame) = true := by
  obtain ⟨hvalid, htunnel, hsize, hdata, hcredit, -⟩ := GatewayIn.enqueueFrame_eq_none h
  simp only [GatewayOut.Session.admitsInbound, GatewayOut.responseWithinLimits,
    GatewayOut.withinNegotiatedLimits, metadataWithin, hn.limits_eq, hn.tunnelID_eq, hvalid,
      htunnel,
    hsize, hdata, hcredit, decide_true, Bool.true_and, Bool.and_true]

/-- gateway-in's check of a received frame, for one that gateway-out queued. -/
theorem Negotiated.validateInbound (hn : Negotiated pin pout) {frame}
    (hadm : GatewayOut.admits pout frame = true) (hours : GatewayOut.Ours pout frame) :
    GatewayIn.Session.validateInbound pin frame = true := by
  simp only [GatewayOut.admits, GatewayOut.requestWithinLimits, GatewayOut.withinNegotiatedLimits,
    hn.limits_eq, Bool.and_eq_true, decide_eq_true_eq] at hadm
  obtain ⟨hvalid, ⟨⟨⟨hsize, hdata⟩, hcredit⟩, hentries⟩, hvalues⟩ := hadm
  obtain ⟨htunnel, hhello⟩ := hours
  rw [hn.tunnelID_eq] at htunnel
  simp only [GatewayIn.Session.validateInbound, hvalid, htunnel, hsize, hdata, hcredit, decide_true,
    Bool.true_and, Bool.and_true]
  cases hk : frame.payload with
  | hello hello => exact absurd hk (hhello hello)
  | result =>
    rw [GatewayOut.requestEntries, hk] at hentries hvalues
    refine Bool.and_eq_true_iff.mpr ⟨decide_eq_true hentries, List.all_eq_true.mpr ?_⟩
    intro entry hentry
    cases entry with
    | none => exact absurd hentry (hvalid.none_notMem_metadata hk)
    | some => exact List.all_eq_true.mp hvalues _ hentry
  | _ => rfl

/-- **The checks of the two ends**, after a completed handshake.  A frame that gateway-in queues is
admitted by gateway-out if and only if its metadata is within the negotiated limits; a frame that
gateway-out queues is always admitted by gateway-in. -/
theorem admission {d : Deployment} (h : d.params = some (pin, pout)) :
    (∀ view lanes frame, GatewayIn.enqueueFrame pin view lanes frame = none →
      (GatewayOut.Session.admitsInbound pout frame = true ↔
        metadataWithin pin.limits (GatewayOut.responseEntries frame) = true)) ∧
    ∀ s, Reach (GatewayOut.Session.step pout) (fun _ _ ↦ True) {} s →
      ∀ frame ∈ s.accepted, GatewayIn.Session.validateInbound pin frame = true := by
  have hn := d.negotiated h
  refine ⟨fun view lanes frame hq ↦ hn.admitsInbound_iff hq, fun s hs frame hf ↦ ?_⟩
  exact hn.validateInbound (GatewayOut.Session.admits_of_mem_accepted hs frame hf)
    (GatewayOut.Session.ours_of_mem_accepted hs frame hf)

/-- The sample deployment with room for eight bytes of a metadata value. -/
def sampleNarrow : Deployment := sample { sampleLimits with maxMetadataValueBytes := 8 } 16

/-- A call without metadata of its own, as `Invoke` passes it on. -/
def sampleCall : GatewayIn.Call where
  route := .userGetMe
  payload := []
  metadata := GatewayIn.metadataWithTrace none []

open Script in
/-- Both halves at work: the Open of a call with room for its content type, and the Credit that
answers it. -/
theorem admission_sample :
    ∃ pin pout, (sample sampleLimits 16).params = some (pin, pout) ∧
      ∃ l, Reach (Link.step pin pout) (fun l a ↦ l.fresh a = true) {} l ∧
        (∃ frame ∈ l.gatewayIn.accepted, GatewayIn.isOpen frame = true ∧
          GatewayOut.Session.admitsInbound pout frame = true) ∧
        l.gatewayOut.accepted.length = 1 ∧
        ∀ frame ∈ l.gatewayOut.accepted, GatewayIn.Session.validateInbound pin frame = true := by
  obtain ⟨pin, pout, hparams, l, hreach, hone, frame, hframe, hopen, hq, hmetadata⟩ :=
    (sample sampleLimits 16).exists_of_replay
      (gin (.start sampleCall 1000 [sampleID 7]) :: invoke 0 (.enqueueOpen calm) :: forward ++
        accept)
      (fun _ _ ↦ Link.fresh)
      (fun pin _ l ↦ l.gatewayOut.accepted.length = 1 ∧ ∃ frame ∈ l.gatewayIn.accepted,
        GatewayIn.isOpen frame = true ∧
          GatewayIn.enqueueFrame pin calm (fun _ ↦ []) frame = none ∧
          metadataWithin pin.limits (GatewayOut.responseEntries frame) = true)
      (by decide +kernel)
  obtain ⟨hin, hout⟩ := admission hparams
  exact ⟨pin, pout, hparams, l, hreach,
    ⟨frame, hframe, hopen, (hin calm _ frame hq).mpr hmetadata⟩, hone,
    hout _ (Link.reach_gatewayOut (fun _ _ _ ↦ trivial) hreach)⟩

open Script in
/-- **An Open that only one end admits.**  The content type `Invoke` adds to every call is longer
than the value the two ends agreed on.  The call is valid, its Open is queued, and gateway-out
ends the tunnel. -/
theorem open_not_admitted :
    ∃ pin pout, sampleNarrow.params = some (pin, pout) ∧
      (∃ policy, pin.settings.routes.lookup sampleCall.route = some policy ∧
        GatewayIn.validateCall sampleCall policy 1000 = true) ∧
      ∃ l, Reach (Link.step pin pout) (fun l a ↦ l.fresh a = true) {} l ∧
        ∃ frame ∈ l.gatewayIn.accepted,
          GatewayOut.Session.admitsInbound pout frame = false ∧
          l.gatewayOut.receiver = .stopped (some frame) .protocol := by
  obtain ⟨pin, pout, hparams, l, hreach, hcall, hstop⟩ := sampleNarrow.exists_of_replay
    (gin (.start sampleCall 1000 [sampleID 7]) :: invoke 0 (.enqueueOpen calm) :: forward)
    (fun _ _ ↦ Link.fresh)
    (fun pin pout l ↦ (pin.settings.routes.lookup sampleCall.route).any
        (GatewayIn.validateCall sampleCall · 1000) = true ∧
      ∃ frame ∈ l.gatewayIn.accepted, GatewayOut.Session.admitsInbound pout frame = false ∧
        l.gatewayOut.receiver = .stopped (some frame) .protocol)
    (by decide +kernel)
  exact ⟨pin, pout, hparams, (Option.any_eq_true _ _).mp hcall, l, hreach, hstop⟩

end Tunnel

end MarketMesh
