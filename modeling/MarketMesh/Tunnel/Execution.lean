import MarketMesh.GatewayOut.Credit
import MarketMesh.Tunnel.Link

/-!
# What crosses the tunnel

The frames that a conversation of gateway-out has handled are the first ones that its request queued
at gateway-in, so what it makes of them is true of the request.
-/

set_option autoImplicit false

namespace MarketMesh

open Protocol Machine GatewayOut

/-- The route of a conversation runs at most once, on the bytes before the HalfClose. -/
theorem GatewayOut.Conv.Sound.executed {y : Conv} (hy : y.Sound) {e : Bytes × Bytes × Code}
    (he : e ∈ y.executions) : y.executions = [e] ∧ y.Closed e.1 := by
  have hx := hy.executes
  unfold Executes at hx
  split at hx
  · simp [hx.1] at he
  · simp [hx.1] at he
  · obtain ⟨-, b, code, heq, -, hb⟩ := hx
    rw [heq, List.mem_singleton] at he
    exact he ▸ ⟨heq, hb⟩
  · obtain ⟨-, b, r, code, heq, hb⟩ := hx
    rw [heq, List.mem_singleton] at he
    exact he ▸ ⟨heq, hb⟩

namespace Tunnel

variable {pin : GatewayIn.Params} {pout : GatewayOut.Params} {l : Link} {k : Ref} {y : Conv}
  (h : Reach (Link.step pin pout) (fun l a ↦ l.fresh a = true) {} l)
  (hy : l.gatewayOut.convs[k]? = some y)

include h hy

/-- **A request is executed at most once**: no other conversation has its identifier, and its route
runs once, on all the Data that gateway-in queued for it before a HalfClose. -/
theorem executes_once {e : Bytes × Bytes × Code} (he : e ∈ y.executions) : y.executions = [e] ∧
    (∀ (k' : Ref) (y' : Conv), l.gatewayOut.convs[k']? = some y' →
      y'.request.requestID = y.request.requestID → k' = k) ∧
    ∃ x ∈ l.gatewayIn.invocations, y.request.requestID = x.request.id.toList ∧
      ∃ fs f, fs ++ [f] <+: x.queued ∧ f.payload = .halfClose ∧ e.1 = requestBytes fs := by
  have hs := Link.sound h
  obtain ⟨r, x, hx, hid⟩ := hs.exists_invocation hy
  obtain ⟨hone, fs, f, rest, hh, hf, hb⟩ :=
    (Session.conv_sound hs.gatewayOut y (List.mem_of_getElem? hy)).executed he
  have hclosed : fs ++ [f] <+: y.handled := ⟨rest, by simp [hh]⟩
  have hqueued := (List.prefix_append ..).trans (hs.prefix_of_handled hx hy hid)
  obtain ⟨log, -, hlog⟩ := (Session.histories hs.gatewayOut).2
  exact ⟨hone, fun k' y' hy' hid' ↦ hlog.distinct hy' hy hid', x, List.mem_of_getElem? hx, hid,
    fs, f, hclosed.trans hqueued, hf, hb⟩

/-- **A response stays within its credit**: gateway-out never queues more bytes for a request than
gateway-in has queued credit for. -/
theorem response_in_credit : ∃ x ∈ l.gatewayIn.invocations,
    y.request.requestID = x.request.id.toList ∧
      (responseBytes y.queued).length ≤ responseCredit x.queued := by
  have hs := Link.sound h
  obtain ⟨r, x, hx, hid⟩ := hs.exists_invocation hy
  have hspent := (Session.accounts hs.gatewayOut y (List.mem_of_getElem? hy)).spent
  obtain ⟨rest, hrest⟩ := hs.prefix_of_handled hx hy hid
  refine ⟨x, List.mem_of_getElem? hx, hid, ?_⟩
  rw [← hrest, responseCredit_append, responseCredit_append]
  omega

omit h hy

open Script in
/-- A call with two bytes is answered with one. -/
theorem exists_answered : ∃ pin pout, (sample sampleLimits 16).params = some (pin, pout) ∧ ∃ l,
    Reach (Link.step pin pout) (fun l a ↦ l.fresh a = true) {} l ∧
      ∃ y ∈ l.gatewayOut.convs[0]?, ([5, 6], [1], .ok) ∈ y.executions := by
  exact (sample sampleLimits 16).exists_of_replay (start 7 [5, 6] :: openRequest 0 ++ forward ++
    accept ++ emit 1 ++ delivered ++
    [gin .notify, invoke 0 .takeSendCredit, invoke 0 (.enqueueData calm)] ++ forward ++ forward ++
    [gout (.data .room), invoke 0 (.enqueueHalfClose calm)] ++ forward ++
    [gout .halfClose, worker 0 (.execute (.replied [1])), worker 0 .claimExecutor] ++
    respond 0 .room) _ _ (by decide +kernel)

theorem executes_once_answered : ∃ pin pout l,
    Reach (Link.step pin pout) (fun l a ↦ l.fresh a = true) {} l ∧
      ∃ y ∈ l.gatewayOut.convs, y.executions = [([5, 6], [1], .ok)] ∧
        ∃ x ∈ l.gatewayIn.invocations, ∃ fs f, fs ++ [f] <+: x.queued ∧ f.payload = .halfClose ∧
          requestBytes fs = [5, 6] := by
  obtain ⟨pin, pout, -, l, h, y, hy, he⟩ := exists_answered
  obtain ⟨hone, -, x, hx, -, fs, f, hqueued, hf, hbytes⟩ := executes_once h hy he
  exact ⟨pin, pout, l, h, y, List.mem_of_getElem? hy, hone, x, hx, fs, f, hqueued, hf, hbytes.symm⟩

theorem response_in_credit_answered : ∃ pin pout l,
    Reach (Link.step pin pout) (fun l a ↦ l.fresh a = true) {} l ∧
      ∃ y ∈ l.gatewayOut.convs, ∃ x ∈ l.gatewayIn.invocations,
        (responseBytes y.queued).length ≤ responseCredit x.queued := by
  obtain ⟨pin, pout, -, l, h, y, hy, -⟩ := exists_answered
  obtain ⟨x, hx, -, hle⟩ := response_in_credit h hy
  exact ⟨pin, pout, l, h, y, List.mem_of_getElem? hy, x, hx, hle⟩

end Tunnel

end MarketMesh
