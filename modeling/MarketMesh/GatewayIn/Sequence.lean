import MarketMesh.GatewayIn.Tables
import MarketMesh.Lib.Stream

/-!
# Sequence numbers of gateway-in

`enqueuePayloadLocked` spends a number before it knows whether the queue takes the frame.  A refused
frame therefore leaves a gap behind it, and the frames of a request stay consecutive only if nothing
of the request is offered between the refusal and the completion of the request, after which
nothing is offered at all.

* `Session.offersAfterRefusal` is that situation: the `Invoke` goroutine is at one of the three
  points behind a refused offer, or the read loop is behind a refused grant, and the other of the
  two, or the `Invoke` goroutine itself with its Cancel, offers the next frame.
* `Session.Contiguous` says that the frames of every request are numbered `1, 2, 3, ...`, and
  `Contiguous.step` that every other step keeps this.
-/

set_option autoImplicit false

namespace MarketMesh.GatewayIn

open Protocol

variable {p : Params} {lanes : Lanes} {x x' : Invocation} {m : Move} {f : Option ConnectResponse}

/-- The `Invoke` goroutine is between a refused offer and the completion of its request. -/
def Pc.isRefused : Pc → Bool
  | .openRefused _ | .creditRefused _ | .bodyRefused _ => true
  | _ => false

/-- The frames carry the numbers `1, 2, 3, ...` in order. -/
abbrev SequenceNumbered (frames : List ConnectResponse) : Prop :=
  Numbered (fun f ↦ f.header.sequence) frames

namespace LogicalRequest

variable {r r' : LogicalRequest} {frame : ConnectRequest} {v : Inbound}

theorem Takes.outboundSequence (h : Takes r frame r' v) :
    r'.outboundSequence = r.outboundSequence := by
  cases h with
  | violation hr => obtain rfl | rfl := hr <;> rfl
  | _ => rfl

end LogicalRequest

namespace Invocation

/-- A request that is not completed leaves a refusal only by being completed. -/
theorem Step.refused_stays (h : Step p lanes x m x' f) (hc : x'.request.isCompleted = false)
    (hpc : x.pc.isRefused = true) : x'.pc.isRefused = true := by
  have hcx := h.not_completed hc
  cases h with
  | queued hs hc' hq => cases hs <;> rename_i h <;> rw [h] at hpc <;> exact Bool.noConfusion hpc
  | refused hs => cases hs <;> rfl
  | creditQueued h | took h | woken h | compacted h => rw [h] at hpc; exact Bool.noConfusion hpc
  | creditRefused => rfl
  | canceled | cancelRefused | aborted => exact absurd hc (by simp [LogicalRequest.aborted])
  | failed => exact absurd hc (by simp [LogicalRequest.failed])
  | goes hs =>
    cases hs with
    | same _ hc' | openCompleted _ hc' | creditAborted _ hc' | bodyCompleted _ hc'
    | awaitCompleted _ hc' | bodyEnded _ hc' | waited _ _ hc' => exact absurd hcx (by simp [hc'])
    | rolledBack h | awaitCredit h | bodyExpired h | finished h | absent h =>
      rw [h] at hpc; exact Bool.noConfusion hpc
  | _ => exact hpc

/-- The number the next frame of a request gets is the one after the last queued frame, unless an
offer was refused. -/
theorem Step.next_number (h : Step p lanes x m x' f) (hc : x'.request.isCompleted = false)
    (hpc : x'.pc.isRefused = false)
    (hg : ∀ bytes view, m = .grantReceiveCredit bytes view → f.isSome = true)
    (hn : x.request.outboundSequence = x.queued.length) :
    x'.request.outboundSequence = x'.queued.length := by
  cases h with
  | queued | creditQueued | granted => simp [LogicalRequest.advance, hn]
  | refused hs => cases hs <;> exact Bool.noConfusion hpc
  | creditRefused => exact Bool.noConfusion hpc
  | grantRefused => exact absurd (hg _ _ rfl) (by decide)
  | canceled | cancelRefused => exact absurd hc (by simp [LogicalRequest.aborted])
  | inbound | violated => exact (LogicalRequest.handleInbound_takes _ _).outboundSequence.trans hn
  | _ => exact hn

/-- The moves that offer a frame to the outbound queue. -/
def offers (x : Invocation) : Move → Bool
  | .enqueueOpen _ | .sendInitialResponseCredit _ | .enqueueData _ | .enqueueHalfClose _
  | .waitContext _ | .grantReceiveCredit _ _ => true
  -- only an expired context makes `Invoke` send a Cancel
  | .bodyError _ => x.ctxErr.isSome
  | _ => false

theorem Step.offers {frame} (h : Step p lanes x m x' (some frame)) :
    x.offers m = true := by
  cases h with
  | queued hs => cases hs <;> rfl
  | creditQueued | granted => rfl
  | canceled hs hctx =>
    cases hs with
    | body => simp [Invocation.offers, hctx]
    | wait => rfl

theorem Step.localAbort_completed (h : Step p lanes x .localAbort x' f) :
    x'.request.isCompleted = true := by
  cases h with
  | queued hs | refused hs | canceled hs | cancelRefused hs => cases hs
  | aborted | failed => rfl
  | goes hs =>
    cases hs with
    | waited hm => simp at hm
    | same hm hc => exact hc

end Invocation

/-- The request whose grant was just refused. -/
def Reader.refused : Reader → Option Ref
  | .grantRefused r _ => some r
  | _ => none

namespace Session

variable {s s' : Session} {a : Action} {reader : Reader} {r : Ref}

/-- A frame of the request was refused, and the goroutine that offered it has not completed the
request yet. -/
def isRefusing (s : Session) (r : Ref) (x : Invocation) : Bool :=
  x.pc.isRefused || s.reader.refused == some r

/-- The action offers a frame of a request that has had a frame refused and is not completed. -/
def offersAfterRefusal (s : Session) : Action → Bool
  | .invoke r m => (s.invocations[r]?).any fun x ↦
      x.offers m && !x.request.isCompleted && s.isRefusing r x
  | .grant _ =>
    match s.reader with
    | .grant r _ => (s.invocations[r]?).any fun x ↦ !x.request.isCompleted && s.isRefusing r x
    | _ => false
  | _ => false

/-- The read loop forgets a refused grant only by aborting the request. -/
theorem Reads.refused {r'} (h : Reads p s r x a m reader) (hr : s.reader.refused = some r') :
    reader.refused = some r' ∨ r' = r ∧ m = .localAbort := by
  cases h with
  | invoke | absent | fail => exact .inl hr
  | abort h =>
    rw [h] at hr
    exact .inr ⟨(Option.some_inj.mp hr).symm, rfl⟩
  | deliver h | notify h | granted h | grantRefused h =>
    rw [h] at hr; exact absurd hr (by simp [Reader.refused])

/-- A refused grant is remembered by the read loop. -/
theorem Reads.grant_accepted {bytes : Int} {view}
    (hr : Reads p s r x a (.grantReceiveCredit bytes view) reader)
    (hstep : Invocation.Step p s.lanes x (.grantReceiveCredit bytes view) x' f)
    (hc : x.request.isCompleted = false) (href : reader.refused ≠ some r) : f.isSome = true := by
  cases hr with
  | invoke hm => exact Bool.noConfusion hm
  | grantRefused => exact absurd rfl href
  | granted h hg =>
    obtain hg | ⟨frame, hg⟩ := hg
    · exact absurd hc (by simp [hg])
    · cases hstep with
      | granted => rfl
      | grantRefused hc' hg' => rw [hg] at hg'; exact absurd hg' (by simp)
      | goes hs =>
        cases hs with
        | waited hm => simp at hm
        | same hm hc' => exact absurd hc (by simp [hc'])
      | queued hs | refused hs | canceled hs | cancelRefused hs | aborted hs | failed hs => cases hs

theorem isRefusing_of_isRefusing (hr : s.reader.refused = some r → s'.reader.refused = some r)
    (hpc : x.pc.isRefused = true → x'.pc.isRefused = true) (h : s'.isRefusing r x' = false) :
    s.isRefusing r x = false := by
  simp only [isRefusing, Bool.or_eq_false_iff, beq_eq_false_iff_ne, ne_eq] at h ⊢
  exact ⟨Bool.eq_false_iff.mpr fun hx ↦ by simp [hpc hx] at h, fun hx ↦ h.2 (hr hx)⟩

/-- The frames of every request are numbered without a gap, and the next number continues them
unless an offer of the request was refused. -/
def Contiguous (s : Session) : Prop :=
  ∀ (r : Ref) (x : Invocation), s.invocations[r]? = some x →
    SequenceNumbered x.queued ∧
      (x.request.isCompleted = false → s.isRefusing r x = false →
        x.request.outboundSequence = x.queued.length)

theorem Contiguous.init : Contiguous {} := fun r x hx ↦ by simp at hx

/-- A step that touches no invocation and keeps a refused grant keeps the numbering. -/
theorem Contiguous.of_same (hs : Contiguous s) (hi : s'.invocations = s.invocations)
    (hr : ∀ r, s.reader.refused = some r → s'.reader.refused = some r) : Contiguous s' := by
  intro r x hx
  rw [hi] at hx
  obtain ⟨hnum, hnext⟩ := hs r x hx
  exact ⟨hnum, fun hc href ↦ hnext hc (isRefusing_of_isRefusing (hr r) id href)⟩

theorem offersAfterRefusal_of_reads (hx : s.invocations[r]? = some x)
    (hr : Reads p s r x a m reader) (ho : x.offers m = true) (hc : x.request.isCompleted = false)
    (hok : s.offersAfterRefusal a = false) : s.isRefusing r x = false := by
  cases hr with
  | invoke => simpa [offersAfterRefusal, hx, ho, hc] using hok
  | granted h | grantRefused h => simpa [offersAfterRefusal, h, hx, hc] using hok
  | absent | fail | deliver | notify | abort => exact Bool.noConfusion ho

/-- **One step keeps the numbering**, unless it offers a frame after a refusal. -/
theorem Contiguous.step (hs : Contiguous s) (hok : s.offersAfterRefusal a = false)
    (h : s.step p a = some s') : Contiguous s' := by
  cases step_change h with
  | same hi ha hr => exact hs.of_same hi fun r hr' ↦ by rwa [hr]
  | control hq hi ha hr =>
    refine hs.of_same hi fun r hr' ↦ ?_
    obtain hr | ⟨⟨nonce, hp⟩, -⟩ := hr
    · rwa [hr]
    · rw [hp] at hr'; exact absurd hr' (by simp [Reader.refused])
  | unanswered hi ha hp =>
    refine hs.of_same hi fun r hr' ↦ ?_
    rw [hp] at hr'; exact absurd hr' (by simp [Reader.refused])
  | received hi ha hidle =>
    refine hs.of_same hi fun r hr' ↦ ?_
    rw [hidle] at hr'; exact absurd hr' (by simp [Reader.refused])
  | started hid hp hb hi ha hr =>
    intro r x hx
    rw [hi] at hx
    obtain ⟨-, rfl⟩ | hx := Pool.of_append hx
    · exact ⟨.nil, fun _ _ ↦ rfl⟩
    · obtain ⟨hnum, hnext⟩ := hs r x hx
      exact ⟨hnum, fun hc href ↦
        hnext hc (isRefusing_of_isRefusing (fun hr' ↦ by rwa [hr]) id href)⟩
  | @moved _ _ r x x' m f hx hstep hi ha hr hv =>
    intro r' y hy
    rw [hi] at hy
    obtain ⟨rfl, rfl⟩ | ⟨hrr, hy⟩ := Pool.of_set hy
    · obtain ⟨hnum, hnext⟩ := hs r' x hx
      refine ⟨?_, fun hc href ↦ ?_⟩
      · -- the frame the step queued, if any, has the next number
        cases f with
        | none => rwa [hstep.not_accepted]
        | some =>
          obtain ⟨hc, hqueued, payload, view, hframe, -⟩ := hstep.accepted
          rw [hqueued]
          refine hnum.append ?_
          rw [hframe, ← hnext hc (offersAfterRefusal_of_reads hx hr hstep.offers hc hok)]
          rfl
      · have hcx := hstep.not_completed hc
        have hpc : y.pc.isRefused = false := by
          rw [isRefusing, Bool.or_eq_false_iff] at href
          exact href.1
        refine hstep.next_number hc hpc (fun bytes view hm ↦ ?_) (hnext hcx ?_)
        · subst hm
          refine hr.grant_accepted hstep hcx fun hr' ↦ ?_
          rw [isRefusing, hr'] at href
          exact absurd href (by simp)
        · refine isRefusing_of_isRefusing (fun hr' ↦ ?_) (hstep.refused_stays hc) href
          obtain hr' | ⟨-, rfl⟩ := hr.refused hr'
          · exact hr'
          · exact absurd hstep.localAbort_completed (by simp [hc])
    · obtain ⟨hnum, hnext⟩ := hs r' y hy
      refine ⟨hnum, fun hc href ↦ hnext hc (isRefusing_of_isRefusing (fun hr' ↦ ?_) id href)⟩
      obtain hr' | ⟨rfl, -⟩ := hr.refused hr'
      · exact hr'
      · contradiction

end Session

end MarketMesh.GatewayIn
