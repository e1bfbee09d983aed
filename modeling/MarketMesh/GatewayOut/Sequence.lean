import MarketMesh.GatewayOut.Answer

/-!
# Sequence numbers of gateway-out

Like gateway-in, gateway-out spends a number before it knows whether the queue takes the frame.  A
refused first Credit and a refused final batch end the request, and nothing is queued behind them.
But `completeRequest` goes on to its final batch when `sendResponse` could not queue a Data, and
the watcher of a request goes on when `handleData` could not queue a Credit.

* `Session.offersAdmitted` says that neither happens: when one of these two frames is offered, the
  queue has room, the contexts are alive and the frame is within the limits.
* `Session.Contiguous` says that the frames of every conversation are numbered `1, 2, 3, ...`.
-/

set_option autoImplicit false

namespace MarketMesh.GatewayOut

open Protocol

/-- The frames carry the numbers `1, 2, 3, ...` in order. -/
abbrev SequenceNumbered (frames : List ConnectRequest) : Prop :=
  Numbered (fun f ↦ f.header.sequence) frames

/-- An offer is accepted when there is room, nothing is done and the frames pass their checks. -/
theorem enqueue_ne_error {p choice room isDone ctxErr frames e} (hroom : room = true)
    (hdone : isDone = false) (hctx : ctxErr = none) (hadm : ∀ f ∈ frames, admits p f = true) :
    enqueue p choice ctxErr isDone room frames ≠ some (some e) := by
  simp only [enqueue, if_pos (List.all_eq_true.mpr hadm), hroom, hdone, hctx]
  cases choice <;> simp

namespace Conv

variable {p : Params} {env : Env} {x x' : Conv} {m : Move} {fs : List ConnectRequest}
  {err : Option Err}

/-- The queue is sure to take the Data, or the Credit of `handleData`, that the move offers. -/
def admitted (p : Params) (env : Env) (x : Conv) : Move → Bool
  | .data frame _ =>
    match x.request.takeData p frame.data with
    | none => true
    | some (r, grant) =>
      grant = 0 || env.room && !env.isDone && r.ctxErr.isNone &&
        admits p ((r.granted grant).frame p (.credit (toUint32 grant)))
  | .enqueueData _ =>
    match x.completer with
    | .numbered frame _ => env.room && !env.isDone && admits p frame
    | _ => true
  | _ => true

/-- The numbers of the queued frames have no gap, and the next number continues them as long as
something may still be queued. -/
def Numbers (x : Conv) : Prop :=
  SequenceNumbered x.queued ∧
    match x.completer with
    | .numbered f _ => f.header.sequence = x.queued.length + 1 ∧
      x.request.outgoingSequence = x.queued.length + 1
    | .batchRefused | .cleanup | .release | .done => True
    | _ => x.request.outgoingSequence = x.queued.length

theorem Numbers.step (hx : x.Numbers) (hsound : x.Sound) (h : Step p env x m x' fs err)
    (hadm : x.admitted p env m = true) (hnum : m ≠ .numberOpen)
    (hopen : ∀ f choice, m ≠ .enqueueOpen f choice) : x'.Numbers := by
  cases h with
  | dataGranted htakes hgrant hr hf =>
    subst hr hf
    have hnone := hsound.owned.mpr htakes.isOpen.2
    simp only [Numbers, hnone] at hx ⊢
    have hlength : x.request.outgoingSequence + 1 = x.queued.length + 1 := by rw [hx.2]
    exact ⟨hx.1.append hlength, by rw [List.length_append]; exact hlength⟩
  | dataRefused htakes hgrant hr hf hq =>
    subst hr hf
    rw [admitted, htakes.takeData_eq] at hadm
    simp only [hgrant, decide_false, Bool.false_or, Bool.and_eq_true, Bool.not_eq_true',
      Option.isNone_iff_eq_none] at hadm
    refine absurd hq (enqueue_ne_error hadm.1.1.1 hadm.1.1.2 hadm.1.2 fun f hf ↦ ?_)
    rw [List.mem_singleton.mp hf]
    exact hadm.2
  | numberOpen => exact absurd rfl hnum
  | openGranted | openRefused => exact absurd rfl (hopen _ _)
  | claimed hs ht =>
    simp only [Numbers, hsound.owned.mpr ht] at hx
    rename_i response code executor watcher
    obtain hc | hc := firstPc_eq response code <;> simp only [Numbers, hc] <;> exact hx
  | aborted | unfinished | cleanup => exact ⟨hx.1, trivial⟩
  | goes hs =>
    cases hs with
    | watcherDone | watcherExpired => exact hx
    | sent h | awaitCredit h | expired h | failed h => simp only [Numbers, h] at hx; exact hx
    | session | released => exact ⟨hx.1, trivial⟩
  | took h | woken h => simp only [Numbers, h] at hx; exact hx
  | numberData h =>
    simp only [Numbers, h] at hx
    have hlength : x.request.outgoingSequence + 1 = x.queued.length + 1 := by rw [hx.2]
    exact ⟨hx.1, hlength, hlength⟩
  | dataQueued h =>
    simp only [Numbers, h] at hx
    refine ⟨hx.1.append hx.2.1, ?_⟩
    show x.request.outgoingSequence = (x.queued ++ _).length
    rw [List.length_append, hx.2.2]
    rfl
  | dataUnqueued h hq =>
    simp only [admitted, h, Bool.and_eq_true, Bool.not_eq_true'] at hadm
    refine absurd hq (enqueue_ne_error hadm.1.1 hadm.1.2 (by rw [hadm.1.2]; rfl) fun f hf ↦ ?_)
    rw [List.mem_singleton.mp hf]
    exact hadm.2
  | finished h =>
    simp only [Numbers, h] at hx
    refine ⟨?_, trivial⟩
    have hclose : SequenceNumbered (x.queued ++ [x.request.advance.frame p .halfClose]) :=
      hx.1.append (by rw [← hx.2]; rfl)
    show SequenceNumbered (x.queued ++ ([_] ++ [_]))
    rw [← List.append_assoc]
    refine hclose.append ?_
    rw [List.length_append, ← hx.2]
    rfl
  | _ => exact hx

/-- The first Credit is number one. -/
theorem Numbers.of_openCredit (hsilent : x.Silent) (hone : x.request.outgoingSequence = 1)
    (hq : x'.queued = x.queued ++ [Session.openCredit p x.request])
    (hs : x'.request.outgoingSequence = 1) (hc : x'.completer = x.completer) : x'.Numbers := by
  rw [hsilent.queued, List.nil_append] at hq
  rw [Numbers, hc, hq, hs]
  refine ⟨Numbered.append .nil hone, ?_⟩
  obtain hnone | hover := hsilent.completer
  · rw [hnone]; rfl
  · cases hcomp : x.completer <;> rw [hcomp] at hover <;> trivial

/-- An aborted request queues nothing. -/
theorem Numbers.of_aborted (hx : x.Silent) (hsound : x.Sound)
    (h : Step p env x .claimAbort x' fs err) : x'.Numbers := by
  have hnil : SequenceNumbered x.queued := by rw [hx.queued]; exact .nil
  cases h with
  | violation hm => exact Bool.noConfusion hm
  | claimed hs | unclaimed hs | goes hs => cases hs
  | contextDone hm => simp at hm
  | aborted => exact ⟨hnil, trivial⟩
  | unaborted ht =>
    refine ⟨hnil, ?_⟩
    obtain hnone | hover := hx.completer
    · exact absurd (hsound.owned.mp hnone) (by simp [ht])
    · cases hcomp : x.completer <;> rw [hcomp] at hover <;> trivial

end Conv

/-- The request whose first Credit is still to be queued. -/
def Receiver.opens : Receiver → Option Ref
  | .reserved k | .openNumbered k _ | .openRefused k => some k
  | _ => none

namespace Session

variable {p : Params} {s s' : Session} {a : Action} {k : Ref} {m : Move}

/-- The queue is sure to take the Data, or the Credit of `handleData`, that the step offers. -/
def offersAdmitted (p : Params) (s : Session) : Action → Bool
  | .data choice =>
    match s.receiver with
    | .data k frame =>
      (s.convs[k]?).all fun x ↦ x.admitted p (s.envOf p x) (.data frame choice)
    | _ => true
  | .worker k m => (s.convs[k]?).all fun x ↦ x.admitted p (s.envOf p x) m
  | _ => true

/-- A conversation that was not touched and is not being opened was not being opened before. -/
theorem opens_ne_of_kept
    (hr : s'.receiver = s.receiver ∨ s'.receiver.ref ≠ some k ∧ (s.receiver.ref ≠ some k ∨
      (∃ frame, s.receiver = .rejected frame k) ∨ s.receiver = .awaiting k))
    (hk : s'.receiver.opens ≠ some k) : s.receiver.opens ≠ some k := by
  intro hopens
  obtain hr | ⟨-, hr | ⟨frame, hr⟩ | hr⟩ := hr
  · exact hk (hr ▸ hopens)
  · refine hr ?_
    cases hreceiver : s.receiver <;> rw [hreceiver] at hopens <;>
      first | exact hopens | exact absurd hopens (by simp [Receiver.opens])
  · rw [hr] at hopens; cases hopens
  · rw [hr] at hopens; cases hopens

theorem Advances.admitted {x x' err receiver}
    (hx : s.convs[k]? = some x) (h : Advances p s k x x' a m err receiver)
    (hok : s.offersAdmitted p a = true) : x.admitted p (s.envOf p x) m = true := by
  cases h with
  | worker => simpa [offersAdmitted, hx] using hok
  | data hr | dataFailed hr => simpa [offersAdmitted, hr, hx] using hok
  | _ => rfl

/-- The frames of every conversation are numbered without a gap. -/
def Contiguous (s : Session) : Prop :=
  ∀ (k : Ref) (x : Conv), s.convs[k]? = some x → s.receiver.opens ≠ some k → x.Numbers

theorem Contiguous.init : Contiguous {} := fun k x hx ↦ by simp at hx

/-- **One step keeps the numbering**, unless a queue refuses one of the two frames. -/
theorem Contiguous.step (hs : s.Contiguous) (hsound : ∀ x ∈ s.convs, x.Sound)
    (hopening : s.Opening p) (hok : s.offersAdmitted p a = true) (h : s.step p a = some s') :
    s'.Contiguous := by
  intro k x' hx' hopens'
  cases step_origin h hx' with
  | kept hx hr => exact hs k x' hx (opens_ne_of_kept hr hopens')
  | @applied frame now x m hidle hadm hlookup hx hstep hr =>
    have hnum := hs k x hx (by rw [hidle]; simp [Receiver.opens])
    generalize s'.receiver = receiver at hr
    refine hnum.step (hsound x (List.mem_of_getElem? hx)) hstep ?_ ?_ ?_ <;>
      cases hr <;> simp [Conv.admitted]
  | rejected hrej hlen hx => subst hx; exact ⟨rfl, trivial⟩
  | reserved hres hlen hx hr => rw [hr] at hopens'; exact absurd rfl hopens'
  | @advanced _ x m fs err hx hstep hr =>
    have hxsound := hsound x (List.mem_of_getElem? hx)
    have hadm := hr.admitted hx hok
    -- the moves behind the first Credit
    have hmove : s.receiver.opens ≠ some k → m ≠ .numberOpen →
        (∀ f choice, m ≠ .enqueueOpen f choice) → x'.Numbers := fun hopens hnum hopen ↦
      (hs k x hx hopens).step hxsound hstep hadm hnum hopen
    have hown : m.isOwn = true → s'.receiver = s.receiver → x'.Numbers := by
      intro hm heq
      refine hmove (heq ▸ hopens') ?_ ?_
      · rintro rfl; exact Bool.noConfusion hm
      · rintro f choice rfl; exact Bool.noConfusion hm
    generalize s'.receiver = receiver at hr hopens' hown
    cases hr with
    | worker hm => exact hown (isOwn_of_worker hm) rfl
    | session | release | abort => exact hown rfl rfl
    | numberOpen | openRefused => exact absurd rfl hopens'
    | openGranted hreceiver =>
      rw [Opening, hreceiver] at hopening
      obtain ⟨y, hy, hsilent, hone, rfl⟩ := hopening
      cases hx.symm.trans hy
      cases hstep with
      | openGranted => exact .of_openCredit hsilent hone rfl hone rfl
      | claimed hs' | unclaimed hs' | goes hs' => cases hs'
      | contextDone hm => simp at hm
    | openAborted hreceiver =>
      rw [Opening, hreceiver] at hopening
      obtain ⟨y, hy, hsilent⟩ := hopening
      cases hx.symm.trans hy
      exact .of_aborted hsilent hxsound hstep
    | _ =>
      rename_i hreceiver
      first
      | exact hmove (by rw [hreceiver]; simp [Receiver.opens]) (by simp) (by simp)
      | exact hmove (by simp_all [Receiver.opens]) (by simp) (by simp)

/-- A conversation whose first Credit is still to be queued has queued nothing. -/
theorem Opening.queued_eq_nil {x} (hs : s.Opening p) (hx : s.convs[k]? = some x)
    (hk : s.receiver.opens = some k) : x.queued = [] := by
  have hsilent : ∀ {k' : Ref} {y : Conv}, s.convs[k']? = some y → y.Silent → k' = k →
      x.queued = [] := by
    rintro k' y hy hy' rfl
    cases hx.symm.trans hy
    exact hy'.queued
  rw [Opening] at hs
  cases hreceiver : s.receiver <;> rw [hreceiver] at hs hk
  case reserved =>
    obtain ⟨y, hy, hy', -⟩ := hs
    exact hsilent hy hy' (Option.some_inj.mp hk)
  case openNumbered =>
    obtain ⟨y, hy, hy', -⟩ := hs
    exact hsilent hy hy' (Option.some_inj.mp hk)
  case openRefused =>
    obtain ⟨y, hy, hy'⟩ := hs
    exact hsilent hy hy' (Option.some_inj.mp hk)
  all_goals exact absurd hk (by simp [Receiver.opens])

/-- The runs in which no queue refuses one of the two frames. -/
theorem sequenceNumbered {ok : Session → Action → Prop}
    (hok : ∀ s a, ok s a → s.offersAdmitted p a = true)
      (h : Machine.Reach (Session.step p) ok {} s) :
    ∀ x ∈ s.convs, SequenceNumbered x.queued := by
  have hcont : s.Contiguous := h.invariant (P := Contiguous) Contiguous.init
    fun _ _ _ hreach hs hok' hstep ↦
      hs.step (conv_sound hreach) (opening hreach) (hok _ _ hok') hstep
  intro x hx
  obtain ⟨k, hk⟩ := List.mem_iff_getElem?.mp hx
  by_cases hopens : s.receiver.opens = some k
  · rw [(opening h).queued_eq_nil hk hopens]
    exact .nil
  · exact (hcont k x hk hopens).1

end Session

end MarketMesh.GatewayOut
