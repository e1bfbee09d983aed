import MarketMesh.GatewayOut.Answer
import MarketMesh.Tunnel.Link

/-!
# Late frames at gateway-in

A request that left the table of gateway-in may still have frames on their way from the peer, and
the ring of tombstones is there to recognise them.  It holds as many entries as requests may be
active at a time, and a new entry pushes out the oldest one, whether or not its peer is done with
it.

`Session.Known` says that a request whose Open may have gone out is in one of the tables, or has
had its Result, behind which nothing comes.  It is kept as long as only requests with a Result are
pushed out (`Session.evictsAnswered`).
-/

set_option autoImplicit false

namespace MarketMesh

open Protocol Machine

namespace GatewayIn

/-- The frame is a Result. -/
def isResult (f : ConnectRequest) : Bool :=
  match f.payload with
  | .result _ => true
  | _ => false

namespace Invocation

variable {p : Params} {lanes : Lanes} {x x' : Invocation} {m : Move} {f : Option ConnectResponse}

/-- The Result of the request has arrived. -/
def isAnswered (x : Invocation) : Bool := x.handled.any isResult

theorem Step.isAnswered (h : Step p lanes x m x' f) (hx : x.isAnswered = true) :
    x'.isAnswered = true := by
  have hpre : x.handled <+: x'.handled := by
    by_cases hin : ∃ frame, m = .handleInbound frame
    · obtain ⟨frame, rfl⟩ := hin
      rw [h.handled_eq]
      exact List.prefix_append _ _
    · exact (h.handled_eq_of_ne fun frame h ↦ hin ⟨frame, h⟩) ▸ List.prefix_rfl
  rw [Invocation.isAnswered, List.any_eq_true] at hx ⊢
  obtain ⟨f, hf, hr⟩ := hx
  exact ⟨f, hpre.subset hf, hr⟩

/-- A request that was rolled back is gone for good. -/
theorem Step.rolledBack {e} (h : Step p lanes x m x' f) (hx : x.pc = .rolledBack e) :
    x'.pc = .rolledBack e := by
  cases h with
  | queued hs | refused hs | canceled hs | cancelRefused hs | aborted hs | failed hs | goes hs =>
    cases hs <;> simp_all
  | creditQueued | creditRefused | took | woken | compacted => simp_all
  | _ => exact hx

end Invocation

namespace Session

variable {p : Params} {s s' : Session} {a : Action} {r : Ref} {id : OpaqueID}

/-! ## The ring -/

/-- The ring is never larger than its capacity, and its position points into it. -/
structure Bounded (p : Params) (s : Session) : Prop where
  length : s.tombstoneOrder.length ≤ p.limits.maxInFlightRequests
  position : 0 < p.limits.maxInFlightRequests →
    s.tombstonePosition < p.limits.maxInFlightRequests
  used : ∀ {id : OpaqueID} {r : Ref}, s.requests.lookup id = some r →
    0 < p.limits.maxInFlightRequests

theorem Bounded.init : Bounded p {} := ⟨Nat.zero_le _, fun h ↦ h, fun h ↦ by simp at h⟩

theorem Bounded.step (hs : Bounded p s) (h : s.step p a = some s') : Bounded p s' := by
  cases step_tables h with
  | same hr ht ho hp => exact ⟨ho ▸ hs.length, hp ▸ hs.position, fun h ↦ hs.used (hr ▸ h)⟩
  | started hid hroom hreq htomb hlast hr ht ho hp =>
    exact ⟨ho ▸ hs.length, hp ▸ hs.position, fun _ ↦ (Nat.zero_le _).trans_lt hroom⟩
  | rolledBack hx hpc hlookup hr ht ho hp =>
    exact ⟨ho ▸ hs.length, hp ▸ hs.position, fun _ ↦ hs.used hlookup⟩
  | finished hx hpc hlookup hr hring =>
    have hpos := hs.used hlookup
    cases hring with
    | added hroom ho ht hp =>
      refine ⟨?_, hp ▸ hs.position, fun _ ↦ hpos⟩
      rw [ho, List.length_append]
      exact hroom
    | evicted hfull hold ho ht hp =>
      refine ⟨?_, fun _ ↦ hp ▸ Nat.mod_lt _ hpos, fun _ ↦ hpos⟩
      rw [ho, List.length_set]
      exact hs.length
    | dropped hfull hold ho ht hp => exact ⟨ho ▸ hs.length, hp ▸ hs.position, fun _ ↦ hpos⟩

theorem bounded {ok : Session → Action → Prop} (h : Reach (step p) ok {} s) :
    Bounded p s :=
  h.invariant (P := Bounded p) Bounded.init fun _ _ _ _ hs _ hstep ↦ hs.step hstep

/-- The request is in one of the tables. -/
def Holds (s : Session) (id : OpaqueID) : Prop := id ∈ s.requests ∨ id ∈ s.tombstones

theorem requestFor_isSome : (s.requestFor id).isSome = true ↔ s.Holds id := by
  rw [requestFor, Option.isSome_or, Bool.or_eq_true, AList.lookup_isSome, AList.lookup_isSome,
    Holds]

/-- **How a request leaves the tables**: it is rolled back, or the ring pushes it out. -/
theorem Tables.holds (h : Tables p s a s') (hb : Bounded p s) (hs : s.Holds id) :
    s'.Holds id ∨
    (∃ (r : Ref) (x : Invocation) (e : Err), s.invocations[r]? = some x ∧ x.request.id = id ∧
      s'.invocations[r]? = some { x with pc := .rolledBack e }) ∨
    ∃ r : Ref, a = .invoke r .finish ∧ id ∈ s.tombstones ∧
      p.limits.maxInFlightRequests ≤ s.tombstoneOrder.length ∧
      s.tombstoneOrder[s.tombstonePosition]? = some id := by
  cases h with
  | same hr ht => exact .inl (by rwa [Holds, hr, ht])
  | started hid hroom hreq htomb hlast hr ht =>
    refine .inl ?_
    rw [Holds, hr, ht, AList.mem_insert]
    exact hs.imp_left .inr
  | @rolledBack _ r x e hx hpc hlookup hr ht ho hp hx' =>
    by_cases hid : id = x.request.id
    · exact .inr (.inl ⟨r, x, e, hx, hid.symm, hx'⟩)
    · refine .inl ?_
      rw [Holds, hr, ht, AList.mem_erase]
      exact hs.imp_left fun h ↦ ⟨hid, h⟩
  | @finished _ r x o hx hpc hlookup hr hring =>
    have hpos := hb.used hlookup
    cases hring with
    | added hroom ho ht =>
      refine .inl ?_
      rw [Holds, hr, ht, AList.mem_erase, AList.mem_insert]
      by_cases hid : id = x.request.id
      · exact .inr (.inl hid)
      · exact hs.imp (fun h ↦ ⟨hid, h⟩) .inr
    | @evicted oldest hfull hold ho ht =>
      by_cases hin : id ∈ s.tombstones ∧ id = oldest
      · obtain ⟨hin, rfl⟩ := hin
        exact .inr (.inr ⟨r, rfl, hin, hfull, hold⟩)
      · refine .inl ?_
        rw [Holds, hr, ht, AList.mem_erase, AList.mem_insert, AList.mem_erase]
        by_cases hid : id = x.request.id
        · exact .inr (.inl hid)
        · exact hs.imp (fun h ↦ ⟨hid, h⟩) fun h ↦ .inr ⟨fun heq ↦ hin ⟨h, heq⟩, h⟩
    | dropped hfull hold =>
      -- the ring has an entry at its position when it is full
      have hlt := hb.position hpos
      rw [List.getElem?_eq_none_iff] at hold
      omega

/-! ## The requests that frames may still arrive for -/

/-- If the ring pushes out a request, its Result has arrived. -/
def evictsAnswered (p : Params) (s : Session) : Action → Bool
  | .invoke _ .finish =>
    decide (s.tombstoneOrder.length < p.limits.maxInFlightRequests) ||
    (s.tombstoneOrder[s.tombstonePosition]?).all fun oldest ↦
      (s.tombstones.lookup oldest).all fun r ↦ (s.invocations[r]?).all Invocation.isAnswered
  | _ => true

/-- A request is in one of the tables, has had its Result, or was never opened. -/
def Known (s : Session) : Prop :=
  ∀ (r : Ref) (x : Invocation), s.invocations[r]? = some x →
    s.Holds x.request.id ∨ x.isAnswered = true ∨ ∃ e, x.pc = .rolledBack e

theorem Known.step (hs : s.Known) (hb : Bounded p s) (ht : s.Tabled)
    (hd : ∀ {i j : Ref} {x y : Invocation}, s.invocations[i]? = some x →
      s.invocations[j]? = some y → x.request.id = y.request.id → i = j)
    (hok : s.evictsAnswered p a = true) (h : s.step p a = some s') : s'.Known := by
  intro r x' hx'
  -- what was known of the request before is still known
  have hold : ∀ x, s.invocations[r]? = some x → x'.request.id = x.request.id →
      (x.isAnswered = true → x'.isAnswered = true) →
      (∀ e, x.pc = .rolledBack e → x'.pc = .rolledBack e) →
      s'.Holds x'.request.id ∨ x'.isAnswered = true ∨ ∃ e, x'.pc = .rolledBack e := by
    intro x hx hid hans hback
    obtain hholds | hanswered | ⟨e, hpc⟩ := hs r x hx
    · obtain hholds' | ⟨r₁, x₁, e, hx₁, hid₁, hx₁'⟩ | ⟨r₁, rfl, hin, hfull, hpos⟩ :=
        (step_tables h).holds hb hholds
      · exact .inl (hid ▸ hholds')
      · obtain rfl := hd hx₁ hx hid₁
        cases hx'.symm.trans hx₁'
        exact .inr (.inr ⟨e, rfl⟩)
      · obtain ⟨r₂, hlookup⟩ := Option.isSome_iff_exists.mp (AList.lookup_isSome.mpr hin)
        obtain ⟨x₂, hx₂, hid₂⟩ := ht _ _ (.inr hlookup)
        obtain rfl := hd hx₂ hx hid₂
        cases hx.symm.trans hx₂
        rw [evictsAnswered, Bool.or_eq_true, decide_eq_true_eq] at hok
        obtain hlt | hall := hok
        · exact absurd hlt (not_lt.mpr hfull)
        · rw [hpos, Option.all_some, hlookup, Option.all_some, hx, Option.all_some] at hall
          exact .inr (.inl (hans hall))
    · exact .inr (.inl (hans hanswered))
    · exact .inr (.inr ⟨e, hback e hpc⟩)
  cases step_origin h hx' with
  | kept hx => exact hold x' hx rfl id fun _ ↦ id
  | moved hx hstep =>
    exact hold _ hx hstep.request_eq.1 hstep.isAnswered fun e ↦ hstep.rolledBack
  | started hid hp hb hlen hx hr hlookup =>
    refine .inl (.inl ?_)
    rw [← AList.lookup_isSome, hx, startedInvocation, hlookup]
    rfl

/-- The runs in which the ring only pushes out requests that have had their Result. -/
theorem known (h : Reach (step p)
    (fun s a ↦ (s.freshDraws a && s.evictsAnswered p a) = true) {} s) : s.Known := by
  refine h.invariant (P := Known) (fun r x hx ↦ by simp at hx) ?_
  intro s a s' hreach hs hok hstep
  rw [Bool.and_eq_true] at hok
  have hfresh := hreach.mono (fun _ _ hok ↦ (Bool.and_eq_true_iff.mp hok).1)
  refine hs.step (bounded hreach) (tabled hreach) (fun hx hy hid ↦ ?_) hok.2 hstep
  exact (histories hfresh).1.distinct hx hy (by rw [hid])

end Session

end GatewayIn

namespace Tunnel

namespace Link

variable {pin : GatewayIn.Params} {pout : GatewayOut.Params} {l : Link} {frame : ConnectRequest}
  {y : GatewayOut.Conv} {x : GatewayIn.Invocation} {k : GatewayOut.Ref} {r : GatewayIn.Ref}

/-- If the frame gateway-in receives next is one of a request, the request is in one of its
tables. -/
def findsRequest (l : Link) : Bool :=
  match l.gatewayIn.reader with
  | .idle => (l.gatewayOut.sent[l.gatewayIn.received.length]?).all fun frame ↦
    match frame.payload with
    | .credit _ | .data _ | .halfClose | .result _ =>
      (l.gatewayIn.requestFor (OpaqueID.copy frame.header.requestId)).isSome
    | _ => true
  | _ => true

/-- The ring only pushes out requests that have had their Result. -/
def evictsAnswered (pin : GatewayIn.Params) (l : Link) : Action → Bool
  | .gatewayIn a => l.gatewayIn.evictsAnswered pin a
  | .gatewayOut _ => true

/-- Nothing comes behind a Result. -/
theorem not_isResult (hy : y.Sound) {frames} (hpre : frames ++ [frame] <+: y.queued) :
    frames.any GatewayIn.isResult = false := by
  have hbody : ∀ {fs : List ConnectRequest}, GatewayOut.Body fs →
      fs.any GatewayIn.isResult = false := by
    intro fs hfs
    rw [List.any_eq_false]
    intro f hf
    obtain ⟨n, hk⟩ | ⟨b, hk⟩ := hfs f hf <;> simp [GatewayIn.isResult, hk]
  obtain hq | ⟨body, close, last, result, hq, hb, hclose, hlast⟩ := hy.body_or_ended
  · exact hbody fun f hf ↦ hq f (hpre.subset (List.mem_append_left _ hf))
  · -- the Result is the last frame, so it is not among the first ones
    have hinit : frames <+: body ++ [close] := by
      rw [hq, show body ++ [close, last] = body ++ [close] ++ [last] by simp,
        List.prefix_concat_iff] at hpre
      obtain heq | hpre := hpre
      · exact (List.append_inj' heq rfl).1 ▸ List.prefix_rfl
      · exact (List.prefix_append _ _).trans hpre
    have hnone : (body ++ [close]).any GatewayIn.isResult = false := by
      rw [List.any_append, hbody hb]
      simp [GatewayIn.isResult, hclose]
    rw [List.any_eq_false] at hnone ⊢
    exact fun f hf ↦ hnone f (hinit.subset hf)

/-- The next frame of a request continues what the request handled. -/
theorem Sound.response_next (hs : Sound pin pout l) (hidle : l.gatewayIn.reader = .idle)
    (hnext : l.gatewayOut.sent[l.gatewayIn.received.length]? = some frame)
    (hx : l.gatewayIn.invocations[r]? = some x) (hy : l.gatewayOut.convs[k]? = some y)
    (hxy : y.request.requestID = x.request.id.toList)
    (hid : frame.header.requestId = y.request.requestID) : x.handled ++ [frame] <+: y.queued := by
  have hpre := (prefix_concat hs.responses hnext).filter
    (fun f ↦ f.header.requestId = y.request.requestID)
  have hsent := hpre.trans (GatewayOut.Session.prefix_of_sent hs.gatewayOut hy)
  rwa [List.filter_append, List.filter_cons_of_pos (by simpa using hid), List.filter_nil, hxy,
    GatewayIn.Session.received_filter hs.gatewayIn hx, hidle, GatewayIn.Reader.hand_idle,
    List.filter_nil, List.append_nil] at hsent

/-- A request that has a conversation was opened. -/
theorem Sound.not_rolledBack (hs : Sound pin pout l) (hx : l.gatewayIn.invocations[r]? = some x)
    (hy : l.gatewayOut.convs[k]? = some y)
    (hxy : y.request.requestID = x.request.id.toList) : x.pc.isUnopened = false := by
  by_contra hpc
  obtain ⟨f, request, hhead, hopen, -⟩ :=
    GatewayOut.Session.opened hs.gatewayOut y (List.mem_of_getElem? hy)
  have hmem := (hs.prefix_of_handled hx hy hxy).subset
    (List.mem_append_left _ (List.mem_of_head? hhead))
  have hzero := (GatewayIn.Session.opensOnce hs.gatewayIn x (List.mem_of_getElem? hx)).2
    (Bool.eq_true_of_not_eq_false hpc)
  rw [List.countP_eq_zero] at hzero
  exact absurd (by rw [GatewayIn.isOpen, hopen]) (hzero f hmem)

/-- The frame an idle read loop receives next finds its request. -/
theorem Sound.requestFor_next (hs : Sound pin pout l) (hknown : l.gatewayIn.Known)
    (hidle : l.gatewayIn.reader = .idle)
    (hnext : l.gatewayOut.sent[l.gatewayIn.received.length]? = some frame)
    (hk : frame.payload.ofRequest = true) :
    (l.gatewayIn.requestFor (OpaqueID.copy frame.header.requestId)).isSome = true := by
  have hsent : frame ∈ l.gatewayOut.sent := List.mem_of_getElem? hnext
  have hlength : frame.header.requestId.length = 16 := by
    have hadm := GatewayOut.Session.admits_of_mem_accepted hs.gatewayOut frame
      ((GatewayOut.Session.ordered hs.gatewayOut).mem_sent hsent)
    rw [GatewayOut.admits, Bool.and_eq_true, decide_eq_true_eq] at hadm
    exact hadm.1.requestId_length hk
  obtain ⟨k, y, hy, hid⟩ := hs.exists_conv hsent (List.ne_nil_of_length_eq_add_one hlength)
  obtain ⟨r, x, hx, hxy⟩ := hs.exists_invocation hy
  rw [show OpaqueID.copy frame.header.requestId = x.request.id by
    rw [hid, hxy, OpaqueID.copy_toList], GatewayIn.Session.requestFor_isSome]
  obtain hholds | hanswered | ⟨e, hpc⟩ := hknown r x hx
  · exact hholds
  · -- the frame would come behind the Result
    have hnone := not_isResult
      (GatewayOut.Session.conv_sound hs.gatewayOut y (List.mem_of_getElem? hy))
      (hs.response_next hidle hnext hx hy hxy hid)
    rw [GatewayIn.Invocation.isAnswered, hnone] at hanswered
    exact Bool.noConfusion hanswered
  · have hopened := hs.not_rolledBack hx hy hxy
    rw [hpc] at hopened
    exact Bool.noConfusion hopened

/-- **A frame of a request finds its request**, in the runs in which the ring only pushes out
requests that have had their Result. -/
theorem findsRequest_of_evictsAnswered (pin : GatewayIn.Params) (pout : GatewayOut.Params) :
    ∀ l, Reach (step pin pout)
      (fun l a ↦ (l.fresh a && l.evictsAnswered pin a) = true) {} l → l.findsRequest = true := by
  intro l h
  have hs := sound (h.mono fun l a hok ↦ (Bool.and_eq_true_iff.mp hok).1)
  have hknown := GatewayIn.Session.known (reach_gatewayIn (fun l a hok ↦ hok) h)
  rw [findsRequest]
  split
  · rename_i hidle
    rw [Option.all_eq_true]
    intro frame hnext
    split
    all_goals first
      | rfl
      | (rename_i hk; exact hs.requestFor_next hknown hidle hnext (by rw [hk]; rfl))
  · rfl

end Link

/-- The sample deployment with room for one request at a time, and so for one tombstone. -/
def sampleSingle : Deployment := sample { sampleLimits with maxInFlightRequests := 1 } 16

namespace Script

/-- The first call is aborted because its HalfClose does not fit, and becomes a tombstone. -/
def firstAborted : List (Link → Action) :=
  opened [invoke 0 (.enqueueHalfClose calm), invoke 0 (.bodyError calm), invoke 0 .finish,
    invoke 0 .compact]

end Script

open Script in
/-- The Credit of an aborted request finds its tombstone. -/
theorem findsRequest_of_aborted :
    ∃ pin pout, sampleSingle.params = some (pin, pout) ∧ ∃ l,
      Reach (Link.step pin pout)
        (fun l a ↦ (l.fresh a && l.evictsAnswered pin a) = true) {} l ∧
      l.gatewayIn.tombstoneOrder.length = 1 ∧
      l.gatewayIn.received.length < l.gatewayOut.sent.length ∧ l.findsRequest = true := by
  obtain ⟨pin, pout, hparams, l, hreach, hring, hwire⟩ := sampleSingle.exists_of_replay
    (firstAborted ++ forward ++ accept ++ emit 1)
    (fun pin _ l a ↦ l.fresh a && l.evictsAnswered pin a)
    (fun _ _ l ↦ l.gatewayIn.tombstoneOrder.length = 1 ∧
      l.gatewayIn.received.length < l.gatewayOut.sent.length)
    (by decide +kernel)
  exact ⟨pin, pout, hparams, l, hreach, hring, hwire,
    Link.findsRequest_of_evictsAnswered pin pout l hreach⟩

open Script in
/-- **A request is forgotten too early.**  Two calls are aborted one after the other, and the
second one pushes the tombstone of the first out of the ring, while gateway-out, which knows
nothing of this, grants credit for the first one. -/
theorem forgets_aborted_request :
    ∃ pin pout, sampleSingle.params = some (pin, pout) ∧ ∃ l,
      Reach (Link.step pin pout) (fun l a ↦ l.fresh a = true) {} l ∧
      l.findsRequest = false := by
  exact sampleSingle.exists_of_replay (firstAborted ++ forward ++ accept ++ emit 1 ++
    [start 8 [], invoke 1 (.enqueueOpen calm), invoke 1 (.sendInitialResponseCredit calm),
      invoke 1 .abortCredit, invoke 1 .finish]) _ _ (by decide +kernel)

end Tunnel

end MarketMesh
