import MarketMesh.GatewayOut.Incoming

/-!
# Drain

A `drain` returns when it finds no active request.  A request becomes inactive as soon as its last
frames are queued, so by then they need not be sent, and the caller of `drain` cancels the session
right away.

* `Session.Active` says that a conversation that is not over is in the table of active requests.
* `Session.drainsEmpty` says that when a drain finds no active request, no frame of a response is
  waiting to be sent.
* `Session.Settled` says that behind such a drain every response has been sent.
-/

set_option autoImplicit false

namespace MarketMesh.GatewayOut

open Protocol Machine

/-- The frames `completeRequest` queues: the Data of a response, its HalfClose and its Result. -/
def isResponse (f : ConnectRequest) : Bool :=
  match f.payload with
  | .data _ | .halfClose | .result _ => true
  | _ => false

/-- The call of `drain` returned because no request was active. -/
def DrainPc.isSettled : DrainPc → Bool
  | .returned zero | .canceled zero => zero
  | _ => false

namespace Conv

variable {p : Params} {env : Env} {x x' : Conv} {m : Move} {fs : List ConnectRequest}
  {err : Option Err}

theorem Step.refused_eq (h : Step p env x m x' fs err) : x'.refused = x.refused := by
  cases h <;> rfl

theorem Step.not_isResponse (h : Step p env x m x' fs err) (hsound : x.Sound)
    (hsuits : x.Suits p m) (hd : x.completer = .done) : ∀ f ∈ fs, isResponse f = false := by
  intro f hf
  obtain ⟨choice, hm⟩ := (h.of_done hsound hd).2.2 f hf
  rw [(hsuits.opening f choice hm).2.2]
  rfl

end Conv

namespace Session

variable {p : Params} {s s' : Session} {a : Action} {k : Ref} {ok : Session → Action → Prop}
  {d : Drainer} {frame : ConnectResponse} {route : RouteSpec}

/-! ## Conversations and the table -/

/-- A conversation that is not over is in the table of active requests. -/
def Active (s : Session) : Prop :=
  ∀ (k : Ref) (x : Conv), s.convs[k]? = some x →
    x.completer = .done ∨ s.requests.lookup x.request.key = some k

/-- A reserved conversation is in the table. -/
theorem lookup_of_reserved
    (h : s.step p .reserve = some s') (hres : s.receiver = .reserving frame route)
    (hr : s'.receiver = .reserved k) (hk : k = s.convs.length) :
    s'.requests.lookup (OpaqueID.copy frame.header.requestId) = some k := by
  simp only [step, hres, reserve, Option.some_inj] at h
  split at h
  · subst h
    rw [hk]
    exact AList.lookup_insert _
  · subst h
    cases hr

theorem Active.step (hs : s.Active) (hsound : ∀ x ∈ s.convs, x.Sound)
    (h : s.step p a = some s') : s'.Active := by
  intro k x' hx'
  -- the entry of a conversation goes when the conversation is released
  have hold : ∀ x, s.convs[k]? = some x → x'.request.key = x.request.key →
      (x.completer = .done → x'.completer = .done) →
      x'.completer = .done ∨ s'.requests.lookup x'.request.key = some k := by
    intro x hx hkey hdone
    obtain hd | hlookup := hs k x hx
    · exact .inl (hdone hd)
    rw [hkey]
    cases step_tables h with
    | same hr | rejected _ hr | late _ _ _ hr => exact .inr (hr ▸ hlookup)
    | @reserved frame route _ hres hcan hr =>
      simp only [canReserve, Bool.and_eq_true, Option.isNone_iff_eq_none] at hcan
      exact .inr (hr ▸ Pool.insert hlookup hcan.1.1.1.2 _)
    | @released _ k₁ y hy hpc hlookup₁ hr ht hy' =>
      by_cases hkk : k = k₁
      · subst hkk
        cases hx'.symm.trans hy'
        exact .inl rfl
      · exact .inr (hr ▸ Pool.erase hlookup hlookup₁ hkk)
  cases step_origin h hx' with
  | kept hx => exact hold x' hx rfl id
  | applied _ _ _ hx hstep | advanced hx hstep =>
    exact hold _ hx hstep.request_eq.1 fun hd ↦
      (hstep.of_done (hsound _ (List.mem_of_getElem? hx)) hd).1
  | rejected hrej hlen hx => exact .inl (hx ▸ rfl)
  | reserved hres hlen hx hr => exact .inr (hx ▸ lookup_of_reserved h hres hr hlen)

theorem active (h : Reach (step p) ok {} s) : s.Active :=
  h.invariant (P := Active) (fun k x hx ↦ by simp at hx) fun _ _ _ hreach hs _ hstep ↦
    hs.step (conv_sound hreach) hstep

/-- What a conversation queued entered a queue. -/
theorem mem_accepted (h : Reach (step p) ok {} s) :
    ∀ x ∈ s.convs, ∀ f ∈ x.queued, f ∈ s.accepted := by
  refine h.invariant (by simp) ?_
  intro s a s' _ hs _ hstep x' hx' f hf
  cases step_change hstep with
  | same hi ha | waited hi ha | looked hi ha => exact ha ▸ hs x' (hi ▸ hx') f hf
  | tunnel hadm hi ha => exact ha ▸ List.mem_append_left _ (hs x' (hi ▸ hx') f hf)
  | applied hidle hadm hlookup hx hstep hi ha =>
    rw [hi] at hx'
    rw [ha]
    obtain hx' | rfl := List.mem_or_eq_of_mem_set hx'
    · exact hs x' hx' f hf
    · rw [hstep.queued_eq, List.append_nil] at hf
      exact hs _ (List.mem_of_getElem? hx) f hf
  | rejected hrej hadm hi ha =>
    rw [hi, List.mem_append, List.mem_singleton] at hx'
    rw [ha, List.mem_append]
    obtain hx' | rfl := hx'
    · exact .inl (hs x' hx' f hf)
    · exact .inr hf
  | reserved hres hi ha =>
    rw [hi, List.mem_append, List.mem_singleton] at hx'
    rw [ha]
    obtain hx' | rfl := hx'
    · exact hs x' hx' f hf
    · exact absurd hf List.not_mem_nil
  | moved hx hstep hi ha =>
    rw [hi] at hx'
    rw [ha, List.mem_append]
    obtain hx' | rfl := List.mem_or_eq_of_mem_set hx'
    · exact .inl (hs x' hx' f hf)
    · rw [hstep.queued_eq, List.mem_append] at hf
      exact hf.imp_left (hs _ (List.mem_of_getElem? hx) f)

/-! ## The flags of a session -/

/-- Of all frames only a Drain changes more than that. -/
theorem Hands.flags (h : Hands p s s') : Ends s s' ∨ s' = s.handlePeerDrain := by
  cases h with
  | looked hs' hended =>
    left
    rw [hs']
    obtain hended | hended := hended
    · rw [hended]
      exact .inl rfl
    · rw [hended]
      exact .inr rfl
  | acted hact hm hs' hended =>
    left
    rw [hs']
    refine .of_eq (act_flags hact) ?_
    obtain hended | hended := hended
    · rw [hended]
      exact .inl rfl
    · rw [hended]
      exact .inr rfl
  | drain => exact .inr rfl

/-! ## What a step can do to the drains -/

/-- What a step leaves of the drains. -/
structure Drains (s : Session) (a : Action) (s' : Session) : Prop where
  settled : ∀ d, (s'.drains d).isSettled = true →
    (s.drains d).isSettled = true ∨
      (a = .drainPoll d ∧ s.drains d = .polling ∧ s.requests.entries = [])
  draining : s.draining = true → s'.draining = true
  started : ∀ d, s'.drains d ≠ .none → s'.draining = true ∨ s.drains d ≠ .none

theorem Drains.of_eq (hd : s'.drains = s.drains) (hdr : s'.draining = s.draining) :
    Drains s a s' where
  settled _ h := .inl (hd ▸ h)
  draining h := hdr ▸ h
  started _ h := .inr (hd ▸ h)

theorem Drains.of_ends (h : Ends s s') : Drains s a s' := by
  obtain h | h := h
  · exact .of_eq (congrArg Flags.drains h) (congrArg Flags.draining h)
  · exact .of_eq (congrArg Flags.drains h) (congrArg Flags.draining h)

/-- One call of `drain` goes on. -/
theorem Drains.of_setDrain {pc} (hpc : s.drains d ≠ .none)
    (hset : pc.isSettled = true → (s.drains d).isSettled = true ∨
      (a = .drainPoll d ∧ s.drains d = .polling ∧ s.requests.entries = []))
    (hd : s'.drains = Function.update s.drains d pc) (hdr : s'.draining = s.draining) :
    Drains s a s' where
  settled d' h := by
    rw [hd] at h
    by_cases hdd : d' = d
    · subst hdd
      rw [Function.update_self] at h
      exact hset h
    · rw [Function.update_of_ne hdd] at h
      exact .inl h
  draining h := hdr ▸ h
  started d' h := by
    rw [hd] at h
    by_cases hdd : d' = d
    · exact .inr (hdd ▸ hpc)
    · rw [Function.update_of_ne hdd] at h
      exact .inr h

/-- One call of `drain` goes on without being settled. -/
theorem Drains.of_goes {pc} (hpc : s.drains d ≠ .none)
    (hset : pc.isSettled = false) (hd : s'.drains = Function.update s.drains d pc)
    (hdr : s'.draining = s.draining) : Drains s a s' :=
  .of_setDrain hpc (fun h ↦ absurd h (by rw [hset]; exact Bool.false_ne_true)) hd hdr

/-- A call of `drain` starts. -/
theorem Drains.of_start (hd : s'.drains = Function.update s.drains d .started)
    (hdr : s'.draining = true) : Drains s a s' where
  settled d' h := by
    rw [hd] at h
    by_cases hdd : d' = d
    · subst hdd
      rw [Function.update_self] at h
      cases h
    · rw [Function.update_of_ne hdd] at h
      exact .inl h
  draining _ := hdr
  started _ _ := .inl hdr

theorem step_drains (h : s.step p a = some s') : Drains s a s' := by
  by_cases ha : a.isControl = false
  · exact .of_ends (step_flags h ha)
  cases a with simp only [step] at h
  | recv =>
    split at h
    · obtain hends | rfl := (handleFrame_change ‹_› h).2.flags
      · exact .of_ends hends
      · rw [handlePeerDrain]
        split
        · exact .of_eq rfl rfl
        · exact .of_start rfl rfl
    · cases h
  | cancelSession =>
    obtain ⟨⟨s₁, err⟩, hact, rfl⟩ := Option.map_eq_some_iff.mp h
    have hflags := act_flags hact
    exact .of_eq (congrArg Flags.drains hflags) (congrArg Flags.draining hflags)
  | send | runCancel =>
    repeat' split at h
    all_goals cases h
    all_goals exact .of_eq rfl rfl
  | drainStart =>
    split at h <;> cases h
    exact .of_start rfl rfl
  | drainClaim | drainDelivered | drainFail | drainWake | drainExpire | drainAborted =>
    repeat' split at h
    all_goals cases h
    all_goals exact .of_goes (by simp_all) rfl rfl rfl
  | drainEnqueue d deadline choice =>
    repeat' split at h
    all_goals cases h
    all_goals
      rename_i hoffer
      have hflags := offer_flags hoffer
      exact .of_goes (d := d) (by simp_all) rfl
        (congrArg (fun f : Flags ↦ Function.update f.drains d _) hflags)
        (congrArg Flags.draining hflags)
  | drainCancel d =>
    split at h <;> cases h
    rename_i zero hpc
    exact .of_setDrain (by simp [hpc]) (fun h ↦ .inl (by rw [hpc]; exact h)) rfl rfl
  | drainPoll d =>
    repeat' split at h
    all_goals cases h
    · rename_i hpc hempty
      exact .of_setDrain (by simp [hpc]) (fun _ ↦ .inr ⟨rfl, hpc, hempty⟩) rfl rfl
    · rename_i hpc hempty
      exact .of_goes (by simp [hpc]) rfl rfl rfl
  | _ => exact absurd rfl ha

/-! ## Behind a drain -/

/-- A frame of a response waits in a queue, or in the hand of the send loop. -/
def awaitsSend (s : Session) : Bool :=
  s.sender.held.any isResponse ||
    [Queue.control, .regular, .realtime].any fun q ↦ (frames s.queues q).any isResponse

/-- When a drain finds no active request, no frame of a response waits to be sent. -/
def drainsEmpty (s : Session) : Action → Bool
  | .drainPoll _ => !(s.requests.entries.isEmpty && s.awaitsSend)
  | _ => true

/-- Behind a drain that found no active request, every request is over and its response is sent.
-/
structure Settled (s : Session) : Prop where
  draining : ∀ d, s.drains d ≠ .none → s.draining = true
  sent : ∀ d, (s.drains d).isSettled = true → ∀ x ∈ s.convs, x.refused = false →
    x.completer = .done ∧ ∀ f ∈ x.queued, isResponse f = true → f ∈ s.sent

theorem mem_sent_of_not_awaitsSend (hordered : s.Ordered) (h : s.awaitsSend = false)
    {f} (hf : f ∈ s.accepted) (hresp : isResponse f = true) : f ∈ s.sent := by
  simp only [awaitsSend, Bool.or_eq_false_iff, List.any_eq_false, List.mem_cons,
    List.not_mem_nil, or_false, forall_eq_or_imp, forall_eq] at h
  obtain hsent | hheld | hqueued := Fifo.Conserved.of_mem hordered hf
  · exact hsent
  · exact absurd hresp (h.1 f hheld)
  · have hany := List.any_eq_true.mpr ⟨f, hqueued, hresp⟩
    cases hq : queue f.header.trafficClass with
    | control => exact absurd (hq ▸ hany) h.2.1
    | regular => exact absurd (hq ▸ hany) h.2.2.1
    | realtime => exact absurd (hq ▸ hany) h.2.2.2

/-- A drain that finds no active request and nothing of a response to be sent finds every response
sent. -/
theorem sent_of_drainsEmpty (hactive : s.Active) (hordered : s.Ordered)
    (hacc : ∀ x ∈ s.convs, ∀ f ∈ x.queued, f ∈ s.accepted)
    (hok : s.drainsEmpty (.drainPoll d) = true) (hempty : s.requests.entries = []) :
    ∀ x ∈ s.convs, x.completer = .done ∧ ∀ f ∈ x.queued, isResponse f = true → f ∈ s.sent := by
  intro x hx
  have hwait : s.awaitsSend = false := by
    simpa [drainsEmpty, hempty] using hok
  refine ⟨?_, fun f hf ↦ mem_sent_of_not_awaitsSend hordered hwait (hacc x hx f hf)⟩
  obtain ⟨k, hk⟩ := List.getElem?_of_mem hx
  obtain hd | hlookup := hactive k x hk
  · exact hd
  · rw [AList.ext (t := ∅) hempty, AList.lookup_empty] at hlookup
    cases hlookup

/-- No request is reserved while the session drains. -/
theorem draining_of_reserved
    (h : s.step p .reserve = some s') (hres : s.receiver = .reserving frame route)
    (hr : s'.receiver = .reserved k) : s.draining = false := by
  simp only [step, hres, reserve, Option.some_inj] at h
  split at h
  · rename_i hcan
    simp only [canReserve, Bool.and_eq_true, Bool.not_eq_true'] at hcan
    exact hcan.1.1.1.1
  · subst h
    cases hr

theorem Settled.step (hs : s.Settled) (h : s.step p a = some s')
    (hreach : Reach (step p) ok {} s) (hok : s.drainsEmpty a = true) : s'.Settled := by
  have hdrains := step_drains h
  refine ⟨fun d hd ↦ (hdrains.started d hd).elim id fun hd ↦ hdrains.draining (hs.draining d hd),
    fun d hd x' hx' href ↦ ?_⟩
  -- before the step every response was sent, by an earlier drain or because this is its poll
  have hbefore : s.draining = true ∧ ∀ x ∈ s.convs, x.refused = false →
      x.completer = .done ∧ ∀ f ∈ x.queued, isResponse f = true → f ∈ s.sent := by
    obtain hsettled | ⟨rfl, hpc, hempty⟩ := hdrains.settled d hd
    · refine ⟨hs.draining d fun hnone ↦ ?_, hs.sent d hsettled⟩
      rw [hnone] at hsettled
      cases hsettled
    · refine ⟨hs.draining d (by rw [hpc]; exact nofun), fun x hx _ ↦ ?_⟩
      exact sent_of_drainsEmpty (active hreach) (ordered hreach) (mem_accepted hreach) hok hempty
        x hx
  have hsub : ∀ f ∈ s.sent, f ∈ s'.sent :=
    (step_queues (framed hreach) (tabled hreach).2 h).prefix_of_sent.subset
  have hmoved : ∀ {env x m fs err}, x ∈ s.convs → Conv.Step p env x m x' fs err →
      x.Suits p m → x'.completer = .done ∧ ∀ f ∈ x'.queued, isResponse f = true → f ∈ s'.sent := by
    intro env x m fs err hx hstep hsuits
    obtain ⟨hdone, hsent⟩ := hbefore.2 x hx (hstep.refused_eq ▸ href)
    have hdone' := (hstep.of_done (conv_sound hreach x hx) hdone).1
    have hfs := hstep.not_isResponse (conv_sound hreach x hx) hsuits hdone
    refine ⟨hdone', fun f hf hresp ↦ ?_⟩
    rw [hstep.queued_eq, List.mem_append] at hf
    obtain hf | hf := hf
    · exact hsub f (hsent f hf hresp)
    · rw [hfs f hf] at hresp
      cases hresp
  obtain ⟨k, hk⟩ := List.getElem?_of_mem hx'
  cases step_origin h hk with
  | kept hx =>
    have hmem := hbefore.2 x' (List.mem_of_getElem? hx) href
    exact ⟨hmem.1, fun f hf hresp ↦ hsub f (hmem.2 f hf hresp)⟩
  | applied hidle hadm hlookup hx hstep hr =>
    exact hmoved (List.mem_of_getElem? hx) hstep hr.suits
  | advanced hx hstep hr =>
    exact hmoved (List.mem_of_getElem? hx) hstep
      (hr.suits (tabled hreach).2 (opening hreach) hx)
  | rejected hrej hlen hx =>
    rw [hx] at href
    cases href
  | reserved hres hlen hx hr =>
    have hdr := draining_of_reserved h hres hr
    rw [hbefore.1] at hdr
    cases hdr

/-- The runs in which a drain only settles when no frame of a response waits to be sent. -/
theorem settled (h : Reach (Session.step p) (fun s a ↦ s.drainsEmpty a = true) {} s) :
    s.Settled :=
  h.invariant (P := Settled) ⟨fun d hd ↦ absurd rfl hd, fun d hd ↦ by cases hd⟩
    fun _ _ _ hreach hs hok hstep ↦ hs.step hstep hreach hok

end Session

end MarketMesh.GatewayOut
