import MarketMesh.GatewayOut.Answer

/-!
# The number the receive loop expects next

Every entry of the two tables remembers the number of the last frame of its request.  As long as the
receive loop runs, that number is how many frames of the request it has taken (`Session.Counted`):
those the conversation handled, and the one that was looked up and is being worked on.

For this the tables must not both hold an entry of one request (`Session.Apart`).
-/

set_option autoImplicit false

namespace MarketMesh.GatewayOut

open Protocol

/-- The moves that take the next number. -/
def Move.counts : Move → Bool
  | .requestForFrame _ | .credit _ | .cancel _ => true
  | _ => false

/-- The request whose frame is looked up and not yet handled. -/
def Receiver.pending : Receiver → Option Ref
  | .data k _ | .halfClose k _ => some k
  | _ => none

def Receiver.isStopped : Receiver → Bool
  | .stopped _ _ => true
  | _ => false

namespace Conv

variable {p : Params} {env : Env} {x x' : Conv} {m : Move} {fs : List ConnectRequest}
  {err : Option Err}

theorem Step.incomingSequence (h : Step p env x m x' fs err) (hm : m.counts = false) :
    x'.request.incomingSequence = x.request.incomingSequence := by
  cases h with
  | expected | credit | cancel => exact Bool.noConfusion hm
  | dataGranted _ _ hr | dataRefused _ _ hr =>
    subst hr; rfl
  | _ => rfl

theorem Step.incomingSequence_succ (h : Step p env x m x' fs none) (hm : m.counts = true) :
    x'.request.incomingSequence = x.request.incomingSequence + 1 := by
  have hexp : ∀ header : FrameHeader, x.request.expects header = true →
      header.sequence = x.request.incomingSequence + 1 := by
    intro header he
    rw [RequestState.expects, Bool.and_eq_true] at he
    exact of_decide_eq_true he.2
  cases h with
  | expected he | credit he | cancel he => exact hexp _ he
  | claimed hs | unclaimed hs | goes hs => cases hs <;> exact Bool.noConfusion hm
  | contextDone hc => obtain ⟨rfl, -⟩ | ⟨rfl, -⟩ := hc <;> exact Bool.noConfusion hm
  | _ => exact Bool.noConfusion hm

/-- A released request is done, and nothing else is. -/
theorem Step.done_cases (h : Step p env x m x' fs err) (hd : x'.completer = .done) :
    x.completer = .done ∨ m = .released := by
  cases h with
  | claimed => obtain hc | hc := firstPc_eq _ _ <;> cases hc.symm.trans hd
  | goes hs =>
    cases hs with
    | watcherDone | watcherExpired => exact .inl hd
    | released => exact .inr rfl
    | _ => cases hd
  | aborted | took | woken | numberData | dataQueued | dataUnqueued | finished | unfinished
  | cleanup => cases hd
  | _ => exact .inl hd

/-- A conversation that is over stays over, and at most queues its first Credit. -/
theorem Step.of_done (h : Step p env x m x' fs err) (hsound : x.Sound)
    (hd : x.completer = .done) : x'.completer = .done ∧ (m.isOwn = true → x'.handled = x.handled) ∧
      ∀ f ∈ fs, ∃ choice, m = .enqueueOpen f choice := by
  have hopen : x.request.terminal ≠ false := fun ht ↦ by
    rw [hsound.owned.mpr ht] at hd
    cases hd
  cases h with
  | openGranted =>
    exact ⟨hd, nofun, fun f hf ↦ List.mem_singleton.mp hf ▸ ⟨_, rfl⟩⟩
  | dataGranted htakes => exact absurd htakes.isOpen.2 hopen
  | claimed _ ht | aborted ht => exact absurd ht hopen
  | goes hs =>
    cases hs with
    | watcherDone | watcherExpired => exact ⟨hd, fun _ ↦ rfl, by simp⟩
    | sent h | awaitCredit h | expired h | failed h | session h | released h =>
      rw [h] at hd; cases hd
  | took h | woken h | numberData h | dataQueued h | dataUnqueued h | finished h | unfinished h
  | cleanup h => rw [h] at hd; cases hd
  | _ => exact ⟨hd, (fun hm ↦ by first | rfl | cases hm), by simp⟩

end Conv

namespace Session

variable {p : Params} {s s' : Session} {a : Action} {k : Ref} {m : Move} {key : OpaqueID}
  {t : TerminalRequest} {x' : Conv} {frame : ConnectResponse}

/-! ## Entries of the tables -/

/-- An active request was active before, or was just reserved. -/
theorem Tables.requests_lookup (h : Tables p s a s') (hk : s'.requests.lookup key = some k) :
    s.requests.lookup key = some k ∨
      a = .reserve ∧ k = s.convs.length ∧ s.terminal.lookup key = none := by
  cases h with
  | same hr | rejected _ hr | late _ _ _ hr => exact .inl (hr ▸ hk)
  | @reserved frame route _ hres hcan hr =>
    rw [hr] at hk
    obtain ⟨rfl, rfl⟩ | ⟨-, hk⟩ := Pool.of_insert hk
    · simp only [canReserve, Bool.and_eq_true, Option.isNone_iff_eq_none] at hcan
      exact .inr ⟨rfl, rfl, hcan.1.1.2⟩
    · exact .inl hk
  | released hx hpc hlookup hr => exact .inl (Pool.of_erase (hr ▸ hk))

theorem Tables.lookup_old {x} (h : Tables p s a s') (hk : s'.requests.lookup key = some k)
    (hx : s.convs[k]? = some x) : s.requests.lookup key = some k := by
  obtain hold | ⟨-, rfl, -⟩ := h.requests_lookup hk
  · exact hold
  · rw [List.getElem?_eq_none le_rfl] at hx
    cases hx

/-- A released request is no longer active. -/
theorem Tables.lookup_released {x} (h : Tables p s (.release k) s')
    (hx : s.convs[k]? = some x) : s'.requests.lookup x.request.key ≠ some k := by
  cases h with
  | same hr ht hsame =>
    rw [hr]
    simpa [retables, hx] using hsame
  | released hy hpc hlookup hr =>
    cases hx.symm.trans hy
    rw [hr, AList.lookup_erase]
    simp

/-- Where a terminal entry comes from. -/
inductive Enters (p : Params) (s : Session) (key : OpaqueID) (t : TerminalRequest) :
    Action → Prop
  | old {a : Action} (ht : s.terminal.lookup key = some t)
      (hne : ∀ frame, a = .late → s.receiver = .late frame → s.retables p .late = true →
        key ≠ OpaqueID.copy frame.header.requestId) : Enters p s key t a
  | released {k x} (hx : s.convs[k]? = some x) (hkey : key = x.request.key)
      (hlookup : s.requests.lookup key = some k) (ht : t = terminalOf p k x.request) :
      Enters p s key t (.release k)
  | rejected {frame : ConnectResponse} {k : Ref} (hrej : s.receiver = .rejected frame k)
      (hkey : key = OpaqueID.copy frame.header.requestId) (href : t.ref = k)
      (hseq : t.incomingSequence = frame.header.sequence)
      (ht : t.trafficClass = frame.header.trafficClass ∧
        t.maximumCredit = p.limits.maxMessageBytes ∧ t.sendCredit = 0 ∧ t.canceled = false) :
      Enters p s key t .addTerminal
  | late {frame t₀} (hlate : s.receiver = .late frame)
      (hkey : key = OpaqueID.copy frame.header.requestId)
      (ht₀ : s.terminal.lookup key = some t₀) (ht : updateTerminal frame t₀ = some t) :
      Enters p s key t .late

theorem Tables.terminal_lookup (h : Tables p s a s')
    (ht : s'.terminal.lookup key = some t) : Enters p s key t a := by
  cases h with
  | same hr hs hsame =>
    refine .old (hs ▸ ht) fun frame ha _ hre ↦ ?_
    rw [ha, hre] at hsame
    exact Bool.noConfusion hsame
  | reserved hres hcan hr hs => exact .old (hs ▸ ht) (by simp)
  | released hx hpc hlookup hr hs =>
    obtain ht | ⟨rfl, rfl⟩ := lookup_addTerminalLocked (hs ▸ ht)
    · exact .old ht (by simp)
    · exact .released hx rfl hlookup rfl
  | rejected hrej hr hs =>
    obtain ht | ⟨rfl, rfl⟩ := lookup_addTerminalLocked (hs ▸ ht)
    · exact .old ht (by simp)
    · exact .rejected hrej rfl rfl rfl ⟨rfl, rfl, rfl, rfl⟩
  | @late frame t₀ t' _ hlate ht₀ ht' hr hs =>
    rw [hs] at ht
    obtain ⟨rfl, rfl⟩ | ⟨hkey, ht⟩ := Pool.of_insert ht
    · exact .late hlate rfl ht₀ ht'
    · refine .old ht fun frame' _ hlate' _ ↦ ?_
      rw [hlate] at hlate'
      obtain rfl := Receiver.late.inj hlate'
      exact hkey

/-! ## No request is in both tables -/

/-- The key of a conversation is its identifier. -/
theorem key_eq {ok : Session → Action → Prop} (h : Machine.Reach (step p) ok {} s) :
    ∀ x ∈ s.convs, x.request.key = OpaqueID.copy x.request.requestID :=
  forall_convs (P := fun x ↦ x.request.key = OpaqueID.copy x.request.requestID)
    ⟨fun _ _ _ _ ↦ rfl, fun _ _ _ _ ↦ rfl⟩
    (fun h hx ↦ by rw [h.request_eq.1, h.request_eq.2.1]; exact hx) h

/-- No two conversations have the same identifier. -/
def Distinct (s : Session) : Prop :=
  ∀ (i j : Ref) (x y : Conv), s.convs[i]? = some x → s.convs[j]? = some y →
    x.request.requestID = y.request.requestID → i = j

/-- An active request is not yet released, a rejected one is over, and none is both active and
terminal. -/
structure Apart (s : Session) : Prop where
  active : ∀ {key : OpaqueID} {k : Ref} {x : Conv}, s.requests.lookup key = some k →
    s.convs[k]? = some x → x.completer ≠ .done
  rejected : ∀ {frame : ConnectResponse} {k : Ref} {x : Conv}, s.receiver = .rejected frame k →
    s.convs[k]? = some x → x.completer = .done ∧ x.handled.length = 1
  disjoint : ∀ {key : OpaqueID} {k : Ref}, s.requests.lookup key = some k →
    s.terminal.lookup key = none

theorem Apart.init : Apart {} where
  active h := by simp at h
  rejected h := by simp at h
  disjoint h := by simp at h

theorem Apart.active_step (hs : s.Apart) (ht : s.Tabled)
    (hkey : ∀ x ∈ s.convs, x.request.key = OpaqueID.copy x.request.requestID)
    (h : s.step p a = some s') (hk : s'.requests.lookup key = some k)
    (hx' : s'.convs[k]? = some x') : x'.completer ≠ .done := by
  have htables := step_tables h
  have hold {x : Conv} := htables.lookup_old (x := x) hk
  cases step_origin h hx' with
  | kept hx => exact hs.active (hold hx) hx
  | applied hidle hadm hlookup hx hstep hr =>
    intro hd
    obtain hd | rfl := hstep.done_cases hd
    · exact hs.active (hold hx) hx hd
    · generalize s'.receiver = receiver at hr
      cases hr
  | @advanced _ x m fs err hx hstep hr =>
    intro hd
    obtain hd | rfl := hstep.done_cases hd
    · exact hs.active (hold hx) hx hd
    · generalize s'.receiver = receiver at hr
      cases hr with
      | worker hm => obtain hm | ⟨e, hm⟩ := hm <;> cases hm
      | release =>
        -- its release took the request out of the table
        obtain ⟨y, hy, hid⟩ := ht.requests (hold hx)
        cases hx.symm.trans hy
        refine htables.lookup_released hx ?_
        rwa [hkey x (List.mem_of_getElem? hx), hid, OpaqueID.copy_toList]
  | rejected hrej hlen hx =>
    obtain hk₀ | ⟨⟨⟩, -⟩ := htables.requests_lookup hk
    obtain ⟨x, hx, -⟩ := ht.requests hk₀
    rw [hlen, List.getElem?_eq_none le_rfl] at hx
    cases hx
  | reserved hres hlen hx => rw [hx]; simp [reservedConv]

/-- Where a rejected conversation comes from: it is new, or it was rejected before and one of its
goroutines may have moved. -/
theorem rejected_origin (h : s.step p a = some s') (hrej' : s'.receiver = .rejected frame k)
    (hx' : s'.convs[k]? = some x') : (∃ code, x' = rejectedConv p frame code) ∨
      s.receiver = .rejected frame k ∧ ∃ x, s.convs[k]? = some x ∧ (x' = x ∨ ∃ m fs err,
        Conv.Step p (s.envOf p x) x m x' fs err ∧ m.isOwn = true) := by
  cases step_origin h hx' with
  | kept hx hr =>
    obtain hr | ⟨hr, -⟩ := hr
    · exact .inr ⟨hr ▸ hrej', x', hx, .inl rfl⟩
    · rw [hrej'] at hr; exact absurd rfl hr
  | applied _ _ _ _ _ hr | reserved _ _ _ hr => rw [hrej'] at hr; cases hr
  | @rejected _ code _ hrej hlen hx hr =>
    rw [hrej'] at hr
    cases hr
    exact .inl ⟨code, hx⟩
  | @advanced _ x m fs err hx hstep hr =>
    rw [hrej'] at hr
    generalize hreceiver : Receiver.rejected frame k = receiver at hr
    cases hr with
    | worker hm => exact .inr ⟨rfl, x, hx, .inr ⟨m, fs, err, hstep, isOwn_of_worker hm⟩⟩
    | session | release | abort => exact .inr ⟨rfl, x, hx, .inr ⟨_, fs, err, hstep, rfl⟩⟩
    | openAborted | completed => split at hreceiver <;> cases hreceiver
    | _ => cases hreceiver

theorem Apart.rejected_step (hs : s.Apart) (hsound : ∀ x ∈ s.convs, x.Sound)
    (h : s.step p a = some s')
    (hrej' : s'.receiver = .rejected frame k) (hx' : s'.convs[k]? = some x') :
    x'.completer = .done ∧ x'.handled.length = 1 := by
  obtain ⟨code, rfl⟩ | ⟨hrej, x, hx, rfl | ⟨m, fs, err, hstep, hm⟩⟩ := rejected_origin h hrej' hx'
  · exact ⟨rfl, rfl⟩
  · exact hs.rejected hrej hx
  · -- a rejected request stays over, whichever of its goroutines moves
    obtain ⟨hd, hlen⟩ := hs.rejected hrej hx
    obtain ⟨hd', hh, -⟩ := hstep.of_done (hsound x (List.mem_of_getElem? hx)) hd
    exact ⟨hd', hh hm ▸ hlen⟩

theorem Apart.disjoint_step (hs : s.Apart) (ht : s.Tabled) (hheld : Held p s) (hd : s.Distinct)
    (h : s.step p a = some s') (hk : s'.requests.lookup key = some k) :
    s'.terminal.lookup key = none := by
  by_contra hne
  obtain ⟨t, ht'⟩ := Option.ne_none_iff_exists'.mp hne
  have htables := step_tables h
  obtain hk₀ | ⟨rfl, -, hnone⟩ := htables.requests_lookup hk
  · cases htables.terminal_lookup ht' with
    | old ht₀ | late _ _ ht₀ => rw [hs.disjoint hk₀] at ht₀; cases ht₀
    | released hx hkey hlookup =>
      cases hk₀.symm.trans hlookup
      exact htables.lookup_released hx (hkey ▸ hk)
    | rejected hrej hkey =>
      rw [Held, hrej] at hheld
      obtain ⟨hopens, -, y, hy, hyid⟩ := hheld
      obtain ⟨x, hx, hxid⟩ := ht.requests hk₀
      rw [hkey, OpaqueID.toList_copy hopens.requestId_length] at hxid
      obtain rfl := hd _ _ x y hx hy (by rw [hxid, hyid])
      exact hs.active hk₀ hx (hs.rejected hrej hx).1
  · cases htables.terminal_lookup ht' with
    | old ht₀ => rw [hnone] at ht₀; cases ht₀

theorem distinct (h : Runs p s) :
    s.Distinct := fun _ _ _ _ hx hy hid ↦ (histories h).1.distinct hx hy hid

theorem apart (h : Runs p s) : s.Apart :=
  h.invariant Apart.init fun _ _ _ hreach hs _ hstep ↦
    { active := hs.active_step (tabled hreach).1 (key_eq hreach) hstep
      rejected := hs.rejected_step (conv_sound hreach) hstep
      disjoint := hs.disjoint_step (tabled hreach).1 (tabled hreach).2 (distinct hreach) hstep }

/-! ## The count -/

/-- How many frames of the conversation `x` at `k` the receive loop has taken. -/
def count (s : Session) (k : Ref) (x : Conv) : Nat :=
  x.handled.length + if s.receiver.pending = some k then 1 else 0

/-- How the number and the count of a conversation change together. -/
inductive Counts (s s' : Session) (k : Ref) (x' : Conv) : Action → Prop
  | same {a x} (hx : s.convs[k]? = some x)
      (hseq : x'.request.incomingSequence = x.request.incomingSequence)
      (hcount : s'.count k x' = s.count k x) : Counts s s' k x' a
  | taken {frame now x key} (hx : s.convs[k]? = some x) (hlookup : s.requests.lookup key = some k)
      (hseq : x'.request.incomingSequence = x.request.incomingSequence + 1)
      (hcount : s'.count k x' = s.count k x + 1) : Counts s s' k x' (.recv frame now)
  | late {frame x t t'} (hx : s.convs[k]? = some x) (hlate : s.receiver = .late frame)
      (ht : s.terminal.lookup (OpaqueID.copy frame.header.requestId) = some t)
      (ht' : updateTerminal frame t = some t') (hk : t.ref = k)
      (hcount : s'.count k x' = s.count k x + 1) : Counts s s' k x' .late
  | new {a : Action} (hk : k = s.convs.length)
      (hcount : x'.request.incomingSequence = s'.count k x') : Counts s s' k x' a

theorem pending_ref {r : Receiver} (h : r.pending = some k) : r.ref = some k := by
  cases r <;> first | exact h | cases h

/-- **The number of a conversation grows with its count**, until the receive loop stops. -/
theorem step_counts (hheld : Held p s) (h : s.step p a = some s')
    (hgoes : s'.receiver.isStopped = false) (hx' : s'.convs[k]? = some x') :
    Counts s s' k x' a := by
  cases step_origin h hx' with
  | kept hx hr =>
    refine .same hx rfl ?_
    suffices s'.receiver.pending = some k ↔ s.receiver.pending = some k by
      simp only [count, this]
    obtain hr | ⟨hr', hr⟩ := hr
    · rw [hr]
    · refine iff_of_false (fun hp ↦ hr' (pending_ref hp)) fun hp ↦ ?_
      obtain hr | ⟨frame, hr⟩ | hr := hr
      · exact hr (pending_ref hp)
      · rw [hr] at hp; cases hp
      · rw [hr] at hp; cases hp
  | @applied frame now x m hidle hadm hlookup hx hstep hr =>
    have hseq := hstep.incomingSequence_succ (by
      generalize s'.receiver = receiver at hr; cases hr <;> rfl)
    refine .taken hx hlookup hseq ?_
    rw [count, count, hstep.handled_eq, hidle]
    generalize s'.receiver = receiver at hr
    cases hr <;> simp [Move.frame?, Receiver.pending]
  | rejected hopen hlen hx hr | reserved hopen hlen hx hr =>
    rw [Held, hopen] at hheld
    refine .new hlen ?_
    rw [count, hr, hx]
    exact hheld.1.sequence
  | @advanced _ x m fs err hx hstep hr =>
    -- the moves that handle no frame, made while none is pending
    have hquiet : m.counts = false → m.frame? = none → (s'.receiver.pending = some k ↔
        s.receiver.pending = some k) → Counts s s' k x' a := by
      intro hm hf hp
      refine .same hx (hstep.incomingSequence hm) ?_
      simp only [count, hp, hstep.handled_of_none hf]
    have hown : m.isOwn = true → s'.receiver = s.receiver → Counts s s' k x' a := by
      intro hm hr
      have hm' : m.counts = false ∧ m.frame? = none := by
        cases m <;> first | exact ⟨rfl, rfl⟩ | exact Bool.noConfusion hm
      exact hquiet hm'.1 hm'.2 (by rw [hr])
    generalize hreceiver : s'.receiver = receiver at hr hown hquiet hgoes
    cases hr with
    | worker hm => exact hown (isOwn_of_worker hm) rfl
    | session | release | abort => exact hown rfl rfl
    | numberOpen hr | openGranted hr | openRefused hr | canceled hr =>
      exact hquiet rfl rfl (by simp [hr, Receiver.pending])
    | openAborted hr | completed hr =>
      exact hquiet rfl rfl (by rw [hr]; split <;> simp [Receiver.pending])
    | data hr | halfClose hr =>
      refine .same hx (hstep.incomingSequence rfl) ?_
      simp [count, hstep.handled_eq, hr, hreceiver, Move.frame?, Receiver.pending]
    | dataFailed | halfCloseFailed => exact Bool.noConfusion hgoes
    | late hr ht ht' hk =>
      refine .late hx hr ht ht' hk ?_
      simp [count, hstep.handled_of_late, hr, hreceiver, Receiver.pending]

/-- A receive loop that has stopped stays as it is. -/
theorem step_of_stopped (h : s.step p a = some s') (hstop : s.receiver.isStopped = true) :
    s'.receiver = s.receiver ∧ s'.received = s.received := by
  have hne : ∀ {r : Receiver}, r.isStopped = false → s.receiver ≠ r := by
    rintro r hr rfl
    rw [hr] at hstop
    cases hstop
  cases step_change h with
  | same hi ha hr hv => exact ⟨hr, hv⟩
  | tunnel hadm hi ha hr hv =>
    obtain hr | ⟨⟨nonce, hpong⟩, -⟩ := hr
    · exact ⟨hr, hv⟩
    · exact absurd hpong (hne rfl)
  | waited hi ha hr hv =>
    generalize s'.receiver = receiver at hr
    cases hr <;> rename_i hr <;> exact absurd hr (hne rfl)
  | looked _ _ hidle | applied hidle => exact absurd hidle (hne rfl)
  | rejected hrej => exact absurd hrej (hne rfl)
  | reserved hres => exact absurd hres (hne rfl)
  | moved hx hstep hi ha hr hv =>
    generalize hreceiver : s'.receiver = receiver at hr
    cases hr with
    | worker | session | release | abort => exact ⟨rfl, hv⟩
    | late hlate => exact absurd hlate (hne rfl)
    | _ =>
      rename_i hr
      exact absurd hr (hne rfl)

/-- A receive loop that stopped does not go on. -/
theorem step_isStopped (h : s.step p a = some s') (hgoes : s'.receiver.isStopped = false) :
    s.receiver.isStopped = false := by
  refine Bool.eq_false_iff.mpr fun hstop ↦ ?_
  rw [(step_of_stopped h hstop).1, hstop] at hgoes
  cases hgoes

/-- **The number of an entry is the count of its conversation**, as long as the receive loop
runs. -/
structure Counted (s : Session) : Prop where
  active : ∀ {key : OpaqueID} {k : Ref} {x : Conv}, s.requests.lookup key = some k →
    s.convs[k]? = some x → x.request.incomingSequence = s.count k x
  terminal : ∀ {key : OpaqueID} {t : TerminalRequest} {x : Conv},
    s.terminal.lookup key = some t → s.convs[t.ref]? = some x →
      t.incomingSequence = s.count t.ref x

/-- The entries of one conversation have one key. -/
theorem Tabled.key_eq (ht : s.Tabled) {key'}
    (hk : s.requests.lookup key = some k) (ht' : s.terminal.lookup key' = some t)
    (href : t.ref = k) : key = key' := by
  obtain ⟨x, hx, hid⟩ := ht.requests hk
  obtain ⟨y, hy, hid'⟩ := ht.terminal ht'
  rw [href] at hy
  cases hx.symm.trans hy
  exact OpaqueID.toList_injective (hid.symm.trans hid')

/-- A late frame that is accepted is handled by the conversation of its entry. -/
theorem late_eq {t' x} (h : s.step p .late = some s') (hlate : s.receiver = .late frame)
    (ht : s.terminal.lookup (OpaqueID.copy frame.header.requestId) = some t)
    (ht' : updateTerminal frame t = some t') (hx : s.convs[t.ref]? = some x) :
    s'.receiver = .idle ∧
      s'.convs[t.ref]? = some { x with handled := x.handled ++ [frame] } := by
  simp only [Session.step, hlate, handleTerminalFrame, ht, ht', act, hx, Conv.step, push,
    Option.bind_eq_bind, Option.bind_some, Option.map_some, Option.some_inj] at h
  subst h
  exact ⟨rfl, Pool.set_self hx _⟩

theorem Counted.active_step (hs : s.Counted) (ht : s.Tabled) (hheld : Held p s) (hapart : s.Apart)
    (h : s.step p a = some s') (hgoes : s'.receiver.isStopped = false)
    (hk : s'.requests.lookup key = some k) (hx' : s'.convs[k]? = some x') :
    x'.request.incomingSequence = s'.count k x' := by
  have hold {x : Conv} := (step_tables h).lookup_old (x := x) hk
  cases step_counts hheld h hgoes hx' with
  | same hx hseq hcount => rw [hseq, hcount]; exact hs.active (hold hx) hx
  | taken hx hlookup hseq hcount => rw [hseq, hcount, hs.active (hold hx) hx]
  | late hx hlate hterm ht' href =>
    obtain rfl := ht.key_eq (hold hx) hterm href
    rw [hapart.disjoint (hold hx)] at hterm
    cases hterm
  | new hlen hcount => exact hcount

theorem Counted.terminal_step (hs : s.Counted) (ht : s.Tabled) (hheld : Held p s)
    (hapart : s.Apart) (h : s.step p a = some s') (hgoes : s'.receiver.isStopped = false)
    (hterm : s'.terminal.lookup key = some t)
    (hx' : s'.convs[t.ref]? = some x') : t.incomingSequence = s'.count t.ref x' := by
  have hcounts := step_counts hheld h hgoes hx'
  cases (step_tables h).terminal_lookup hterm with
  | old ht₀ hne =>
    cases hcounts with
    | same hx hseq hcount => rw [hcount]; exact hs.terminal ht₀ hx
    | taken hx hlookup =>
      obtain rfl := ht.key_eq hlookup ht₀ rfl
      rw [hapart.disjoint hlookup] at ht₀
      cases ht₀
    | late hx hlate hterm' ht' href =>
      -- the entry of the late frame is the one that was replaced
      refine absurd ?_ (hne _ rfl hlate (by simp [retables, hlate, hterm', ht']))
      obtain ⟨y, hy, hid⟩ := ht.terminal ht₀
      obtain ⟨z, hz, hid'⟩ := ht.terminal hterm'
      rw [href] at hz
      cases hy.symm.trans hz
      exact OpaqueID.toList_injective (hid.symm.trans hid')
    | new hlen =>
      obtain ⟨y, hy, -⟩ := ht.terminal ht₀
      rw [hlen, List.getElem?_eq_none le_rfl] at hy
      cases hy
  | @released k x hx hkey hlookup heq =>
    subst heq
    cases hcounts with
    | same hx₀ hseq hcount =>
      cases hx.symm.trans hx₀
      rw [hcount]
      exact hs.active hlookup hx
    | new hlen =>
      rw [show k = s.convs.length from hlen, List.getElem?_eq_none le_rfl] at hx
      cases hx
  | rejected hrej hkey href hseq =>
    rw [Held, hrej] at hheld
    obtain ⟨y, hy, -⟩ := hheld.2.2
    rw [hseq, hheld.1.sequence]
    cases hcounts with
    | same hx hseq' hcount =>
      rw [hcount, count, hrej, (hapart.rejected hrej (href ▸ hx)).2]
      rfl
    | new hlen =>
      rw [← href, hlen, List.getElem?_eq_none le_rfl] at hy
      cases hy
  | @late frame t₀ hlate hkey ht₀ heq =>
    obtain ⟨hseq, href, hseq'⟩ := updateTerminal_eq_some heq
    rw [href] at hx' ⊢
    subst hkey
    obtain ⟨x, hx, -⟩ := ht.terminal ht₀
    obtain ⟨hidle, hlater⟩ := late_eq h hlate ht₀ heq hx
    cases hx'.symm.trans hlater
    have hcount := hs.terminal ht₀ hx
    simp only [count, hlate, hidle, Receiver.pending, List.length_append, List.length_singleton,
      reduceCtorEq, if_false] at hcount ⊢
    omega

/-- In every run with fresh Opens the tables count the frames. -/
theorem counted (h : Runs p s)
    (hgoes : s.receiver.isStopped = false) : s.Counted := by
  refine h.invariant (fun _ ↦ ⟨fun h ↦ by simp at h, fun h ↦ by simp at h⟩) ?_ hgoes
  intro s a s' hreach hs hok hstep hgoes
  have hs := hs (step_isStopped hstep hgoes)
  obtain ⟨ht, hheld⟩ := tabled hreach
  exact ⟨hs.active_step ht hheld (apart hreach) hstep hgoes,
    hs.terminal_step ht hheld (apart hreach) hstep hgoes⟩

end Session

end MarketMesh.GatewayOut
