import MarketMesh.User.AddressBook

/-!
# Runs of the address book

The rules of `Optimistic.Rules` for `Mutate`: between transactions the stored books are valid, and a
transaction that has read its book knows what it is going to execute.  `address_book` says what
follows for every run, and `lost_answer` why a call that fails may have had its effect: the answer
to `COMMIT` was lost.
-/

set_option autoImplicit false

namespace MarketMesh.User.Addresses

open Text Validation Optimistic Machine

variable {S S' : Store} {m : Mutation} {o : SubjectID} {p : Principal} {sts : List Statement}
  {tx : Tx}

/-! ## Errors -/

theorem raises_newFields (f : Fields) : Raises (· ≠ .invalidStored) (newFields f) := by
  have hfield : ∀ rule raw, Raises (· ≠ .invalidStored) (newField rule raw) := by
    intro rule raw
    cases raw with
    | invalid => exact raises_error nofun
    | utf8 =>
      exact (raises_ensure nofun).bind fun _ ↦ (raises_ensure nofun).bind fun _ ↦
        (raises_ensure nofun).bind fun _ ↦ (raises_ensure nofun).bind fun _ ↦ raises_ok _
  exact (hfield _ _).bind fun _ ↦ (hfield _ _).bind fun _ ↦ (hfield _ _).bind fun _ ↦
    (hfield _ _).bind fun _ ↦ (hfield _ _).bind fun _ ↦ (hfield _ _).bind fun _ ↦
    (hfield _ _).bind fun _ ↦ (hfield _ _).bind fun _ ↦ (raises_ensure nofun).bind fun _ ↦
    raises_ok _

theorem raises_prepare (ctxDone : Bool) (p : Principal) (c : Command) :
    Raises (· ≠ .invalidStored) (prepare ctxDone p c) := by
  refine Raises.bind ?_ fun _ ↦ Raises.bind ?_ fun c ↦ Raises.bind ?_ fun _ ↦ raises_ok c
  · rw [authorize]
    split_ifs
    · exact raises_error (by simp)
    · exact raises_error (by simp)
    all_goals first | exact raises_ok _ | exact raises_error (by simp)
  · rw [Command.normalize]
    split_ifs
    · intro e he
      cases hf : newFields c.fields with
      | error =>
        rw [hf] at he
        cases he
        exact raises_newFields _ _ hf
      | ok => rw [hf] at he; cases he
    · exact raises_ok c
  · exact (raises_ensure nofun).bind fun _ ↦ (raises_ensure nofun).bind fun _ ↦
      raises_ensure nofun

theorem raises_statements (c : Command) (generated : ID) (b : Book) :
    Raises (· ≠ .invalidStored) (c.statements o generated b) := by
  rw [Command.statements]
  split
  · exact raises_error (by simp)
  · split
    · split_ifs
      · exact raises_error (by simp)
      · exact raises_ok _
    all_goals exact raises_ok _

theorem prepare_eq_ok {ctxDone c c'} (h : prepare ctxDone p c = .ok c') : c'.validate = .ok () := by
  simp only [prepare, bind_eq_ok] at h
  obtain ⟨-, -, c₁, -, ⟨⟩, hvalid, hc⟩ := h
  cases hc
  exact hvalid

/-! ## The rules -/

/-- What is true between transactions: the rows refer to a profile, and the books are valid. -/
structure Store.Good (S : Store) : Prop where
  referenced : ∀ o, S.versions o = none → S.own o = []
  sound : ∀ o v, S.versions o = some v → Sound S o v

/-- What is true of a call whose transaction is started. -/
def Mutation.Asked (m : Mutation) : Prop := m.command.validate = .ok () ∧ m.generated ≠ zeroID

/-- The statements that the transaction executes. -/
def Mutation.Plans (m : Mutation) (S : Store) (sts : List Statement) : Prop :=
  m.command.statements m.owner m.generated (S.book m.owner m.command.expectedVersion) = .ok sts

def Tx.Knows (S : Store) (m : Mutation) : Tx → Prop
  | locked => True
  | executing writes rest => m.Plans S (writes ++ rest) ∧ AllowedAll S writes

def Tx.Ready (S : Store) (m : Mutation) (tx : Tx) (b : Book) : Prop :=
  m.Plans S tx.writes ∧ AllowedAll S tx.writes ∧ (S.view tx.writes).read m.owner = .ok b

namespace Mutation.Plans

variable {sts : List Statement}

theorem owner (h : m.Plans S sts) : ∀ st ∈ sts, st.owner = m.owner :=
  (statements_spec h (List.Perm.refl _) none).1

theorem agrees (h : m.Plans S sts) (hagrees : Agrees m.owner S S') : m.Plans S' sts := by
  have hbook : S'.book m.owner = S.book m.owner := by
    funext v
    rw [Store.book, Store.book, hagrees.2]
  rw [Plans, hbook]
  exact h

/-- What the statements leave. -/
theorem effect (h : m.Plans S sts)
    (hversion : S.versions m.owner = some m.command.expectedVersion) :
    (S.view sts).versions m.owner = some (m.command.expectedVersion + 1) ∧
      (S.view sts).own m.owner = m.command.result m.generated (S.own m.owner) ∧
      ∀ o, o ≠ m.owner → Agrees o S (S.view sts) := by
  obtain ⟨hown, hresult, hraise⟩ := statements_spec h (List.perm_insertionSort _ _)
    (S.versions m.owner)
  refine ⟨?_, ?_, fun o ho ↦ agrees_foldl_other (fun st hst heq ↦ ho ?_) _⟩
  · rw [Store.view, versions_foldl hown, hraise, hversion]
    rfl
  · rw [Store.view, own_foldl hown, hresult]
  · rw [← heq, hown st hst]

theorem sound (h : m.Plans S sts) (hS : S.Good) (hm : m.Asked)
    (hversion : S.versions m.owner = some m.command.expectedVersion) (hall : AllowedAll S sts) :
    Sound (S.view sts) m.owner (m.command.expectedVersion + 1) := by
  rw [Sound, (h.effect hversion).2.1]
  exact (hS.sound _ _ hversion).statements hm.1 hm.2 rfl h hall

end Mutation.Plans

theorem knows_agrees (hagrees : Agrees m.owner S S') (h : tx.Knows S m) :
    tx.Knows S' m := by
  cases tx with
  | locked => trivial
  | executing =>
    have hown := fun st hst ↦ h.1.owner st (List.mem_append_left _ hst)
    exact ⟨h.1.agrees hagrees, hagrees.allowedAll hown h.2⟩

theorem ready_agrees {b} (hagrees : Agrees m.owner S S') (h : tx.Ready S m b) :
    tx.Ready S' m b := by
  obtain ⟨hplans, hall, hread⟩ := h
  exact ⟨hplans.agrees hagrees, hagrees.allowedAll hplans.owner hall,
    (hagrees.foldl hplans.owner).read.trans hread⟩

theorem lock_cases (S : Store) (m : Mutation) :
    (lock S m = .ok .locked ∧ S.versions m.owner = some m.command.expectedVersion) ∨
      ∃ e, lock S m = .error e ∧
        (e = .invalidStored → ∃ v, S.versions m.owner = some v ∧ v < 1) := by
  rw [lock]
  split
  · exact .inr ⟨_, rfl, nofun⟩
  · rename_i version hversion
    split_ifs with hlt hne
    · exact .inr ⟨_, rfl, fun _ ↦ ⟨version, hversion, hlt⟩⟩
    · exact .inr ⟨_, rfl, nofun⟩
    · exact .inl ⟨rfl, by rw [hversion, not_not.mp hne]⟩

/-- What the next statement of a transaction gives. -/
theorem next_spec (hS : S.Good) (hm : m.Asked)
    (hversion : S.versions m.owner = some m.command.expectedVersion) (h : tx.Knows S m) :
    match next S m tx with
    | .ok (.more tx') => tx'.Knows S m
    | .ok (.ready tx' b) => tx'.Ready S m b
    | .error e => e ≠ .invalidStored := by
  match tx, h with
  | .locked, _ =>
    have hread := read_of_sound hversion (hS.sound _ _ hversion)
    rw [next, hread]
    cases hsts : m.command.statements m.owner m.generated
        (S.book m.owner m.command.expectedVersion) with simp only [hsts, bind, Except.bind]
    | error e => exact raises_statements _ _ _ e hsts
    | ok sts => exact ⟨hsts, trivial⟩
  | .executing writes (st :: rest), ⟨hplans, hall⟩ =>
    rw [next]
    split_ifs with hallowed
    · refine ⟨?_, (allowedAll_append _ _).mpr ⟨hall, hallowed⟩⟩
      rwa [List.append_assoc, List.singleton_append]
    · exact nofun
  | .executing writes [], ⟨hplans, hall⟩ =>
    rw [List.append_nil] at hplans
    have hread := read_of_sound (hplans.effect hversion).1 (hplans.sound hS hm hversion hall)
    rw [next, hread]
    exact ⟨hplans, hall, hread⟩

theorem register_cases (h : S.register o = some S') : o ≠ zeroID ∧ S.versions o = none ∧
    S'.versions o = some 1 ∧ (∀ o', S'.own o' = S.own o') ∧ ∀ o', o' ≠ o → Agrees o' S S' := by
  rw [Store.register] at h
  split_ifs at h with hnew
  cases h
  exact ⟨hnew.1, hnew.2, Function.update_self o _ _, fun _ ↦ rfl,
    fun o' ho ↦ ⟨Function.update_of_ne ho _ _, rfl⟩⟩

theorem Store.Good.register (hS : S.Good) (h : S.register o = some S') : S'.Good := by
  obtain ⟨hzero, hnone, hversion, hown, hothers⟩ := register_cases h
  constructor
  · intro o' ho'
    by_cases heq : o' = o
    · rw [heq, hown, hS.referenced o hnone]
    · rw [hown, hS.referenced o' ((hothers o' heq).1.symm.trans ho')]
  · intro o' v hv
    rw [Sound, hown]
    by_cases heq : o' = o
    · subst heq
      cases hversion.symm.trans hv
      rw [hS.referenced o' hnone]
      exact ⟨hzero, by simp [maxInt64], Nat.zero_le _, by simp, List.nodup_nil, by simp⟩
    · exact hS.sound o' v ((hothers o' heq).1.symm.trans hv)

theorem Store.Good.commit (hS : S.Good) (hm : m.Asked)
    (hversion : S.versions m.owner = some m.command.expectedVersion)
    (hplans : m.Plans S sts) (hall : AllowedAll S sts) : (S.view sts).Good := by
  obtain ⟨hversion', -, hothers⟩ := hplans.effect hversion
  constructor
  · intro o ho
    have hne : o ≠ m.owner := by
      rintro rfl
      cases hversion'.symm.trans ho
    obtain ⟨hv, hown⟩ := hothers o hne
    exact hown.trans (hS.referenced o (hv.symm.trans ho))
  · intro o v hv
    by_cases heq : o = m.owner
    · subst heq
      cases hversion'.symm.trans hv
      exact hplans.sound hS hm hversion hall
    · obtain ⟨hv', hown⟩ := hothers o heq
      rw [Sound, hown]
      exact hS.sound o v (hv'.symm.trans hv)

theorem enter_cases {x : Input} {refusal : Option Err} (h : x.enter = some (m, refusal)) :
    refusal = none ∧ m.Asked ∨ ∃ e, refusal = some e ∧ e ≠ .invalidStored := by
  rw [Input.enter] at h
  split_ifs at h with hzero
  split at h
  · rename_i e he
    cases h
    exact .inr ⟨e, rfl, raises_prepare _ _ _ e he⟩
  · rename_i c hc
    cases h
    exact .inl ⟨rfl, prepare_eq_ok hc, hzero⟩

def rules : Rules spec where
  version := Store.versions
  Same := Agrees
  Good := Store.Good
  Asked := Mutation.Asked
  Knows S m tx := tx.Knows S m
  Ready S m tx b := tx.Ready S m b
  Harmless e := e ≠ .invalidStored
  same_refl _ _ := ⟨rfl, rfl⟩
  same_version h := h.1
  knows_same := knows_agrees
  ready_same := ready_agrees
  asked h := by
    obtain ⟨-, hm⟩ | ⟨e, ⟨⟩, -⟩ := enter_cases h
    exact hm
  enter_error h := by
    obtain ⟨⟨⟩, -⟩ | ⟨e, he, hne⟩ := enter_cases h
    cases he
    exact hne
  broken := nofun
  lock_ok {S m tx} _ _ h := by
    obtain ⟨hok, hversion⟩ | ⟨e, he, -⟩ := lock_cases S m
    · cases hok.symm.trans h
      exact ⟨hversion, trivial⟩
    · cases he.symm.trans h
  lock_error {S m e} hS _ h heq := by
    obtain ⟨hok, -⟩ | ⟨e', he', hv⟩ := lock_cases S m
    · cases hok.symm.trans h
    · cases he'.symm.trans h
      obtain ⟨v, hv, hlt⟩ := hv heq
      have hpos : 0 < v := (hS.sound _ v hv).version.1
      omega
  next_more hS hm hv hknows h := by
    have hnext := next_spec hS hm hv hknows
    rwa [Option.some_inj.mp h] at hnext
  next_ready hS hm hv hknows h := by
    have hnext := next_spec hS hm hv hknows
    rwa [Option.some_inj.mp h] at hnext
  next_error hS hm hv hknows h := by
    have hnext := next_spec hS hm hv hknows
    rwa [Option.some_inj.mp h] at hnext
  answer {S m tx b} hS hm hv h := by
    obtain ⟨hplans, hall, hread⟩ := h
    have hsound := hplans.sound hS hm hv hall
    cases (read_of_sound (hplans.effect hv).1 hsound).symm.trans hread
    exact checked_of_sound hsound
  commit hS hm hv h := by
    obtain ⟨hversion, -, hothers⟩ := h.1.effect hv
    exact ⟨hS.commit hm hv h.1 h.2.1, hversion, hothers⟩
  env {S o S'} hS h := by
    obtain ⟨-, hnone, -, -, hothers⟩ := register_cases h
    refine ⟨hS.register h, fun o' ↦ ?_⟩
    by_cases heq : o' = o
    · exact .inr (heq ▸ hnone)
    · exact .inl (hothers o' heq)

/-! ## The guarantees -/

/-- What a command may do to the default address. -/
structure Defaults (c : Command) (before after : List Address) : Prop where
  first : c.operation = .create → before = [] → ∃ a, after = [a] ∧ a.isDefault = true
  chosen : c.operation = .setDefault → (∃ a ∈ after, a.id = c.id) ∧
    ∀ a ∈ after, a.isDefault = true ↔ a.id = c.id
  kept : c.operation ≠ .setDefault → (c.operation = .create → before ≠ []) →
    ∀ a ∈ after, a.isDefault = true → ∃ a' ∈ before, a'.id = a.id ∧ a'.isDefault = true

theorem statements_defaults {c generated b}
    (h : c.statements o generated b = .ok sts) {l} (hl : b.addresses.Perm l) :
    Defaults c l (c.result generated l) := by
  have hpresent : c.operation ≠ .create → ∃ a ∈ l, a.id = c.id := by
    intro hop
    rw [Command.statements] at h
    split at h
    · cases h
    · rename_i hfound
      have hany := (Bool.not_eq_false _).mp fun hnone ↦ hfound ⟨hop, hnone⟩
      obtain ⟨a, ha, hid⟩ := List.any_eq_true.mp hany
      exact ⟨a, hl.mem_iff.mp ha, of_decide_eq_true hid⟩
  constructor
  · rintro hop rfl
    exact ⟨_, by rw [Command.result, hop]; rfl, rfl⟩
  · intro hop
    obtain ⟨a, ha, hid⟩ := hpresent (by simp [hop])
    simp only [Command.result, hop, List.mem_map]
    refine ⟨⟨_, ⟨a, ha, rfl⟩, hid⟩, ?_⟩
    rintro _ ⟨a', -, rfl⟩
    exact decide_eq_true_iff
  · intro hset hcreate a ha hdefault
    cases hop : c.operation with
    | create =>
      simp only [Command.result, hop, List.mem_append, List.mem_singleton] at ha
      obtain ha | rfl := ha
      · exact ⟨a, ha, rfl, hdefault⟩
      · exact absurd (List.isEmpty_iff.mp hdefault) (hcreate hop)
    | update =>
      simp only [Command.result, hop, List.mem_map] at ha
      obtain ⟨a', ha', rfl⟩ := ha
      refine ⟨a', ha', ?_⟩
      split_ifs at hdefault ⊢
      · exact ⟨rfl, hdefault⟩
      · exact ⟨rfl, hdefault⟩
    | delete =>
      simp only [Command.result, hop] at ha
      exact ⟨a, List.mem_of_mem_filter ha, rfl, hdefault⟩
    | setDefault => exact absurd hop hset
    | unknown =>
      simp only [Command.result, hop] at ha
      exact ⟨a, ha, rfl, hdefault⟩

/-- A call takes effect: its owner has the next version and the addresses that the command makes,
and nobody else has anything new. -/
structure Effect (S S' : Store) (m : Mutation) : Prop where
  version : S.versions m.owner = some m.command.expectedVersion
  version' : S'.versions m.owner = some (m.command.expectedVersion + 1)
  own : S'.own m.owner = m.command.result m.generated (S.own m.owner)
  defaults : Defaults m.command (S.own m.owner) (S'.own m.owner)
  others : ∀ o, o ≠ m.owner → Agrees o S S'

/-- What a step does to the store. -/
inductive Outcome (s s' : System) : Prop
  /-- Nothing, or it stores a new profile with an empty book; no call takes effect. -/
  | idle (hstore : s'.store = s.store ∨ s'.calls = s.calls ∧
        ∃ o, s.store.versions o = none ∧ s'.store.versions o = some 1 ∧ s'.store.own o = [] ∧
          ∀ o', o' ≠ o → Agrees o' s.store s'.store)
      (hcalls : ∀ (k : Nat) (call' : Call Mutation Tx Book Err), s'.calls[k]? = some call' →
        call'.hasCommitted = true → ∃ call, s.calls[k]? = some call ∧ call.hasCommitted = true)
  /-- Call `k` takes effect, and returns the new book unless the answer to `COMMIT` is lost. -/
  | committed {k call} (hk : s.calls[k]? = some call ∧ call.hasCommitted = false)
      (hcalls : ∃ result, s'.calls =
          s.calls.set k { call with pc := .finished result, hasCommitted := true } ∧
        (result = .ok (s'.store.book call.request.owner (call.request.command.expectedVersion + 1))
          ∨ result = .error .database))
      (heffect : Effect s.store s'.store call.request)

variable {s s' : System}

theorem outcome (hs : rules.Inv s) (h : Change spec s s') : Outcome s s' := by
  obtain ⟨k, call, tx, b, hk, hasked, hready, hversion, ⟨result, hresult, hcalls⟩, hstore⟩ |
    ⟨hstore, hcalls⟩ := hs.outcome h
  · obtain ⟨hplans, hall, hread⟩ := hready
    obtain ⟨hversion', hown, hothers⟩ := hplans.effect hversion
    refine .committed hk ⟨result, hcalls, hresult.imp_left fun h ↦ ?_⟩ ?_
    · cases (read_of_sound hversion' (hplans.sound hs.good hasked hversion hall)).symm.trans hread
      rw [h, hstore]
      rfl
    · rw [hstore]
      refine ⟨hversion, hversion', hown, ?_, hothers⟩
      exact hown.symm ▸ statements_defaults hplans (List.perm_insertionSort _ _)
  · refine .idle (hstore.imp_right fun ⟨hsame, o, ho⟩ ↦ ⟨hsame, o, ?_⟩) hcalls
    obtain ⟨-, hnone, hversion, hown, hothers⟩ := register_cases ho
    exact ⟨hnone, hversion, (hown o).trans (hs.good.referenced o hnone), hothers⟩

/-- **A call sees the rows of its owner only**: it does the same whatever the others have stored. -/
theorem reads_own (hagrees : Agrees m.owner S S') :
    lock S' m = lock S m ∧ ∀ tx : Tx, tx.Knows S m → next S' m tx = next S m tx := by
  refine ⟨by rw [lock, lock, hagrees.1], fun tx htx ↦ ?_⟩
  match tx, htx with
  | .locked, _ => rw [next, next, hagrees.read]
  | .executing writes (st :: rest), ⟨hplans, _⟩ =>
    have hview := hagrees.foldl fun st hst ↦ hplans.owner st (List.mem_append_left _ hst)
    have hst := hplans.owner st (List.mem_append_right _ List.mem_cons_self)
    rw [next, next]
    exact if_congr (hview.allowed hst) rfl rfl
  | .executing writes [], ⟨hplans, _⟩ =>
    have hview := hagrees.foldl fun st hst ↦ hplans.owner st (List.mem_append_left _ hst)
    rw [next, next, Store.view, Store.view, hview.read]

/-- `List` sees the rows of its owner only. -/
theorem Agrees.list {S S'} (h : Agrees p.subjectID S S') (ctxDone : Bool) :
    list S' ctxDone p = list S ctxDone p := by
  rw [Addresses.list, Addresses.list, h.read]

theorem list_of_sound {S} {v : Int} (hp : p.canReadAddresses = true)
    (hv : S.versions p.subjectID = some v) (h : Sound S p.subjectID v) :
    list S false p = .ok (S.book p.subjectID v) := by
  have hauth : authorize false p false = .ok () := by
    simp [authorize, hp, show p.subjectID ≠ zeroID from h.subject]
  rw [Addresses.list, hauth, read_of_sound hv h]
  exact checked_of_sound h

/-- **The address book.**  In every run: the stored books are valid, so that nobody fails to read
one; among the calls of an owner that expect the same version at most one takes effect; a call that
succeeds has taken effect; a step that changes the store is the registration of a profile or the
effect of one call, which raises the version of its owner by one and leaves the others alone; and a
call depends on the rows of its owner only. -/
theorem address_book (h : Reach spec.step (fun _ _ ↦ True) { store := {} } s) :
    (∀ o v, s.store.versions o = some v → (s.store.book o v).validate = .ok () ∧
      ∀ p : Principal, p.subjectID = o → p.canReadAddresses = true →
        list s.store false p = .ok (s.store.book o v)) ∧
    (∀ call ∈ s.calls, call.pc ≠ .finished (.error .invalidStored)) ∧
    (∀ call ∈ s.calls, ∀ b, call.pc = .finished (.ok b) → call.hasCommitted = true) ∧
    (∀ (i j : Nat) (c d : Call Mutation Tx Book Err), s.calls[i]? = some c → s.calls[j]? = some d →
      c.request.owner = d.request.owner →
      c.request.command.expectedVersion = d.request.command.expectedVersion →
      c.hasCommitted = true → d.hasCommitted = true → i = j) ∧
    (∀ a s', spec.step s a = some s' → Outcome s s') ∧
    (∀ call ∈ s.calls, ∀ S : Store, Agrees call.request.owner s.store S →
      lock S call.request = lock s.store call.request ∧
      ∀ tx, call.pc = .running tx → next S call.request tx = next s.store call.request tx) ∧
    (∀ (p : Principal) (ctxDone : Bool) (S S' : Store), Agrees p.subjectID S S' →
      list S' ctxDone p = list S ctxDone p) ∧
    (∀ f g : Fields, newFields f = .ok g → newFields g = .ok g ∧ g.Check) := by
  have hgood : Store.Good {} := ⟨fun _ _ ↦ rfl, nofun⟩
  have hs : rules.Inv s := Rules.inv_of_reach hgood h
  refine ⟨fun o v hv ↦ ⟨?_, ?_⟩, fun call hcall hpc ↦ ?_, hs.answered, hs.once, ?_, ?_, ?_, ?_⟩
  · exact Book.validate_eq_ok.mpr (book_valid_iff.mpr (hs.good.sound o v hv))
  · rintro p rfl hp
    exact list_of_sound hp hv (hs.good.sound _ v hv)
  · have hknows := hs.knows call hcall
    rw [hpc] at hknows
    exact hknows rfl
  · exact fun a s' hstep ↦ outcome hs (step_change hstep)
  · refine fun call hcall S hagrees ↦ ⟨(reads_own hagrees).1, fun tx hpc ↦ ?_⟩
    have hknows := hs.knows call hcall
    rw [hpc] at hknows
    exact (reads_own hagrees).2 tx hknows.2
  · exact fun p ctxDone S S' hagrees ↦ hagrees.list ctxDone
  · exact fun f g hfg ↦ ⟨newFields_idem hfg, newFields_check hfg⟩

/-! ### A run -/

def sampleID (n : UInt8) : List.Vector UInt8 16 := List.Vector.replicate 16 n

def sampleFields : Fields where
  recipient := .utf8 "Ada".toList
  phone := .utf8 "+44 1234567".toList
  country := .utf8 "UK".toList
  postalCode := .utf8 []
  city := .utf8 "London ".toList
  streetHouse := .utf8 "Oak Street 1".toList
  apartment := .utf8 []
  comment := .utf8 []

def samplePrincipal : Principal where
  subjectID := sampleID 1
  canReadAddresses := true
  canWriteAddresses := true

def sampleCreate : Command where
  operation := .create
  id := zeroID
  fields := sampleFields
  expectedVersion := 1

def sampleInput (generated : UInt8) : Input where
  ctxDone := false
  principal := samplePrincipal
  command := sampleCreate
  generated := sampleID generated

/-- Two calls expect the same version, and the second finds the effect of the first. -/
def sampleRun (last : Action) : List Action :=
  [.env (sampleID 1), .enter (sampleInput 2), .enter (sampleInput 3), .lock 0, .next 0 (),
    .next 0 (), .next 0 (), .next 0 (), last, .lock 1]

theorem address_book_sample :
    ∃ s : System, Reach spec.step (fun _ _ ↦ True) { store := {} } s ∧
      s.calls.length = 2 ∧ (s.store.own (sampleID 1)).map Address.isDefault = [true] ∧
      ∀ call ∈ s.calls, call.pc ≠ .finished (.error .invalidStored) := by
  obtain ⟨s, hreach, htest⟩ := exists_of_script spec.step (fun _ _ ↦ True) { store := {} }
    (sampleRun (.commit 0)) (fun s ↦ s.calls.length = 2 ∧
      (s.store.own (sampleID 1)).map Address.isDefault = [true]) (by decide +kernel)
  exact ⟨s, hreach, htest.1, htest.2, (address_book hreach).2.1⟩

/-- The call returned an error. -/
def hasFailed : Pc Tx Book Err → Bool
  | .finished (.error _) => true
  | _ => false

/-- The answer to `COMMIT` is lost: the call fails, but its address is stored. -/
theorem lost_answer : ∃ (s : System) (call : Call Mutation Tx Book Err),
    Reach spec.step (fun _ _ ↦ True) { store := {} } s ∧
    s.calls[0]? = some call ∧ (∃ e, call.pc = .finished (.error e)) ∧
    s.store.versions call.request.owner = some 2 ∧
    (s.store.own call.request.owner).length = 1 := by
  obtain ⟨s, hreach, htest⟩ := exists_of_script spec.step (fun _ _ ↦ True) { store := {} }
    (sampleRun (.lose 0)) (fun s ↦ (s.calls[0]?).any fun call ↦
      hasFailed call.pc &&
      decide (s.store.versions call.request.owner = some 2) &&
      decide ((s.store.own call.request.owner).length = 1)) (by decide +kernel)
  obtain ⟨call, hcall, htest⟩ := (Option.any_eq_true _ _).mp htest
  simp only [Bool.and_eq_true, decide_eq_true_eq] at htest
  obtain ⟨⟨hpc, hversion⟩, hlength⟩ := htest
  refine ⟨s, call, hreach, hcall, ?_, hversion, hlength⟩
  unfold hasFailed at hpc
  split at hpc
  · rename_i e heq
    exact ⟨e, heq⟩
  · cases hpc

end MarketMesh.User.Addresses
