import MarketMesh.Lib.Optimistic
import MarketMesh.User.Address
import Mathlib.Data.List.Sort

/-!
# The address book

Every owner has a book of addresses with a version.  `Mutate` changes it in one transaction: it
locks the profile of the owner with `SELECT … FOR UPDATE`, compares the version, reads the book,
writes, raises the version and reads the book again.

Any number of such calls run at the same time, each statement being a step of
`Optimistic.Spec.step`.  The isolation is read committed: a statement sees what has been committed
when it starts, and what its own transaction has written.  So a call carries the statements it has
executed, its view of the database is what they make of the committed store (`view`), and `COMMIT`
replaces the store by the view.  What other owners commit in the meantime is in the view, which is
harmless because a statement of a call touches the rows of its owner only (`Agrees`).
-/

set_option autoImplicit false

namespace MarketMesh.User.Addresses

open Text Validation

/-! ## The database -/

/-- A row of `users.addresses`. -/
structure AddressRow where
  subjectID : SubjectID
  address : Address
  deriving DecidableEq

/-- `users.addresses`, and the column `address_book_version` of `users.profiles`. -/
structure Store where
  versions : SubjectID → Option Int := fun _ ↦ none
  addresses : List AddressRow := []

/-- The addresses of an owner. -/
def Store.own (S : Store) (owner : SubjectID) : List Address :=
  (S.addresses.filter fun row ↦ row.subjectID = owner).map AddressRow.address

inductive Statement where
  /-- `INSERT INTO users.addresses` -/
  | insert (owner : SubjectID) (a : Address)
  /-- `UPDATE users.addresses SET recipient = …` -/
  | update (owner : SubjectID) (id : ID) (fields : Fields)
  | delete (owner : SubjectID) (id : ID)
  | clearDefault (owner : SubjectID)
  | setDefault (owner : SubjectID) (id : ID)
  /-- `UPDATE users.profiles SET address_book_version = address_book_version + 1` -/
  | raiseVersion (owner : SubjectID)

namespace Statement

def owner : Statement → SubjectID
  | insert owner _ | update owner _ _ | delete owner _ | clearDefault owner | setDefault owner _
  | raiseVersion owner => owner

/-- `UPDATE … SET f WHERE subject_id = owner AND p`. -/
def updateRows (owner : SubjectID) (p : Address → Bool) (f : Address → Address)
    (rows : List AddressRow) : List AddressRow :=
  rows.map fun row ↦
    if row.subjectID = owner ∧ p row.address = true then { row with address := f row.address }
    else row

def run (S : Store) : Statement → Store
  | insert owner a => { S with addresses := S.addresses ++ [⟨owner, a⟩] }
  | update owner id fields =>
    let change (a : Address) := { a with fields := fields }
    { S with addresses := updateRows owner (fun a ↦ a.id = id) change S.addresses }
  | delete owner id =>
    { S with
      addresses := S.addresses.filter fun row ↦
        !decide (row.subjectID = owner ∧ row.address.id = id) }
  | clearDefault owner =>
    let change (a : Address) := { a with isDefault := false }
    { S with addresses := updateRows owner Address.isDefault change S.addresses }
  | setDefault owner id =>
    let change (a : Address) := { a with isDefault := true }
    { S with addresses := updateRows owner (fun a ↦ a.id = id) change S.addresses }
  | raiseVersion owner =>
    { S with versions := Function.update S.versions owner ((S.versions owner).map (· + 1)) }

/-- The constraints of the tables that the statement could break: the primary key, the reference to
the profile, the checks of the columns, the index on the default address, the range of `bigint`. -/
def Allowed (S : Store) : Statement → Prop
  | insert owner a =>
    (S.versions owner).isSome = true ∧ a.id ≠ zeroID ∧ a.fields.Check ∧
      (∀ b ∈ S.own owner, b.id ≠ a.id) ∧
      (a.isDefault = true → ∀ b ∈ S.own owner, b.isDefault = false)
  | update owner id fields => (∃ a ∈ S.own owner, a.id = id) → fields.Check
  | delete _ _ | clearDefault _ => True
  | setDefault owner id =>
    (∃ a ∈ S.own owner, a.id = id) → ∀ b ∈ S.own owner, b.id ≠ id → b.isDefault = false
  | raiseVersion owner => ∀ v ∈ S.versions owner, v + 1 ≤ maxInt64

instance (S : Store) (st : Statement) : Decidable (st.Allowed S) :=
  match st with
  | insert _ _ => inferInstanceAs (Decidable (_ ∧ _ ∧ _ ∧ _ ∧ _))
  | update _ _ _ => inferInstanceAs (Decidable (_ → _))
  | delete _ _ | clearDefault _ => .isTrue trivial
  | setDefault _ _ => inferInstanceAs (Decidable (_ → _))
  | raiseVersion owner =>
    match h : S.versions owner with
    | none => .isTrue fun v hv ↦ by simp [h] at hv
    | some v =>
      if hv : v + 1 ≤ maxInt64 then .isTrue fun w hw ↦ by simp [h] at hw; exact hw ▸ hv
      else .isFalse fun hall ↦ hv (hall v h)

end Statement

/-- The book of an owner with the given version, in the order of the identifiers. -/
def Store.book (S : Store) (owner : SubjectID) (version : Int) : Book where
  subjectID := owner
  version := version
  addresses := (S.own owner).insertionSort fun a b ↦ a.id.toList ≤ b.id.toList

/-- `read`. -/
def Store.read (S : Store) (owner : SubjectID) : Except Err Book :=
  match S.versions owner with
  | none => .error .notReady
  | some version =>
    let b := S.book owner version
    if owner = zeroID ∨ version < 1 ∨ (b.addresses.any fun a ↦ a.id = zeroID) = true then
      .error .invalidStored
    else
      match b.validate with
      | .error _ => .error .invalidStored
      | .ok () => .ok b

/-! ## The calls -/

inductive Operation where
  | create
  | update
  | delete
  | setDefault
  /-- A number that is not that of an operation. -/
  | unknown (n : Nat)
  deriving DecidableEq, Repr

def Operation.isKnown : Operation → Bool
  | .unknown _ => false
  | _ => true

structure Command where
  operation : Operation
  id : ID
  fields : Fields
  expectedVersion : Int
  deriving DecidableEq

/-- `Command.Validate`. -/
def Command.validate (c : Command) : Except Err Unit := do
  ensure (ValidVersion c.expectedVersion ∧ c.operation.isKnown = true) Err.invalid
  ensure (c.operation ≠ .create → c.id ≠ zeroID) Err.invalid
  ensure (c.operation = .create ∨ c.operation = .update → newFields c.fields = .ok c.fields)
    Err.invalid

/-- The part of `identity.Principal` that the address book reads. -/
structure Principal where
  subjectID : SubjectID
  canReadAddresses : Bool
  canWriteAddresses : Bool

def authorize (ctxDone : Bool) (p : Principal) (write : Bool) : Except Err Unit :=
  if ctxDone then .error .context
  else if p.subjectID = zeroID then .error .unauthenticated
  else if (if write then p.canWriteAddresses else p.canReadAddresses) then .ok ()
  else .error .forbidden

/-- `checked`. -/
def checked (owner : SubjectID) (b : Book) : Except Err Book :=
  if b.subjectID ≠ owner then .error .forbidden
  else if b.validate = .ok () then .ok b
  else .error .invalidStored

/-- `UseCase.List`. -/
def list (S : Store) (ctxDone : Bool) (p : Principal) : Except Err Book := do
  authorize ctxDone p false
  let b ← S.read p.subjectID
  checked p.subjectID b

/-- The command with its fields in normal form. -/
def Command.normalize (c : Command) : Except Err Command :=
  if c.operation = .create ∨ c.operation = .update then
    (newFields c.fields).map fun fields ↦ { c with fields := fields }
  else .ok c

/-- What `UseCase.Mutate` and `Repository.Mutate` do before the transaction. -/
def prepare (ctxDone : Bool) (p : Principal) (c : Command) : Except Err Command := do
  authorize ctxDone p true
  let c ← c.normalize
  c.validate
  .ok c

/-- The statements between the two reads of a transaction. -/
def Command.statements (c : Command) (owner : SubjectID) (generated : ID) (b : Book) :
    Except Err (List Statement) :=
  if c.operation ≠ .create ∧ (b.addresses.any fun a ↦ a.id = c.id) = false then .error .notFound
  else
    match c.operation with
    | .create =>
      if maxAddresses ≤ b.addresses.length then .error .limit
      else
        let isDefault := b.addresses.isEmpty
        .ok [.insert owner { id := generated, fields := c.fields, isDefault := isDefault },
          .raiseVersion owner]
    | .update => .ok [.update owner c.id c.fields, .raiseVersion owner]
    | .delete => .ok [.delete owner c.id, .raiseVersion owner]
    | .setDefault => .ok [.clearDefault owner, .setDefault owner c.id, .raiseVersion owner]
    | .unknown _ => .ok [.raiseVersion owner]

/-- A call of `Mutate`; `generated` is what `rand.Read` gives. -/
structure Mutation where
  owner : SubjectID
  command : Command
  generated : ID

/-- Where the transaction of a call is, once it has the lock of the profile. -/
inductive Tx where
  /-- The version is the expected one. -/
  | locked
  /-- The statements that have been executed, and those that are left. -/
  | executing (writes rest : List Statement)

def Tx.writes : Tx → List Statement
  | locked => []
  | executing writes _ => writes

/-- What the transaction sees. -/
def Store.view (S : Store) (writes : List Statement) : Store := writes.foldl Statement.run S

/-- `SELECT … FOR UPDATE`. -/
def lock (S : Store) (m : Mutation) : Except Err Tx :=
  match S.versions m.owner with
  | none => .error .notReady
  | some version =>
    if version < 1 then .error .invalidStored
    else if version ≠ m.command.expectedVersion then .error .conflict
    else .ok .locked

/-- The next statement: the first read, a write or the second read. -/
def next (S : Store) (m : Mutation) : Tx → Except Err (Optimistic.Progress Tx Book)
  | .locked => do
    let b ← S.read m.owner
    let statements ← m.command.statements m.owner m.generated b
    .ok (.more (.executing [] statements))
  | .executing writes (st :: rest) =>
    if st.Allowed (S.view writes) then .ok (.more (.executing (writes ++ [st]) rest))
    else .error .database
  | .executing writes [] => do
    let b ← (S.view writes).read m.owner
    .ok (.ready (.executing writes []) b)

/-- The profile of a new owner is stored. -/
def Store.register (S : Store) (owner : SubjectID) : Option Store :=
  if owner ≠ zeroID ∧ S.versions owner = none then
    some { S with versions := Function.update S.versions owner (some 1) }
  else none

/-- What `UseCase.Mutate` is called with. -/
structure Input where
  ctxDone : Bool
  principal : Principal
  command : Command
  generated : ID

def Input.enter (x : Input) : Option (Mutation × Option Err) :=
  if x.generated = zeroID then none
  else
    match prepare x.ctxDone x.principal x.command with
    | .error e => some (⟨x.principal.subjectID, x.command, x.generated⟩, some e)
    | .ok c => some (⟨x.principal.subjectID, c, x.generated⟩, none)

/-- The calls of `Mutate`, and the registration of owners. -/
def spec : Optimistic.Spec Store SubjectID Mutation Tx Book Err Unit SubjectID Input where
  owner := Mutation.owner
  expected m := m.command.expectedVersion
  enter := Input.enter
  lock := lock
  next S m tx _ := some (next S m tx)
  commit S _ tx := S.view tx.writes
  answer m b := checked m.owner b
  broken := .database
  env := Store.register

abbrev System := Optimistic.System Store Mutation Tx Book Err
abbrev Action := Optimistic.Action Unit SubjectID Input

/-! ## The rows of an owner -/

/-- What a statement does to the addresses of its owner. -/
def Statement.onOwn : Statement → List Address → List Address
  | .insert _ a, l => l ++ [a]
  | .update _ id fields, l => l.map fun a ↦ if a.id = id then { a with fields := fields } else a
  | .delete _ id, l => l.filter fun a ↦ !decide (a.id = id)
  | .clearDefault _, l =>
    l.map fun a ↦ if a.isDefault = true then { a with isDefault := false } else a
  | .setDefault _ id, l => l.map fun a ↦ if a.id = id then { a with isDefault := true } else a
  | .raiseVersion _, l => l

/-- What a statement does to the version of its owner. -/
def Statement.onVersion : Statement → Option Int → Option Int
  | .raiseVersion _, v => v.map (· + 1)
  | _, v => v

variable {S S' : Store} {o : SubjectID} {st : Statement} {writes : List Statement} {v : Int}
  {c : Command} {sts : List Statement} {generated : ID}

theorem own_updateRows (owner : SubjectID) (p : Address → Bool) (f : Address → Address)
    (rows : List AddressRow) :
    ((Statement.updateRows owner p f rows).filter fun row ↦ row.subjectID = o).map
        AddressRow.address =
      ((rows.filter fun row ↦ row.subjectID = o).map AddressRow.address).map
        fun a ↦ if owner = o ∧ p a = true then f a else a := by
  induction rows with
  | nil => rfl
  | cons row rows ih =>
    rw [Statement.updateRows] at ih ⊢
    by_cases ho : row.subjectID = o
    · have howner : row.subjectID = owner ↔ owner = o := by rw [ho, eq_comm]
      simp only [List.map_cons, List.filter_cons, apply_ite AddressRow.subjectID, ite_self, ho,
        decide_true, if_true, ih, ← howner, apply_ite AddressRow.address]
    · simp [apply_ite AddressRow.subjectID, ho, ih]

theorem own_run_self (h : st.owner = o) : (st.run S).own o = st.onOwn (S.own o) := by
  cases st with
  | insert owner =>
    obtain rfl : owner = o := h
    simp [Statement.run, Statement.onOwn, Store.own]
  | update owner | setDefault owner =>
    obtain rfl : owner = o := h
    simp only [Statement.run, Statement.onOwn, Store.own, own_updateRows, true_and,
      decide_eq_true_eq]
  | clearDefault owner =>
    obtain rfl : owner = o := h
    simp only [Statement.run, Statement.onOwn, Store.own, own_updateRows, true_and]
  | delete owner id =>
    obtain rfl : owner = o := h
    simp only [Statement.run, Statement.onOwn, Store.own]
    induction S.addresses with
    | nil => rfl
    | cons row rows ih =>
      by_cases ho : row.subjectID = owner
      · by_cases hid : row.address.id = id
        · simpa [ho, hid] using ih
        · simpa [ho, hid] using ih
      · simpa [ho] using ih
  | raiseVersion => rfl

theorem own_run_other (h : st.owner ≠ o) : (st.run S).own o = S.own o := by
  cases st with
  | insert owner => simp [Statement.run, Store.own, show owner ≠ o from h]
  | update owner | setDefault owner | clearDefault owner =>
    simp [Statement.run, Store.own, own_updateRows, show owner ≠ o from h]
  | delete owner =>
    have hne : owner ≠ o := h
    simp only [Statement.run, Store.own, List.filter_filter]
    refine congrArg (List.map AddressRow.address) (List.filter_congr fun row _ ↦ ?_)
    by_cases ho : row.subjectID = o
    · simp [ho, hne.symm]
    · simp [ho]
  | raiseVersion => rfl

theorem versions_run_self (h : st.owner = o) :
    (st.run S).versions o = st.onVersion (S.versions o) := by
  subst h
  cases st with
  | raiseVersion => exact Function.update_self ..
  | insert | update | delete | clearDefault | setDefault => rfl

theorem versions_run_other (h : st.owner ≠ o) : (st.run S).versions o = S.versions o := by
  cases st with
  | raiseVersion owner => exact Function.update_of_ne (show o ≠ owner from Ne.symm h) _ _
  | insert | update | delete | clearDefault | setDefault => rfl

/-- Two stores have the same rows of an owner. -/
def Agrees (o : SubjectID) (S S' : Store) : Prop :=
  S'.versions o = S.versions o ∧ S'.own o = S.own o

theorem Agrees.run (h : Agrees o S S') (hst : st.owner = o) : Agrees o (st.run S) (st.run S') := by
  refine ⟨?_, ?_⟩
  · rw [versions_run_self hst, versions_run_self hst, h.1]
  · rw [own_run_self hst, own_run_self hst, h.2]

theorem agrees_run_other (h : st.owner ≠ o) : Agrees o S (st.run S) :=
  ⟨versions_run_other h, own_run_other h⟩

theorem agrees_foldl_other (h : ∀ st ∈ writes, st.owner ≠ o) :
    ∀ S, Agrees o S (writes.foldl Statement.run S) := by
  induction writes with
  | nil => exact fun S ↦ ⟨rfl, rfl⟩
  | cons st writes ih =>
    intro S
    obtain ⟨hv, ho⟩ := ih (fun st' hst' ↦ h st' (List.mem_cons_of_mem _ hst')) (st.run S)
    obtain ⟨hv', ho'⟩ := agrees_run_other (S := S) (h st List.mem_cons_self)
    exact ⟨hv.trans hv', ho.trans ho'⟩

/-- What the statements of one owner do to what is seen of that owner's rows. -/
theorem view_foldl {β : Type*} (f : Store → β) {on : β → Statement → β}
    (hrun : ∀ {st S}, st.owner = o → f (st.run S) = on (f S) st)
    (hw : ∀ st ∈ writes, st.owner = o) :
    ∀ S, f (writes.foldl Statement.run S) = writes.foldl on (f S) := by
  induction writes with
  | nil => exact fun S ↦ rfl
  | cons st writes ih =>
    intro S
    rw [List.foldl_cons, ih (fun st' hst' ↦ hw st' (List.mem_cons_of_mem _ hst')),
      hrun (hw st List.mem_cons_self), List.foldl_cons]

theorem own_foldl (hw : ∀ st ∈ writes, st.owner = o) (S : Store) :
    (writes.foldl Statement.run S).own o = writes.foldl (fun l st ↦ st.onOwn l) (S.own o) :=
  view_foldl (·.own o) own_run_self hw S

theorem versions_foldl (hw : ∀ st ∈ writes, st.owner = o) (S : Store) :
    (writes.foldl Statement.run S).versions o =
      writes.foldl (fun v st ↦ st.onVersion v) (S.versions o) :=
  view_foldl (·.versions o) versions_run_self hw S

theorem Agrees.foldl (hw : ∀ st ∈ writes, st.owner = o) (h : Agrees o S S') :
    Agrees o (writes.foldl Statement.run S) (writes.foldl Statement.run S') := by
  refine ⟨?_, ?_⟩
  · rw [versions_foldl hw, versions_foldl hw, h.1]
  · rw [own_foldl hw, own_foldl hw, h.2]

/-- A read depends on the rows of its owner only. -/
theorem Agrees.read (h : Agrees o S S') : S'.read o = S.read o := by
  have hbook : S'.book o = S.book o := by
    funext v
    rw [Store.book, Store.book, h.2]
  rw [Store.read, Store.read, h.1, hbook]

/-- So do the constraints a statement could break. -/
theorem Agrees.allowed (h : Agrees o S S') (hst : st.owner = o) :
    st.Allowed S' ↔ st.Allowed S := by
  obtain ⟨hv, ho⟩ := h
  cases st with
  | insert owner | update owner | setDefault owner | raiseVersion owner =>
    obtain rfl : owner = o := hst
    simp only [Statement.Allowed, hv, ho]
  | delete | clearDefault => rfl

/-- Each statement was allowed when it was executed. -/
def AllowedAll : Store → List Statement → Prop
  | _, [] => True
  | S, st :: rest => st.Allowed S ∧ AllowedAll (st.run S) rest

theorem allowedAll_append (writes : List Statement) : ∀ S, AllowedAll S (writes ++ [st]) ↔
    AllowedAll S writes ∧ st.Allowed (writes.foldl Statement.run S) := by
  induction writes with
  | nil => intro S; simp [AllowedAll]
  | cons st' writes ih => intro S; simp [AllowedAll, ih, and_assoc]

theorem Agrees.allowedAll (hw : ∀ st ∈ writes, st.owner = o) :
    ∀ {S S'}, Agrees o S S' → AllowedAll S writes → AllowedAll S' writes := by
  induction writes with
  | nil => exact fun _ _ ↦ trivial
  | cons st writes ih =>
    intro S S' h hall
    have hst := hw st List.mem_cons_self
    exact ⟨(h.allowed hst).mpr hall.1,
      ih (fun st' hst' ↦ hw st' (List.mem_cons_of_mem _ hst')) (h.run hst) hall.2⟩

/-! ## Reading a book -/

/-- The book that is stored for an owner is valid. -/
def Sound (S : Store) (o : SubjectID) (v : Int) : Prop := Book.Valid ⟨o, v, S.own o⟩

theorem valid_of_perm {l l'} (hperm : l.Perm l') (h : Book.Valid ⟨o, v, l⟩) :
    Book.Valid ⟨o, v, l'⟩ :=
  ⟨h.subject, h.version, hperm.length_eq ▸ h.bounded, fun a ha ↦ h.normal a (hperm.mem_iff.mpr ha),
    (hperm.map _).nodup_iff.mp h.distinct, hperm.countP_eq _ ▸ h.oneDefault⟩

theorem book_valid_iff : (S.book o v).Valid ↔ Sound S o v :=
  have hperm : (S.book o v).addresses.Perm (S.own o) := List.perm_insertionSort _ _
  ⟨valid_of_perm hperm, valid_of_perm hperm.symm⟩

theorem read_of_sound (hv : S.versions o = some v) (h : Sound S o v) :
    S.read o = .ok (S.book o v) := by
  have hb := book_valid_iff.mpr h
  have hok : ¬ (o = zeroID ∨ v < 1 ∨
      ((S.book o v).addresses.any fun a ↦ a.id = zeroID) = true) := by
    rintro (hzero | hv1 | hid)
    · exact h.subject hzero
    · have hpos : 0 < v := h.version.1
      omega
    · obtain ⟨a, ha, hid⟩ := List.any_eq_true.mp hid
      exact (hb.normal a ha).2 (of_decide_eq_true hid)
  simp only [Store.read, hv, if_neg hok, Book.validate_eq_ok.mpr hb]

theorem checked_of_sound (h : Sound S o v) : checked o (S.book o v) = .ok (S.book o v) := by
  have hb := Book.validate_eq_ok.mpr (book_valid_iff.mpr h)
  rw [checked, if_neg (not_not.mpr (show (S.book o v).subjectID = o from rfl)), if_pos hb]

/-! ## What a command does to a book -/

/-- The addresses after the command. -/
def Command.result (c : Command) (generated : ID) (l : List Address) : List Address :=
  match c.operation with
  | .create => l ++ [{ id := generated, fields := c.fields, isDefault := l.isEmpty }]
  | .update => l.map fun a ↦ if a.id = c.id then { a with fields := c.fields } else a
  | .delete => l.filter fun a ↦ !decide (a.id = c.id)
  | .setDefault => l.map fun a ↦ { a with isDefault := decide (a.id = c.id) }
  | .unknown _ => l

/-- The statements of a transaction touch the rows of the owner, and make the result of the command
and the next version. -/
theorem statements_spec {b} (h : c.statements o generated b = .ok sts) {l} (hl : b.addresses.Perm l)
    (v : Option Int) :
    (∀ st ∈ sts, st.owner = o) ∧
      sts.foldl (fun l st ↦ st.onOwn l) l = c.result generated l ∧
      sts.foldl (fun v st ↦ st.onVersion v) v = v.map (· + 1) := by
  have hempty : b.addresses.isEmpty = l.isEmpty := by
    rw [Bool.eq_iff_iff, List.isEmpty_iff, List.isEmpty_iff]
    exact ⟨fun h ↦ (List.nil_perm.mp (h ▸ hl)), fun h ↦ List.perm_nil.mp (h ▸ hl)⟩
  rw [Command.statements] at h
  split at h
  · cases h
  split at h
  case h_1 hop =>
    split_ifs at h
    cases h
    simp [Statement.owner, Statement.onOwn, Statement.onVersion, Command.result, hop, hempty]
  case h_4 hop =>
    cases h
    refine ⟨by simp [Statement.owner], ?_, rfl⟩
    simp only [List.foldl_cons, List.foldl_nil, Statement.onOwn, Command.result, hop, List.map_map]
    refine List.map_congr_left fun a _ ↦ ?_
    obtain ⟨id, fields, isDefault⟩ := a
    by_cases hid : id = c.id <;> cases isDefault <;> simp [hid]
  all_goals
    rename_i hop
    cases h
    simp [Statement.owner, Statement.onOwn, Statement.onVersion, Command.result, hop]

theorem Command.validate_eq_ok (h : c.validate = .ok ()) :
    ValidVersion c.expectedVersion ∧ c.operation.isKnown = true ∧
      (c.operation = .create ∨ c.operation = .update → newFields c.fields = .ok c.fields) := by
  simp only [Command.validate, ensure_bind_eq_ok, ensure_eq_ok] at h
  exact ⟨h.1.1, h.1.2, h.2.2⟩

/-- **A command leaves a valid book.** -/
theorem Sound.statements
    (h : Sound S o v) (hc : c.validate = .ok ()) (hgenerated : generated ≠ zeroID)
    (hv : v = c.expectedVersion) (hsts : c.statements o generated (S.book o v) = .ok sts)
    (hallowed : AllowedAll S sts) :
    Book.Valid ⟨o, v + 1, c.result generated (S.own o)⟩ := by
  obtain ⟨hversion, hknown, hfields⟩ := c.validate_eq_ok hc
  have hnext : 0 < v + 1 ∧ v + 1 ≤ maxInt64 := by
    rw [ValidVersion, ← hv] at hversion
    omega
  have hlen : (S.book o v).addresses.length = (S.own o).length :=
    (List.perm_insertionSort _ _).length_eq
  rw [Command.statements] at hsts
  split at hsts
  · cases hsts
  split at hsts
  · rename_i hop
    split_ifs at hsts with hlimit
    cases hsts
    have hnew : ∀ b ∈ S.own o, b.id ≠ generated := hallowed.1.2.2.2.1
    refine ⟨h.subject, hnext, ?_, ?_, ?_, ?_⟩
    · simp only [Command.result, hop, List.length_append, List.length_singleton]
      omega
    · simp only [Command.result, hop, List.mem_append, List.mem_singleton]
      rintro a (ha | rfl)
      · exact h.normal a ha
      · exact ⟨hfields (.inl hop), hgenerated⟩
    · simp only [Command.result, hop, List.map_append, List.map_cons, List.map_nil]
      rw [List.nodup_append_comm]
      refine List.nodup_cons.mpr ⟨?_, h.distinct⟩
      simpa using fun b hb heq ↦ hnew b hb heq
    · have hone : (S.own o).countP Address.isDefault ≤ 1 := h.oneDefault
      simp only [Command.result, hop, List.countP_append, List.countP_singleton]
      split_ifs with hdefault
      · rw [List.isEmpty_iff.mp hdefault]
        simp
      · exact hone
  · rename_i hop
    have hids : (c.result generated (S.own o)).map Address.id = (S.own o).map Address.id := by
      simp only [Command.result, hop, List.map_map]
      refine List.map_congr_left fun a _ ↦ ?_
      simp only [Function.comp_apply]
      split_ifs <;> rfl
    refine ⟨h.subject, hnext, ?_, ?_, hids ▸ h.distinct, ?_⟩
    · simpa [Command.result, hop] using h.bounded
    · simp only [Command.result, hop, List.mem_map]
      rintro _ ⟨a, ha, rfl⟩
      split_ifs
      · exact ⟨hfields (.inr hop), (h.normal a ha).2⟩
      · exact h.normal a ha
    · simp only [Command.result, hop, List.countP_map]
      refine le_trans (le_of_eq (List.countP_congr fun a _ ↦ ?_)) h.oneDefault
      simp only [Function.comp_apply]
      split_ifs <;> rfl
  · rename_i hop
    have hsub : (c.result generated (S.own o)).Sublist (S.own o) := by
      simp only [Command.result, hop]
      exact List.filter_sublist
    exact ⟨h.subject, hnext, hsub.length_le.trans h.bounded,
      fun a ha ↦ h.normal a (hsub.subset ha), h.distinct.sublist (hsub.map _),
      hsub.countP_le.trans h.oneDefault⟩
  · rename_i hop
    have hids : (c.result generated (S.own o)).map Address.id = (S.own o).map Address.id := by
      simp [Command.result, hop]
    refine ⟨h.subject, hnext, ?_, ?_, hids ▸ h.distinct, ?_⟩
    · simpa [Command.result, hop] using h.bounded
    · simp only [Command.result, hop, List.mem_map]
      rintro _ ⟨a, ha, rfl⟩
      exact h.normal a ha
    · -- an identifier occurs once
      have hcount : (c.result generated (S.own o)).countP Address.isDefault =
          ((S.own o).map Address.id).count c.id := by
        simp only [Command.result, hop, List.countP_map, List.count]
        exact List.countP_congr fun a _ ↦ by simp
      rw [hcount]
      exact List.nodup_iff_count_le_one.mp h.distinct c.id
  · rename_i n hop
    simp [hop, Operation.isKnown] at hknown

end MarketMesh.User.Addresses
