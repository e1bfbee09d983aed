import MarketMesh.Lib.Text
import MarketMesh.Lib.Validation
import Mathlib.Data.Vector.Basic

/-!
# Addresses

The domain of the address book: the normal form of the fields of an address (`newFields`), and what
a book has to be like (`Book.validate`).

Three places look at the same texts: the domain when an address comes in, the constraints of the
table when it is stored, and the domain again when it is read.  `newFields_idem` and
`newFields_check` say that what has passed the first passes the other two.
-/

set_option autoImplicit false

namespace MarketMesh.User

open Text Validation

/-- The errors of the domain and of `identity`, and the failures of the store. -/
inductive Err where
  | invalid
  | notFound
  | limit
  | conflict
  | notReady
  /-- `avatar.ErrUnavailable` -/
  | unavailable
  | unauthenticated
  | forbidden
  /-- The context of the call is done. -/
  | context
  /-- A row of the store that the domain does not accept. -/
  | invalidStored
  /-- The database: a broken constraint, a broken connection, a timeout. -/
  | database
  deriving DecidableEq, Repr

abbrev ID := List.Vector UInt8 16
abbrev SubjectID := List.Vector UInt8 16

/-- The zero value of an identifier. -/
def zeroID : List.Vector UInt8 16 := List.Vector.replicate 16 0

def maxAddresses : Nat := 20

/-- `math.MaxInt64`. -/
def maxInt64 : Int := 9223372036854775807

/-! ## Fields -/

structure Fields where
  recipient : GoString
  phone : GoString
  country : GoString
  postalCode : GoString
  city : GoString
  streetHouse : GoString
  apartment : GoString
  comment : GoString
  deriving DecidableEq, Repr

/-- An item of the loop of `NewFields`. -/
structure FieldRule where
  limit : Nat
  isRequired : Bool := false
  isMultiline : Bool := false
  isPhone : Bool := false

namespace FieldRule

def recipient : FieldRule := { limit := 120, isRequired := true }
def phone : FieldRule := { limit := 32, isRequired := true, isPhone := true }
def country : FieldRule := { limit := 80, isRequired := true }
def postalCode : FieldRule := { limit := 20 }
def city : FieldRule := { limit := 120, isRequired := true }
def streetHouse : FieldRule := { limit := 240, isRequired := true }
def apartment : FieldRule := { limit := 40 }
def comment : FieldRule := { limit := 500, isMultiline := true }

def maxBytes (rule : FieldRule) : Nat := if rule.isPhone then 32 else rule.limit * 4

/-- The control characters that the field may have. -/
def allows (rule : FieldRule) (c : Char) : Bool := rule.isMultiline && (c == '\n' || c == '\t')

end FieldRule

def isDigit (c : Char) : Bool := '0' ≤ c && c ≤ '9'

def isPhoneChar (c : Char) : Bool := isDigit c || " +-.()".toList.contains c

/-- The body of the loop of `NewFields`. -/
def newField (rule : FieldRule) : GoString → Except Err GoString
  | .invalid _ => .error .invalid
  | .utf8 chars => do
    ensure (rule.isPhone = true → chars.all isPhoneChar = true) Err.invalid
    ensure ((GoString.utf8 chars).size ≤ rule.maxBytes) Err.invalid
    -- controls are rejected before trimming, so that malformed input cannot become valid
    ensure ((chars.all fun c ↦ !isControl c || rule.allows c) = true) Err.invalid
    ensure ((trimSpace chars).length ≤ rule.limit ∧ (rule.isRequired = true → trimSpace chars ≠ []))
      Err.invalid
    .ok (.utf8 (trimSpace chars))

/-- The number of digits, or nothing if there is a character that a phone number does not have. -/
def phoneDigits : GoString → Option Nat
  | .utf8 chars => if chars.all isPhoneChar then some (chars.countP isDigit) else none
  | .invalid _ => none

def newFields (f : Fields) : Except Err Fields := do
  let recipient ← newField .recipient f.recipient
  let phone ← newField .phone f.phone
  let country ← newField .country f.country
  let postalCode ← newField .postalCode f.postalCode
  let city ← newField .city f.city
  let streetHouse ← newField .streetHouse f.streetHouse
  let apartment ← newField .apartment f.apartment
  let comment ← newField .comment f.comment
  ensure ((phoneDigits phone).any (fun digits ↦ 7 ≤ digits && digits ≤ 15) = true) Err.invalid
  .ok { recipient, phone, country, postalCode, city, streetHouse, apartment, comment }

/-! ### The constraints of the table -/

/-- `char_length BETWEEN minimum AND limit AND octet_length <= maxBytes`, for a text that the
database can hold at all. -/
def ColumnCheck (minimum limit maxBytes : Nat) : GoString → Prop
  | .utf8 chars => '\x00' ∉ chars ∧ minimum ≤ chars.length ∧ chars.length ≤ limit ∧
      (GoString.utf8 chars).size ≤ maxBytes
  | .invalid _ => False

instance (minimum limit maxBytes : Nat) (value : GoString) :
    Decidable (ColumnCheck minimum limit maxBytes value) :=
  match value with
  | .utf8 _ => inferInstanceAs (Decidable (_ ∧ _ ∧ _ ∧ _))
  | .invalid _ => .isFalse id

structure Fields.Check (f : Fields) : Prop where
  recipient : ColumnCheck 1 120 480 f.recipient
  phone : ColumnCheck 1 32 32 f.phone
  country : ColumnCheck 1 80 320 f.country
  postalCode : ColumnCheck 0 20 80 f.postalCode
  city : ColumnCheck 1 120 480 f.city
  streetHouse : ColumnCheck 1 240 960 f.streetHouse
  apartment : ColumnCheck 0 40 160 f.apartment
  comment : ColumnCheck 0 500 2000 f.comment

instance (f : Fields) : Decidable f.Check :=
  decidable_of_iff
    (ColumnCheck 1 120 480 f.recipient ∧ ColumnCheck 1 32 32 f.phone ∧
      ColumnCheck 1 80 320 f.country ∧ ColumnCheck 0 20 80 f.postalCode ∧
      ColumnCheck 1 120 480 f.city ∧ ColumnCheck 1 240 960 f.streetHouse ∧
      ColumnCheck 0 40 160 f.apartment ∧ ColumnCheck 0 500 2000 f.comment)
    ⟨fun ⟨h₁, h₂, h₃, h₄, h₅, h₆, h₇, h₈⟩ ↦ ⟨h₁, h₂, h₃, h₄, h₅, h₆, h₇, h₈⟩,
      fun ⟨h₁, h₂, h₃, h₄, h₅, h₆, h₇, h₈⟩ ↦ ⟨h₁, h₂, h₃, h₄, h₅, h₆, h₇, h₈⟩⟩

/-! ### The normal form -/

variable {rule : FieldRule} {raw value : GoString} {f g : Fields}

theorem newField_eq_ok : newField rule raw = .ok value ↔ ∃ chars, raw = .utf8 chars ∧
    (rule.isPhone = true → chars.all isPhoneChar = true) ∧
    (GoString.utf8 chars).size ≤ rule.maxBytes ∧
    (chars.all fun c ↦ !isControl c || rule.allows c) = true ∧
    ((trimSpace chars).length ≤ rule.limit ∧ (rule.isRequired = true → trimSpace chars ≠ [])) ∧
    value = .utf8 (trimSpace chars) := by
  cases raw with
  | invalid => simp [newField]
  | utf8 =>
    simp only [newField, ensure_bind_eq_ok, GoString.utf8.injEq, exists_eq_left', Except.ok.injEq,
      eq_comm (a := value)]

/-- Trimming takes nothing away that the checks ask for. -/
theorem newField_idem (h : newField rule raw = .ok value) : newField rule value = .ok value := by
  obtain ⟨chars, rfl, hphone, hsize, hcontrol, hlength, rfl⟩ := newField_eq_ok.mp h
  have hmem : ∀ c ∈ trimSpace chars, c ∈ chars := (trimSpace_isInfix chars).subset
  refine newField_eq_ok.mpr ⟨trimSpace chars, rfl, fun hp ↦ ?_, ?_, ?_, ?_, ?_⟩
  · exact List.all_eq_true.mpr fun c hc ↦ List.all_eq_true.mp (hphone hp) c (hmem c hc)
  · exact (sum_utf8Size_le (trimSpace_isInfix chars)).trans hsize
  · exact List.all_eq_true.mpr fun c hc ↦ List.all_eq_true.mp hcontrol c (hmem c hc)
  · rwa [trimSpace_trimSpace]
  · rw [trimSpace_trimSpace]

theorem newField_check (h : newField rule raw = .ok value) {minimum : Nat}
    (hmin : minimum ≤ 1) (hrequired : minimum = 1 → rule.isRequired = true) :
    ColumnCheck minimum rule.limit rule.maxBytes value := by
  obtain ⟨chars, rfl, -, hsize, hcontrol, ⟨hlength, hne⟩, rfl⟩ := newField_eq_ok.mp h
  refine ⟨fun hnul ↦ ?_, ?_, hlength, (sum_utf8Size_le (trimSpace_isInfix chars)).trans hsize⟩
  · have := List.all_eq_true.mp hcontrol _ ((trimSpace_isInfix chars).subset hnul)
    simp [isControl, FieldRule.allows] at this
  · obtain rfl | rfl : minimum = 0 ∨ minimum = 1 := by omega
    · exact Nat.zero_le _
    · exact List.length_pos_iff.mpr (hne (hrequired rfl))

theorem newFields_eq_ok : newFields f = .ok g ↔
    newField .recipient f.recipient = .ok g.recipient ∧ newField .phone f.phone = .ok g.phone ∧
    newField .country f.country = .ok g.country ∧
    newField .postalCode f.postalCode = .ok g.postalCode ∧ newField .city f.city = .ok g.city ∧
    newField .streetHouse f.streetHouse = .ok g.streetHouse ∧
    newField .apartment f.apartment = .ok g.apartment ∧
    newField .comment f.comment = .ok g.comment ∧
    (phoneDigits g.phone).any (fun digits ↦ 7 ≤ digits && digits ≤ 15) = true := by
  simp only [newFields, bind_eq_ok, ensure_eq_ok, Except.ok.injEq]
  constructor
  · rintro ⟨_, h₁, _, h₂, _, h₃, _, h₄, _, h₅, _, h₆, _, h₇, _, h₈, -, hdigits, rfl⟩
    exact ⟨h₁, h₂, h₃, h₄, h₅, h₆, h₇, h₈, hdigits⟩
  · rintro ⟨h₁, h₂, h₃, h₄, h₅, h₆, h₇, h₈, hdigits⟩
    exact ⟨_, h₁, _, h₂, _, h₃, _, h₄, _, h₅, _, h₆, _, h₇, _, h₈, (), hdigits, rfl⟩

/-- **The normal form is its own normal form.** -/
theorem newFields_idem (h : newFields f = .ok g) : newFields g = .ok g := by
  obtain ⟨h₁, h₂, h₃, h₄, h₅, h₆, h₇, h₈, hdigits⟩ := newFields_eq_ok.mp h
  exact newFields_eq_ok.mpr ⟨newField_idem h₁, newField_idem h₂, newField_idem h₃,
    newField_idem h₄, newField_idem h₅, newField_idem h₆, newField_idem h₇, newField_idem h₈,
    hdigits⟩

/-- **The normal form satisfies the constraints of the table.** -/
theorem newFields_check (h : newFields f = .ok g) : g.Check := by
  obtain ⟨h₁, h₂, h₃, h₄, h₅, h₆, h₇, h₈, -⟩ := newFields_eq_ok.mp h
  exact ⟨newField_check h₁ (by decide) fun _ ↦ rfl, newField_check h₂ (by decide) fun _ ↦ rfl,
    newField_check h₃ (by decide) fun _ ↦ rfl, newField_check h₄ (by decide) nofun,
    newField_check h₅ (by decide) fun _ ↦ rfl, newField_check h₆ (by decide) fun _ ↦ rfl,
    newField_check h₇ (by decide) nofun, newField_check h₈ (by decide) nofun⟩

/-! ## Books -/

def ValidVersion (v : Int) : Prop := 0 < v ∧ v < maxInt64
  deriving Decidable

structure Address where
  id : ID
  fields : Fields
  isDefault : Bool
  deriving DecidableEq

structure Book where
  subjectID : SubjectID
  version : Int
  addresses : List Address
  deriving DecidableEq

/-- The loop of `Book.Validate`. -/
def validateAddresses : List ID → Nat → List Address → Except Err Unit
  | _, defaults, [] => ensure (defaults ≤ 1) Err.invalid
  | seen, defaults, a :: rest => do
    ensure (newFields a.fields = .ok a.fields) Err.invalid
    ensure (a.id ≠ zeroID ∧ a.id ∉ seen) Err.invalid
    validateAddresses (a.id :: seen) (if a.isDefault then defaults + 1 else defaults) rest

def Book.validate (b : Book) : Except Err Unit := do
  ensure (b.subjectID ≠ zeroID ∧ 0 < b.version ∧ b.version ≤ maxInt64 ∧
    b.addresses.length ≤ maxAddresses) Err.invalid
  validateAddresses [] 0 b.addresses

/-- What `Book.Validate` checks. -/
structure Book.Valid (b : Book) : Prop where
  subject : b.subjectID ≠ zeroID
  version : 0 < b.version ∧ b.version ≤ maxInt64
  bounded : b.addresses.length ≤ maxAddresses
  normal : ∀ a ∈ b.addresses, newFields a.fields = .ok a.fields ∧ a.id ≠ zeroID
  distinct : (b.addresses.map Address.id).Nodup
  oneDefault : b.addresses.countP Address.isDefault ≤ 1

theorem validateAddresses_eq_ok (addresses : List Address) : ∀ (seen : List ID) (defaults : Nat),
    validateAddresses seen defaults addresses = .ok () ↔
      (∀ a ∈ addresses, newFields a.fields = .ok a.fields ∧ a.id ≠ zeroID) ∧
      (addresses.map Address.id).Nodup ∧ (∀ a ∈ addresses, a.id ∉ seen) ∧
      defaults + addresses.countP Address.isDefault ≤ 1 := by
  induction addresses with
  | nil => intro seen defaults; simp [validateAddresses]
  | cons a rest ih =>
    intro seen defaults
    simp only [validateAddresses, ensure_bind_eq_ok, ih, List.forall_mem_cons, List.map_cons,
      List.nodup_cons, List.countP_cons]
    constructor
    · rintro ⟨hfields, ⟨hzero, hseen⟩, hnormal, hnodup, hrest, hdefault⟩
      refine ⟨⟨⟨hfields, hzero⟩, hnormal⟩, ⟨fun hmem ↦ ?_, hnodup⟩,
        ⟨hseen, fun b hb h ↦ hrest b hb (List.mem_cons_of_mem _ h)⟩, ?_⟩
      · obtain ⟨b, hb, heq⟩ := List.mem_map.mp hmem
        exact hrest b hb (heq ▸ List.mem_cons_self)
      · split_ifs at hdefault ⊢ <;> omega
    · rintro ⟨⟨⟨hfields, hzero⟩, hnormal⟩, ⟨hne, hnodup⟩, ⟨hseen, hrest⟩, hdefault⟩
      refine ⟨hfields, ⟨hzero, hseen⟩, hnormal, hnodup, fun b hb h ↦ ?_, ?_⟩
      · exact (List.mem_cons.mp h).elim (fun heq ↦ hne (List.mem_map.mpr ⟨b, hb, heq⟩)) (hrest b hb)
      · split_ifs at hdefault ⊢ <;> omega

theorem Book.validate_eq_ok {b : Book} : b.validate = .ok () ↔ b.Valid := by
  simp only [validate, ensure_bind_eq_ok, validateAddresses_eq_ok, Nat.zero_add]
  constructor
  · rintro ⟨⟨h₁, h₂, h₃, h₄⟩, h₅, h₆, -, h₇⟩
    exact ⟨h₁, ⟨h₂, h₃⟩, h₄, h₅, h₆, h₇⟩
  · rintro ⟨h₁, ⟨h₂, h₃⟩, h₄, h₅, h₆, h₇⟩
    exact ⟨⟨h₁, h₂, h₃, h₄⟩, h₅, h₆, fun _ _ ↦ by simp, h₇⟩

end MarketMesh.User
