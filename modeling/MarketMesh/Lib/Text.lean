import Mathlib.Algebra.GroupWithZero.Nat
import Mathlib.Data.List.DropRight

/-!
# Texts as Go sees them

A string of Go is a sequence of bytes.  `range` and the functions of `unicode/utf8` and `strings`
read it as characters, and nothing else than that it is not UTF-8 is ever asked of a string that is
not.
-/

set_option autoImplicit false

namespace Text

/-- A string of Go: its characters, or its bytes if they are not UTF-8. -/
inductive GoString where
  | utf8 (chars : List Char)
  | invalid (bytes : List UInt8)
  deriving DecidableEq, Repr

/-- `len`. -/
def GoString.size : GoString → Nat
  | .utf8 chars => (chars.map Char.utf8Size).sum
  | .invalid bytes => bytes.length

/-- `unicode.IsSpace`: the characters with the property `White_Space`. -/
def isSpace (c : Char) : Bool :=
  c.toNat ∈ [0x09, 0x0a, 0x0b, 0x0c, 0x0d, 0x20, 0x85, 0xa0, 0x1680, 0x2028, 0x2029, 0x202f, 0x205f,
    0x3000] ∨ 0x2000 ≤ c.toNat ∧ c.toNat ≤ 0x200a

/-- `unicode.IsControl`. -/
def isControl (c : Char) : Bool := c.toNat < 0x20 ∨ 0x7f ≤ c.toNat ∧ c.toNat ≤ 0x9f

/-- `strings.TrimSpace`. -/
def trimSpace (chars : List Char) : List Char := (chars.dropWhile isSpace).rdropWhile isSpace

theorem trimSpace_isInfix (chars : List Char) : trimSpace chars <:+: chars :=
  (List.rdropWhile_prefix isSpace _).isInfix.trans (List.dropWhile_suffix isSpace).isInfix

/-- A text without blanks at its ends stays as it is. -/
theorem trimSpace_trimSpace (chars : List Char) :
    trimSpace (trimSpace chars) = trimSpace chars := by
  -- the first character of a trimmed text is the first that is not a blank
  have hfirst : (trimSpace chars).dropWhile isSpace = trimSpace chars := by
    rw [List.dropWhile_eq_self_iff]
    intro hpos
    have hpre : trimSpace chars <+: chars.dropWhile isSpace := List.rdropWhile_prefix isSpace _
    have hlen := Nat.lt_of_lt_of_le hpos hpre.length_le
    have hhead := List.dropWhile_get_zero_not isSpace chars hlen
    rwa [List.get_eq_getElem, ← hpre.getElem hpos] at hhead
  rw [trimSpace, hfirst, trimSpace, List.rdropWhile_idempotent]

theorem sum_utf8Size_le {chars chars' : List Char} (h : chars <:+: chars') :
    (chars.map Char.utf8Size).sum ≤ (chars'.map Char.utf8Size).sum := by
  obtain ⟨before, after, rfl⟩ := h
  simp only [List.map_append, List.sum_append]
  omega

end Text
