import Mathlib.Algebra.GroupWithZero.Nat
import Mathlib.Order.Lattice

/-!
# Times as RFC 3339 writes them

A time is a number of nanoseconds since the beginning of the year 1, in UTC.  `format` writes the
date, the time of the day and what there is of a fraction of a second; `parse` reads such a text,
with any fraction and in any zone.  `parse_format` says that a time that was written is read back as
long as its year has four digits.
-/

set_option autoImplicit false

namespace Rfc3339

/-! ## The calendar -/

def isLeap (year : Int) : Bool :=
  year % 4 = 0 ∧ (year % 100 ≠ 0 ∨ year % 400 = 0)

/-- The days of a year before each of its months, and of the whole year. -/
def daysBefore (leap : Bool) (month : Nat) : Nat :=
  ([0, 31, 59, 90, 120, 151, 181, 212, 243, 273, 304, 334, 365][month - 1]?.getD 0) +
    if leap ∧ 3 ≤ month then 1 else 0

def daysIn (leap : Bool) (month : Nat) : Nat :=
  daysBefore leap (month + 1) - daysBefore leap month

/-- The days since the beginning of the year 1. -/
def dayNumber (year : Int) (month day : Nat) : Int :=
  365 * (year - 1) + (year - 1) / 4 - (year - 1) / 100 + (year - 1) / 400 +
    (daysBefore (isLeap year) month + (day - 1) : Nat)

/-- The year of a day and the number of the day in it: cycles of 400, 100, 4 years and years are cut
off one after the other.  The last of four is longer, or else there would be a fifth. -/
def yearDay (day : Int) : Int × Nat :=
  let rest := (day % 146097).toNat
  let hundreds := min (rest / 36524) 3
  let rest := rest - 36524 * hundreds
  let fours := rest / 1461
  let rest := rest % 1461
  let years := min (rest / 365) 3
  (400 * (day / 146097) + (100 * hundreds + 4 * fours + years : Nat) + 1, rest - 365 * years)

/-- The month and the day in it. -/
def monthDay (leap : Bool) (yearDay : Nat) : Nat × Nat :=
  let month := (List.range' 1 12).countP fun month ↦ daysBefore leap month ≤ yearDay
  (month, yearDay - daysBefore leap month + 1)

theorem monthDay_spec : ∀ leap : Bool, ∀ n < daysBefore leap 13,
    (1 ≤ (monthDay leap n).1 ∧ (monthDay leap n).1 ≤ 12) ∧
      (1 ≤ (monthDay leap n).2 ∧ (monthDay leap n).2 ≤ daysIn leap (monthDay leap n).1) ∧
      daysBefore leap (monthDay leap n).1 + ((monthDay leap n).2 - 1) = n := by
  decide +kernel

/-- What is left of some years is less than a year, and is a whole one only at the end of a leap
year. -/
theorem yearDay_spec (day : Int) :
    365 * ((yearDay day).1 - 1) + ((yearDay day).1 - 1) / 4 - ((yearDay day).1 - 1) / 100 +
        ((yearDay day).1 - 1) / 400 + (yearDay day).2 = day ∧
      (yearDay day).2 < daysBefore (isLeap (yearDay day).1) 13 := by
  dsimp only [yearDay]
  have hday : day = 146097 * (day / 146097) + (day % 146097).toNat := by omega
  have hrest : (day % 146097).toNat < 146097 := by omega
  generalize day / 146097 = cycles at hday ⊢
  generalize (day % 146097).toNat = rest at hday hrest ⊢
  -- no more than three whole centuries, and no more than three whole years
  obtain ⟨hundreds, hhundreds⟩ : ∃ n, n = min (rest / 36524) 3 := ⟨_, rfl⟩
  rw [← hhundreds]
  have hcentury : 36524 * hundreds ≤ rest ∧ hundreds ≤ 3 ∧
      (hundreds < 3 → rest < 36524 * hundreds + 36524) := by omega
  obtain ⟨fours, hfours⟩ : ∃ n, n = (rest - 36524 * hundreds) / 1461 := ⟨_, rfl⟩
  obtain ⟨last, hlast⟩ : ∃ n, n = (rest - 36524 * hundreds) % 1461 := ⟨_, rfl⟩
  rw [← hfours, ← hlast]
  have hfour : rest = 36524 * hundreds + 1461 * fours + last ∧ last < 1461 ∧ fours ≤ 24 ∧
      (fours = 24 → hundreds < 3 → last < 1460) := by omega
  obtain ⟨years, hyears⟩ : ∃ n, n = min (last / 365) 3 := ⟨_, rfl⟩
  rw [← hyears]
  have hyear : 365 * years ≤ last ∧ years ≤ 3 ∧ last - 365 * years ≤ 365 ∧
      (last - 365 * years = 365 → years = 3 ∧ last = 1460) := by omega
  clear hhundreds hfours hlast hyears
  obtain ⟨year, hyear'⟩ : ∃ year : Int,
      year = 400 * cycles + (100 * hundreds + 4 * fours + years : Nat) := ⟨_, rfl⟩
  rw [← hyear', Int.add_sub_cancel]
  constructor
  · have hquotients : year / 4 = 100 * cycles + 25 * hundreds + fours ∧
        year / 100 = 4 * cycles + hundreds ∧ year / 400 = cycles := by omega
    omega
  · have hlength (leap : Bool) : daysBefore leap 13 = if leap then 366 else 365 := by
      revert leap
      decide
    rw [hlength]
    unfold isLeap
    split <;> rename_i hleap <;> rw [decide_eq_true_eq] at hleap <;> omega

/-! ## The text -/

/-- A number with at least so many digits. -/
def number (width n : Nat) : List Char :=
  (Nat.toDigits 10 n).leftpad width '0'

/-- The digits of a fraction up to the last one that is not zero. -/
def fraction : Nat → Nat → List Char
  | 0, _ => []
  | width + 1, n =>
    if n = 0 then [] else Nat.digitChar (n / 10 ^ width) :: fraction width (n % 10 ^ width)

def format (time : Int) : List Char :=
  let nanos := (time % 1000000000).toNat
  let seconds := time / 1000000000
  let clock := (seconds % 86400).toNat
  let (year, yearDay) := yearDay (seconds / 86400)
  let (month, day) := monthDay (isLeap year) yearDay
  (if year < 0 then ['-'] else []) ++ number 4 year.natAbs ++ '-' :: number 2 month ++
    '-' :: number 2 day ++ 'T' :: number 2 (clock / 3600) ++ ':' :: number 2 (clock / 60 % 60) ++
    ':' :: number 2 (clock % 60) ++ (if nanos = 0 then [] else '.' :: fraction 9 nanos) ++ ['Z']

/-- A number of so many digits between two bounds, and the rest of the text. -/
def readNumber (width low high : Nat) (s : List Char) : Option (Nat × List Char) :=
  let digits := s.take width
  let n := Nat.ofDigitChars 10 digits 0
  if digits.length = width ∧ digits.all Char.isDigit ∧ low ≤ n ∧ n ≤ high then
    some (n, s.drop width)
  else none

def readChar (c : Char) (s : List Char) : Option (List Char) :=
  if s.head? = some c then some s.tail else none

/-- The value of the first digits; further ones do not count. -/
def places : Nat → List Char → Nat
  | width + 1, c :: s => (c.toNat - '0'.toNat) * 10 ^ width + places width s
  | _, _ => 0

/-- The nanoseconds, if there is a point with digits after it. -/
def readFraction (s : List Char) : Nat × List Char :=
  let digits := s.tail.takeWhile Char.isDigit
  if s.head? = some '.' ∧ digits ≠ [] then (places 9 digits, s.tail.dropWhile Char.isDigit)
  else (0, s)

/-- The seconds that a zone is ahead. -/
def readZone (s : List Char) : Option Int :=
  if s = ['Z'] then some 0
  else do
    let (hour, rest) ← readNumber 2 0 23 s.tail
    let rest ← readChar ':' rest
    let (minute, rest) ← readNumber 2 0 59 rest
    let seconds : Int := (hour * 60 + minute : Nat) * 60
    if rest = [] ∧ s.head? = some '+' then some seconds
    else if rest = [] ∧ s.head? = some '-' then some (-seconds)
    else none

def parse (s : List Char) : Option Int := do
  let (year, s) ← readNumber 4 0 9999 s
  let s ← readChar '-' s
  let (month, s) ← readNumber 2 1 12 s
  let s ← readChar '-' s
  let (day, s) ← readNumber 2 1 (daysIn (isLeap year) month) s
  let s ← readChar 'T' s
  let (hour, s) ← readNumber 2 0 23 s
  let s ← readChar ':' s
  let (minute, s) ← readNumber 2 0 59 s
  let s ← readChar ':' s
  let (second, s) ← readNumber 2 0 59 s
  let (nanos, s) := readFraction s
  let zone ← readZone s
  let seconds := dayNumber year month day * 86400 +
    (hour * 3600 + minute * 60 + second : Nat) - zone
  some (seconds * 1000000000 + nanos)

/-! ## Reading what was written -/

theorem readNumber_number {width n low high : Nat} (s : List Char) (hwidth : 0 < width)
    (hn : n < 10 ^ width) (hlow : low ≤ n) (hhigh : n ≤ high) :
    readNumber width low high (number width n ++ s) = some (n, s) := by
  have hlength : (number width n).length = width := by
    rw [number, List.length_leftpad]
    exact max_eq_left ((Nat.length_toDigits_le_iff (by decide) hwidth).mpr hn)
  have hvalue : Nat.ofDigitChars 10 (number width n) 0 = n := by
    rw [number, List.leftpad, Nat.ofDigitChars_append, Nat.ofDigitChars_replicate_zero,
      Nat.mul_zero, Nat.ofDigitChars_ten_toDigits]
  have hdigits : (number width n).all Char.isDigit = true := by
    rw [number, List.leftpad, List.all_append, Bool.and_eq_true, List.all_eq_true, List.all_eq_true]
    refine ⟨fun c hc ↦ ?_, fun c hc ↦ Nat.isDigit_of_mem_toDigits (by decide) (le_refl 10) hc⟩
    rw [List.eq_of_mem_replicate hc]
    rfl
  rw [readNumber, List.take_left' hlength, List.drop_left' hlength, hvalue]
  exact if_pos ⟨hlength, hdigits, hlow, hhigh⟩

@[simp]
theorem readChar_cons (c : Char) (s : List Char) : readChar c (c :: s) = some s := if_pos rfl

theorem places_fraction : ∀ {width n : Nat}, n < 10 ^ width →
    places width (fraction width n) = n ∧ (fraction width n).all Char.isDigit
  | 0, n, h => by simp_all [places, fraction]
  | width + 1, n, h => by
    rw [fraction]
    split
    · simp_all [places]
    · have hdigit : n / 10 ^ width < 10 := by
        rw [Nat.div_lt_iff_lt_mul (Nat.pow_pos (by decide)), Nat.mul_comm]
        exact h
      obtain ⟨hplaces, hdigits⟩ := places_fraction (Nat.mod_lt n (Nat.pow_pos (n := width)
        (show 0 < 10 by decide)))
      rw [places, hplaces, Nat.toNat_digitChar_of_lt_ten hdigit, List.all_cons, hdigits,
        Nat.isDigit_digitChar, decide_eq_true hdigit]
      refine ⟨?_, rfl⟩
      rw [show 48 + n / 10 ^ width - '0'.toNat = n / 10 ^ width from Nat.add_sub_cancel_left ..]
      exact Nat.div_add_mod' n _

theorem readFraction_fraction {nanos : Nat} (h : nanos < 10 ^ 9) :
    readFraction ((if nanos = 0 then [] else '.' :: fraction 9 nanos) ++ ['Z']) =
      (nanos, ['Z']) := by
  split
  · rename_i hzero
    rw [hzero]
    rfl
  · rename_i hpos
    obtain ⟨hplaces, hdigits⟩ := places_fraction h
    rw [List.all_eq_true] at hdigits
    have hne : fraction 9 nanos ≠ [] := by simp [fraction, hpos]
    have htake : (fraction 9 nanos ++ ['Z']).takeWhile Char.isDigit = fraction 9 nanos := by
      rw [List.takeWhile_append_of_pos hdigits]
      exact List.append_nil _
    have hdrop : (fraction 9 nanos ++ ['Z']).dropWhile Char.isDigit = ['Z'] := by
      rw [List.dropWhile_append_of_pos hdigits]
      rfl
    rw [readFraction, List.cons_append, List.head?_cons, List.tail_cons, htake, hdrop,
      if_pos ⟨rfl, hne⟩, hplaces]

/-- The beginning of the year 10000. -/
def limit : Int := dayNumber 10000 1 1 * 86400 * 1000000000

/-- **A time that was written is read back.** -/
theorem parse_format {time : Int} (h : 0 ≤ time) (hlimit : time < limit) :
    parse (format time) = some time := by
  replace hlimit : time < 3652059 * 86400 * 1000000000 := hlimit
  dsimp only [format]
  have hday := yearDay_spec (time / 1000000000 / 86400)
  generalize yearDay (time / 1000000000 / 86400) = y at hday ⊢
  obtain ⟨year, n⟩ := y
  dsimp only at hday ⊢
  obtain ⟨hday, hn⟩ := hday
  obtain ⟨⟨hmonth, hmonth'⟩, ⟨hdate, hdate'⟩, hnumber⟩ := monthDay_spec (isLeap year) n hn
  have hn' : n ≤ 365 := Nat.le_of_lt_succ (hn.trans_le ((by decide : ∀ b, daysBefore b 13 ≤ 366) _))
  generalize monthDay (isLeap year) n = m at hmonth hmonth' hdate hdate' hnumber ⊢
  obtain ⟨month, date⟩ := m
  dsimp only at hmonth hmonth' hdate hdate' hnumber ⊢
  have hdays : ∀ leap, ∀ month ≤ 12, daysIn leap month ≤ 31 := by decide
  replace hdays := hdays (isLeap year) month hmonth'
  -- the leap days of `hday` are multiples of one another, so that the year is bounded linearly
  have hyear : 1 ≤ year ∧ year ≤ 9999 := by
    have hcenturies : (year - 1) / 100 = (year - 1) / 4 / 25 := by omega
    have hcycles : (year - 1) / 400 = (year - 1) / 100 / 4 := by omega
    omega
  obtain ⟨year, rfl⟩ := Int.eq_ofNat_of_zero_le (show 0 ≤ year by omega)
  rw [if_neg (by omega), List.nil_append, Int.natAbs_natCast]
  have hclock : (time / 1000000000 % 86400).toNat < 86400 := by omega
  have htime : time = (time / 1000000000 / 86400 * 86400 + (time / 1000000000 % 86400).toNat) *
      1000000000 + (time % 1000000000).toNat := by omega
  have hnanos : (time % 1000000000).toNat < 10 ^ 9 := by omega
  generalize (time / 1000000000 % 86400).toNat = clock at hclock htime ⊢
  generalize (time % 1000000000).toNat = nanos at hnanos htime ⊢
  have hzone : readZone ['Z'] = some 0 := rfl
  -- `Option.bind_some` would be tried under the congruence of `bind` at every depth
  have hbind {α β : Type} (a : α) (f : α → Option β) : (some a >>= f) = f a := rfl
  simp (disch := omega) only [List.append_assoc, List.cons_append, parse, readNumber_number,
    readChar_cons, readFraction_fraction hnanos, hzone, hbind]
  rw [dayNumber, hnumber, hday, Option.some_inj, htime]
  omega

example : format (dayNumber 2024 2 29 * 86400 * 1000000000 + 120) =
    "2024-02-29T00:00:00.00000012Z".toList := by
  decide +kernel

end Rfc3339
