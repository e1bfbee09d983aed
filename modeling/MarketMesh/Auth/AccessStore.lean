import Mathlib.Data.Int.ConditionallyCompleteOrder
import Mathlib.Data.List.MinMax
import Mathlib.Order.ConditionallyCompleteLattice.Basic
import MarketMesh.Auth.Service
import MarketMesh.Lib.Rfc3339

/-!
# The access states in Redis

The script of `Put` compares versions by their decimal forms: the longer one is the larger, and of
two of the same length the one that comes later in the order of strings.  `outranks_decimal` says
that this is the order of the integers, so that a run of the script keeps the first command of the
highest version.  `Get` reads the fields of the hash back.
-/

set_option autoImplicit false

namespace MarketMesh.Auth

/-! ## Decimal forms -/

variable {l m : List Char} {a b : Nat}

theorem toNat_of_isDigit {c : Char} (h : c.isDigit = true) :
    '0'.toNat ≤ c.toNat ∧ c.toNat ≤ '0'.toNat + 9 := by
  simp only [Char.isDigit, Bool.and_eq_true, decide_eq_true_eq] at h
  exact h

/-- Digits of the same number are in the order of their values; once one number is ahead, no digit
brings the other one back. -/
theorem ofDigitChars_lt (hl : ∀ c ∈ l, c.isDigit = true) (hlen : m.length = l.length)
    (h : a < b ∨ a = b ∧ l < m) : Nat.ofDigitChars 10 l a < Nat.ofDigitChars 10 m b := by
  induction l generalizing m a b with
  | nil =>
    rw [List.length_eq_zero_iff.mp hlen] at h ⊢
    exact h.resolve_right fun h ↦ List.not_lt_nil [] h.2
  | cons c l ih =>
    obtain ⟨d, m, rfl⟩ := List.exists_cons_of_length_eq_add_one hlen
    obtain ⟨hc, hl⟩ := List.forall_mem_cons.mp hl
    have := toNat_of_isDigit hc
    rw [Nat.ofDigitChars_cons, Nat.ofDigitChars_cons]
    refine ih hl (Nat.succ.inj hlen) ?_
    obtain h | ⟨rfl, h⟩ := h
    · exact .inl (by omega)
    · obtain hcd | ⟨rfl, hlm⟩ := List.cons_lt_cons_iff.mp h
      · have : c.toNat < d.toNat := hcd
        exact .inl (by omega)
      · exact .inr ⟨rfl, hlm⟩

/-- The comparison of the script: the first string is the later version. -/
def Outranks (held given : List Char) : Prop :=
  given.length < held.length ∨ (held.length = given.length ∧ given < held)

theorem isDigit_of_mem_toDigits (n : Nat) : ∀ c ∈ Nat.toDigits 10 n, c.isDigit = true :=
  fun _ hc ↦ Nat.isDigit_of_mem_toDigits (by decide) (le_refl 10) hc

theorem decimal_natCast (n : Nat) : decimal n = Nat.toDigits 10 n := by
  rw [decimal, show toString (n : Int) = n.repr from rfl, Nat.toList_repr]

theorem lt_of_outranks (h : Outranks (decimal a) (decimal b)) : b < a := by
  rw [decimal_natCast, decimal_natCast] at h
  obtain h | ⟨hlen, h⟩ := h
  · have hlength (n : Nat) : (Nat.toDigits 10 n).length ≤ (Nat.toDigits 10 b).length ↔
        n < 10 ^ (Nat.toDigits 10 b).length :=
      Nat.length_toDigits_le_iff (by decide) Nat.length_toDigits_pos
    exact ((hlength b).mp le_rfl).trans_le (not_lt.mp fun ha ↦ h.not_ge ((hlength a).mpr ha))
  · have := ofDigitChars_lt (isDigit_of_mem_toDigits b) hlen (.inr ⟨@rfl _ 0, h⟩)
    rwa [Nat.ofDigitChars_ten_toDigits, Nat.ofDigitChars_ten_toDigits] at this

theorem decimal_inj (h : decimal a = decimal b) : a = b := by
  rw [decimal_natCast, decimal_natCast] at h
  rw [← Nat.ofDigitChars_ten_toDigits (n := a), h, Nat.ofDigitChars_ten_toDigits]

/-- **The order of the decimal forms is the order of the integers.** -/
theorem outranks_decimal : Outranks (decimal a) (decimal b) ↔ b < a := by
  refine ⟨lt_of_outranks, fun h ↦ ?_⟩
  by_contra hnot
  rw [Outranks, not_or, not_and, not_lt] at hnot
  obtain hlt | heq := hnot.1.lt_or_eq
  · exact absurd (lt_of_outranks (.inl hlt)) (not_lt.mpr h.le)
  · refine h.ne' (decimal_inj (List.le_antisymm (hnot.2 heq) fun hlt ↦ ?_))
    exact absurd (lt_of_outranks (.inr ⟨heq.symm, hlt⟩)) (not_lt.mpr h.le)

/-! ## The commands of one session -/

/-- A call of `Put`. -/
structure Put where
  record : Record
  digest : Digest
  now : Time

def Put.access (p : Put) : Access where
  digest := p.digest
  version := p.record.version
  expiresAt := p.record.accessExpiresAt

/-- The call on the entry of its session: the new entry, and whether it succeeds. -/
def Put.run (p : Put) (entry : Option Access) : Option Access × Bool :=
  if Service.Puttable p.record p.now then putScript entry p.access else (entry, false)

/-- The entry after some calls. -/
def runPuts (puts : List Put) : Option Access :=
  puts.foldl (fun entry p ↦ (p.run entry).1) none

/-! ## What is stored -/

/-- The fields of the hash of a session. -/
structure Fields where
  version : List Char
  digest : Bytes
  expiresAt : List Char

def Access.fields (a : Access) : Fields where
  version := decimal a.version
  digest := encodeHex a.digest.toList
  expiresAt := Rfc3339.format a.expiresAt

def parseUint (s : List Char) : Option Nat :=
  if s ≠ [] ∧ s.all Char.isDigit then some (Nat.ofDigitChars 10 s 0) else none

/-- `strconv.ParseInt` to the base 10 with 64 bits. -/
def parseInt (s : List Char) : Option Int :=
  match s with
  | '-' :: s => ((parseUint s).filter fun n ↦ n ≤ 2 ^ 63).map fun n ↦ -(n : Int)
  | '+' :: s | s => ((parseUint s).filter fun n ↦ n < 2 ^ 63).map Int.ofNat

inductive GetError where
  | invalidSession
  | unavailable

/-- `Get` of the hash of a session. -/
def getFields : Option Fields → Except GetError Access
  | none => .error .invalidSession
  | some fields =>
    match parseInt fields.version, decodeHex fields.digest, Rfc3339.parse fields.expiresAt with
    | some version, some digest, some expiresAt =>
      if h : 0 < version ∧ digest.length = 32 ∧ expiresAt ≠ 0 then
        .ok { digest := ⟨digest, h.2.1⟩, version := version, expiresAt := expiresAt }
      else .error .unavailable
    | _, _, _ => .error .unavailable

/-! ## The last state -/

theorem putScript_some {old new} (hold : 0 < old.version) (hnew : 0 < new.version) :
    putScript (some old) new =
      if old.version < new.version then (some new, true) else (some old, decide (old = new)) := by
  obtain ⟨digest, _, expiresAt⟩ := old
  obtain ⟨digest', _, expiresAt'⟩ := new
  obtain ⟨a, rfl⟩ := Int.eq_ofNat_of_zero_le hold.le
  obtain ⟨b, rfl⟩ := Int.eq_ofNat_of_zero_le hnew.le
  have houtranks := @outranks_decimal a b
  rw [Outranks] at houtranks
  simp only [putScript, houtranks, Access.mk.injEq, Int.ofNat_lt, Int.natCast_inj]
  obtain hlt | rfl | hlt := lt_trichotomy a b
  · rw [if_neg hlt.not_gt, if_neg fun h ↦ hlt.ne (decimal_inj h), if_pos hlt]
  · simp
  · simp [hlt, hlt.not_gt, hlt.ne']

/-- The states that were sent to Redis. -/
def sent (puts : List Put) : List Access :=
  (puts.filter fun p ↦ Service.Puttable p.record p.now).map Put.access

theorem version_pos {puts a} (h : a ∈ sent puts) : 0 < a.version := by
  obtain ⟨p, hp, rfl⟩ := List.mem_map.mp h
  exact (of_decide_eq_true (List.mem_filter.mp hp).2).1.2.2.1

theorem sent_concat (puts : List Put) (p : Put) : sent (puts ++ [p]) =
    if Service.Puttable p.record p.now then sent puts ++ [p.access] else sent puts := by
  rw [sent, List.filter_append, List.map_append, List.filter_singleton, ← sent]
  split <;> simp [*]

/-- A call on the first state of the highest version leaves the first one of those and its own, and
succeeds if that is its own. -/
theorem run_argmax (puts : List Put) (p : Put) : p.run ((sent puts).argmax Access.version) =
    ((sent (puts ++ [p])).argmax Access.version, decide (Service.Puttable p.record p.now ∧
      (sent (puts ++ [p])).argmax Access.version = some p.access)) := by
  rw [Put.run, sent_concat]
  split
  · rename_i hp
    rw [List.argmax_concat]
    cases hmax : (sent puts).argmax Access.version with
    | none => simp [putScript, hp]
    | some old =>
      rw [putScript_some (version_pos (List.argmax_mem hmax)) hp.1.2.2.1]
      dsimp only
      split <;> simp [hp]
  · rename_i hp
    simp [hp]

theorem runPuts_eq (puts : List Put) : runPuts puts = (sent puts).argmax Access.version := by
  induction puts using List.reverseRecOn with
  | nil => rfl
  | append_singleton puts p ih =>
    have hstep : runPuts (puts ++ [p]) = (p.run (runPuts puts)).1 := List.foldl_concat ..
    rw [hstep, ih, run_argmax]

theorem parseInt_decimal {n : Nat} (h : n < 2 ^ 63) : parseInt (decimal n) = some (n : Int) := by
  have hdigits := isDigit_of_mem_toDigits n
  have huint : parseUint (Nat.toDigits 10 n) = some n := by
    rw [parseUint, if_pos ⟨Nat.toDigits_ne_nil, List.all_eq_true.mpr hdigits⟩,
      Nat.ofDigitChars_ten_toDigits]
  rw [decimal_natCast, parseInt, huint, Option.filter_some, if_pos (by simpa using h)]
  · rfl
  · intro s hs
    exact absurd (hdigits '-' (hs ▸ List.mem_cons_self)) (by decide)
  · intro s hs
    exact absurd (hdigits '+' (hs ▸ List.mem_cons_self)) (by decide)

/-- **The access states only move forward.**  The comparison of the script is the order of the
versions, the calls leave the first state of the highest version, a call succeeds just when its
state is held afterwards, and `Get` returns what was put. -/
theorem put_monotone :
    (∀ a b : Nat, Outranks (decimal a) (decimal b) ↔ b < a) ∧
    ∀ puts : List Put, runPuts puts = (sent puts).argmax Access.version ∧
      (∀ p : Put, (p.run (runPuts puts)).2 = true ↔
        Service.Puttable p.record p.now ∧ (p.run (runPuts puts)).1 = some p.access) ∧
      ((∀ p ∈ puts, p.record.version < 2 ^ 63 ∧ 0 ≤ p.now ∧
          p.record.accessExpiresAt < Rfc3339.limit) →
        getFields ((runPuts puts).map Access.fields) =
          (runPuts puts).elim (.error .invalidSession) .ok) := by
  refine ⟨fun _ _ ↦ outranks_decimal, fun puts ↦ ?_⟩
  rw [runPuts_eq]
  refine ⟨rfl, fun p ↦ by rw [run_argmax, decide_eq_true_eq], fun h ↦ ?_⟩
  cases hmax : (sent puts).argmax Access.version with
  | none => rfl
  | some a =>
    have hpos := version_pos (List.argmax_mem hmax)
    obtain ⟨p, hp, rfl⟩ := List.mem_map.mp (List.argmax_mem hmax)
    obtain ⟨hp, hput⟩ := List.mem_filter.mp hp
    obtain ⟨hversion, hnow, hlimit⟩ := h p hp
    have hexpires : 0 < p.record.accessExpiresAt := hnow.trans_lt (of_decide_eq_true hput).2.1
    obtain ⟨n, hn⟩ := Int.eq_ofNat_of_zero_le hpos.le
    have hint : parseInt (decimal p.access.version) = some p.access.version := by
      rw [hn, parseInt_decimal]
      exact Int.ofNat_lt.mp (hn ▸ hversion)
    have hdecode := decodeHex_encodeHex p.access.digest.toList
    have hparse : Rfc3339.parse (Rfc3339.format p.access.expiresAt) = some p.access.expiresAt :=
      Rfc3339.parse_format hexpires.le hlimit
    simp only [Option.map_some, getFields, Access.fields, hint, hdecode, hparse]
    rw [dif_pos ⟨hpos, List.Vector.toList_length _, hexpires.ne'⟩]
    rfl

/-- A call for a session on 17 November 2026, 10:00; what it puts expires some nanoseconds after
five minutes. -/
def samplePut (version : Int) (digest : UInt8) : Put :=
  let now := Rfc3339.dayNumber 2026 11 17 * 86400 * second + 36000 * second
  { record :=
      { id := List.Vector.replicate 16 1
        subjectID := List.Vector.replicate 16 2
        version := version
        createdAt := now
        accessExpiresAt := now + 300 * second + 120
        refreshExpiresAt := now + 3600 * second
        expiresAt := now + 3600 * second }
    digest := List.Vector.replicate 32 digest
    now := now }

/-- The command of version 10 is kept, though `"9"` is the later string. -/
theorem put_monotone_sample :
    let puts := [samplePut 9 1, samplePut 10 2, samplePut 9 3, samplePut 10 4]
    runPuts puts = some (samplePut 10 2).access ∧
      getFields ((runPuts puts).map Access.fields) = .ok (samplePut 10 2).access := by
  intro puts
  have hrun : runPuts puts = some (samplePut 10 2).access := by decide +kernel
  have hget := (put_monotone.2 puts).2.2 (by decide +kernel)
  rw [hrun] at hget ⊢
  exact ⟨rfl, hget⟩

end MarketMesh.Auth
