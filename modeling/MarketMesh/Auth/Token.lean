import MarketMesh.Auth.Session

/-!
# Opaque tokens

A token is `mm1.`, the identifier of its session in hexadecimal, a dot, and a secret of 32 bytes in
the unpadded URL alphabet of base64.  Strings are lists of bytes.
-/

set_option autoImplicit false

namespace MarketMesh.Auth

abbrev Bytes := List UInt8

/-! ## Hexadecimal -/

def hexDigit (n : UInt8) : UInt8 :=
  if n < 10 then 48 + n else 87 + n

def encodeHex (bytes : Bytes) : Bytes :=
  bytes.flatMap fun b ↦ [hexDigit (b / 16), hexDigit (b % 16)]

/-- The value of a digit; capital letters are accepted. -/
def fromHexDigit (c : UInt8) : Option UInt8 :=
  if 48 ≤ c ∧ c ≤ 57 then some (c - 48)
  else if 97 ≤ c ∧ c ≤ 102 then some (c - 87)
  else if 65 ≤ c ∧ c ≤ 70 then some (c - 55)
  else none

def decodeHex : Bytes → Option Bytes
  | [] => some []
  | [_] => none
  | c :: d :: rest => do
    let high ← fromHexDigit c
    let low ← fromHexDigit d
    let bytes ← decodeHex rest
    some ((16 * high + low) :: bytes)

theorem fromHexDigit_hexDigit :
    ∀ n : Fin 16, fromHexDigit (hexDigit (.ofNat n)) = some (.ofNat n) := by
  decide

theorem decodeHex_encodeHex (bytes : Bytes) : decodeHex (encodeHex bytes) = some bytes := by
  induction bytes with
  | nil => rfl
  | cons b bytes ih =>
    have hlt : b.toNat < 256 := b.toNat_lt
    have hhigh := fromHexDigit_hexDigit ⟨b.toNat / 16, by omega⟩
    have hlow := fromHexDigit_hexDigit ⟨b.toNat % 16, by omega⟩
    have hdiv : b / 16 = .ofNat (b.toNat / 16) := by
      rw [← UInt8.toNat_inj, UInt8.toNat_div, UInt8.toNat_ofNat']
      change b.toNat / 16 = b.toNat / 16 % 256
      omega
    have hmod : b % 16 = .ofNat (b.toNat % 16) := by
      rw [← UInt8.toNat_inj, UInt8.toNat_mod, UInt8.toNat_ofNat']
      change b.toNat % 16 = b.toNat % 16 % 256
      omega
    have hsum : 16 * (b / 16) + b % 16 = b := by
      rw [← UInt8.toNat_inj]
      simp only [UInt8.toNat_add, UInt8.toNat_mul, UInt8.toNat_div, UInt8.toNat_mod,
        UInt8.reduceToNat]
      omega
    change decodeHex (hexDigit (b / 16) :: hexDigit (b % 16) :: encodeHex bytes) = _
    rw [← hdiv] at hhigh
    rw [← hmod] at hlow
    simp only [decodeHex, hhigh, hlow, ih, Option.bind_eq_bind, Option.bind_some, hsum]

theorem length_encodeHex (bytes : Bytes) : (encodeHex bytes).length = 2 * bytes.length := by
  induction bytes with
  | nil => rfl
  | cons b bytes ih =>
    change (encodeHex bytes).length + 1 + 1 = _
    rw [ih, List.length_cons]
    omega

theorem dot_notMem_encodeHex (bytes : Bytes) : 46 ∉ encodeHex bytes := by
  have hd := decodeHex_encodeHex bytes
  generalize encodeHex bytes = v at hd
  fun_induction decodeHex v generalizing bytes with
  | case1 => simp
  | case2 => cases hd
  | case3 c d rest ih =>
    simp only [Option.bind_eq_bind, Option.bind_eq_some_iff] at hd
    obtain ⟨high, hc, low, hl, bs, hr, -⟩ := hd
    simp only [List.mem_cons, not_or]
    refine ⟨?_, ?_, ih _ hr⟩
    · rintro rfl
      cases hc
    · rintro rfl
      cases hl

/-! ## Base64, URL alphabet, without padding -/

def base64Digit (n : Nat) : UInt8 :=
  if n < 26 then .ofNat (65 + n)
  else if n < 52 then .ofNat (71 + n)
  else if n < 62 then .ofNat (n - 4)
  else if n = 62 then 45
  else 95

def encodeBase64 : Bytes → Bytes
  | [] => []
  | [a] =>
    let n := a.toNat * 16
    [base64Digit (n / 64), base64Digit (n % 64)]
  | [a, b] =>
    let n := a.toNat * 1024 + b.toNat * 4
    [base64Digit (n / 4096), base64Digit (n / 64 % 64), base64Digit (n % 64)]
  | a :: b :: c :: rest =>
    let n := a.toNat * 65536 + b.toNat * 256 + c.toNat
    base64Digit (n / 262144) :: base64Digit (n / 4096 % 64) :: base64Digit (n / 64 % 64) ::
      base64Digit (n % 64) :: encodeBase64 rest

def fromBase64Digit (c : UInt8) : Option Nat :=
  if 65 ≤ c ∧ c ≤ 90 then some (c.toNat - 65)
  else if 97 ≤ c ∧ c ≤ 122 then some (c.toNat - 71)
  else if 48 ≤ c ∧ c ≤ 57 then some (c.toNat + 4)
  else if c = 45 then some 62
  else if c = 95 then some 63
  else none

/-- Digits to bytes; a strict decoder wants the bits that are left over to be zero. -/
def decodeDigits : List Nat → Option Bytes
  | [] => some []
  | [_] => none
  | [w, x] =>
    let n := w * 64 + x
    if n % 16 = 0 then some [.ofNat (n / 16)] else none
  | [w, x, y] =>
    let n := w * 4096 + x * 64 + y
    if n % 4 = 0 then some [.ofNat (n / 1024), .ofNat (n / 4 % 256)] else none
  | w :: x :: y :: z :: rest => do
    let n := w * 262144 + x * 4096 + y * 64 + z
    let bytes ← decodeDigits rest
    some (.ofNat (n / 65536) :: .ofNat (n / 256 % 256) :: .ofNat (n % 256) :: bytes)

/-- The strict decoder; line breaks in the input are skipped. -/
def decodeBase64 (value : Bytes) : Option Bytes := do
  let digits ← (value.filter fun c ↦ c ≠ 10 ∧ c ≠ 13).mapM fromBase64Digit
  decodeDigits digits

/-- No digit is a line break or a dot. -/
theorem base64Digit_notMem : ∀ n < 64, base64Digit n ∉ [10, 13, 46] := by
  decide +kernel

theorem fromBase64Digit_eq_some {c} {n : Nat} :
    fromBase64Digit c = some n ↔ n < 64 ∧ c = base64Digit n := by
  constructor
  · have hall : ∀ c < 256, ∀ n ∈ fromBase64Digit (.ofNat c), n < 64 ∧ .ofNat c = base64Digit n := by
      decide +kernel
    have hc := hall c.toNat c.toNat_lt
    rw [UInt8.ofNat_toNat] at hc
    exact hc n
  · have hall : ∀ n < 64, fromBase64Digit (base64Digit n) = some n := by decide +kernel
    rintro ⟨hn, rfl⟩
    exact hall n hn

theorem mapM_fromBase64Digit {v : Bytes} {ds : List Nat} :
    v.mapM fromBase64Digit = some ds ↔ (∀ d ∈ ds, d < 64) ∧ v = ds.map base64Digit := by
  induction v generalizing ds with
  | nil => cases ds <;> simp
  | cons c v ih =>
    simp only [List.mapM_cons, Option.bind_eq_bind, Option.bind_eq_some_iff,
      fromBase64Digit_eq_some, ih, Option.pure_def, Option.some_inj]
    constructor
    · rintro ⟨d, ⟨hd, rfl⟩, ds', ⟨hlt, rfl⟩, rfl⟩
      exact ⟨List.forall_mem_cons.mpr ⟨hd, hlt⟩, rfl⟩
    · rintro ⟨hlt, hv⟩
      cases ds with
      | nil => cases hv
      | cons d ds =>
        rw [List.forall_mem_cons] at hlt
        cases hv
        exact ⟨d, ⟨hlt.1, rfl⟩, ds, ⟨hlt.2, rfl⟩, rfl⟩

theorem encodeBase64_of_decodeDigits {ds b} (hlt : ∀ d ∈ ds, d < 64)
    (h : decodeDigits ds = some b) : encodeBase64 b = ds.map base64Digit := by
  fun_induction decodeDigits ds generalizing b with try simp only [List.forall_mem_cons] at hlt
  | case1 =>
    cases h
    rfl
  | case3 w x n =>
    cases h
    have ha : (UInt8.ofNat (n / 16)).toNat * 16 = n := by
      rw [UInt8.toNat_ofNat']
      omega
    have hw : n / 64 = w := by omega
    have hx : n % 64 = x := by omega
    simp only [encodeBase64, ha, hw, hx, List.map]
  | case5 w x y n =>
    cases h
    have ha : (UInt8.ofNat (n / 1024)).toNat * 1024 +
        (UInt8.ofNat (n / 4 % 256)).toNat * 4 = n := by
      rw [UInt8.toNat_ofNat', UInt8.toNat_ofNat']
      omega
    have hw : n / 4096 = w := by omega
    have hx : n / 64 % 64 = x := by omega
    have hy : n % 64 = y := by omega
    simp only [encodeBase64, ha, hw, hx, hy, List.map]
  | case7 w x y z rest n =>
    rename_i ih
    obtain ⟨b', hr, hb⟩ := Option.bind_eq_some_iff.mp h
    cases hb
    have ha : (UInt8.ofNat (n / 65536)).toNat * 65536 + (UInt8.ofNat (n / 256 % 256)).toNat * 256 +
        (UInt8.ofNat (n % 256)).toNat = n := by
      rw [UInt8.toNat_ofNat', UInt8.toNat_ofNat', UInt8.toNat_ofNat']
      omega
    have hw : n / 262144 = w := by omega
    have hx : n / 4096 % 64 = x := by omega
    have hy : n / 64 % 64 = y := by omega
    have hz : n % 64 = z := by omega
    simp only [encodeBase64, ha, hw, hx, hy, hz, List.map, ih hlt.2.2.2.2 hr]
  | _ => cases h

theorem exists_digits (b : Bytes) : ∃ ds : List Nat, (∀ d ∈ ds, d < 64) ∧
    encodeBase64 b = ds.map base64Digit ∧ decodeDigits ds = some b := by
  fun_induction encodeBase64 b with
  | case1 => exact ⟨[], by simp, rfl, rfl⟩
  | case2 a n =>
    have := a.toNat_lt
    refine ⟨[n / 64, n % 64], ?_, rfl, ?_⟩
    · simp; omega
    · have hn : n / 64 * 64 + n % 64 = n := by omega
      simp [decodeDigits, hn, n]
  | case3 a b n =>
    have := a.toNat_lt
    have := b.toNat_lt
    refine ⟨[n / 4096, n / 64 % 64, n % 64], ?_, rfl, ?_⟩
    · simp; omega
    · have hn : n / 4096 * 4096 + n / 64 % 64 * 64 + n % 64 = n := by omega
      have ha : n / 1024 = a.toNat := by omega
      have hb : n / 4 = a.toNat * 256 + b.toNat := by omega
      have h4 : n % 4 = 0 := by omega
      simp [decodeDigits, hn, ha, hb, h4]
  | case4 a b c rest n ih =>
    obtain ⟨ds, hlt, he, hd⟩ := ih
    have := a.toNat_lt
    have := b.toNat_lt
    have := c.toNat_lt
    refine ⟨n / 262144 :: n / 4096 % 64 :: n / 64 % 64 :: n % 64 :: ds, ?_, by simp [he], ?_⟩
    · simp only [List.forall_mem_cons]
      exact ⟨by omega, by omega, by omega, by omega, hlt⟩
    · have hn : n / 262144 * 262144 + n / 4096 % 64 * 4096 + n / 64 % 64 * 64 + n % 64 = n := by
        omega
      have ha : n / 65536 = a.toNat := by omega
      have hb : n / 256 = a.toNat * 256 + b.toNat := by omega
      have hc : n % 256 = c.toNat := by omega
      simp [decodeDigits, hn, ha, hb, hc, hd]

theorem decodeBase64_encodeBase64 (b : Bytes) :
    decodeBase64 (encodeBase64 b) = some b ∧ 46 ∉ encodeBase64 b := by
  obtain ⟨ds, hlt, he, hd⟩ := exists_digits b
  have hdigit : ∀ c ∈ encodeBase64 b, c ∉ [10, 13, 46] := by
    rw [he, List.forall_mem_map]
    exact fun d h ↦ base64Digit_notMem d (hlt d h)
  refine ⟨?_, fun h ↦ hdigit 46 h (by simp)⟩
  have hfilter : (encodeBase64 b).filter (fun c ↦ c ≠ 10 ∧ c ≠ 13) = encodeBase64 b := by
    refine List.filter_eq_self.mpr fun c h ↦ ?_
    have := hdigit c h
    simp_all
  rw [decodeBase64, hfilter, mapM_fromBase64Digit.mpr ⟨hlt, he⟩]
  exact hd

theorem encodeBase64_of_decodeBase64 {v b : Bytes} (h : decodeBase64 v = some b) :
    encodeBase64 b = v.filter fun c ↦ c ≠ 10 ∧ c ≠ 13 := by
  obtain ⟨ds, hm, hd⟩ := Option.bind_eq_some_iff.mp h
  obtain ⟨hlt, hv⟩ := mapM_fromBase64Digit.mp hm
  rw [hv]
  exact encodeBase64_of_decodeDigits hlt hd

theorem length_encodeBase64 (b : Bytes) : (encodeBase64 b).length = (4 * b.length + 2) / 3 := by
  fun_induction encodeBase64 b with simp only [List.length_cons, List.length_nil]
  | case4 a b c rest n ih =>
    rw [ih]
    omega

/-! ## Tokens -/

def formatID (id : SessionID) : Bytes :=
  encodeHex id.toList

def parseID (value : Bytes) : Option SessionID := do
  if value.length = 32 then
    let bytes ← decodeHex value
    if h : bytes.length = 16 then
      let id : SessionID := ⟨bytes, h⟩
      if id ≠ zeroID ∧ formatID id = value then some id else none
    else none
  else none

structure Token where
  id : SessionID
  value : Bytes
  deriving DecidableEq

/-- `mm1`. -/
def tokenVersion : Bytes := [109, 109, 49]

def newToken (id : SessionID) (random : Bytes) : Option Token :=
  if id ≠ zeroID ∧ random.length = 32 then
    some { id := id, value := tokenVersion ++ 46 :: formatID id ++ 46 :: encodeBase64 random }
  else none

def parseToken (value : Bytes) : Option Token :=
  if value.length = 80 then
    match value.splitOn 46 with
    | [version, id, secret] =>
      if version = tokenVersion then do
        let id ← parseID id
        let secret ← decodeBase64 secret
        if secret.length = 32 then some { id := id, value := value } else none
      else none
    | _ => none
  else none

theorem length_formatID (id : SessionID) : (formatID id).length = 32 := by
  rw [formatID, length_encodeHex, List.Vector.toList_length]

theorem parseID_eq_some {v id} :
    parseID v = some id ↔ id ≠ zeroID ∧ formatID id = v := by
  unfold parseID
  constructor
  · intro h
    simp only [Option.bind_eq_bind, Option.ite_none_right_eq_some, Option.bind_eq_some_iff,
      Option.dite_none_right_eq_some] at h
    obtain ⟨-, bytes, -, _, hid, h⟩ := h
    cases h
    exact hid
  · rintro ⟨h0, rfl⟩
    rw [if_pos (length_formatID id), formatID, decodeHex_encodeHex]
    simp [h0, formatID]

theorem newToken_eq_some {id random t} :
    newToken id random = some t ↔ (id ≠ zeroID ∧ random.length = 32) ∧
      ⟨id, tokenVersion ++ 46 :: formatID id ++ 46 :: encodeBase64 random⟩ = t := by
  rw [newToken, Option.ite_none_right_eq_some, Option.some_inj]

theorem parseToken_eq_some {s t} :
    parseToken s = some t ↔ t.value = s ∧ ∃ random, newToken t.id random = some t := by
  unfold parseToken
  constructor
  · intro h
    obtain ⟨hlen, h⟩ := Option.ite_none_right_eq_some.mp h
    split at h
    · rename_i version i secret hs
      simp only [Option.bind_eq_bind, Option.ite_none_right_eq_some, Option.bind_eq_some_iff] at h
      obtain ⟨rfl, id, hid, random, hsec, hr, hi⟩ := h
      cases hi
      obtain ⟨h0, rfl⟩ := parseID_eq_some.mp hid
      have he := encodeBase64_of_decodeBase64 hsec
      have hv : s = tokenVersion ++ 46 :: formatID id ++ 46 :: secret := by
        rw [← @List.intercalate_splitOn _ s _ _ 46, hs]
        simp [List.intercalate]
      have hl := length_encodeBase64 random
      have hfull : secret.filter (fun c ↦ c ≠ 10 ∧ c ≠ 13) = secret := by
        rw [List.filter_eq_self, ← List.length_filter_eq_length_iff, ← he, hl, hr]
        rw [hv] at hlen
        simp [length_formatID, tokenVersion] at hlen
        omega
      rw [hfull] at he
      exact ⟨rfl, random, newToken_eq_some.mpr ⟨⟨h0, hr⟩, by rw [he, ← hv]⟩⟩
    · cases h
  · rintro ⟨rfl, random, h⟩
    obtain ⟨⟨h0, hr⟩, ht⟩ := newToken_eq_some.mp h
    obtain ⟨hd, hdot⟩ := decodeBase64_encodeBase64 random
    generalize t.id = id at *
    subst ht
    have hs : (tokenVersion ++ 46 :: formatID id ++ 46 :: encodeBase64 random).splitOn 46 =
        [tokenVersion, formatID id, encodeBase64 random] := by
      have hparts : ∀ part ∈ [tokenVersion, formatID id, encodeBase64 random], 46 ∉ part := by
        simp [hdot, dot_notMem_encodeHex, formatID, tokenVersion]
      simpa [List.intercalate] using List.splitOn_intercalate 46 hparts (by simp)
    rw [hs, if_pos (by simp [length_formatID, length_encodeBase64, hr, tokenVersion])]
    simp [parseID_eq_some.mpr ⟨h0, rfl⟩, hd, hr]

theorem token_canonical (s : Bytes) :
    ((parseToken s).isSome ↔ ∃ id random, newToken id random = some ⟨id, s⟩) ∧
      ∀ id random, newToken id random = some ⟨id, s⟩ → parseToken s = some ⟨id, s⟩ ∧
        id ≠ zeroID ∧ random.length = 32 ∧
        (∀ id' random', newToken id' random' = some ⟨id', s⟩ → id' = id ∧ random' = random) ∧
        ∀ s', newToken id random = some ⟨id, s'⟩ → s' = s := by
  refine ⟨?_, fun id random h ↦ ?_⟩
  · rw [Option.isSome_iff_exists]
    simp only [parseToken_eq_some]
    constructor
    · rintro ⟨⟨id, _⟩, rfl, h⟩
      exact ⟨id, h⟩
    · rintro ⟨id, h⟩
      exact ⟨⟨id, s⟩, rfl, h⟩
  · have hp := parseToken_eq_some (t := ⟨id, s⟩).mpr ⟨rfl, random, h⟩
    obtain ⟨⟨h0, hr⟩, hv⟩ := newToken_eq_some.mp h
    refine ⟨hp, h0, hr, fun id' random' h' ↦ ?_, fun s' h' ↦ ?_⟩
    · have hp' := parseToken_eq_some (t := ⟨id', s⟩).mpr ⟨rfl, random', h'⟩
      obtain rfl : id' = id := congrArg Token.id (Option.some_inj.mp (hp'.symm.trans hp))
      have he := (newToken_eq_some.mp h').2.trans hv.symm
      simp only [Token.mk.injEq, List.append_cancel_left_eq, List.cons.injEq, true_and] at he
      have hd := (decodeBase64_encodeBase64 random').1
      rw [he, (decodeBase64_encodeBase64 random).1] at hd
      exact ⟨rfl, (Option.some_inj.mp hd).symm⟩
    · exact congrArg Token.value (Option.some_inj.mp (h'.symm.trans h))

end MarketMesh.Auth
