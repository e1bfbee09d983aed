import MarketMesh.Files.File

/-!
# The preflight of archives

Before `archive/zip` parses an office document, `boundedDirectory` walks over its central directory.
`archive/zip` takes the directory from a ZIP64 record instead of the end record if a field of the
end record has its largest value and a locator stands in front.  The preflight does not look for
one, but the largest values do not fit into a file of at most `MaxSize` bytes.  Images in such a
document are accepted by their ends, of which `LastBytes` keeps a window.
-/

set_option autoImplicit false

namespace MarketMesh.Files

/-- A file as `io.ReaderAt` gives it; what `byte` says from `size` on is not read. -/
structure Input where
  size : Nat
  byte : Nat → UInt8

namespace Input

variable (input : Input)

/-- The little-endian number of some bytes. -/
def uint (offset : Nat) : Nat → Nat
  | 0 => 0
  | n + 1 => (input.byte offset).toNat + 256 * uint (offset + 1) n

/-- `PK\x01\x02`. -/
def headerSignature : Nat := 0x02014b50

/-- `PK\x05\x06`. -/
def endSignature : Nat := 0x06054b50

/-- `PK\x06\x07`. -/
def locatorSignature : Nat := 0x07064b50

/-- `PK\x06\x06`. -/
def recordSignature : Nat := 0x06064b50

/-- The length of a header with its name, its extra fields and its comment. -/
def headerLength (offset : Nat) : Nat :=
  46 + input.uint (offset + 28) 2 + input.uint (offset + 30) 2 + input.uint (offset + 32) 2

/-- What is required of a header. -/
def BoundedHeader (offset : Nat) : Prop :=
  input.uint offset 4 = headerSignature ∧ input.uint (offset + 20) 4 ≠ 0xffffffff ∧
    input.uint (offset + 24) 4 ≠ 0xffffffff ∧ input.uint (offset + 34) 2 = 0 ∧
    input.uint (offset + 28) 2 ≠ 0 ∧ input.uint (offset + 28) 2 ≤ 240 ∧
    input.uint (offset + 30) 2 ≤ 4096 ∧ input.uint (offset + 32) 2 ≤ 4096
  deriving Decidable

/-- The loop of `boundedDirectory`. -/
def boundedHeaders (limit : Nat) : Nat → Nat → Bool
  | 0, offset => offset = limit
  | n + 1, offset =>
    decide (offset + 46 ≤ limit ∧ input.BoundedHeader offset) &&
      boundedHeaders limit n (offset + input.headerLength offset)

structure Directory where
  entries : Nat
  length : Nat
  offset : Nat
  deriving DecidableEq

/-- The end record, at the end of the file. -/
def endRecord : Directory where
  entries := input.uint (input.size - 12) 2
  length := input.uint (input.size - 10) 4
  offset := input.uint (input.size - 6) 4

/-- What is required of the end record: no comment, one disk, a directory right in front of it. -/
def BoundedEnd : Prop :=
  22 ≤ input.size ∧ input.uint (input.size - 22) 4 = endSignature ∧
    input.uint (input.size - 2) 2 = 0 ∧
    input.uint (input.size - 18) 4 = 0 ∧ input.uint (input.size - 14) 2 = input.endRecord.entries ∧
    input.endRecord.entries ≠ 0 ∧ input.endRecord.entries ≤ 4096 ∧
    input.endRecord.length ≤ 4 * 1024 * 1024 ∧
    input.endRecord.offset + input.endRecord.length = input.size - 22
  deriving Decidable

def boundedDirectory : Bool :=
  decide input.BoundedEnd && input.boundedHeaders (input.endRecord.offset + input.endRecord.length)
    input.endRecord.entries input.endRecord.offset

/-! ## What `archive/zip` reads -/

/-- The end record may be that of a ZIP64 file. -/
def MayBeZip64 : Prop :=
  input.endRecord.entries = 0xffff ∨ input.endRecord.length = 0xffffffff ∨
    input.endRecord.offset = 0xffffffff
  deriving Decidable

/-- `findDirectory64End`: where the ZIP64 record is.  A locator of a file on several disks does not
count. -/
def findDirectory64End : Option Nat :=
  let locator := input.size - 42
  let record := input.uint (locator + 8) 8
  if 42 ≤ input.size ∧ input.uint locator 4 = locatorSignature ∧ input.uint (locator + 4) 4 = 0 ∧
      input.uint (locator + 16) 4 = 1 ∧ record < 2 ^ 63 then some record
  else none

/-- `readDirectory64End`. -/
def readDirectory64End (record : Nat) : Option Directory :=
  if record + 56 ≤ input.size ∧ input.uint record 4 = recordSignature then
    some
      { entries := input.uint (record + 32) 8
        length := input.uint (record + 40) 8
        offset := input.uint (record + 48) 8 }
  else none

/-- `readDirectoryEnd`; `none` is an error. -/
def zipDirectory : Option Directory :=
  if input.MayBeZip64 then
    match input.findDirectory64End with
    | some record => input.readDirectory64End record
    | none => some input.endRecord
  else some input.endRecord

/-- The headers from an offset on, with their lengths, up to the first bytes that are none. -/
def zipHeaders : Nat → Nat → List (Nat × Nat)
  | 0, _ => []
  | fuel + 1, offset =>
    if input.uint offset 4 = headerSignature ∧ offset + input.headerLength offset ≤ input.size then
      (offset, input.headerLength offset) :: zipHeaders fuel (offset + input.headerLength offset)
    else []

/-- The entries of a directory; a header takes at least one byte. -/
def zipEntries (d : Directory) : List (Nat × Nat) :=
  input.zipHeaders input.size d.offset

/-- The pieces lie one after the other. -/
def Tiles : List (Nat × Nat) → Nat → Nat → Prop
  | [], first, last => first = last
  | piece :: rest, first, last => piece.1 = first ∧ Tiles rest (first + piece.2) last

variable {input}

/-- The headers that the preflight walks over are those that `archive/zip` reads. -/
theorem tiles_of_boundedHeaders {limit n offset : Nat} (fuel : Nat)
    (h : input.boundedHeaders limit n offset = true)
    (hend : input.uint limit 4 ≠ headerSignature) (hsize : limit ≤ input.size)
    (hfuel : limit ≤ offset + fuel) :
    (input.zipHeaders fuel offset).length = n ∧ Tiles (input.zipHeaders fuel offset) offset limit ∧
      offset ≤ limit := by
  induction n generalizing offset fuel with
  | zero =>
    have hlimit : offset = limit := of_decide_eq_true h
    subst hlimit
    cases fuel with
    | zero => exact ⟨rfl, rfl, le_rfl⟩
    | succ fuel =>
      rw [zipHeaders, if_neg fun hheader ↦ hend hheader.1]
      exact ⟨rfl, rfl, le_rfl⟩
  | succ n ih =>
    obtain ⟨hbounded, hrest⟩ := (Bool.and_eq_true _ _).mp h
    obtain ⟨hlt, hheader, -⟩ := of_decide_eq_true hbounded
    have hpos : 46 ≤ input.headerLength offset := by
      unfold headerLength
      omega
    cases fuel with
    | zero => omega
    | succ fuel =>
      obtain ⟨hlength, htiles, hle⟩ := ih fuel hrest (by omega)
      rw [zipHeaders, if_pos ⟨hheader, hle.trans hsize⟩]
      exact ⟨congrArg (· + 1) hlength, ⟨rfl, htiles⟩, by omega⟩

/-- **The directory that is checked is the one that is read.**  In a file that the preflight
accepts, the end record has between 1 and 4096 entries, and the headers that `archive/zip` reads
from its offset on are as many and fill the space up to the end record.  In one of at most `MaxSize`
bytes `archive/zip` takes the directory from the end record. -/
theorem directory_agrees (h : input.boundedDirectory = true) :
    (1 ≤ input.endRecord.entries ∧ input.endRecord.entries ≤ 4096 ∧
      input.endRecord.offset + input.endRecord.length + 22 = input.size ∧
      (input.zipEntries input.endRecord).length = input.endRecord.entries ∧
      Tiles (input.zipEntries input.endRecord) input.endRecord.offset
        (input.endRecord.offset + input.endRecord.length)) ∧
    (input.size ≤ maxSize → input.zipDirectory = some input.endRecord) := by
  obtain ⟨hend, hheaders⟩ := (Bool.and_eq_true _ _).mp h
  obtain ⟨hsize, hsignature, -, -, -, hpos, hmax, hlength, hlimit⟩ := of_decide_eq_true hend
  have hstop : input.uint (input.endRecord.offset + input.endRecord.length) 4 ≠
      headerSignature := by
    rw [hlimit, hsignature]
    decide
  obtain ⟨hcount, htiles, -⟩ :=
    tiles_of_boundedHeaders input.size hheaders hstop (by omega) (by omega)
  refine ⟨⟨Nat.one_le_iff_ne_zero.mpr hpos, hmax, by omega, hcount, htiles⟩, fun hle ↦ ?_⟩
  have hzip : ¬ input.MayBeZip64 := by
    unfold MayBeZip64
    unfold maxSize at hle
    omega
  rw [zipDirectory, if_neg hzip]

/-- A file with these bytes at these places, and zeros elsewhere. -/
def ofPieces (size : Nat) (pieces : List (Nat × List UInt8)) : Input where
  size := size
  byte p := (pieces.findSome? fun piece ↦
    if piece.1 ≤ p then piece.2[p - piece.1]? else none).getD 0

/-- A header with a name of one byte. -/
def sampleHeader (extra comment : List UInt8) : List UInt8 :=
  [0x50, 0x4b, 1, 2] ++ .replicate 24 0 ++ [1, 0] ++ extra ++ comment

def sampleEnd (entries : UInt8) (length : List UInt8) : List UInt8 :=
  [0x50, 0x4b, 5, 6, 0, 0, 0, 0, entries, 0, entries, 0] ++ length

/-- An archive with two entries, the second one with a locator as its comment. -/
def sampleArchive : Input :=
  ofPieces 136 [(0, sampleHeader [] []), (47, sampleHeader [0, 0] [20]),
    (94, [0x50, 0x4b, 6, 7, 0, 0, 0, 0, 47, 0, 0, 0, 0, 0, 0, 0, 1]), (114, sampleEnd 2 [114])]

theorem directory_agrees_sample : sampleArchive.boundedDirectory = true ∧
    sampleArchive.zipDirectory = some sampleArchive.endRecord ∧
    (sampleArchive.zipEntries sampleArchive.endRecord).length = 2 := by
  have h : sampleArchive.boundedDirectory = true := by decide +kernel
  obtain ⟨⟨-, -, -, hcount, -⟩, hzip⟩ := directory_agrees h
  exact ⟨h, hzip (by decide +kernel), hcount⟩

/-- A file of more than 4 GiB with one entry at `0xffffffff`.  The comment of the entry is a
locator, and a ZIP64 record in the file's data leads to another header there. -/
def hidingArchive : Input :=
  ofPieces 0x100000058
    [(0, sampleHeader [] []), (47, [0x50, 0x4b, 6, 6]), (79, [1]), (87, [47]),
      (0xffffffff, sampleHeader [0, 0] [20]),
      (0x10000002e, [0x50, 0x4b, 6, 7, 0, 0, 0, 0, 47, 0, 0, 0, 0, 0, 0, 0, 1]),
      (0x100000042, sampleEnd 1 [67, 0, 0, 0, 0xff, 0xff, 0xff, 0xff])]

theorem directory_hidden : hidingArchive.boundedDirectory = true ∧
    hidingArchive.endRecord = ⟨1, 67, 0xffffffff⟩ ∧ hidingArchive.zipDirectory = some ⟨1, 47, 0⟩ ∧
    hidingArchive.zipEntries ⟨1, 47, 0⟩ = [(0, 47)] := by
  decide +kernel

end Input

open Auth (Bytes)

/-! ## The end of an image -/

/-- `copy`: the bytes that fit in, and then what was there. -/
def copySlice (dst src : Bytes) : Bytes := src.take dst.length ++ dst.drop src.length

/-- `Write`, with the window `t`. -/
def LastBytes.write (t p : Bytes) : Bytes :=
  let n := p.length
  if t.length ≤ n then copySlice t (p.drop (n - t.length))
  else
    let t := copySlice t (t.drop n)
    t.take (t.length - n) ++ copySlice (t.drop (t.length - n)) p

theorem LastBytes.write_eq (t p : Bytes) : write t p = (t ++ p).drop p.length := by
  simp only [write]
  split
  · rename_i hle
    have hlen : (p.drop (p.length - t.length)).length = t.length := by
      rw [List.length_drop]
      omega
    rw [copySlice, List.take_of_length_le hlen.le, hlen, List.drop_length, List.append_nil,
      List.drop_append, List.drop_eq_nil_of_le hle, List.nil_append]
  · -- the first copy moves the end of the window to its front
    have hshift : copySlice t (t.drop p.length) = t.drop p.length ++
      t.drop (t.length - p.length) := by
      rw [copySlice, List.length_drop, List.take_of_length_le (by simp)]
    have hfront : (t.drop p.length).length = t.length - p.length := List.length_drop
    have hback : (t.drop (t.length - p.length)).length = p.length := by
      rw [List.length_drop]
      omega
    have hlen : (copySlice t (t.drop p.length)).length = t.length := by
      rw [hshift, List.length_append, hfront, hback]
      omega
    rw [hlen, hshift, List.take_left' hfront, List.drop_left' hfront, copySlice, hback,
      List.take_length, List.drop_eq_nil_of_le hback.le, List.append_nil,
      List.drop_append_of_le_length (by omega)]

/-- **The window does not depend on the chunks**: it holds the last bytes of twelve zeros and all
that was written. -/
theorem LastBytes.foldl_write (writes : List Bytes) :
    let all := List.replicate 12 0 ++ writes.flatten
    writes.foldl write (List.replicate 12 0) = all.drop (all.length - 12) := by
  have hrun (t : Bytes) :
      writes.foldl write t = (t ++ writes.flatten).drop writes.flatten.length := by
    induction writes generalizing t with
    | nil => simp
    | cons p writes ih =>
      have hle : p.length ≤ (t ++ p).length := by simp
      rw [List.foldl_cons, ih, write_eq, List.flatten_cons, List.length_append, ← List.drop_drop,
        ← List.append_assoc, List.drop_append_of_le_length hle]
  intro all
  have hlength : all.length - 12 = writes.flatten.length := by simp [all]
  rw [hrun, hlength]

end MarketMesh.Files
