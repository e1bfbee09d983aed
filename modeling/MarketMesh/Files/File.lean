import Mathlib.Algebra.Ring.Int.Defs
import MarketMesh.Auth.Service

/-!
# Files and their manifests

A manifest fixes the content of a file before any of it is uploaded: its format, its size and hash,
and the size and hash of each part.  A record is what the service knows of a file.
-/

set_option autoImplicit false

namespace MarketMesh.Files

open Auth (Bytes Time Duration Digest second)

abbrev ID := List.Vector UInt8 16

def zeroID : ID := List.Vector.replicate 16 0

def zeroDigest : Digest := List.Vector.replicate 32 0

def maxSize : Int := 100 * 1024 * 1024

def partSize : Int := 5 * 1024 * 1024

def maxParts : Nat := 20

def capabilityTTL : Duration := 60 * second

def uploadTTL : Duration := 24 * 60 * 60 * second

def processingTTL : Duration := 48 * 60 * 60 * second

/-- The errors of the service; `cancelled` is the error of a context that has ended. -/
inductive Err where
  | invalid
  | notFound
  | conflict
  | notReady
  | unavailable
  | rejected
  | limit
  | cancelled
  deriving DecidableEq, Repr

structure Owner where
  tenant : ID
  subject : ID
  deriving DecidableEq

def Owner.Valid (o : Owner) : Prop :=
  o.tenant ≠ zeroID ∧ o.subject ≠ zeroID
  deriving Decidable

inductive State where
  | uploading
  | scanning
  | replicating
  | ready
  | rejected
  | expired
  | deleted
  deriving DecidableEq, Repr

/-- `unknown` stands for every other value, the empty one included. -/
inductive Format where
  | jpeg
  | png
  | pdf
  | docx
  | xlsx
  | pptx
  | odt
  | ods
  | odp
  | unknown
  deriving DecidableEq, Repr

def Format.extension : Format → String
  | .jpeg => "jpg"
  | .png => "png"
  | .pdf => "pdf"
  | .docx => "docx"
  | .xlsx => "xlsx"
  | .pptx => "pptx"
  | .odt => "odt"
  | .ods => "ods"
  | .odp => "odp"
  | .unknown => ""

/-- The media type. -/
def Format.name : Format → String
  | .jpeg => "image/jpeg"
  | .png => "image/png"
  | .pdf => "application/pdf"
  | .docx => "application/vnd.openxmlformats-officedocument.wordprocessingml.document"
  | .xlsx => "application/vnd.openxmlformats-officedocument.spreadsheetml.sheet"
  | .pptx => "application/vnd.openxmlformats-officedocument.presentationml.presentation"
  | .odt => "application/vnd.oasis.opendocument.text"
  | .ods => "application/vnd.oasis.opendocument.spreadsheet"
  | .odp => "application/vnd.oasis.opendocument.presentation"
  | .unknown => ""

structure Part where
  size : Int
  sha256 : Digest
  deriving DecidableEq

structure Manifest where
  format : Format
  size : Int
  sha256 : Digest
  parts : List Part
  deriving DecidableEq

/-- Every part has the full size, but the last. -/
def PartsValid : List Part → Prop
  | [] => True
  | p :: rest => 0 < p.size ∧ p.size ≤ partSize ∧ p.sha256 ≠ zeroDigest ∧
      (rest ≠ [] → p.size = partSize) ∧ PartsValid rest

instance decidablePartsValid : ∀ parts, Decidable (PartsValid parts)
  | [] => inferInstanceAs (Decidable True)
  | _ :: rest =>
    have := decidablePartsValid rest
    inferInstanceAs (Decidable (_ ∧ _ ∧ _ ∧ _ ∧ _))

/-- `Validate`. -/
def Manifest.Valid (m : Manifest) : Prop :=
  m.format.extension ≠ "" ∧ 0 < m.size ∧ m.size ≤ maxSize ∧ m.sha256 ≠ zeroDigest ∧ m.parts ≠ [] ∧
    m.parts.length ≤ maxParts ∧ PartsValid m.parts ∧ (m.parts.map Part.size).sum = m.size
  deriving Decidable

/-- The bytes of a text in the ASCII range. -/
def ascii (text : String) : Bytes :=
  text.toList.map fun c ↦ .ofNat c.toNat

/-- `PutUint64` in big-endian order. -/
def bigEndian (n : Int) : Bytes :=
  (List.range 8).map fun i ↦ .ofNat (n.toNat / 256 ^ (7 - i) % 256)

/-- What `Fingerprint` hashes. -/
def Manifest.encoding (m : Manifest) : Bytes :=
  ascii "marketmesh-file-manifest-v1" ++ 0 :: ascii m.format.name ++ 0 :: bigEndian m.size ++
    m.sha256.toList ++ m.parts.flatMap fun p ↦ bigEndian p.size ++ p.sha256.toList

/-- The record of a file.  `objectKey` and `uploadID` are identifiers in hexadecimal, or empty. -/
structure Record where
  id : ID
  owner : Owner
  idempotencyKey : ID
  manifest : Manifest
  objectKey : ID
  uploadID : Option ID := none
  state : State
  version : Int
  createdAt : Time
  expiresAt : Time
  cleanFormat : Format := .unknown
  cleanSize : Int := 0
  cleanSHA256 : Digest := zeroDigest
  deriving DecidableEq

def CanTransition (source target : State) : Prop :=
  if target = .deleted then source ≠ .deleted
  else
    match source with
    | .uploading => target = .scanning ∨ target = .expired ∨ target = .rejected
    | .scanning => target = .replicating ∨ target = .rejected ∨ target = .expired
    | .replicating => target = .ready ∨ target = .rejected ∨ target = .expired
    | _ => False

instance (source target : State) : Decidable (CanTransition source target) := by
  unfold CanTransition
  cases source <;> infer_instance

/-! ## The manifest and its encoding -/

theorem length_bigEndian (n : Int) : (bigEndian n).length = 8 := by
  simp [bigEndian]

/-- The sizes that are encoded are small. -/
theorem bigEndian_inj {m n : Int} (hm : 0 ≤ m) (hm' : m < 2 ^ 32) (hn : 0 ≤ n) (hn' : n < 2 ^ 32)
    (h : bigEndian m = bigEndian n) : m = n := by
  obtain ⟨m, rfl⟩ := Int.eq_ofNat_of_zero_le hm
  obtain ⟨n, rfl⟩ := Int.eq_ofNat_of_zero_le hn
  have hbyte : ∀ i < 8, m / 256 ^ (7 - i) % 256 = n / 256 ^ (7 - i) % 256 := by
    intro i hi
    have hget := congrArg (·[i]?) h
    simp only [bigEndian, List.getElem?_map, List.getElem?_range hi, Option.map_some,
      Int.toNat_natCast, Option.some_inj] at hget
    have := congrArg UInt8.toNat hget
    simpa using this
  have h4 := hbyte 4 (by omega)
  have h5 := hbyte 5 (by omega)
  have h6 := hbyte 6 (by omega)
  have h7 := hbyte 7 (by omega)
  simp only [Nat.reduceSub, Nat.reducePow] at h4 h5 h6 h7
  omega

/-- The names of the formats differ in their lengths. -/
def Format.nameLength : Format → Nat
  | .jpeg => 10
  | .png => 9
  | .pdf => 15
  | .docx => 71
  | .xlsx => 65
  | .pptx => 73
  | .odt => 39
  | .ods => 46
  | .odp => 47
  | .unknown => 0

theorem length_name (f : Format) : (ascii f.name).length = f.nameLength := by
  cases f <;> decide +kernel

theorem name_inj {f g : Format} (h : ascii f.name = ascii g.name) : f = g := by
  have hlength : f.nameLength = g.nameLength := by
    rw [← length_name, ← length_name, h]
  clear h
  revert hlength
  cases f <;> cases g <;> decide

theorem zero_notMem_name (f : Format) : (0 : UInt8) ∉ ascii f.name := by
  cases f <;> decide +kernel

/-- What stands before the first separator. -/
theorem eq_of_separated {b : UInt8} {xs ys xs' ys' : Bytes} (hx : b ∉ xs) (hy : b ∉ ys)
    (h : xs ++ b :: xs' = ys ++ b :: ys') : xs = ys ∧ xs' = ys' := by
  induction xs generalizing ys with
  | nil =>
    cases ys with
    | nil => exact ⟨rfl, (List.cons.inj h).2⟩
    | cons => exact absurd ((List.cons.inj h).1 ▸ List.mem_cons_self ..) hy
  | cons x xs ih =>
    cases ys with
    | nil => exact absurd ((List.cons.inj h).1 ▸ List.mem_cons_self ..) hx
    | cons =>
      obtain ⟨hhead, htail⟩ := List.cons.inj h
      obtain ⟨hxs, hrest⟩ := ih (fun h ↦ hx (List.mem_cons_of_mem _ h))
        (fun h ↦ hy (List.mem_cons_of_mem _ h)) htail
      exact ⟨by rw [hhead, hxs], hrest⟩

theorem parts_inj {parts parts'} (hp : PartsValid parts) (hp' : PartsValid parts')
    (h : (parts.flatMap fun p ↦ bigEndian p.size ++ p.sha256.toList) =
      parts'.flatMap fun p ↦ bigEndian p.size ++ p.sha256.toList) : parts = parts' := by
  have hlength (p : Part) : (bigEndian p.size ++ p.sha256.toList).length = 40 := by
    rw [List.length_append, length_bigEndian, List.Vector.toList_length]
  induction parts generalizing parts' with
  | nil =>
    cases parts' with
    | nil => rfl
    | cons =>
      have := congrArg List.length h
      rw [List.flatMap_cons, List.flatMap_nil, List.length_append, hlength, List.length_nil] at this
      omega
  | cons p rest ih =>
    cases parts' with
    | nil =>
      have := congrArg List.length h
      rw [List.flatMap_cons, List.flatMap_nil, List.length_append, hlength, List.length_nil] at this
      omega
    | cons q =>
      rw [List.flatMap_cons, List.flatMap_cons] at h
      obtain ⟨hhead, htail⟩ := List.append_inj h ((hlength p).trans (hlength q).symm)
      obtain ⟨hsize, hsum⟩ := List.append_inj hhead
        ((length_bigEndian _).trans (length_bigEndian _).symm)
      obtain ⟨hpos, hle, -, -, hrest⟩ := hp
      obtain ⟨hpos', hle', -, -, hrest'⟩ := hp'
      have hbound : partSize < 2 ^ 32 := by decide
      have heq : p = q := by
        have h1 := bigEndian_inj hpos.le (hle.trans_lt hbound) hpos'.le (hle'.trans_lt hbound) hsize
        have h2 := List.Vector.toList_injective hsum
        cases p
        cases q
        cases h1
        cases h2
        rfl
      rw [heq, ih hrest hrest' htail]

/-- The encoding determines the manifest. -/
theorem encoding_inj {m n : Manifest} (hm : m.Valid) (hn : n.Valid) (h : m.encoding = n.encoding) :
    m = n := by
  obtain ⟨-, hpos, hle, -, -, -, hparts, -⟩ := hm
  obtain ⟨-, hpos', hle', -, -, -, hparts', -⟩ := hn
  unfold Manifest.encoding at h
  simp only [List.append_assoc, List.cons_append] at h
  obtain ⟨-, h⟩ := List.cons.inj (List.append_cancel_left h)
  obtain ⟨hname, h⟩ := eq_of_separated (zero_notMem_name _) (zero_notMem_name _) h
  obtain ⟨hsize, h⟩ := List.append_inj h ((length_bigEndian _).trans (length_bigEndian _).symm)
  obtain ⟨hsum, h⟩ := List.append_inj h
    ((List.Vector.toList_length _).trans (List.Vector.toList_length _).symm)
  have hbound : maxSize < 2 ^ 32 := by decide
  have h1 := name_inj hname
  have h2 := bigEndian_inj hpos.le (hle.trans_lt hbound) hpos'.le (hle'.trans_lt hbound) hsize
  have h3 := List.Vector.toList_injective hsum
  have h4 := parts_inj hparts hparts' h
  cases m
  cases n
  cases h1
  cases h2
  cases h3
  cases h4
  rfl

theorem partsValid_iff {parts} : PartsValid parts ↔ (∀ p ∈ parts.dropLast, p.size = partSize) ∧
      (∀ p ∈ parts.getLast?, 0 < p.size ∧ p.size ≤ partSize) ∧
      ∀ p ∈ parts, p.sha256 ≠ zeroDigest := by
  induction parts with
  | nil => simp [PartsValid]
  | cons p rest ih =>
    cases rest with
    | nil => simp [PartsValid, and_assoc]
    | cons q rest =>
      have hpos : 0 < partSize := by decide
      rw [PartsValid, ih]
      simp only [List.dropLast_cons_cons, List.getLast?_cons_cons, List.forall_mem_cons]
      constructor
      · rintro ⟨-, -, hsum, hsize, hinit, hlast, hsums⟩
        exact ⟨⟨hsize (by simp), hinit⟩, hlast, hsum, hsums⟩
      · rintro ⟨⟨hsize, hinit⟩, hlast, hsum, hsums⟩
        exact ⟨hsize ▸ hpos, hsize.le, hsum, fun _ ↦ hsize, hinit, hlast, hsums⟩

theorem PartsValid.sum_nonneg {parts} (h : PartsValid parts) :
    0 ≤ (parts.map Part.size).sum := by
  induction parts with
  | nil => exact le_rfl
  | cons p rest ih =>
    rw [List.map_cons, List.sum_cons]
    exact Int.add_nonneg h.1.le (ih h.2.2.2.2)

/-- **What is hashed binds a valid manifest**, and the valid manifests are those of one to twenty
parts of 5 MiB, of which the last may be shorter. -/
theorem fingerprint_binds (m n : Manifest) :
    (m.Valid ↔ m.format ≠ .unknown ∧ m.sha256 ≠ zeroDigest ∧
      1 ≤ m.parts.length ∧ m.parts.length ≤ 20 ∧
      (∀ p ∈ m.parts.dropLast, p.size = 5 * 2 ^ 20) ∧
      (∀ p ∈ m.parts.getLast?, 1 ≤ p.size ∧ p.size ≤ 5 * 2 ^ 20) ∧
      (∀ p ∈ m.parts, p.sha256 ≠ zeroDigest) ∧
      (m.parts.map Part.size).sum = m.size ∧ m.size ≤ 100 * 2 ^ 20) ∧
    (m.Valid → n.Valid → m.encoding = n.encoding → m = n) := by
  refine ⟨?_, encoding_inj⟩
  have hformat : m.format.extension ≠ "" ↔ m.format ≠ .unknown := by
    cases m.format <;> decide
  have hparts : m.parts ≠ [] ↔ 1 ≤ m.parts.length := List.length_pos_iff.symm
  rw [Manifest.Valid, hformat, hparts, partsValid_iff]
  constructor
  · rintro ⟨hf, -, hmax, hd, hone, hle, ⟨hinit, hlast, hsums⟩, hsum⟩
    exact ⟨hf, hd, hone, hle, hinit, hlast, hsums, hsum, hmax⟩
  · rintro ⟨hf, hd, hone, hle, hinit, hlast, hsums, hsum, hmax⟩
    have hvalid : PartsValid m.parts := partsValid_iff.mpr ⟨hinit, hlast, hsums⟩
    refine ⟨hf, ?_, hmax, hd, hone, hle, ⟨hinit, hlast, hsums⟩, hsum⟩
    obtain ⟨p, rest, heq⟩ := List.exists_cons_of_ne_nil (List.length_pos_iff.mp hone)
    rw [heq] at hvalid
    rw [← hsum, heq, List.map_cons, List.sum_cons]
    exact Int.add_pos_of_pos_of_nonneg hvalid.1 hvalid.2.2.2.2.sum_nonneg

/-! ## The pixel protocol

The sandbox answers with the pages of a document as pixels, and the worker builds a new file from
them.  What the worker reads is a stream: bytes, and then either the end or an error of the
transport. -/

/-- The body of a response; it is cut if its last bytes are followed by an error. -/
structure Stream where
  bytes : Bytes
  cut : Bool := false
  deriving DecidableEq

namespace Stream

/-- `io.LimitReader`. -/
def limit (n : Nat) (s : Stream) : Stream :=
  if n ≤ s.bytes.length then { bytes := s.bytes.take n, cut := false } else s

/-- `io.ReadFull`. -/
def readFull (n : Nat) (s : Stream) : Option (Bytes × Stream) :=
  if n ≤ s.bytes.length then some (s.bytes.take n, { s with bytes := s.bytes.drop n }) else none

end Stream

def magic : Bytes := ascii "MMRGB1\n"

def maxPages : Nat := 100

def maxPixels : Nat := 40000000

def maxEdge : Nat := 10000

def uint32 (b : Bytes) : Nat :=
  b.foldl (fun n x ↦ n * 256 + x.toNat) 0

structure Page where
  width : Nat
  height : Nat
  rgb : Bytes

/-- The loop over the pages, with the pixels that were read. -/
def readPages : Nat → Nat → Stream → Option (List Page × Stream)
  | 0, _, s => some ([], s)
  | n + 1, pixels, s => do
    let (dims, s) ← s.readFull 8
    let width := uint32 (dims.take 4)
    let height := uint32 (dims.drop 4)
    if width = 0 ∨ height = 0 ∨ maxEdge < width ∨ maxEdge < height then none
    else if maxPixels < pixels + width * height then none
    else
      let (rgb, s) ← s.readFull (width * height * 3)
      let (pages, s) ← readPages n (pixels + width * height) s
      some ({ width := width, height := height, rgb := rgb } :: pages, s)

/-- The pages of a stream that has the right form and is read to its end. -/
def parsePages (imageOutput : Bool) (s : Stream) : Option (List Page) := do
  let (head, s) ← s.readFull magic.length
  if head ≠ magic then none
  else
    let (count, s) ← s.readFull 4
    let pages := uint32 count
    if pages = 0 ∨ maxPages < pages ∨ (imageOutput ∧ pages ≠ 1) then none
    else
      let (pages, s) ← readPages pages 0 s
      if s.bytes = [] ∧ ¬ s.cut then some pages else none

/-- `Reconstruct`, with the new file for given pages; every failure to read is a rejection. -/
def reconstruct (render : Bool → List Page → Bytes) (imageOutput : Bool) (s : Stream) :
    Except Err (Format × Bytes) :=
  match parsePages imageOutput s with
  | none => .error .rejected
  | some pages =>
    let output := render imageOutput pages
    -- the writer of the worker is bounded
    if maxSize < output.length then .error .rejected
    else .ok (if imageOutput then .png else .pdf, output)

/-- What the sandbox answers; every other status is `unavailable`, too. -/
inductive SandboxAnswer where
  | unavailable
  | unprocessable
  | body (s : Stream)

/-- `Clean` of the client of the sandbox. -/
def sandboxClean (render : Bool → List Page → Bytes) (size : Int) (format : Format)
    (answer : SandboxAnswer) : Except Err (Format × Bytes) :=
  if size ≤ 0 ∨ maxSize < size ∨ format.extension = "" then .error .invalid
  else
    match answer with
    | .unavailable => .error .unavailable
    | .unprocessable => .error .rejected
    | .body s =>
      reconstruct render (format = .png ∨ format = .jpeg)
        (s.limit (3 * maxPixels + 8 * maxPages + 64))

end MarketMesh.Files
