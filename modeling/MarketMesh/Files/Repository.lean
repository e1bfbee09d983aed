import MarketMesh.Files.File

/-!
# The repository of files and the object store

The rows of `files.uploads` and the statements on them.  Every statement but the insertion is a
compare-and-swap: it updates the row of a record if the row has the version of the record, and
raises the version.  A statement that finds no row reports a conflict, and one that would violate a
constraint of the table fails.

The parts of an upload are objects of the quarantine bucket, derivatives are objects of the internal
bucket under the hash of their content, and the copies that are delivered are in one bucket for each
data center.  All keys of a file begin with its object key, which has a fixed length.
-/

set_option autoImplicit false

namespace MarketMesh.Files

open Auth (Bytes Time Duration Digest second maxInt64)

/-- What the service is given: SHA-256, the size of a manifest in the database, and the encoders of
images and of compressed data. -/
structure Env where
  sha256 : Bytes → Digest
  jsonSize : Manifest → Nat
  render : Bool → List Page → Bytes

def Manifest.fingerprint (env : Env) (m : Manifest) : Digest :=
  env.sha256 m.encoding

/-- A row of `files.uploads`. -/
structure UploadRow where
  id : ID
  owner : Owner
  idempotencyKey : ID
  objectKey : ID
  manifest : Manifest
  manifestHash : Digest
  uploadID : Option ID := none
  state : State
  version : Int := 1
  createdAt : Time
  expiresAt : Time
  updatedAt : Time
  cleanFormat : Format := .unknown
  cleanSize : Int := 0
  cleanSHA256 : Option Digest := none
  leaseUntil : Option Time := none
  cleanupAfter : Option Time := none
  deriving DecidableEq

abbrev Uploads := Table UploadRow.id

/-- A format that a derivative may have. -/
def Format.IsClean (f : Format) : Prop :=
  f = .png ∨ f = .jpeg ∨ f = .pdf
  deriving Decidable

/-- The `CHECK` constraints of the table. -/
def UploadRow.Checked (env : Env) (row : UploadRow) : Prop :=
  env.jsonSize row.manifest ≤ 8192 ∧ 0 < row.version ∧ row.version ≤ maxInt64 ∧
    row.createdAt < row.expiresAt ∧ 0 ≤ row.cleanSize ∧ row.cleanSize ≤ maxSize ∧
    (row.state = .ready → 0 < row.cleanSize ∧ row.cleanSHA256 ≠ none ∧ row.cleanFormat.IsClean)
  deriving Decidable

variable (env : Env)

/-- What a row says of its file. -/
def UploadRow.record (row : UploadRow) : Record where
  id := row.id
  owner := row.owner
  idempotencyKey := row.idempotencyKey
  manifest := row.manifest
  objectKey := row.objectKey
  uploadID := row.uploadID
  state := row.state
  version := row.version
  createdAt := row.createdAt
  expiresAt := row.expiresAt
  cleanFormat := row.cleanFormat
  cleanSize := row.cleanSize
  cleanSHA256 := row.cleanSHA256.getD zeroDigest

/-- `decode`. -/
def decode (row : UploadRow) : Option Record :=
  if row.id = zeroID ∨ ¬ row.owner.Valid ∨ row.idempotencyKey = zeroID then none
  else if 8192 < env.jsonSize row.manifest ∨ ¬ row.manifest.Valid ∨ row.version ≤ 0 ∨
      row.expiresAt ≤ row.createdAt then none
  else if row.manifestHash ≠ row.manifest.fingerprint env ∨
      (row.uploadID ≠ none ∧ row.uploadID ≠ some row.id) then none
  else if row.state = .ready ∧ (row.record.cleanSHA256 = zeroDigest ∨ row.cleanSize ≤ 0 ∨
      maxSize < row.cleanSize ∨ ¬ row.cleanFormat.IsClean) then none
  else some row.record

/-- What a statement answers: the row it returns, nothing, or an error.  `refused` is a statement
that the repository does not send. -/
inductive Reply where
  | row (r : UploadRow)
  | none
  | refused
  | limited
  | failed
  deriving DecidableEq

/-- What the repository returns, with the error for a row that is not there. -/
def Reply.result (missing : Err) : Reply → Except Err Record
  | .row r => (decode env r).elim (.error .unavailable) .ok
  | .none => .error missing
  | .refused => .error .invalid
  | .limited => .error .limit
  | .failed => .error .unavailable

/-! ## The statements -/

/-- The update of the row of a record; a row that violates a constraint is not written. -/
def swap (rows : Uploads) (id : ID) (guard : UploadRow → Bool) (f : UploadRow → UploadRow)
    (hf : ∀ row, (f row).id = row.id) : Reply × Uploads :=
  match rows.find id with
  | some row =>
    if guard row then
      if (f row).Checked env then (.row (f row), rows.update (·.id = id) f hf) else (.failed, rows)
    else (.none, rows)
  | none => (.none, rows)

/-- What the trigger refuses: ten files in progress, or a hundred in a day. -/
def OverQuota (rows : Uploads) (owner : Owner) (now : Time) : Prop :=
  10 ≤ rows.rows.countP (fun row ↦ row.owner = owner ∧
    (row.state = .uploading ∨ row.state = .scanning ∨ row.state = .replicating)) ∨
  100 ≤ rows.rows.countP (fun row ↦ row.owner = owner ∧ now - 24 * 60 * 60 * second < row.createdAt)
  deriving Decidable

/-- What `Create` requires of a record. -/
def Record.Valid (v : Record) : Prop :=
  v.owner.Valid ∧ v.id ≠ zeroID ∧ v.idempotencyKey ≠ zeroID ∧ v.manifest.Valid
  deriving Decidable

/-- The row of a new record. -/
def Record.row (v : Record) (now : Time) : UploadRow where
  id := v.id
  owner := v.owner
  idempotencyKey := v.idempotencyKey
  objectKey := v.objectKey
  manifest := v.manifest
  manifestHash := v.manifest.fingerprint env
  state := .uploading
  createdAt := v.createdAt
  expiresAt := v.expiresAt
  updatedAt := now

/-- `INSERT … ON CONFLICT (tenant_id, owner_id, idempotency_key) DO NOTHING`. -/
def insertRow (rows : Uploads) (v : Record) (now : Time) : Reply × Uploads :=
  let taken := rows.rows.any fun row ↦ row.owner = v.owner ∧ row.idempotencyKey = v.idempotencyKey
  if ¬ taken ∧ OverQuota rows v.owner now then (.limited, rows)
  else if ¬ (v.row env now).Checked env then (.failed, rows)
  else if taken then (.none, rows)
  -- the other unique columns
  else if rows.rows.any (·.objectKey = v.objectKey) then (.failed, rows)
  else
    match rows.insert (v.row env now) with
    | some rows => (.row (v.row env now), rows)
    | none => (.failed, rows)

/-- `SELECT … WHERE tenant_id, owner_id, idempotency_key`. -/
def selectRow (rows : Uploads) (owner : Owner) (key : ID) : Option UploadRow :=
  rows.rows.find? fun row ↦ row.owner = owner ∧ row.idempotencyKey = key

/-- `SELECT … WHERE tenant_id, owner_id, id`. -/
def getRow (rows : Uploads) (owner : Owner) (id : ID) : Option UploadRow :=
  (rows.find id).filter (·.owner = owner)

/-- What each compare-and-swap requires of its record. -/
def Record.ValidVersion (v : Record) : Prop :=
  v.owner.Valid ∧ v.id ≠ zeroID ∧ 0 < v.version ∧ v.version < maxInt64
  deriving Decidable

/-- The row is the one of the record, in its version. -/
def Record.Matches (v : Record) (row : UploadRow) : Prop :=
  row.owner = v.owner ∧ row.version = v.version
  deriving Decidable

namespace UploadRow

def attach (uploadID : ID) (now : Time) (row : UploadRow) : UploadRow :=
  { row with uploadID := some uploadID, version := row.version + 1, updatedAt := now }

def moveTo (target : State) (now : Time) (row : UploadRow) : UploadRow :=
  { row with
    state := target
    version := row.version + 1
    updatedAt := now
    leaseUntil := none
    cleanupAfter :=
      if target = .deleted ∨ target = .expired ∨ target = .rejected then some (now + 120 * second)
      else row.cleanupAfter }

def claim (now : Time) (row : UploadRow) : UploadRow :=
  { row with leaseUntil := some (now + 600 * second), version := row.version + 1 }

def markClean (format : Format) (size : Int) (digest : Digest) (now : Time) (row : UploadRow) :
    UploadRow :=
  { row with
    state := .replicating
    cleanFormat := format
    cleanSize := size
    cleanSHA256 := some digest
    version := row.version + 1
    updatedAt := now
    leaseUntil := none }

def deferCleanup (now : Time) (row : UploadRow) : UploadRow :=
  { row with
    cleanupAfter := some (now + 3600 * second)
    leaseUntil := none
    version := row.version + 1 }

theorem id_attach (uploadID : ID) (now : Time) (row : UploadRow) :
    (row.attach uploadID now).id = row.id := rfl

theorem id_moveTo (target : State) (now : Time) (row : UploadRow) :
    (row.moveTo target now).id = row.id := rfl

theorem id_claim (now : Time) (row : UploadRow) : (row.claim now).id = row.id := rfl

theorem id_markClean (format : Format) (size : Int) (digest : Digest) (now : Time)
    (row : UploadRow) : (row.markClean format size digest now).id = row.id := rfl

theorem id_deferCleanup (now : Time) (row : UploadRow) : (row.deferCleanup now).id = row.id := rfl

/-- Whether a lease has run out. -/
def IsFree (row : UploadRow) (now : Time) : Prop :=
  ∀ t ∈ row.leaseUntil, t < now
  deriving Decidable

/-- Whether cleaning up is due. -/
def IsDue (row : UploadRow) (now : Time) : Prop :=
  ∀ t ∈ row.cleanupAfter, t ≤ now
  deriving Decidable

/-- What `Claim` selects. -/
def IsCandidate (row : UploadRow) (now : Time) : Prop :=
  (row.state = .scanning ∨ row.state = .replicating ∨
    row.state = .uploading ∧ row.expiresAt ≤ now ∨
    (row.state = .ready ∨ row.state = .deleted ∨ row.state = .expired ∨ row.state = .rejected) ∧
      row.IsDue now) ∧ row.IsFree now
  deriving Decidable

end UploadRow

/-- `AttachUpload`. -/
def attachUpload (rows : Uploads) (v : Record) (uploadID : ID) (now : Time) : Reply × Uploads :=
  if v.ValidVersion then
    swap env rows v.id
      (fun row ↦ v.Matches row ∧ row.state = .uploading ∧ row.uploadID = none ∧ now < row.expiresAt)
      (.attach uploadID now) (UploadRow.id_attach uploadID now)
  else (.refused, rows)

/-- `Transition`. -/
def transition (rows : Uploads) (v : Record) (target : State) (now : Time) : Reply × Uploads :=
  if v.ValidVersion ∧ CanTransition v.state target then
    swap env rows v.id (fun row ↦ v.Matches row ∧ row.state = v.state) (.moveTo target now)
      (UploadRow.id_moveTo target now)
  else (.none, rows)

/-- `Claim`, for the row that it selects. -/
def claim (rows : Uploads) (id : ID) (now : Time) : Reply × Uploads :=
  swap env rows id (fun row ↦ row.IsCandidate now) (.claim now) (UploadRow.id_claim now)

/-- `MarkClean`. -/
def markClean (rows : Uploads) (v : Record) (format : Format) (size : Int) (digest : Digest)
    (now : Time) : Reply × Uploads :=
  if v.ValidVersion ∧ v.state = .scanning ∧ format.IsClean ∧ 0 < size ∧ size ≤ maxSize ∧
      digest ≠ zeroDigest then
    swap env rows v.id (fun row ↦ v.Matches row ∧ row.state = .scanning)
      (.markClean format size digest now) (UploadRow.id_markClean format size digest now)
  else (.refused, rows)

/-- `DeferCleanup`. -/
def deferCleanup (rows : Uploads) (v : Record) (now : Time) : Reply × Uploads :=
  if v.ValidVersion ∧ (v.state = .deleted ∨ v.state = .rejected ∨ v.state = .expired ∨
      v.state = .ready) then
    swap env rows v.id (fun row ↦ v.Matches row ∧ row.state = v.state) (.deferCleanup now)
      (UploadRow.id_deferCleanup now)
  else (.refused, rows)

/-! ## What a statement does to a row -/

variable {env} {rows rows' : Uploads} {v : Record} {id : ID} {now : Time} {reply : Reply}
  {f : UploadRow → UploadRow} {guard : UploadRow → Bool} {row : UploadRow}

/-- A compare-and-swap updates the one row that passes its guard. -/
theorem swap_find {hf target} (h : swap env rows target guard f hf = (reply, rows')) (id : ID) :
    rows'.find id = rows.find id ∨
      id = target ∧ ∃ row, rows.find id = some row ∧ guard row = true ∧ (f row).Checked env ∧
        reply = .row (f row) ∧ rows'.find id = some (f row) := by
  unfold swap at h
  split at h
  · rename_i row hrow
    split at h
    · rename_i hguard
      split at h
      · rename_i hchecked
        cases h
        obtain ⟨row', hrow', rfl, hid, hfind⟩ | ⟨hsame, -⟩ :=
          Table.of_find_update (rfl : (rows.update (fun row ↦ row.id = target) f hf).find id = _)
        · cases of_decide_eq_true hid
          cases hrow.symm.trans hrow'
          exact .inr ⟨rfl, row, hrow, hguard, hchecked, rfl, hfind⟩
        · exact .inl hsame
      · cases h
        exact .inl rfl
    · cases h
      exact .inl rfl
  · cases h
    exact .inl rfl

/-- The row that is returned is in the table. -/
theorem swap_row {hf}
    (h : swap env rows id guard f hf = (.row row, rows')) : rows'.find id = some row := by
  unfold swap at h
  split at h
  · rename_i old hold
    split at h
    · split at h
      · cases h
        exact Table.find_update_of_find hf hold (decide_eq_true (Table.key_eq_of_find hold))
      · cases h
    · cases h
  · cases h

/-- The record is what was read of the row, in the version that the row still has. -/
structure Record.IsCurrent (v : Record) (row : UploadRow) : Prop where
  id : row.id = v.id
  owner : row.owner = v.owner
  version : row.version = v.version

theorem Record.Matches.isCurrent (h : v.Matches row) (hrow : rows.find v.id = some row) :
    v.IsCurrent row :=
  ⟨Table.key_eq_of_find hrow, h.1, h.2⟩

/-- What becomes of a row in a statement: nothing, or the statement has found and changed it. -/
def Swapped (env : Env) (rows rows' : Uploads) (reply : Reply) (id : ID) (guard : UploadRow → Prop)
    (f : UploadRow → UploadRow) : Prop :=
  rows'.find id = rows.find id ∨
    ∃ row, rows.find id = some row ∧ guard row ∧ (f row).Checked env ∧ reply = .row (f row) ∧
      rows'.find id = some (f row)

/-- A statement on the row of a record, which is sent if the record is `valid`. -/
theorem Swapped.of_statement {valid} [Decidable valid] {refusal hf} {goal : UploadRow → Prop}
    (h : (if valid then swap env rows v.id guard f hf else (refusal, rows)) = (reply, rows'))
    (hgoal : valid → ∀ row, rows.find v.id = some row → guard row = true → goal row) (id : ID) :
    Swapped env rows rows' reply id goal f := by
  split at h
  · rename_i hvalid
    obtain heq | ⟨rfl, row, hrow, hguard, hrest⟩ := swap_find h id
    · exact .inl heq
    · exact .inr ⟨row, hrow, hgoal hvalid row hrow hguard, hrest⟩
  · cases h
    exact .inl rfl

theorem attachUpload_find {uploadID} (h : attachUpload env rows v uploadID now = (reply, rows'))
    (id : ID) : Swapped env rows rows' reply id
      (fun row ↦ v.IsCurrent row ∧ row.state = .uploading ∧ row.uploadID = none)
      (.attach uploadID now) := by
  refine .of_statement h (fun _ row hrow hguard ↦ ?_) id
  obtain ⟨hmatch, hstate, hupload, -⟩ := of_decide_eq_true hguard
  exact ⟨hmatch.isCurrent hrow, hstate, hupload⟩

theorem transition_find {target} (h : transition env rows v target now = (reply, rows'))
    (id : ID) : Swapped env rows rows' reply id
      (fun row ↦ v.IsCurrent row ∧ row.state = v.state ∧ CanTransition v.state target)
      (.moveTo target now) := by
  refine .of_statement h (fun hvalid row hrow hguard ↦ ?_) id
  obtain ⟨hmatch, hstate⟩ := of_decide_eq_true hguard
  exact ⟨hmatch.isCurrent hrow, hstate, hvalid.2⟩

theorem claim_find {target} (h : claim env rows target now = (reply, rows')) (id : ID) :
    Swapped env rows rows' reply id (fun row ↦ row.IsCandidate now) (.claim now) := by
  obtain heq | ⟨rfl, row, hrow, hguard, hrest⟩ := swap_find h id
  · exact .inl heq
  · exact .inr ⟨row, hrow, of_decide_eq_true hguard, hrest⟩

theorem markClean_find {format} {size : Int} {digest}
    (h : markClean env rows v format size digest now = (reply, rows')) (id : ID) :
    Swapped env rows rows' reply id
      (fun row ↦ v.IsCurrent row ∧ row.state = .scanning ∧ v.state = .scanning ∧ format.IsClean ∧
        0 < size ∧ size ≤ maxSize ∧ digest ≠ zeroDigest)
      (.markClean format size digest now) := by
  refine .of_statement h (fun hvalid row hrow hguard ↦ ?_) id
  obtain ⟨hmatch, hstate⟩ := of_decide_eq_true hguard
  exact ⟨hmatch.isCurrent hrow, hstate, hvalid.2⟩

theorem deferCleanup_find (h : deferCleanup env rows v now = (reply, rows')) (id : ID) :
    Swapped env rows rows' reply id (fun row ↦ v.IsCurrent row ∧ row.state = v.state)
      (.deferCleanup now) := by
  refine .of_statement h (fun _ row hrow hguard ↦ ?_) id
  obtain ⟨hmatch, hstate⟩ := of_decide_eq_true hguard
  exact ⟨hmatch.isCurrent hrow, hstate⟩

/-- An insertion adds the row of its record, if no row has its owner and key, nor its object key. -/
theorem insertRow_find (h : insertRow env rows v now = (reply, rows')) :
    rows' = rows ∨ (v.row env now).Checked env ∧
      rows.insert (v.row env now) = some rows' ∧
      (∀ row ∈ rows.rows, ¬ (row.owner = v.owner ∧ row.idempotencyKey = v.idempotencyKey)) ∧
      ∀ row ∈ rows.rows, row.objectKey ≠ v.objectKey := by
  unfold insertRow at h
  extract_lets taken at h
  split at h
  · cases h
    exact .inl rfl
  · split at h
    · cases h
      exact .inl rfl
    · rename_i hchecked
      split at h
      · cases h
        exact .inl rfl
      · rename_i htaken
        split at h
        · cases h
          exact .inl rfl
        · rename_i hobject
          split at h
          · rename_i hinsert
            cases h
            refine .inr ⟨not_not.mp hchecked, hinsert, fun row hrow hkey ↦ htaken ?_,
              fun row hrow hkey ↦ hobject ?_⟩
            · exact List.any_eq_true.mpr ⟨row, hrow, decide_eq_true hkey⟩
            · exact List.any_eq_true.mpr ⟨row, hrow, decide_eq_true hkey⟩
          · cases h
            exact .inl rfl

/-! ## The object store -/

open Auth (encodeHex decodeHex decodeHex_encodeHex length_encodeHex)

inductive Bucket where
  | quarantine
  | internal
  | clean (dc : Fin 2)
  deriving DecidableEq

/-- The object key of a file. -/
def objectKey (object : ID) : Bytes :=
  encodeHex object.toList

/-- `%04d`. -/
def fourDigits (n : Nat) : Bytes :=
  [n / 1000 % 10, n / 100 % 10, n / 10 % 10, n % 10].map fun d ↦ .ofNat (48 + d)

def partKey (object : ID) (number : Nat) : Bytes :=
  objectKey object ++ (ascii "/parts/" ++ fourDigits number)

def cleanFolder (object : ID) : Bytes :=
  objectKey object ++ ascii "/clean/"

def cleanKey (object : ID) (sum : Digest) : Bytes :=
  cleanFolder object ++ encodeHex sum.toList

/-- An object: its content, whether it is encrypted with the key of its bucket, and its metadata. -/
structure Object where
  data : Bytes
  encrypted : Bool
  cleanSHA256 : Option Digest := none
  fileID : Option ID := none
  uploadID : Option ID := none
  deriving DecidableEq

abbrev Objects := Bucket → Bytes → Option Object

/-- A conditional put that was sent. -/
structure Put where
  bucket : Bucket
  key : Bytes
  object : Object

/-- A deletion that was sent, and the record it was sent for. -/
structure Deletion where
  record : Record
  bucket : Bucket
  key : Bytes

def Objects.set (objects : Objects) (bucket : Bucket) (key : Bytes) (object : Option Object) :
    Objects :=
  fun b k ↦ if b = bucket ∧ k = key then object else objects b k

/-- `If-None-Match: *`. -/
def Objects.put (objects : Objects) (p : Put) : Objects :=
  if objects p.bucket p.key = none then objects.set p.bucket p.key (some p.object) else objects

def Objects.delete (objects : Objects) (d : Deletion) : Objects :=
  objects.set d.bucket d.key none

variable (env) {object : ID} {bucket : Bucket}

/-- What `ReadUpload` accepts as a part. -/
def readPart (part : Part) (object : Object) : Except Err Bytes :=
  let body := object.data.take (part.size + 1).toNat
  if (body.length : Int) = part.size ∧ env.sha256 body = part.sha256 ∧
    object.encrypted then .ok body
  else .error .rejected

/-- `readClean`, for an object that is there. -/
def readClean (size : Int) (sum : Digest) (object : Object) : Except Err Bytes :=
  if (object.data.length : Int) ≠ size ∨ object.cleanSHA256 ≠ some sum ∨ ¬ object.encrypted then
    .error .rejected
  else
    let body := object.data.take (size + 1).toNat
    if (body.length : Int) = size ∧ env.sha256 body = sum then .ok body else .error .rejected

/-- The object that `put` sends. -/
def cleanObject (data : Bytes) (sum : Digest) : Object where
  data := data
  encrypted := true
  cleanSHA256 := some sum

def Record.ValidStored (r : Record) : Prop :=
  r.id ≠ zeroID ∧ r.owner.Valid ∧ r.manifest.Valid
  deriving Decidable

/-! ## Keys -/

/-- The keys of a file in a bucket. -/
def KeyOf (object : ID) : Bucket → Bytes → Prop
  | .quarantine, key => ∃ number, key = partKey object number
  | .internal, key => ∃ sum, key = cleanKey object sum
  | .clean _, key => key = objectKey object

theorem length_objectKey (object : ID) : (objectKey object).length = 32 := by
  rw [objectKey, length_encodeHex, List.Vector.toList_length]

theorem objectKey_inj {object'} (h : objectKey object = objectKey object') :
    object = object' := by
  have hdecoded := congrArg decodeHex h
  rw [objectKey, objectKey, decodeHex_encodeHex, decodeHex_encodeHex, Option.some_inj] at hdecoded
  exact List.Vector.toList_injective hdecoded

/-- What follows the object key. -/
theorem KeyOf.exists_append {key} (h : KeyOf object bucket key) :
    ∃ rest, key = objectKey object ++ rest := by
  cases bucket with
  | quarantine =>
    obtain ⟨number, rfl⟩ := h
    exact ⟨_, rfl⟩
  | internal =>
    obtain ⟨sum, rfl⟩ := h
    exact ⟨_, List.append_assoc ..⟩
  | clean => exact ⟨[], h.trans (List.append_nil _).symm⟩

/-- A key that begins with an object key belongs to no other file. -/
theorem KeyOf.object_eq {object' key rest}
    (h : KeyOf object bucket key) (h' : key = objectKey object' ++ rest) : object = object' := by
  obtain ⟨rest', hkey⟩ := h.exists_append
  obtain ⟨hobject, -⟩ := List.append_inj (hkey.symm.trans h')
    ((length_objectKey object).trans (length_objectKey object').symm)
  exact objectKey_inj hobject

end MarketMesh.Files
