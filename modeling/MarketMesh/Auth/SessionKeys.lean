import Mathlib.Data.List.AList
import MarketMesh.Auth.Security

/-!
# The signing keys of assertions

The manager reads a file with scheduled Ed25519 keys for each operation and remembers, for every key
identifier it has ever loaded, the fingerprint of the public key and the end of its trust.  The file
may be replaced by anything at any time, so what an operation reads is an input of it, like the
times it reads from the clock.  A mutex makes each operation one step.
-/

set_option autoImplicit false

namespace MarketMesh.Auth.SessionKeys

/-- `unicode.IsSpace`. -/
def isSpace (c : Char) : Bool :=
  c.toNat ∈ [0x09, 0x0a, 0x0b, 0x0c, 0x0d, 0x20, 0x85, 0xa0, 0x1680, 0x2028, 0x2029, 0x202f, 0x205f,
    0x3000] ∨ 0x2000 ≤ c.toNat ∧ c.toNat ≤ 0x200a

def ValidLabel (value : String) : Prop :=
  value ≠ "" ∧ value.utf8ByteSize ≤ 256 ∧ ¬ value.toList.head?.any isSpace ∧
    ¬ value.toList.getLast?.any isSpace ∧ ∀ c ∈ value.toList, c.toNat ∉ [0x0d, 0x0a, 0x00]

instance (value : String) : Decidable (ValidLabel value) :=
  -- the characters of the label, and not all characters, are looked at
  have : Decidable (∀ c ∈ value.toList, c.toNat ∉ [0x0d, 0x0a, 0x00]) := List.decidableBAll ..
  inferInstanceAs (Decidable (_ ∧ _))

/-- `Unix`. -/
def unix (t : Time) : Int := (t - unixEpoch) / second

/-- `Truncate(time.Second)`. -/
def truncate (t : Time) : Time := t - t % second

/-- `Sub`, which saturates. -/
def sub (t u : Time) : Duration := max (-2 ^ 63) (min maxInt64 (t - u))

/-- The policy of the server. -/
structure Config where
  issuer : String
  maxTTL : Duration
  audiences : AList fun _ : String ↦ List String

/-- A key as it is in the file, its keys in base64. -/
structure FileKey where
  kid : String
  privateKey : Bytes := []
  publicKey : Bytes
  signFrom : Time
  signUntil : Time
  verifyUntil : Time
  deriving DecidableEq

/-- What is read from the file: nothing, where it cannot be read, is too large or is not a document
of the right form. -/
abbrev File := Option (List FileKey)

structure LoadedKey where
  spec : FileKey
  privateKey : Bytes
  publicKey : Bytes
  deriving DecidableEq

structure RememberedKey where
  fingerprint : Digest
  verifyUntil : Time
  deriving DecidableEq

abbrev Seen := AList fun _ : String ↦ RememberedKey

/-- The claims of an assertion. -/
structure Claims where
  issuer : String
  audience : String
  subject : Bytes
  sessionID : Bytes
  issuedAt : Time
  expiresAt : Time
  id : String
  authTime : Time
  acr : String
  amr : List String
  scopes : List String
  actor : String := ""
  deriving DecidableEq

structure Assertion where
  kid : String
  claims : Claims
  signature : Bytes
  deriving DecidableEq

/-- The libraries: SHA-256, Ed25519, and the bytes of a header and of claims that are signed. -/
structure Crypto where
  sha256 : Bytes → Digest
  newKeyFromSeed : Bytes → Bytes
  sign : Bytes → Bytes → Bytes
  verify : Bytes → Bytes → Bytes → Bool
  signingInput : String → Claims → Bytes

/-- What is assumed of them: no two public keys have the same fingerprint, and a signature verifies
under the public half of its key. -/
structure Crypto.Sound (crypto : Crypto) : Prop where
  fingerprint : ∀ p q : Bytes, p.length = 32 → q.length = 32 →
    crypto.sha256 p = crypto.sha256 q → p = q
  verify_sign : ∀ seed message : Bytes, seed.length = 32 →
    crypto.verify ((crypto.newKeyFromSeed seed).drop 32) message
      (crypto.sign (crypto.newKeyFromSeed seed) message) = true

variable (crypto : Crypto) (config : Config)

/-! ## Loading the file -/

/-- The signing window of a key. -/
def FileKey.Signs (spec : FileKey) (now : Time) : Prop :=
  spec.signFrom ≤ now ∧ now < spec.signUntil
  deriving Decidable

/-- A key of the right size in the one base64 encoding it has. -/
def readKey (encoded : Bytes) (size : Nat) : Option Bytes :=
  (decodeBase64 encoded).filter fun raw ↦ raw.length = size ∧ encodeBase64 raw = encoded

/-- What is checked of a key alone. -/
def loadKey (now : Time) (spec : FileKey) : Option LoadedKey :=
  if ¬ ValidLabel spec.kid ∨ unix spec.signFrom ≤ 0 ∨ spec.signUntil ≤ spec.signFrom ∨
      spec.verifyUntil < spec.signUntil + config.maxTTL then none
  else
    match readKey spec.publicKey 32 with
    | none => none
    | some publicKey =>
      if spec.privateKey ≠ [] then
        match readKey spec.privateKey 64 with
        | none => none
        | some privateKey =>
          let canonical := crypto.newKeyFromSeed (privateKey.take 32)
          if canonical = privateKey ∧ canonical.drop 32 = publicKey then
            some
              { spec := { spec with privateKey := [] }
                privateKey := privateKey
                publicKey := publicKey }
          else none
      else if now < spec.signUntil then none
      else some { spec := spec, privateKey := [], publicKey := publicKey }

/-- Whether the key is the one that is remembered under its identifier. -/
def Agrees (seen : Seen) (key : LoadedKey) : Prop :=
  ∀ r ∈ seen.lookup key.spec.kid,
    r.fingerprint = crypto.sha256 key.publicKey ∧ r.verifyUntil ≤ key.spec.verifyUntil
  deriving Decidable

/-- The loop over the keys of the file. -/
def loadKeys (seen : Seen) (now : Time) : List FileKey → List String → Option (List LoadedKey)
  | [], _ => some []
  | spec :: specs, present =>
    if spec.kid ∈ present then none
    else
      match loadKey crypto config now spec with
      | none => none
      | some key =>
        if Agrees crypto seen key then
          (loadKeys seen now specs (spec.kid :: present)).map (key :: ·)
        else none

/-- The keys are remembered. -/
def remember (seen : Seen) (keys : List LoadedKey) : Seen :=
  keys.foldl (fun seen key ↦
    seen.insert key.spec.kid
      { fingerprint := crypto.sha256 key.publicKey, verifyUntil := key.spec.verifyUntil }) seen

/-- The keys in the order of their signing windows. -/
def sortKeys (keys : List LoadedKey) : List LoadedKey :=
  keys.insertionSort fun k l ↦ k.spec.signFrom ≤ l.spec.signFrom

/-- What is checked of all keys. -/
def Consistent (seen : Seen) (now : Time) (keys : List LoadedKey) : Prop :=
  keys.countP (fun key ↦ key.spec.Signs now) = 1 ∧
    (sortKeys keys).IsChain (fun k l ↦ k.spec.signUntil ≤ l.spec.signFrom) ∧
    ∀ e ∈ seen.entries, e.1 ∉ keys.map (·.spec.kid) → e.2.verifyUntil ≤ now
  deriving Decidable

/-- `load`: the keys, and what is remembered afterwards. -/
def load (seen : Seen) (now : Time) (file : File) : Option (List LoadedKey) × Seen :=
  match file with
  | none => (none, seen)
  | some specs =>
    if specs = [] ∨ 64 < specs.length then (none, seen)
    else
      match loadKeys crypto config seen now specs [] with
      | none => (none, seen)
      | some keys =>
        if Consistent seen now keys then
          (some (sortKeys keys), remember crypto seen (sortKeys keys))
        else (none, seen)

/-! ## The operations -/

/-- A public key as it is published. -/
structure PublicKey where
  kid : String
  x : Bytes
  verifyUntil : Time
  kty : String := "OKP"
  crv : String := "Ed25519"
  alg : String := "EdDSA"
  use : String := "sig"
  deriving DecidableEq

def LoadedKey.published (key : LoadedKey) : PublicKey where
  kid := key.spec.kid
  x := encodeBase64 key.publicKey
  verifyUntil := key.spec.verifyUntil

def publicKeys (seen : Seen) (now : Time) (file : File) : Option (List PublicKey) :=
  (load crypto config seen now file).1.map fun keys ↦
    (keys.filter fun key ↦ now < key.spec.verifyUntil).map LoadedKey.published

/-- `Key`. -/
def key (seen : Seen) (kid : String) (now : Time) (file : File) : Option Bytes :=
  (load crypto config seen now file).1.bind fun keys ↦
    (keys.find? fun key ↦ key.spec.kid = kid ∧ now < key.spec.verifyUntil).map (·.publicKey)

/-- What a call of `Issue` is given by its environment: the file, the three times that it reads, the
random identifier, and whether its context has ended when it looks. -/
structure IssueInputs where
  file : File
  now : Time
  signing : Time
  finished : Time
  id : String
  cancelled : Bool := false
  cancelledLate : Bool := false

structure IssueArgs where
  record : Record
  audience : String
  expiresAt : Time

inductive IssueError where
  | cancelled
  | invalidSession
  | unavailable
  deriving DecidableEq

/-- Values that are there, are not empty and are not repeated. -/
def ValidValues (values : List String) (required : Bool) : Prop :=
  (required → values ≠ []) ∧ "" ∉ values ∧ values.Nodup
  deriving Decidable

/-- `Issuer.Issue` with the parameters of the manager. -/
def sign (signing : LoadedKey) (args : IssueArgs) (scopes : List String) (id : String) (now : Time)
    (ttl : Duration) : Option Assertion :=
  let issuedAt := truncate now
  let authTime := truncate args.record.createdAt
  if args.audience = "" ∨ args.record.createdAt = 0 ∨ ttl < second ∨ config.maxTTL < ttl ∨
      ¬ ValidValues scopes false ∨ unix issuedAt ≤ 0 ∨ unix args.record.createdAt ≤ 0 ∨
      issuedAt < authTime then none
  else
    let claims : Claims :=
      { issuer := config.issuer
        audience := args.audience
        subject := encodeBase64 args.record.subjectID.toList
        sessionID := formatID args.record.id
        issuedAt := issuedAt
        -- the claim has whole seconds
        expiresAt := truncate (issuedAt + ttl)
        id := id
        authTime := authTime
        acr := "urn:marketmesh:auth:password"
        amr := ["pwd"]
        scopes := scopes }
    some
      { kid := signing.spec.kid
        claims := claims
        signature := crypto.sign signing.privateKey (crypto.signingInput signing.spec.kid claims) }

/-- The key that signs at a time. -/
def signingKey (keys : List LoadedKey) (now : Time) : Option LoadedKey :=
  keys.find? fun key ↦ key.privateKey ≠ [] ∧ key.spec.Signs now

/-- What `Issue` does with the keys that it has loaded. -/
def issueWith (keys : List LoadedKey) (scopes : List String) (args : IssueArgs)
    (inputs : IssueInputs) : Except IssueError Assertion :=
  let now := inputs.signing
  let ttl := sub args.expiresAt (truncate now)
  if ¬ args.record.Active now ∨ args.record.accessExpiresAt ≤ now then .error .invalidSession
  else if ttl < second ∨ config.maxTTL < ttl ∨ args.expiresAt ≤ now ∨
      args.record.accessExpiresAt < args.expiresAt ∨ args.record.expiresAt < args.expiresAt then
    .error .invalidSession
  else
    match signingKey keys now with
    | none => .error .unavailable
    | some signing =>
      -- what `NewIssuer` checks
      if signing.privateKey.length ≠ 64 ∨ signing.spec.kid = "" ∨ config.issuer = "" ∨
          config.maxTTL < second then .error .unavailable
      else
        match sign crypto config signing args scopes inputs.id now ttl with
        | none => .error .invalidSession
        | some assertion =>
          if inputs.cancelledLate then .error .cancelled
          else if args.expiresAt ≤ inputs.finished ∨ signing.spec.signUntil ≤ inputs.finished then
            .error .invalidSession
          else .ok assertion

/-- `Issue`: its result, and what is remembered afterwards. -/
def issue (seen : Seen) (args : IssueArgs) (inputs : IssueInputs) :
    Except IssueError Assertion × Seen :=
  if inputs.cancelled then (.error .cancelled, seen)
  else
    match config.audiences.lookup args.audience with
    | none => (.error .invalidSession, seen)
    | some scopes =>
      if args.expiresAt ≠ truncate args.expiresAt then (.error .invalidSession, seen)
      else
        match load crypto config seen inputs.now inputs.file with
        | (none, seen) => (.error .unavailable, seen)
        | (some keys, seen) => (issueWith crypto config keys scopes args inputs, seen)

/-! ## What a load says of the keys -/

variable {crypto config} {seen seen' : Seen} {now : Time} {file : File} {keys : List LoadedKey}
  {spec : FileKey} {k l : LoadedKey} {kid : String}

/-- A key that was loaded. -/
structure LoadedKey.Sound (crypto : Crypto) (config : Config) (key : LoadedKey) : Prop where
  window : key.spec.signFrom < key.spec.signUntil
  trust : key.spec.signUntil + config.maxTTL ≤ key.spec.verifyUntil
  publicKey : key.publicKey.length = 32
  /-- The private key, if there is one, belongs to the public key. -/
  privateKey : key.privateKey ≠ [] → ∃ seed : Bytes, seed.length = 32 ∧
    key.privateKey = crypto.newKeyFromSeed seed ∧ key.privateKey.drop 32 = key.publicKey

theorem length_readKey {encoded raw} {size : Nat} (h : readKey encoded size = some raw) :
    raw.length = size := by
  obtain ⟨-, h⟩ := Option.filter_eq_some_iff.mp h
  exact (of_decide_eq_true h).1

theorem loadKey_sound (h : loadKey crypto config now spec = some k) :
    k.Sound crypto config ∧ k.spec.kid = spec.kid := by
  unfold loadKey at h
  split at h
  · cases h
  · rename_i hchecks
    simp only [not_or, not_le, not_lt, not_not] at hchecks
    obtain ⟨-, -, hwindow, htrust⟩ := hchecks
    split at h
    · cases h
    · rename_i publicKey hpublic
      split at h
      · split at h
        · cases h
        · rename_i privateKey hprivate
          dsimp only at h
          split at h <;> cases h
          rename_i hcanonical
          refine ⟨⟨hwindow, htrust, length_readKey hpublic, fun _ ↦ ?_⟩, rfl⟩
          refine ⟨privateKey.take 32, ?_, hcanonical.1.symm, hcanonical.1 ▸ hcanonical.2⟩
          rw [List.length_take, length_readKey hprivate]
          rfl
      · split at h
        · cases h
        · cases h
          exact ⟨⟨hwindow, htrust, length_readKey hpublic, fun h ↦ absurd rfl h⟩, rfl⟩

/-- The loop: every key is sound and is the one that is remembered, and no identifier is
repeated. -/
theorem loadKeys_sound {specs present}
    (h : loadKeys crypto config seen now specs present = some keys) :
    (∀ key ∈ keys, key.Sound crypto config ∧ Agrees crypto seen key ∧ key.spec.kid ∉ present) ∧
      (keys.map (·.spec.kid)).Nodup := by
  induction specs generalizing present keys with
  | nil =>
    cases h
    exact ⟨nofun, List.nodup_nil⟩
  | cons spec specs ih =>
    rw [loadKeys] at h
    split at h
    · cases h
    · rename_i hpresent
      split at h
      · cases h
      · rename_i key hkey
        split at h
        · rename_i hagrees
          obtain ⟨rest, hrest, rfl⟩ := Option.map_eq_some_iff.mp h
          obtain ⟨hsound, hkid⟩ := loadKey_sound hkey
          obtain ⟨hall, hnodup⟩ := ih hrest
          constructor
          · intro key' hkey'
            obtain rfl | hkey' := List.mem_cons.mp hkey'
            · exact ⟨hsound, hagrees, hkid ▸ hpresent⟩
            · obtain ⟨hsound', hagrees', hfresh⟩ := hall key' hkey'
              exact ⟨hsound', hagrees', fun hmem ↦ hfresh (List.mem_cons_of_mem _ hmem)⟩
          · refine List.nodup_cons.mpr ⟨?_, hnodup⟩
            intro hmem
            obtain ⟨key', hkey', heq⟩ := List.mem_map.mp hmem
            exact (hall key' hkey').2.2 (heq ▸ hkid ▸ List.mem_cons_self ..)
        · cases h

/-! ## What is remembered -/

/-- What is remembered of a key. -/
def LoadedKey.remembered (crypto : Crypto) (key : LoadedKey) : RememberedKey where
  fingerprint := crypto.sha256 key.publicKey
  verifyUntil := key.spec.verifyUntil

theorem lookup_remember_of_not_mem (h : kid ∉ keys.map (·.spec.kid)) :
    (remember crypto seen keys).lookup kid = seen.lookup kid := by
  induction keys generalizing seen with
  | nil => rfl
  | cons key keys ih =>
    rw [List.map_cons, List.mem_cons, not_or] at h
    exact (ih h.2).trans (AList.lookup_insert_ne h.1)

theorem lookup_remember_of_mem (hnodup : (keys.map (·.spec.kid)).Nodup) (h : k ∈ keys) :
    (remember crypto seen keys).lookup k.spec.kid = some (k.remembered crypto) := by
  induction keys generalizing seen with
  | nil => cases h
  | cons key keys ih =>
    obtain ⟨hfresh, hnodup⟩ := List.nodup_cons.mp hnodup
    obtain rfl | h := List.mem_cons.mp h
    · exact (lookup_remember_of_not_mem hfresh).trans (AList.lookup_insert _)
    · exact ih hnodup h

/-! ## The whole load -/

/-- **What a load that succeeds guarantees.** -/
structure Loaded (crypto : Crypto) (config : Config) (seen seen' : Seen) (now : Time)
    (keys : List LoadedKey) : Prop where
  sound : ∀ key ∈ keys, key.Sound crypto config
  agrees : ∀ key ∈ keys, Agrees crypto seen key
  nodup : (keys.map (·.spec.kid)).Nodup
  /-- One window is open. -/
  active : keys.countP (fun key ↦ key.spec.Signs now) = 1
  disjoint : keys.Pairwise fun k l ↦ k.spec.signUntil ≤ l.spec.signFrom
  /-- No key is missing that is still trusted. -/
  present : ∀ kid r, seen.lookup kid = some r → now < r.verifyUntil →
    ∃ key ∈ keys, key.spec.kid = kid
  remembers : ∀ key ∈ keys, seen'.lookup key.spec.kid = some (key.remembered crypto)
  keeps : ∀ kid, kid ∉ keys.map (·.spec.kid) → seen'.lookup kid = seen.lookup kid

/-- Windows that are not empty are disjoint if neighbours are. -/
theorem pairwise_of_isChain (hwindow : ∀ key ∈ keys, key.spec.signFrom < key.spec.signUntil)
    (h : keys.IsChain fun k l ↦ k.spec.signUntil ≤ l.spec.signFrom) :
    keys.Pairwise fun k l ↦ k.spec.signUntil ≤ l.spec.signFrom := by
  induction keys with
  | nil => exact .nil
  | cons key keys ih =>
    cases keys with
    | nil => exact List.pairwise_singleton _ _
    | cons next =>
      obtain ⟨hnext, htail⟩ := List.isChain_cons_cons.mp h
      have hrest := ih (fun key h ↦ hwindow key (List.mem_cons_of_mem _ h)) htail
      refine List.pairwise_cons.mpr ⟨?_, hrest⟩
      intro l hl
      obtain rfl | hl := List.mem_cons.mp hl
      · exact hnext
      · have hlate := (List.pairwise_cons.mp hrest).1 l hl
        have hlong := hwindow next (List.mem_cons_of_mem _ (List.mem_cons_self ..))
        exact hnext.trans (hlong.le.trans hlate)

theorem loaded (h : load crypto config seen now file = (some keys, seen')) :
    Loaded crypto config seen seen' now keys := by
  unfold load at h
  split at h
  · cases h
  · rename_i specs
    split at h
    · cases h
    · split at h
      · cases h
      · rename_i raw hraw
        split at h <;> cases h
        rename_i hconsistent
        obtain ⟨hall, hnodup⟩ := loadKeys_sound hraw
        obtain ⟨hactive, hchain, habsent⟩ := hconsistent
        have hperm : (sortKeys raw).Perm raw := List.perm_insertionSort _ raw
        have hsound : ∀ key ∈ sortKeys raw, key.Sound crypto config :=
          fun key hkey ↦ (hall key (hperm.mem_iff.mp hkey)).1
        have hnodup : ((sortKeys raw).map (·.spec.kid)).Nodup :=
          (hperm.map _).nodup_iff.mpr hnodup
        exact
          { sound := hsound
            agrees := fun key hkey ↦ (hall key (hperm.mem_iff.mp hkey)).2.1
            nodup := hnodup
            active := (hperm.countP_eq _).trans hactive
            disjoint := pairwise_of_isChain (fun key hkey ↦ (hsound key hkey).window) hchain
            present := by
              intro kid r hr hlt
              by_contra hnone
              refine absurd (habsent ⟨kid, r⟩ (AList.mem_lookup_iff.mp hr) ?_) (not_le.mpr hlt)
              intro hmem
              obtain ⟨key, hkey, heq⟩ := List.mem_map.mp hmem
              exact hnone ⟨key, hperm.mem_iff.mpr hkey, heq⟩
            remembers := fun key hkey ↦ lookup_remember_of_mem hnodup hkey
            keeps := fun kid hkid ↦ lookup_remember_of_not_mem hkid }

/-- A load that fails changes nothing. -/
theorem seen_of_failed (h : load crypto config seen now file = (none, seen')) : seen' = seen := by
  unfold load at h
  repeat' split at h
  all_goals cases h <;> rfl

end MarketMesh.Auth.SessionKeys
