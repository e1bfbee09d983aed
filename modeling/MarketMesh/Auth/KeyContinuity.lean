import MarketMesh.Auth.SessionKeys

/-!
# The continuity of the signing keys

A run of the manager is a sequence of its operations, each with the file that it reads and with
times that do not decrease.  What it remembers makes the loads of a run fit together: an identifier
stands for one public key, which stays until the end of its trust.  Since an assertion expires
before that, whoever verifies it finds the key that it was signed with.
-/

set_option autoImplicit false

namespace MarketMesh.Auth.SessionKeys

open Machine

/-- An assertion that was issued, with the key it was signed with and the session it is for. -/
structure Issued where
  assertion : Assertion
  key : LoadedKey
  record : Record

/-- The manager.  `clock` is the last time that it has read; `loads` and `issued` record the loads
that have succeeded and the assertions that were returned. -/
structure Manager where
  clock : Time
  seen : Seen := ∅
  loads : List (Time × List LoadedKey) := []
  issued : List Issued := []

inductive Action where
  | new (now : Time) (file : File)
  | publicKeys (now : Time) (file : File)
  | key (kid : String) (now : Time) (file : File)
  | issue (args : IssueArgs) (inputs : IssueInputs)

variable (crypto : Crypto) (config : Config)

/-- The keys that `Issue` loads, if it comes to that. -/
def issueKeys (seen : Seen) (args : IssueArgs) (inputs : IssueInputs) : Option (List LoadedKey) :=
  if inputs.cancelled ∨ config.audiences.lookup args.audience = none ∨
      args.expiresAt ≠ truncate args.expiresAt then none
  else (load crypto config seen inputs.now inputs.file).1

namespace Manager

/-- An operation that only loads the keys. -/
def read (m : Manager) (now : Time) (file : File) : Manager :=
  { m with
    clock := now
    seen := (load crypto config m.seen now file).2
    loads := m.loads ++ ((load crypto config m.seen now file).1.map (now, ·)).toList }

/-- What `Issue` returns is recorded. -/
def record (m : Manager) (args : IssueArgs) (inputs : IssueInputs) : List Issued :=
  match (issue crypto config m.seen args inputs).1 with
  | .ok assertion =>
    (((issueKeys crypto config m.seen args inputs).bind (signingKey · inputs.signing)).map
      fun key ↦ { assertion := assertion, key := key, record := args.record }).toList
  | .error _ => []

def step (m : Manager) : Action → Option Manager
  | .new now file | .publicKeys now file | .key _ now file =>
    if m.clock ≤ now then some (m.read crypto config now file) else none
  | .issue args inputs =>
    if m.clock ≤ inputs.now ∧ inputs.now ≤ inputs.signing ∧ inputs.signing ≤ inputs.finished then
      some
        { clock := inputs.finished
          seen := (issue crypto config m.seen args inputs).2
          loads := m.loads ++
            ((issueKeys crypto config m.seen args inputs).map (inputs.now, ·)).toList
          issued := m.issued ++ m.record crypto config args inputs }
    else none

end Manager

variable {crypto config} {m m' : Manager} {a : Action} {seen seen' : Seen} {now : Time}
  {file : File} {keys : List LoadedKey} {args : IssueArgs} {inputs : IssueInputs}
  {assertion : Assertion} {kid : String} {k : LoadedKey} {scopes : List String}

/-! ## What `Issue` returns -/

theorem truncate_le (t : Time) : truncate t ≤ t := by
  have h : ∀ t : Int, t - t % 1000000000 ≤ t := by omega
  exact h t

theorem sub_le {t u} (h : 0 < sub t u) : u + sub t u ≤ t := by
  have hle : ∀ t u d : Int, 0 < d → d = max (-2 ^ 63) (min (2 ^ 63 - 1) (t - u)) → u + d ≤ t := by
    omega
  exact hle t u _ h rfl

/-- `Issue` remembers what the load of its keys has remembered. -/
theorem issue_seen (crypto : Crypto) (config : Config) (seen : Seen) (args : IssueArgs)
    (inputs : IssueInputs) : issueKeys crypto config seen args inputs = none ∧
        (issue crypto config seen args inputs).2 = seen ∨
      ∃ keys, issueKeys crypto config seen args inputs = some keys ∧
        load crypto config seen inputs.now inputs.file =
          (some keys, (issue crypto config seen args inputs).2) := by
  unfold issueKeys issue
  by_cases hcancelled : inputs.cancelled
  · rw [if_pos (.inl hcancelled), if_pos hcancelled]
    exact .inl ⟨rfl, rfl⟩
  rw [if_neg hcancelled]
  cases hscopes : config.audiences.lookup args.audience with
  | none => exact .inl ⟨if_pos (.inr (.inl rfl)), rfl⟩
  | some =>
    dsimp only
    by_cases hwhole : args.expiresAt ≠ truncate args.expiresAt
    · rw [if_pos hwhole, if_pos (.inr (.inr hwhole))]
      exact .inl ⟨rfl, rfl⟩
    · rw [if_neg hwhole, if_neg (by simp [hcancelled, hwhole])]
      cases hload : load crypto config seen inputs.now inputs.file with
      | mk keys =>
        cases keys with
        | none => exact .inl ⟨rfl, seen_of_failed hload⟩
        | some keys => exact .inr ⟨keys, rfl, rfl⟩

/-- What is signed. -/
theorem sign_eq_some {id ttl} (h : sign crypto config k args scopes id now ttl = some assertion) :
    assertion.kid = k.spec.kid ∧ assertion.claims.expiresAt = truncate (truncate now + ttl) ∧
      assertion.signature =
        crypto.sign k.privateKey (crypto.signingInput assertion.kid assertion.claims) := by
  unfold sign at h
  dsimp only at h
  split at h <;> cases h
  exact ⟨rfl, rfl, rfl⟩

/-- **What an assertion that is returned says.**  It is signed with the key whose window is open, it
expires before the trust in that key, and no later than the session. -/
theorem issueWith_ok (h : issueWith crypto config keys scopes args inputs = .ok assertion) :
    ∃ key, signingKey keys inputs.signing = some key ∧ assertion.kid = key.spec.kid ∧
      assertion.signature =
        crypto.sign key.privateKey (crypto.signingInput assertion.kid assertion.claims) ∧
      assertion.claims.expiresAt < key.spec.signUntil + config.maxTTL ∧
      assertion.claims.expiresAt ≤ args.record.accessExpiresAt ∧
      assertion.claims.expiresAt ≤ args.record.expiresAt := by
  unfold issueWith at h
  dsimp only at h
  split at h
  · cases h
  · split at h
    · cases h
    · rename_i hbounds
      simp only [not_or, not_lt, not_le] at hbounds
      obtain ⟨hsecond, hmax, -, haccess, hexpiry⟩ := hbounds
      split at h
      · cases h
      · rename_i key hkey
        split at h
        · cases h
        · split at h
          · cases h
          · rename_i signed hsign
            split at h
            · cases h
            · split at h
              · cases h
              · cases h
                obtain ⟨hkid, hexpires, hsignature⟩ := sign_eq_some hsign
                have hsigns : key.spec.Signs inputs.signing := by
                  have := List.find?_some hkey
                  exact (of_decide_eq_true this).2
                have hpos : 0 < sub args.expiresAt (truncate inputs.signing) :=
                  lt_of_lt_of_le (by decide) hsecond
                have hle := sub_le hpos
                have hexp := truncate_le (truncate inputs.signing +
                  sub args.expiresAt (truncate inputs.signing))
                have hnow := truncate_le inputs.signing
                rw [← hexpires] at hexp
                refine ⟨key, hkey, hkid, hsignature, ?_, ?_, ?_⟩
                · calc assertion.claims.expiresAt
                      ≤ truncate inputs.signing + sub args.expiresAt
                        (truncate inputs.signing) := hexp
                    _ ≤ inputs.signing + config.maxTTL := add_le_add hnow hmax
                    _ < key.spec.signUntil + config.maxTTL := by
                      have := hsigns.2
                      exact Int.add_lt_add_right this _
                · exact (hexp.trans hle).trans haccess
                · exact (hexp.trans hle).trans hexpiry

theorem issue_ok (h : (issue crypto config seen args inputs).1 = .ok assertion) :
    ∃ keys scopes, issueKeys crypto config seen args inputs = some keys ∧
      issueWith crypto config keys scopes args inputs = .ok assertion := by
  unfold issue at h
  split at h
  · cases h
  · rename_i hcancelled
    split at h
    · cases h
    · rename_i scopes hscopes
      split at h
      · cases h
      · rename_i hwhole
        split at h
        · cases h
        · rename_i keys seen' hload
          refine ⟨keys, scopes, ?_, h⟩
          rw [issueKeys, if_neg (by simp [hcancelled, hscopes, hwhole]), hload]

/-! ## Runs -/

/-- How a load fits to an earlier one: an identifier stands for the same key, whose trust does not
end earlier, and a key that is still trusted is there. -/
def Continues (earlier later : Time × List LoadedKey) : Prop :=
  (∀ k ∈ earlier.2, ∀ l ∈ later.2, k.spec.kid = l.spec.kid →
    k.publicKey = l.publicKey ∧ k.spec.verifyUntil ≤ l.spec.verifyUntil) ∧
  ∀ k ∈ earlier.2, later.1 < k.spec.verifyUntil → ∃ l ∈ later.2, l.spec.kid = k.spec.kid

/-- What holds of an assertion that was returned. -/
structure Issued.Sound (crypto : Crypto) (i : Issued) : Prop where
  kid : i.assertion.kid = i.key.spec.kid
  verifies : crypto.verify i.key.publicKey
    (crypto.signingInput i.assertion.kid i.assertion.claims) i.assertion.signature = true
  trusted : i.assertion.claims.expiresAt < i.key.spec.verifyUntil
  access : i.assertion.claims.expiresAt ≤ i.record.accessExpiresAt
  expiry : i.assertion.claims.expiresAt ≤ i.record.expiresAt

namespace Manager

/-- What holds of the manager after any run. -/
structure Sound (crypto : Crypto) (config : Config) (m : Manager) : Prop where
  sound : ∀ x ∈ m.loads, ∀ key ∈ x.2, key.Sound crypto config
  /-- Every key that was loaded is remembered. -/
  remembered : ∀ x ∈ m.loads, ∀ key ∈ x.2, ∃ r, m.seen.lookup key.spec.kid = some r ∧
    r.fingerprint = crypto.sha256 key.publicKey ∧ key.spec.verifyUntil ≤ r.verifyUntil
  windows : ∀ x ∈ m.loads, x.2.countP (fun key ↦ key.spec.Signs x.1) = 1 ∧
    x.2.Pairwise fun k l ↦ k.spec.signUntil ≤ l.spec.signFrom
  continues : m.loads.Pairwise Continues
  issued : ∀ i ∈ m.issued, i.Sound crypto ∧ ∃ x ∈ m.loads, i.key ∈ x.2

/-- The keys of a load, compared with a key that was loaded before. -/
theorem Sound.of_loaded (h : m.Sound crypto config) (hcrypto : crypto.Sound)
    (hload : Loaded crypto config m.seen seen' now keys) :
    ∀ x ∈ m.loads, Continues x (now, keys) := by
  intro x hx
  constructor
  · intro k hk l hl hkid
    obtain ⟨r, hr, hfingerprint, htrust⟩ := h.remembered x hx k hk
    obtain ⟨hsame, hlater⟩ := hload.agrees l hl r (hkid ▸ hr)
    refine ⟨?_, htrust.trans hlater⟩
    exact hcrypto.fingerprint _ _ (h.sound x hx k hk).publicKey (hload.sound l hl).publicKey
      (hfingerprint.symm.trans hsame)
  · intro k hk hlt
    obtain ⟨r, hr, -, htrust⟩ := h.remembered x hx k hk
    exact hload.present _ r hr (lt_of_lt_of_le hlt htrust)

/-- The manager after a load. -/
theorem Sound.loads (h : m.Sound crypto config) (hcrypto : crypto.Sound)
    (hload : Loaded crypto config m.seen seen' now keys) (clock : Time) :
    Sound crypto config
      { clock := clock, seen := seen', loads := m.loads ++ [(now, keys)], issued := m.issued } where
  sound x hx := by
    obtain hx | hx := List.mem_append.mp hx
    · exact h.sound x hx
    · cases List.mem_singleton.mp hx
      exact hload.sound
  remembered x hx key hkey := by
    obtain hx | hx := List.mem_append.mp hx
    · obtain ⟨r, hr, hfingerprint, htrust⟩ := h.remembered x hx key hkey
      by_cases hmem : key.spec.kid ∈ keys.map (·.spec.kid)
      · obtain ⟨l, hl, hkid⟩ := List.mem_map.mp hmem
        obtain ⟨hpublic, hlater⟩ := (h.of_loaded hcrypto hload x hx).1 key hkey l hl hkid.symm
        refine ⟨l.remembered crypto, hkid ▸ hload.remembers l hl, ?_, hlater⟩
        rw [hpublic]
        rfl
      · exact ⟨r, (hload.keeps _ hmem).trans hr, hfingerprint, htrust⟩
    · cases List.mem_singleton.mp hx
      exact ⟨key.remembered crypto, hload.remembers key hkey, rfl, le_refl _⟩
  windows x hx := by
    obtain hx | hx := List.mem_append.mp hx
    · exact h.windows x hx
    · cases List.mem_singleton.mp hx
      exact ⟨hload.active, hload.disjoint⟩
  continues := by
    refine List.pairwise_append.mpr ⟨h.continues, List.pairwise_singleton _ _, ?_⟩
    intro x hx y hy
    cases List.mem_singleton.mp hy
    exact h.of_loaded hcrypto hload x hx
  issued i hi := by
    obtain ⟨hi, x, hx, hkey⟩ := h.issued i hi
    exact ⟨hi, x, List.mem_append_left _ hx, hkey⟩

theorem Sound.read (h : m.Sound crypto config) (hcrypto : crypto.Sound) (now : Time) (file : File) :
    (m.read crypto config now file).Sound crypto config := by
  unfold Manager.read
  cases hload : SessionKeys.load crypto config m.seen now file with
  | mk keys =>
    cases keys with
    | none =>
      rw [seen_of_failed hload]
      simp only [Option.map_none, Option.toList_none, List.append_nil]
      exact ⟨h.sound, h.remembered, h.windows, h.continues, h.issued⟩
    | some => exact h.loads hcrypto (loaded hload) now

/-- The signing key of a load, which has a private key. -/
theorem mem_of_signingKey (h : signingKey keys now = some k) :
    k ∈ keys ∧ k.privateKey ≠ [] :=
  have hprivate := List.find?_some h
  ⟨List.mem_of_find?_eq_some h, (of_decide_eq_true hprivate).1⟩

/-- The assertions that a call of `Issue` returns. -/
theorem record_sound (hcrypto : crypto.Sound) {i} (hi : i ∈ m.record crypto config args inputs) :
    i.Sound crypto ∧ ∃ keys, issueKeys crypto config m.seen args inputs = some keys ∧
      i.key ∈ keys := by
  unfold record at hi
  split at hi
  · rename_i assertion hissue
    obtain ⟨keys, scopes, hkeys, hissue⟩ := issue_ok hissue
    obtain ⟨key, hkey, hkid, hsignature, htrust, haccess, hexpiry⟩ := issueWith_ok hissue
    rw [hkeys, Option.bind_some, hkey] at hi
    cases List.mem_singleton.mp hi
    obtain ⟨hmem, hprivate⟩ := mem_of_signingKey hkey
    have hload : key.Sound crypto config := by
      obtain ⟨hnone, -⟩ | ⟨keys', hkeys', hload⟩ :=
        issue_seen crypto config m.seen args inputs
      · cases hkeys.symm.trans hnone
      · cases hkeys.symm.trans hkeys'
        exact (loaded hload).sound key hmem
    obtain ⟨seed, hseed, hprivate, hpublic⟩ := hload.privateKey hprivate
    refine ⟨⟨hkid, ?_, lt_of_lt_of_le htrust hload.trust, haccess, hexpiry⟩, keys, hkeys, hmem⟩
    dsimp only
    rw [hsignature, ← hpublic, hprivate]
    exact hcrypto.verify_sign seed _ hseed
  · cases hi

theorem Sound.step (h : m.Sound crypto config) (hcrypto : crypto.Sound)
    (hstep : m.step crypto config a = some m') : m'.Sound crypto config := by
  cases a with
  | new now file | publicKeys now file | key _ now file =>
    rw [Manager.step] at hstep
    split at hstep <;> cases hstep
    exact h.read hcrypto now file
  | issue args inputs =>
    rw [Manager.step] at hstep
    split at hstep <;> cases hstep
    have hrecord {i : Issued} (hi : i ∈ m.record crypto config args inputs) :=
      record_sound hcrypto hi
    obtain ⟨hnone, hseen⟩ | ⟨keys, hkeys, hload⟩ :=
      issue_seen crypto config m.seen args inputs
    · rw [hseen, hnone]
      simp only [Option.map_none, Option.toList_none, List.append_nil]
      refine ⟨h.sound, h.remembered, h.windows, h.continues, ?_⟩
      intro i hi
      obtain hi | hi := List.mem_append.mp hi
      · exact h.issued i hi
      · obtain ⟨-, keys, hkeys, -⟩ := hrecord hi
        cases hnone.symm.trans hkeys
    · have hnew := h.loads hcrypto (loaded hload) inputs.finished
      rw [hkeys]
      refine ⟨hnew.sound, hnew.remembered, hnew.windows, hnew.continues, ?_⟩
      intro i hi
      obtain hi | hi := List.mem_append.mp hi
      · exact hnew.issued i hi
      · obtain ⟨hsound, keys', hkeys', hmem⟩ := hrecord hi
        cases hkeys.symm.trans hkeys'
        exact ⟨hsound, _, List.mem_append_right _ (List.mem_singleton_self _), hmem⟩

theorem sound {start} (hcrypto : crypto.Sound)
    (h : Reach (step crypto config) (fun _ _ ↦ True) { clock := start } m) :
    m.Sound crypto config :=
  Reach.invariant (P := Sound crypto config)
    { sound := fun _ h ↦ by cases h
      remembered := fun _ h ↦ by cases h
      windows := fun _ h ↦ by cases h
      continues := List.Pairwise.nil
      issued := fun _ h ↦ by cases h }
    (fun _ _ _ _ ih _ hstep ↦ ih.step hcrypto hstep) h

/-! ## The guarantees -/

variable {l : LoadedKey}

/-- Two keys whose windows follow each other never sign at the same time. -/
theorem not_signs {k : LoadedKey} (h : k.spec.signUntil ≤ l.spec.signFrom) (t : Time) :
    ¬ (k.spec.Signs t ∧ l.spec.Signs t) := by
  rintro ⟨⟨-, hk⟩, hl, -⟩
  exact absurd (h.trans hl) (not_le.mpr hk)

/-- The key that was loaded for an assertion, in a load before the assertion expires. -/
theorem Sound.find_key (h : m.Sound crypto config) (hcrypto : crypto.Sound) {i}
    (hi : i ∈ m.issued) (hnow : now < i.assertion.claims.expiresAt)
    (hload : Loaded crypto config m.seen seen' now keys) :
    ∃ l ∈ keys, l.spec.kid = i.assertion.kid ∧ l.publicKey = i.key.publicKey ∧
      now < l.spec.verifyUntil := by
  obtain ⟨hsound, x, hx, hkey⟩ := h.issued i hi
  obtain ⟨hsame, hpresent⟩ := h.of_loaded hcrypto hload x hx
  have hlt := hnow.trans hsound.trusted
  obtain ⟨l, hl, hkid⟩ := hpresent i.key hkey hlt
  obtain ⟨hpublic, htrust⟩ := hsame i.key hkey l hl hkid.symm
  exact ⟨l, hl, hkid.trans hsound.kid.symm, hpublic.symm, lt_of_lt_of_le hlt htrust⟩

/-- An identifier stands for one key of a load. -/
theorem eq_of_kid (hload : Loaded crypto config seen seen' now keys) {k} (hk : k ∈ keys)
    (hl : l ∈ keys) (hkid : k.spec.kid = l.spec.kid) : k = l :=
  List.inj_on_of_nodup_map hload.nodup hk hl hkid

theorem key_of_loaded (hload : load crypto config seen now file = (some keys, seen'))
    (hl : l ∈ keys) (hnow : now < l.spec.verifyUntil) :
    SessionKeys.key crypto config seen l.spec.kid now file = some l.publicKey := by
  rw [SessionKeys.key, hload]
  dsimp only [Option.bind_some]
  cases hfind : keys.find? fun key ↦ key.spec.kid = l.spec.kid ∧ now < key.spec.verifyUntil with
  | none => exact absurd (List.find?_eq_none.mp hfind l hl) (by simp [hnow])
  | some =>
    have hkey := List.find?_some hfind
    cases eq_of_kid (loaded hload) (List.mem_of_find?_eq_some hfind) hl (of_decide_eq_true hkey).1
    rfl

theorem publicKeys_of_loaded (hload : load crypto config seen now file = (some keys, seen'))
    (hl : l ∈ keys) (hnow : now < l.spec.verifyUntil) :
    ∃ published, SessionKeys.publicKeys crypto config seen now file = some published ∧
      l.published ∈ published ∧ ∀ p ∈ published, p.kid = l.spec.kid → p = l.published := by
  rw [SessionKeys.publicKeys, hload]
  refine ⟨_, rfl, ?_, ?_⟩
  · exact List.mem_map_of_mem (List.mem_filter.mpr ⟨hl, decide_eq_true hnow⟩)
  · intro p hp hkid
    obtain ⟨key, hkey, rfl⟩ := List.mem_map.mp hp
    cases eq_of_kid (loaded hload) (List.mem_filter.mp hkey).1 hl hkid
    rfl

/-- **The continuity of the signing keys.**  The loads of a run fit together; in each of them the
windows are disjoint and one is open; a load keeps every key that is remembered and still trusted,
and one that fails changes nothing that is remembered.  An assertion that was returned verifies
under the key that was loaded for it, does not outlive the session, and until it expires `Key` and
`PublicKeys` yield that key. -/
theorem key_continuity {start : Time} (hcrypto : crypto.Sound)
    (h : Reach (step crypto config) (fun _ _ ↦ True) { clock := start } m) :
    m.loads.Pairwise Continues ∧
    (∀ x ∈ m.loads, x.2.countP (fun key ↦ key.spec.Signs x.1) = 1 ∧
      x.2.Pairwise fun k l ↦ ∀ t, ¬ (k.spec.Signs t ∧ l.spec.Signs t)) ∧
    (∀ now file keys seen' kid r, load crypto config m.seen now file = (some keys, seen') →
      m.seen.lookup kid = some r → now < r.verifyUntil → ∃ key ∈ keys, key.spec.kid = kid) ∧
    (∀ now file seen', load crypto config m.seen now file = (none, seen') → seen' = m.seen) ∧
    ∀ i ∈ m.issued,
      (∃ x ∈ m.loads, i.key ∈ x.2) ∧ i.assertion.kid = i.key.spec.kid ∧
      crypto.verify i.key.publicKey (crypto.signingInput i.assertion.kid i.assertion.claims)
        i.assertion.signature = true ∧
      i.assertion.claims.expiresAt ≤ i.record.accessExpiresAt ∧
      i.assertion.claims.expiresAt ≤ i.record.expiresAt ∧
      ∀ now file keys seen', now < i.assertion.claims.expiresAt →
        load crypto config m.seen now file = (some keys, seen') →
        SessionKeys.key crypto config m.seen i.assertion.kid now file = some i.key.publicKey ∧
        ∃ published, SessionKeys.publicKeys crypto config m.seen now file = some published ∧
          (∃ p ∈ published, p.kid = i.assertion.kid ∧ p.x = encodeBase64 i.key.publicKey) ∧
          ∀ p ∈ published, p.kid = i.assertion.kid → p.x = encodeBase64 i.key.publicKey := by
  have hm := sound hcrypto h
  refine ⟨hm.continues, ?_, ?_, ?_, ?_⟩
  · intro x hx
    obtain ⟨hactive, hdisjoint⟩ := hm.windows x hx
    exact ⟨hactive, hdisjoint.imp fun hle t ↦ not_signs hle t⟩
  · intro now file keys seen' kid r hload hr hlt
    exact (loaded hload).present kid r hr hlt
  · intro now file seen' hload
    exact seen_of_failed hload
  · intro i hi
    obtain ⟨hsound, hload⟩ := hm.issued i hi
    refine ⟨hload, hsound.kid, hsound.verifies, hsound.access, hsound.expiry, ?_⟩
    intro now file keys seen' hnow hload
    obtain ⟨l, hl, hkid, hpublic, htrust⟩ := hm.find_key hcrypto hi hnow (loaded hload)
    obtain ⟨published, hpublished, hmem, honly⟩ := publicKeys_of_loaded hload hl htrust
    have hx : l.published.x = encodeBase64 i.key.publicKey := by
      rw [← hpublic]
      rfl
    rw [← hkid, ← hpublic, key_of_loaded hload hl htrust]
    refine ⟨rfl, published, hpublished, ⟨l.published, hmem, rfl, hpublic ▸ hx⟩, ?_⟩
    intro p hp hpkid
    rw [honly p hp hpkid, hpublic]
    exact hx

/-- A toy signature: a key is its seed twice, and a signature is the public key and the message. -/
def sampleCrypto : Crypto where
  sha256 p := if h : p.length = 32 then ⟨p, h⟩ else zeroDigest
  newKeyFromSeed seed := seed ++ seed
  sign key message := key.drop 32 ++ message
  verify publicKey message signature := signature = publicKey ++ message
  signingInput _ _ := []

theorem sampleCrypto_sound : sampleCrypto.Sound where
  fingerprint p q hp hq h := by
    have hsha (r : Bytes) (hr : r.length = 32) : sampleCrypto.sha256 r = ⟨r, hr⟩ := dif_pos hr
    rw [hsha p hp, hsha q hq] at h
    exact congrArg Subtype.val h
  verify_sign seed message _ := decide_eq_true rfl

def sampleConfig : Config where
  issuer := "auth"
  maxTTL := 300 * second
  audiences := AList.insert "user" ["profile"] ∅

/-- A key that signs for some seconds, and is trusted for the longest lifetime of an assertion
more. -/
def sampleKey (kid : String) (n : UInt8) (signFrom signUntil : Int) : FileKey where
  kid := kid
  privateKey := encodeBase64 (List.replicate 64 n)
  publicKey := encodeBase64 (List.replicate 32 n)
  signFrom := unixEpoch + signFrom * second
  signUntil := unixEpoch + signUntil * second
  verifyUntil := unixEpoch + (signUntil + 300) * second

def sampleKeys : List FileKey := [sampleKey "k1" 1 10 200, sampleKey "k2" 2 200 1000]

/-- The file after the rotation, without the private half of the first key. -/
def sampleRotated : File := some [{ sampleKey "k1" 1 10 200 with privateKey := [] },
  sampleKey "k2" 2 200 1000]

def sampleArgs (expiresAt : Int) : IssueArgs where
  record :=
    { id := List.Vector.replicate 16 1
      subjectID := List.Vector.replicate 16 2
      version := 1
      createdAt := unixEpoch + 20 * second
      accessExpiresAt := unixEpoch + 620 * second
      refreshExpiresAt := unixEpoch + 3620 * second
      expiresAt := unixEpoch + 3620 * second }
  audience := "user"
  expiresAt := unixEpoch + expiresAt * second

def sampleInputs (file : File) (now : Int) : IssueInputs where
  file := file
  now := unixEpoch + now * second
  signing := unixEpoch + (now + 1) * second
  finished := unixEpoch + (now + 2) * second
  id := "id"

/-- A second key is scheduled, and the file is read again when it has taken over; an assertion that
the first one has signed can still be verified. -/
theorem key_continuity_sample :
    ∃ m, Reach (step sampleCrypto sampleConfig) (fun _ _ ↦ True) { clock := unixEpoch } m ∧
      m.issued.map (·.assertion.kid) = ["k1", "k2"] ∧ m.loads.length = 4 ∧
      m.loads.Pairwise Continues ∧
      ∃ i ∈ m.issued, i.assertion.kid = "k1" ∧ i.assertion.claims.expiresAt ≤ i.record.expiresAt ∧
        SessionKeys.key sampleCrypto sampleConfig m.seen "k1" (unixEpoch + 350 * second)
          sampleRotated = some i.key.publicKey := by
  obtain ⟨m, hreach, hkids, hloads, hexpiry, hload⟩ := exists_of_script
    (step sampleCrypto sampleConfig) (fun _ _ ↦ True) { clock := unixEpoch }
    [.new (unixEpoch + 50 * second) (some (sampleKeys.take 1)),
      .issue (sampleArgs 400) (sampleInputs (some (sampleKeys.take 1)) 100),
      .publicKeys (unixEpoch + 150 * second) (some sampleKeys),
      .issue (sampleArgs 500) (sampleInputs sampleRotated 250)]
    (fun m ↦ m.issued.map (·.assertion.kid) = ["k1", "k2"] ∧ m.loads.length = 4 ∧
      (∀ i ∈ m.issued, unixEpoch + 350 * second < i.assertion.claims.expiresAt) ∧
      (load sampleCrypto sampleConfig m.seen (unixEpoch + 350 * second) sampleRotated).1.isSome)
    (by decide +kernel)
  obtain ⟨hcontinues, -, -, -, hissued⟩ := key_continuity sampleCrypto_sound hreach
  obtain ⟨i, hi, hkid⟩ := List.mem_map.mp (hkids ▸ List.mem_cons_self : "k1" ∈ m.issued.map _)
  obtain ⟨keys, hkeys⟩ := Option.isSome_iff_exists.mp hload
  obtain ⟨-, -, -, -, hrecord, hverify⟩ := hissued i hi
  have hkey := (hverify _ sampleRotated keys _ (hexpiry i hi) (Prod.ext hkeys rfl)).1
  exact ⟨m, hreach, hkids, hloads, hcontinues, i, hi, hkid, hrecord, hkid ▸ hkey⟩

end Manager

end MarketMesh.Auth.SessionKeys
