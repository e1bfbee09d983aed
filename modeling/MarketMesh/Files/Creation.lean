import MarketMesh.Files.Lifecycle

/-!
# Creating an upload once

Any number of calls of `Create` with one owner and idempotency key make one record, and find it
again.  What a call knows of the record is true of the row for ever after, as the columns that it
has looked at do not change; so the parts of an answer are numbered as the manifest of the row says.
-/

set_option autoImplicit false

namespace MarketMesh.Files

open Auth (Bytes Time Digest)

variable {env : Env} {rows rows' : Uploads} {objects : Objects} {v : Record} {now : Time}
  {row : UploadRow} {received : List Nat} {number : Nat} {pc : CallPc}

/-! ## The record of a call -/

theorem insertRow_row (h : insertRow env rows v now = (.row row, rows')) :
    row = v.row env now ∧ rows'.find v.id = some row := by
  unfold insertRow at h
  extract_lets taken at h
  repeat' split at h
  all_goals try cases h
  rename_i hinsert
  exact ⟨rfl, (Table.find_insert hinsert _).trans (if_pos rfl)⟩

/-- The row of the record is the one for the owner and the key of the request. -/
def Stored (rows : Uploads) (req : CreateRequest) (record : Record) : Prop :=
  ∃ row, rows.find record.id = some row ∧ row.owner = req.owner ∧ row.idempotencyKey = req.key ∧
    row.manifest = record.manifest ∧ row.expiresAt = record.expiresAt

/-- The record was found, and has the manifest of the request, as far as the hashes tell. -/
structure Found (env : Env) (rows : Uploads) (req : CreateRequest) (record : Record) : Prop where
  valid : req.manifest.Valid
  stored : Stored rows req record
  manifest : record.manifest.fingerprint env = req.manifest.fingerprint env

/-- The parts of an answer: those that were received, and those for which there is a capability. -/
structure Upload.Complete (u : Upload) : Prop where
  parts : (u.received ++ u.parts.map Capability.partNumber).Perm
    (List.range' 1 u.file.manifest.parts.length)
  expires : ∀ c ∈ u.parts, c.expiresAt ≤ u.file.expiresAt

/-- The numbers before `number` that are not among `received`. -/
def missing (received : List Nat) (number : Nat) : List Nat :=
  (List.range' 1 (number - 1)).filter (· ∉ received)

/-- What a call of `Create` knows, where it is. -/
def CallPc.Knows (env : Env) (rows : Uploads) : CallPc → Prop
  | .inserting req v =>
    req.manifest.Valid ∧ v.owner = req.owner ∧ v.idempotencyKey = req.key ∧
      v.manifest = req.manifest
  | .selecting req => req.manifest.Valid
  | .created req record => req.manifest.Valid ∧ Stored rows req record
  | .attaching req record | .recovering req record _ | .preparing req record =>
    Found env rows req record
  | .heading req record received number parts =>
    Found env rows req record ∧ number + parts.length = record.manifest.parts.length + 1 ∧
      1 ≤ number ∧ (received.map ReceivedPart.number).Sublist (List.range' 1 (number - 1))
  | .signing req record received until' signed number parts =>
    Found env rows req record ∧ number + parts.length = record.manifest.parts.length + 1 ∧
      1 ≤ number ∧ received.Sublist (List.range' 1 record.manifest.parts.length) ∧
      signed.map Capability.partNumber = missing received number ∧
      (∀ c ∈ signed, c.expiresAt = until') ∧ until' ≤ record.expiresAt
  | .replied req (.ok u) => Found env rows req u.file ∧ (u.file.state = .uploading → u.Complete)
  | _ => True

/-- The rows are kept. -/
def Kept (rows rows' : Uploads) : Prop :=
  ∀ id row, rows.find id = some row → ∃ row', rows'.find id = some row' ∧ row.Later row'

variable {req : CreateRequest} {record : Record}

theorem Stored.later (h : Stored rows req record) (hkept : Kept rows rows') :
    Stored rows' req record := by
  obtain ⟨row, hrow, howner, hkey, hmanifest, hexpires⟩ := h
  obtain ⟨row', hrow', hlater⟩ := hkept _ row hrow
  exact ⟨row', hrow', hlater.owner.trans howner, hlater.key.trans hkey,
    hlater.manifest.trans hmanifest, hlater.expires.trans hexpires⟩

theorem Found.later (h : Found env rows req record) (hkept : Kept rows rows') :
    Found env rows' req record :=
  ⟨h.valid, h.stored.later hkept, h.manifest⟩

theorem CallPc.Knows.later (h : pc.Knows env rows) (hkept : Kept rows rows') :
    pc.Knows env rows' := by
  cases pc with
  | inserting | selecting => exact h
  | created => exact ⟨h.1, h.2.later hkept⟩
  | attaching | recovering | preparing => exact Found.later h hkept
  | heading | signing => exact ⟨h.1.later hkept, h.2⟩
  | replied req result =>
    cases result with
    | ok => exact ⟨h.1.later hkept, h.2⟩
    | error => trivial
  | completing | checking | advancing | rereading | deleting | removing | returned =>
    trivial

/-- The record that was read of a row. -/
theorem Stored.of_decode {id} (hrow : rows.find id = some row)
    (howner : row.owner = req.owner) (hkey : row.idempotencyKey = req.key)
    (hdecode : decode env row = some record) : Stored rows req record := by
  cases UploadRow.eq_record_of_decode hdecode
  have hrow' : rows.find row.id = some row := (Table.key_eq_of_find hrow).symm ▸ hrow
  exact ⟨row, hrow', howner, hkey, rfl, rfl⟩

/-- Another record that was read of the same row. -/
theorem Found.of_decode {current} (h : Found env rows req record)
    (hrow : rows.find record.id = some row) (hdecode : decode env row = some current) :
    Found env rows req current := by
  obtain ⟨row', hrow', howner, hkey, hmanifest, -⟩ := h.stored
  cases hrow.symm.trans hrow'
  refine ⟨h.valid, .of_decode hrow howner hkey hdecode, ?_⟩
  cases UploadRow.eq_record_of_decode hdecode
  rw [← h.manifest, ← hmanifest]
  rfl

theorem selectRow_eq_some {owner key} (h : selectRow rows owner key = some row) :
    rows.find row.id = some row ∧ row.owner = owner ∧ row.idempotencyKey = key := by
  have hkey := List.find?_some h
  exact ⟨Table.find_of_mem (List.mem_of_find?_eq_some h), of_decide_eq_true hkey⟩

theorem get_eq_ok {owner id} (h : get env rows owner id = .ok record) :
    ∃ row, rows.find id = some row ∧ decode env row = some record := by
  unfold get at h
  split at h
  · rename_i row hrow
    cases hdecode : decode env row with
    | none =>
      rw [hdecode] at h
      cases h
    | some =>
      rw [hdecode] at h
      cases h
      exact ⟨row, (Option.filter_eq_some_iff.mp hrow).1, hdecode⟩
  · cases h

theorem result_eq_ok {reply : Reply} {e : Err} (h : reply.result env e = .ok record) :
    ∃ row, reply = .row row ∧ decode env row = some record := by
  cases reply with
  | row row =>
    rw [Reply.result] at h
    cases hdecode : decode env row with
    | none =>
      rw [hdecode] at h
      cases h
    | some =>
      rw [hdecode] at h
      cases h
      exact ⟨row, rfl, hdecode⟩
  | none | refused | limited | failed => cases h

/-! ## The numbers of the parts -/

theorem range'_succ (number : Nat) (h : 1 ≤ number) :
    List.range' 1 (number + 1 - 1) = List.range' 1 (number - 1) ++ [number] := by
  obtain ⟨n, rfl⟩ : ∃ n, number = n + 1 := ⟨number - 1, by omega⟩
  rw [Nat.add_sub_cancel, Nat.add_sub_cancel, List.range'_1_concat, Nat.add_comm 1 n]

theorem missing_succ (h : 1 ≤ number) :
    missing received (number + 1) =
      missing received number ++ if number ∈ received then [] else [number] := by
  rw [missing, range'_succ number h, List.filter_append, missing, List.filter_singleton]
  by_cases hmem : number ∈ received <;> simp [hmem]

/-- What was received and what is missing are all the parts. -/
theorem perm_missing {n : Nat} (h : received.Sublist (List.range' 1 n)) :
    (received ++ missing received (n + 1)).Perm (List.range' 1 n) := by
  have hnodup : (List.range' 1 n).Nodup := List.nodup_range'
  refine (List.perm_ext_iff_of_nodup ?_ hnodup).mpr fun i ↦ ?_
  · refine List.Nodup.append (hnodup.sublist h) (hnodup.filter _) fun i hi hmissing ↦ ?_
    exact of_decide_eq_true (List.mem_filter.mp hmissing).2 hi
  · rw [List.mem_append, missing, Nat.add_sub_cancel, List.mem_filter]
    constructor
    · rintro (hi | hi)
      · exact h.subset hi
      · exact hi.1
    · intro hi
      by_cases hmem : i ∈ received
      · exact .inl hmem
      · exact .inr ⟨hi, decide_eq_true hmem⟩

theorem knows_offer {until' signed parts} (hfound : Found env rows req record)
    (hnumber : number + parts.length = record.manifest.parts.length + 1) (hpos : 1 ≤ number)
    (hreceived : received.Sublist (List.range' 1 record.manifest.parts.length))
    (hsigned : signed.map Capability.partNumber = missing received number)
    (hexpires : ∀ c ∈ signed, c.expiresAt = until') (huntil : until' ≤ record.expiresAt) :
    (offer req record received until' signed number parts).Knows env rows := by
  cases parts with
  | nil =>
    refine ⟨hfound, fun _ ↦ ⟨?_, fun c hc ↦ (hexpires c hc).trans_le huntil⟩⟩
    have heq : number = record.manifest.parts.length + 1 := hnumber
    rw [hsigned, heq]
    exact perm_missing hreceived
  | cons => exact ⟨hfound, hnumber, hpos, hreceived, hsigned, hexpires, huntil⟩

theorem knows_proceed (hvalid : req.manifest.Valid) (h : Stored rows req record) (now : Time) :
    (proceed env req record now).Knows env rows := by
  unfold proceed
  split
  · trivial
  · rename_i hmanifest
    have hfound : Found env rows req record := ⟨hvalid, h, not_not.mp hmanifest⟩
    split
    · rename_i hstate
      exact ⟨hfound, fun huploading ↦ absurd huploading hstate⟩
    · split
      · trivial
      · split
        · split
          · exact hfound
          · trivial
        · exact hfound

theorem knows_prepare (h : Found env rows req record) (now : Time) :
    (prepare req record now).Knows env rows := by
  unfold prepare
  split
  · rename_i hstate
    exact ⟨h, fun huploading ↦ absurd huploading hstate⟩
  · split
    · trivial
    · split
      · exact ⟨h, Nat.add_comm .., Nat.le_refl _, List.Sublist.refl _⟩
      · trivial

theorem knows_check (record : Record) (again : Bool) : (check record again).Knows env rows := by
  unfold check
  split <;> trivial

theorem headPart_number {etag part}
    (h : headPart env objects record number etag = .ok part) : ∀ p ∈ part, p.number = number := by
  unfold headPart at h
  split at h
  · cases h
    intro p hp
    cases hp
  · split at h
    · cases h
      intro p hp
      cases hp
      rfl
    · cases h

theorem minTime_le (t t' : Time) : minTime t t' ≤ t' := by
  unfold minTime
  split
  · exact le_of_lt ‹_›
  · exact le_refl _

/-- What a call knows stays true, and it learns what it needs before it goes on. -/
theorem serve_knows {a : CallAction} {e : CallEffect}
    (h : serve env rows objects pc a = some e) (hpc : pc.Knows env rows)
      (hkept : Kept rows e.rows) :
    e.pc.Knows env e.rows := by
  unfold serve at h
  split at h
  -- the insertion
  · split at h
    · cases h
      trivial
    · split at h
      rename_i reply rows' hinsert
      cases h
      dsimp only
      split
      · split
        · rename_i record hresult
          obtain ⟨row, rfl, hdecode⟩ := result_eq_ok hresult
          obtain ⟨rfl, hrow⟩ := insertRow_row hinsert
          exact ⟨hpc.1, .of_decode hrow hpc.2.1 hpc.2.2.1 hdecode⟩
        · exact hpc.1
        · trivial
      · trivial
  · split at h
    · rename_i row hrow
      cases h
      cases hdecode : decode env row with
      | none => trivial
      | some =>
        obtain ⟨hrow, howner, hkey⟩ := selectRow_eq_some hrow
        exact ⟨hpc, .of_decode hrow howner hkey hdecode⟩
    · cases h
      trivial
  · cases h
    exact knows_proceed hpc.1 hpc.2 _
  -- the upload is attached
  · split at h
    rename_i reply rows' hattach
    cases h
    dsimp only at hkept ⊢
    split
    · split
      · rename_i attached hresult
        obtain ⟨row, rfl, hdecode⟩ := result_eq_ok hresult
        unfold attachUpload at hattach
        split at hattach
        · exact (Found.later hpc hkept).of_decode (swap_row hattach) hdecode
        · cases hattach
      · exact Found.later hpc hkept
    · exact Found.later hpc hkept
  · cases h
    dsimp only
    split
    · rename_i current hget
      split
      · obtain ⟨row, hrow, hdecode⟩ := get_eq_ok hget
        exact Found.of_decode hpc hrow hdecode
      · trivial
    · trivial
  · cases h
    exact knows_prepare hpc _
  -- the parts are looked up
  · split at h
    · rename_i part hpart
      cases h
      obtain ⟨hfound, hnumber, hpos, hreceived⟩ := hpc
      refine ⟨hfound, ?_, Nat.le_succ_of_le hpos, ?_⟩
      · rw [← hnumber, List.length_cons]
        omega
      · rw [range'_succ _ hpos, List.map_append]
        refine hreceived.append ?_
        cases part with
        | none => exact List.nil_sublist _
        | some p =>
          rw [Option.toList_some, List.map_singleton, headPart_number hpart p rfl]
    · cases h
      trivial
  · cases h
    trivial
  · cases h
    obtain ⟨hfound, hnumber, -, hreceived⟩ := hpc
    dsimp only
    split
    · refine knows_offer hfound (Nat.add_comm ..) (Nat.le_refl _) ?_ rfl (by simp)
        (minTime_le _ _)
      rw [List.length_nil, Nat.add_zero] at hnumber
      rwa [hnumber, Nat.add_sub_cancel] at hreceived
    · trivial
  -- the others are signed
  · cases h
    obtain ⟨hfound, hnumber, hpos, hreceived, hsigned, hexpires, huntil⟩ := hpc
    rw [List.length_cons] at hnumber
    dsimp only
    split
    · rename_i hmem
      refine knows_offer hfound (by omega) (Nat.le_succ_of_le hpos) hreceived ?_ hexpires huntil
      rw [missing_succ hpos, if_pos hmem, List.append_nil, hsigned]
    · rename_i hmem
      split
      · trivial
      · split
        · refine knows_offer hfound (by omega) (Nat.le_succ_of_le hpos) hreceived ?_ ?_ huntil
          · rw [missing_succ hpos, if_neg hmem, List.map_append, hsigned]
            rfl
          · intro c hc
            obtain hc | hc := List.mem_append.mp hc
            · exact hexpires c hc
            · cases List.mem_singleton.mp hc
              rfl
        · trivial
  -- `Complete` and `Delete` know nothing
  all_goals
    repeat' split at h
    all_goals cases h
    all_goals
      try unfold checked
      repeat' split
      all_goals first | trivial | exact knows_check _ _

/-- The request of a call of `Create`. -/
def CallPc.request : CallPc → Option CreateRequest
  | .inserting req _ | .selecting req | .created req _ | .attaching req _ | .recovering req _ _
  | .preparing req _ | .heading req _ _ _ _ | .signing req _ _ _ _ _ _ | .replied req _ => some req
  | .completing _ _ | .checking _ _ _ _ _ | .advancing _ | .rereading _ | .deleting _ _
  | .removing _ | .returned _ => none

/-- The answer of a call of `Create`. -/
def CallPc.answer : CallPc → Option (CreateRequest × Except Err Upload)
  | .replied req result => some (req, result)
  | _ => none

theorem CallPc.eq_of_answer {req result}
    (h : pc.answer = some (req, result)) : pc = .replied req result := by
  unfold CallPc.answer at h
  split at h <;> cases h
  rfl

namespace Deployment

variable {s s' : Deployment} {a : Action} {row : UploadRow} {id : ID}

/-- Where the state of a call comes from. -/
theorem step_callPc (h : step env s a = some s') {c : Nat} {pc} (hc : s'.calls[c]? = some pc) :
    s.calls[c]? = some pc ∨ (∃ req id object now, pc = Files.create req id object now) ∨
    (∃ owner id, pc = Files.complete owner id ∨ pc = Files.delete owner id) ∨
    ∃ b pc' e, s.calls[c]? = some pc' ∧
      serve env s.rows s.objects pc' b = some e ∧ s' = s.served c e ∧ pc = e.pc := by
  cases a with
  | create req id object now =>
    cases h
    obtain ⟨-, rfl⟩ | hold := Pool.of_append hc
    · exact .inr (.inl ⟨req, id, object, now, rfl⟩)
    · exact .inl hold
  | complete owner id =>
    cases h
    obtain ⟨-, rfl⟩ | hold := Pool.of_append hc
    · exact .inr (.inr (.inl ⟨owner, id, .inl rfl⟩))
    · exact .inl hold
  | delete owner id =>
    cases h
    obtain ⟨-, rfl⟩ | hold := Pool.of_append hc
    · exact .inr (.inr (.inl ⟨owner, id, .inr rfl⟩))
    · exact .inl hold
  | call c' b =>
    obtain ⟨pc', e, hc', he, rfl⟩ := step_call h
    obtain ⟨rfl, rfl⟩ | ⟨-, hold⟩ := Pool.of_set hc
    · exact .inr (.inr (.inr ⟨b, pc', e, hc', he, rfl, rfl⟩))
    · exact .inl hold
  | work =>
    obtain ⟨_, _, _, _, rfl⟩ := step_work h
    exact .inl hc
  | upload =>
    rw [step] at h
    split at h <;> cases h
    exact .inl hc
  | store | remove =>
    obtain ⟨_, -, rfl⟩ := Option.map_eq_some_iff.mp h
    exact .inl hc
  | start =>
    cases h
    exact .inl hc

theorem knows_create (req : CreateRequest) (id object : ID) (now : Time) :
    (Files.create req id object now).Knows env rows := by
  unfold Files.create
  split
  · trivial
  · rename_i hvalid
    exact ⟨not_not.mp (not_or.mp (not_or.mp hvalid).2).2, rfl, rfl, rfl⟩

theorem knows (h : Runs env {} s) : ∀ (c : Nat) (pc : CallPc), s.calls[c]? = some pc →
    pc.Knows env s.rows := by
  refine h.invariant (fun _ _ h ↦ by cases h) fun s a s' _ ih _ hstep c pc hc ↦ ?_
  have hkept : Kept s.rows s'.rows := fun _ _ hrow ↦ step_later hstep hrow
  obtain hold | ⟨req, id, object, now, rfl⟩ | ⟨owner, id, rfl | rfl⟩ |
    ⟨b, pc', e, hc', he, rfl, rfl⟩ := step_callPc hstep hc
  · exact (ih c pc hold).later hkept
  · exact knows_create req id object now
  · unfold Files.complete
    split <;> trivial
  · unfold Files.delete
    split <;> trivial
  · exact serve_knows he (ih c pc' hc') hkept

/-- The manifests of the files and of the requests. -/
def manifests (s : Deployment) : List Manifest :=
  s.rows.rows.map UploadRow.manifest ++
    (s.calls.filterMap CallPc.request).map CreateRequest.manifest

/-- SHA-256 has no collision on the manifests. -/
def Distinguishes (env : Env) (s : Deployment) : Prop :=
  ∀ m ∈ s.manifests, ∀ m' ∈ s.manifests, m.fingerprint env = m'.fingerprint env →
    m.encoding = m'.encoding
  deriving Decidable

/-- A record that a call goes on with has the manifest of the request, and so has its row. -/
theorem manifest_eq (h : Runs env {} s) (hsha : s.Distinguishes env) {c : Nat} {pc req record}
    (hc : s.calls[c]? = some pc)
    (hreq : pc.request = some req) (hfound : Found env s.rows req record) :
    ∃ row, s.rows.find record.id = some row ∧ row.owner = req.owner ∧
      row.idempotencyKey = req.key ∧ row.manifest = req.manifest ∧
      record.manifest = req.manifest := by
  obtain ⟨row, hrow, howner, hkey, hmanifest, -⟩ := hfound.stored
  have hmem : row.manifest ∈ s.manifests :=
    List.mem_append_left _ (List.mem_map_of_mem (Table.mem_rows_of_find hrow))
  have hmem' : req.manifest ∈ s.manifests :=
    List.mem_append_right _ (List.mem_map_of_mem
      (List.mem_filterMap.mpr ⟨pc, List.mem_of_getElem? hc, hreq⟩))
  have heq : row.manifest = req.manifest :=
    encoding_inj (sound h _ row hrow).manifest hfound.valid
      (hsha _ hmem _ hmem' (by rw [hmanifest, hfound.manifest]))
  exact ⟨row, hrow, howner, hkey, heq, hmanifest.symm.trans heq⟩

/-- **An upload is created once.**  No two records have one owner and key; a call that succeeds
reports the record of its own, with its own manifest, and while the file is uploaded the answer has
every part once, as received or with a capability that does not outlive the upload; a call that has
found a record with another manifest can only reply with a conflict; and capabilities are made out
for no other manifest than the one that is stored. -/
theorem creation (h : Runs env {} s) (hsha : s.Distinguishes env) :
    (∀ s', Runs env s s' → ∀ id id' row row', s.rows.find id = some row →
      s'.rows.find id' = some row' → row.owner = row'.owner →
      row.idempotencyKey = row'.idempotencyKey → id = id') ∧
    (∀ (c : Nat) (req : CreateRequest) (u : Upload), s.calls[c]? = some (.replied req (.ok u)) →
      (∃ row, s.rows.find u.file.id = some row ∧ row.owner = req.owner ∧
        row.idempotencyKey = req.key ∧ row.manifest = req.manifest ∧
        u.file.manifest = req.manifest) ∧
      (u.file.state = .uploading →
        (u.received ++ u.parts.map Capability.partNumber).Perm
          (List.range' 1 u.file.manifest.parts.length) ∧
        ∀ cap ∈ u.parts, cap.expiresAt ≤ u.file.expiresAt)) ∧
    (∀ (c : Nat) (req : CreateRequest) (record : Record), s.calls[c]? = some (.created req record) →
      record.manifest ≠ req.manifest → ∀ b s', step env s (.call c b) = some s' →
      s'.calls[c]? = some (.replied req (.error .conflict))) ∧
    ∀ (c : Nat) (req : CreateRequest) (record : Record) received until' signed number parts,
      s.calls[c]? = some (.signing req record received until' signed number parts) →
      ∃ row, s.rows.find record.id = some row ∧ row.owner = req.owner ∧
        row.idempotencyKey = req.key ∧ row.manifest = req.manifest := by
  refine ⟨fun s' hrun id id' row row' hrow hrow' howner hkey ↦ ?_, fun c req u hc ↦ ?_,
    fun c req record hc hne b s' hstep ↦ ?_,
    fun c req record received until' signed number parts hc ↦ ?_⟩
  · obtain ⟨kept, hkept, hlater⟩ := later hrun hrow
    refine unique (h.trans hrun) id id' kept row' hkept hrow' (.inr ⟨?_, ?_⟩)
    · rw [hlater.owner, howner]
    · rw [hlater.key, hkey]
  · obtain ⟨hfound, hcomplete⟩ := knows h c _ hc
    refine ⟨manifest_eq h hsha hc rfl hfound, fun hstate ↦ ?_⟩
    exact ⟨(hcomplete hstate).parts, (hcomplete hstate).expires⟩
  · obtain ⟨pc, e, hc', he, rfl⟩ := step_call hstep
    cases hc.symm.trans hc'
    have hconflict : e.pc = .replied req (.error .conflict) := by
      cases b with
      | proceed now =>
        cases he
        change proceed env req record now = _
        rw [proceed, if_pos]
        intro hmanifest
        obtain ⟨hvalid, hstored⟩ := knows h c _ hc
        obtain ⟨row, -, -, -, -, heq⟩ := manifest_eq h hsha hc rfl ⟨hvalid, hstored, hmanifest⟩
        exact hne heq
      | commit | fail | head | sign => cases he
    rw [← hconflict]
    exact Pool.set_self hc _
  · obtain ⟨row, hrow, howner, hkey, hmanifest, -⟩ :=
      manifest_eq h hsha hc rfl (knows h c _ hc).1
    exact ⟨row, hrow, howner, hkey, hmanifest⟩

/-- A call whose answer to the attachment is lost, and which gets a capability all the same. -/
def sampleCreation : List Action :=
  [.create sampleRequest (sampleID 4) (sampleID 5) 10, .call 0 (.commit 10 true),
    .call 0 (.proceed 10), .call 0 (.commit 10 false), .call 0 (.commit 10 true),
    .call 0 (.proceed 10), .call 0 (.head (.ok "etag")), .call 0 (.proceed 10),
    .call 0 (.sign 10 none)]

theorem creation_sample : ∃ s req u, Runs sampleEnv {} s ∧
    s.calls[0]? = some (.replied req (.ok u)) ∧ u.file.state = .uploading ∧
    u.parts.map Capability.partNumber = [1] ∧
    (u.received ++ u.parts.map Capability.partNumber).Perm
      (List.range' 1 u.file.manifest.parts.length) := by
  obtain ⟨s, hreach, htest⟩ := Machine.exists_of_script (step sampleEnv) (fun _ _ ↦ True) {}
    sampleCreation (fun s ↦ (s.calls[0]?.bind CallPc.answer).any fun answer ↦
      answer.2.toOption.any fun u ↦ s.Distinguishes sampleEnv ∧ u.file.state = .uploading ∧
        u.parts.map Capability.partNumber = [1]) (by decide +kernel)
  obtain ⟨⟨req, result⟩, hanswer, htest⟩ := (Option.any_eq_true _ _).mp htest
  obtain ⟨u, hu, htest⟩ := (Option.any_eq_true _ _).mp htest
  obtain ⟨hsha, hstate, hparts⟩ := of_decide_eq_true htest
  obtain ⟨pc, hpc, hanswer⟩ := Option.bind_eq_some_iff.mp hanswer
  cases CallPc.eq_of_answer hanswer
  cases result with
  | error => cases hu
  | ok =>
    cases hu
    exact ⟨s, req, u, hreach, hpc, hstate, hparts,
      (((creation hreach hsha).2.1 0 req u hpc).2 hstate).1⟩

/-- The manifest without its part. -/
def sampleInvalid : CreateRequest :=
  { sampleRequest with manifest := { sampleManifest with parts := [] } }

/-- A request is checked before the record is looked for: one with a manifest that differs from the
one that is stored, and is not valid, is not told of a conflict. -/
theorem created_invalid : ∃ s row, Runs sampleEnv {} s ∧ s.rows.find (sampleID 4) = some row ∧
    row.owner = sampleInvalid.owner ∧ row.idempotencyKey = sampleInvalid.key ∧
    row.manifest ≠ sampleInvalid.manifest ∧
    s.calls[1]? = some (.replied sampleInvalid (.error .invalid)) := by
  obtain ⟨s, hreach, htest⟩ := Machine.exists_of_script (step sampleEnv) (fun _ _ ↦ True) {}
    sampleCreation (fun s ↦ (s.rows.find (sampleID 4)).any fun row ↦
      s.calls.length = 1 ∧ row.owner = sampleInvalid.owner ∧
        row.idempotencyKey = sampleInvalid.key ∧ row.manifest ≠ sampleInvalid.manifest)
    (by decide +kernel)
  obtain ⟨row, hrow, htest⟩ := (Option.any_eq_true _ _).mp htest
  obtain ⟨hlength, howner, hkey, hmanifest⟩ := of_decide_eq_true htest
  have hcreate : Files.create sampleInvalid (sampleID 6) (sampleID 7) 20 =
      .replied sampleInvalid (.error .invalid) := if_pos (by decide +kernel)
  have hstep : step sampleEnv s (.create sampleInvalid (sampleID 6) (sampleID 7) 20) = some
      { s with calls := s.calls ++ [.replied sampleInvalid (.error .invalid)] } := by
    rw [step, hcreate]
  refine ⟨_, row, hreach.next trivial hstep, hrow, howner, hkey, hmanifest, ?_⟩
  rw [← hlength]
  exact Pool.append_self _ _

end Deployment

end MarketMesh.Files
