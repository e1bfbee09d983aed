import MarketMesh.Files.Service

/-!
# The life of a file

Every write to a row is a compare-and-swap of the version, made by the worker or the call that holds
that version.  `WorkChange` and `CallChange` say which writes there are, who makes them, and what is
recorded; all that holds of the life of a file follows from them.
-/

set_option autoImplicit false

namespace MarketMesh.Files

open Auth (Bytes Time Digest)

variable {env : Env} {rows rows' : Uploads} {objects : Objects} {reply : Reply} {id : ID}
  {now : Time} {pc : StepPc} {row' row : Option UploadRow} {r r' : Record} {e : Effect}
  {target : State} {event : Option Event} {a : WorkAction}

/-! ## The writes of a worker -/

/-- The states that a worker moves a file to, and what is recorded of it. -/
inductive Moves : StepPc → Option Event → Record → State → Prop
  | expired {r : Record} : Moves (.expiring r) none r .expired
  | rejected {r : Record} : Moves (.rejecting r) none r .rejected
  | published {r : Record} : Moves (.publishing r) (some (.published r)) r .ready

/-- **What becomes of a row in a step of a worker.** -/
inductive WorkChange (env : Env) :
    StepPc → Effect → Option UploadRow → Option UploadRow → Prop
  | same {pc : StepPc} {e : Effect} {row : Option UploadRow} : WorkChange env pc e row row
  | claimed {e : Effect} {row : UploadRow} {now : Time} (h : row.IsCandidate now)
      (hchecked : (row.claim now).Checked env) :
      WorkChange env .claiming e (some row) (some (row.claim now))
  | moved {pc : StepPc} {e : Effect} {r : Record} {target : State} {row : UploadRow} {now : Time}
      (hpc : Moves pc e.event r target) (hr : r.IsCurrent row) (hstate : row.state = r.state)
      (h : CanTransition r.state target) (hchecked : (row.moveTo target now).Checked env) :
      WorkChange env pc e (some row) (some (row.moveTo target now))
  | cleaned {e r source clean format row now} (hevent : e.event = some (.marked r format clean))
      (hr : r.IsCurrent row)
      (hrow : row.state = .scanning) (hstate : r.state = .scanning) (hformat : format.IsClean)
      (hpos : 0 < (clean.length : Int)) (hmax : (clean.length : Int) ≤ maxSize)
      (hsum : env.sha256 clean ≠ zeroDigest)
      (hchecked : (row.markClean format clean.length (env.sha256 clean) now).Checked env) :
      WorkChange env (.marking r source format clean) e (some row)
        (some (row.markClean format clean.length (env.sha256 clean) now))
  | deferred {e : Effect} {r : Record} {row : UploadRow} {now : Time} (hr : r.IsCurrent row)
      (hstate : row.state = r.state) (hchecked : (row.deferCleanup now).Checked env) :
      WorkChange env (.deferring r) e (some row) (some (row.deferCleanup now))

theorem WorkChange.of_eq (h : row' = row) :
    WorkChange env pc e row row' :=
  h ▸ .same

theorem WorkChange.of_transition (h : transition env rows r target now = (reply, rows'))
    (hpc : ∀ row, reply = .row row → Moves pc e.event r target) :
    WorkChange env pc e (rows.find id) (rows'.find id) := by
  obtain heq | ⟨row, hrow, ⟨hr, hstate, hcan⟩, hchecked, hreply, hrow'⟩ := transition_find h id
  · exact .of_eq heq
  · rw [hrow, hrow']
    exact .moved (hpc _ hreply) hr hstate hcan hchecked

theorem work_row (h : work env rows objects pc a = some e) (id : ID) :
    WorkChange env pc e (rows.find id) (e.rows.find id) := by
  unfold work at h
  split at h
  case h_1 =>
    split at h
    · rename_i row rows' hclaim
      have hrows : e.rows = rows' := by
        split at h <;> cases h <;> rfl
      rw [hrows]
      obtain heq | ⟨row, hrow, hcandidate, hchecked, -, hrow'⟩ := claim_find hclaim id
      · exact .of_eq heq
      · rw [hrow, hrow']
        exact .claimed hcandidate hchecked
    · cases h
  -- `MarkClean`
  case h_11 =>
    split at h
    rename_i reply rows' hmark
    cases h
    obtain heq | ⟨row, hrow, ⟨hr, hstate, hscanning, hformat, hpos, hmax, hsum⟩, hchecked, rfl,
      hrow'⟩ :=
      markClean_find hmark id
    · exact .of_eq heq
    · rw [hrow]
      exact (congrArg _ hrow').mpr
        (.cleaned rfl hr hstate hscanning hformat hpos hmax hsum hchecked)
  -- the three transitions
  case h_15 =>
    split at h
    rename_i reply rows' hmove
    cases h
    refine .of_transition hmove fun row hreply ↦ ?_
    subst hreply
    exact .published
  case h_16 =>
    split at h
    rename_i reply rows' hmove
    cases h
    exact .of_transition hmove fun _ _ ↦ .expired
  case h_17 =>
    split at h
    rename_i reply rows' hmove
    cases h
    exact .of_transition hmove fun _ _ ↦ .rejected
  -- `DeferCleanup`
  case h_21 =>
    split at h
    rename_i reply rows' hdefer
    cases h
    obtain heq | ⟨row, hrow, ⟨hr, hstate⟩, hchecked, -, hrow'⟩ := deferCleanup_find hdefer id
    · exact .of_eq heq
    · rw [hrow]
      exact (congrArg _ hrow').mpr (.deferred hr hstate hchecked)
  -- no other step writes a row
  all_goals
    try extract_lets at h
    repeat' split at h
    all_goals first | cases h | obtain ⟨_, -, rfl⟩ := Option.map_eq_some_iff.mp h
    all_goals exact .same

/-! ## The writes of a call -/

/-- What holds for a row that is inserted. -/
structure IsNew (env : Env) (rows : Uploads) (v : Record) (now : Time) : Prop where
  valid : v.Valid
  checked : (v.row env now).Checked env
  key : ∀ row ∈ rows.rows, ¬ (row.owner = v.owner ∧ row.idempotencyKey = v.idempotencyKey)
  object : ∀ row ∈ rows.rows, row.objectKey ≠ v.objectKey

/-- **What becomes of a row in a step of a call.** -/
inductive CallChange (env : Env) (rows : Uploads) :
    CallPc → Option UploadRow → Option UploadRow → Prop
  | same {pc : CallPc} {row : Option UploadRow} : CallChange env rows pc row row
  | inserted {req v now} (hnew : IsNew env rows v now) :
      CallChange env rows (.inserting req v) none (some (v.row env now))
  | attached {req record row now}
      (hr : record.IsCurrent row) (hstate : row.state = .uploading) (hupload : row.uploadID = none)
      (hchecked : (row.attach record.id now).Checked env) :
      CallChange env rows (.attaching req record) (some row) (some (row.attach record.id now))
  | completed {record row now} (hr : record.IsCurrent row)
      (hstate : row.state = record.state) (h : CanTransition record.state .scanning)
      (hchecked : (row.moveTo .scanning now).Checked env) :
      CallChange env rows (.advancing record) (some row) (some (row.moveTo .scanning now))
  | removed {record row now} (hr : record.IsCurrent row)
      (hstate : row.state = record.state) (h : CanTransition record.state .deleted)
      (hchecked : (row.moveTo .deleted now).Checked env) :
      CallChange env rows (.removing record) (some row) (some (row.moveTo .deleted now))

theorem CallChange.of_eq {pc} (h : row' = row) :
    CallChange env rows pc row row' :=
  h ▸ .same

theorem serve_row {pc a e} (h : serve env rows objects pc a = some e) (id : ID) :
    CallChange env rows pc (rows.find id) (e.rows.find id) := by
  unfold serve at h
  split at h
  case h_1 =>
    split at h
    · cases h
      exact .same
    · rename_i v _ _ hvalid
      split at h
      rename_i reply rows' hinsert
      cases h
      obtain heq | ⟨hchecked, hrows, hkey, hobject⟩ := insertRow_find hinsert
      · exact .of_eq (congrArg (·.find id) heq)
      · obtain ⟨hnone, -⟩ := Table.insert_eq_some hrows
        have hfind := Table.find_insert hrows id
        split at hfind
        · rename_i hkey'
          rw [← hkey', hnone]
          exact (congrArg _ (hkey' ▸ hfind)).mpr
            (.inserted ⟨not_not.mp hvalid, hchecked, hkey, hobject⟩)
        · exact .of_eq hfind
  -- `AttachUpload`
  case h_4 =>
    split at h
    rename_i reply rows' hattach
    cases h
    obtain heq | ⟨row, hrow, ⟨hr, hstate, hupload⟩, hchecked, -, hrow'⟩ :=
      attachUpload_find hattach id
    · exact .of_eq heq
    · rw [hrow]
      exact (congrArg _ hrow').mpr (.attached hr hstate hupload hchecked)
  -- the two transitions
  case h_15 =>
    split at h
    rename_i reply rows' hmove
    cases h
    obtain heq | ⟨row, hrow, ⟨hr, hstate, hcan⟩, hchecked, -, hrow'⟩ := transition_find hmove id
    · exact .of_eq heq
    · rw [hrow]
      exact (congrArg _ hrow').mpr (.completed hr hstate hcan hchecked)
  case h_18 =>
    split at h
    rename_i reply rows' hmove
    cases h
    obtain heq | ⟨row, hrow, ⟨hr, hstate, hcan⟩, hchecked, -, hrow'⟩ := transition_find hmove id
    · exact .of_eq heq
    · rw [hrow]
      exact (congrArg _ hrow').mpr (.removed hr hstate hcan hchecked)
  -- no other step writes a row
  all_goals
    repeat' split at h
    all_goals cases h
    all_goals exact .same

/-! ## Rows that decode -/

namespace UploadRow

/-- What holds of every row.  The derivative is entered on the way to `replicating`. -/
structure Sound (env : Env) (row : UploadRow) : Prop where
  id : row.id ≠ zeroID
  owner : row.owner.Valid
  key : row.idempotencyKey ≠ zeroID
  manifest : row.manifest.Valid
  hash : row.manifestHash = row.manifest.fingerprint env
  checked : row.Checked env
  upload : row.uploadID = none ∨ row.uploadID = some row.id
  unset : row.state = .uploading ∨ row.state = .scanning →
    row.cleanSHA256 = none ∧ row.cleanSize = 0 ∧ row.cleanFormat = .unknown
  set : row.state = .replicating ∨ row.state = .ready →
    ∃ sum, row.cleanSHA256 = some sum ∧ sum ≠ zeroDigest ∧ 0 < row.cleanSize ∧
      row.cleanSize ≤ maxSize ∧ row.cleanFormat.IsClean

/-- **What a committed write does.** -/
structure Written (row row' : UploadRow) : Prop where
  id : row'.id = row.id
  owner : row'.owner = row.owner
  key : row'.idempotencyKey = row.idempotencyKey
  object : row'.objectKey = row.objectKey
  manifest : row'.manifest = row.manifest
  hash : row'.manifestHash = row.manifestHash
  created : row'.createdAt = row.createdAt
  expires : row'.expiresAt = row.expiresAt
  version : row'.version = row.version + 1
  state : row'.state = row.state ∨ CanTransition row.state row'.state
  upload : row'.uploadID = row.uploadID ∨ row.uploadID = none ∧ row'.uploadID = some row.id
  clean : row.state = .scanning ∧ row'.state = .replicating ∨
    (row'.state = .replicating → row.state = .replicating) ∧ row'.cleanSHA256 = row.cleanSHA256 ∧
      row'.cleanSize = row.cleanSize ∧ row'.cleanFormat = row.cleanFormat

variable {row row' : UploadRow} {r : Record}

theorem Sound.decode (h : row.Sound env) : decode env row = some row.record := by
  obtain ⟨hjson, hpos, -, hexpires, -⟩ := h.checked
  have hupload : ¬ (row.uploadID ≠ none ∧ row.uploadID ≠ some row.id) := fun hne ↦
    h.upload.elim hne.1 hne.2
  have hready : ¬ (row.state = .ready ∧ (row.record.cleanSHA256 = zeroDigest ∨ row.cleanSize ≤ 0 ∨
      maxSize < row.cleanSize ∨ ¬ row.cleanFormat.IsClean)) := by
    rintro ⟨hstate, hclean⟩
    obtain ⟨sum, hsum, hne, hpos, hmax, hformat⟩ := h.set (.inr hstate)
    have hrecord : row.record.cleanSHA256 = sum := by rw [record, hsum, Option.getD_some]
    obtain hzero | hle | hlt | hnot := hclean
    · exact hne (hrecord.symm.trans hzero)
    · exact absurd hle (not_le.mpr hpos)
    · exact absurd hlt (not_lt.mpr hmax)
    · exact hnot hformat
  rw [Files.decode, if_neg (by simp [h.id, h.owner, h.key]),
    if_neg (by simp [hjson, h.manifest, hpos, hexpires]), if_neg (by simp [h.hash, hupload]),
    if_neg hready]

theorem eq_record_of_decode (h : Files.decode env row = some r) : r = row.record := by
  unfold Files.decode at h
  repeat' split at h
  all_goals cases h
  rfl

/-- A write that enters no derivative finds it entered. -/
theorem Written.state_before (h : row.Written row')
    (hto : row'.state = .replicating → row.state = .replicating)
    (hstate : row'.state = .replicating ∨ row'.state = .ready) :
    row.state = .replicating ∨ row.state = .ready := by
  have hcan := h.state
  revert hstate hcan hto
  cases row.state <;> cases row'.state <;> simp [CanTransition]

/-- A write keeps what holds of every row, if it does so for the columns that it sets. -/
theorem Sound.of_written (h : row.Sound env) (hw : row.Written row') (hchecked : row'.Checked env)
    (hset : row'.state = .replicating ∨ row'.state = .ready →
      ∃ sum, row'.cleanSHA256 = some sum ∧ sum ≠ zeroDigest ∧ 0 < row'.cleanSize ∧
        row'.cleanSize ≤ maxSize ∧ row'.cleanFormat.IsClean) : row'.Sound env where
  id := hw.id ▸ h.id
  owner := hw.owner ▸ h.owner
  key := hw.key ▸ h.key
  manifest := hw.manifest ▸ h.manifest
  hash := by rw [hw.hash, hw.manifest, h.hash]
  checked := hchecked
  upload := by
    rw [hw.id]
    obtain heq | ⟨-, heq⟩ := hw.upload
    · rw [heq]
      exact h.upload
    · exact .inr heq
  unset := by
    intro hstate
    have hbefore : row.state = .uploading ∨ row.state = .scanning := by
      have hcan := hw.state
      revert hstate hcan
      cases row.state <;> cases row'.state <;> simp [CanTransition]
    obtain ⟨-, hto⟩ | ⟨-, hsum, hsize, hformat⟩ := hw.clean
    · rw [hto] at hstate
      obtain hstate | hstate := hstate <;> cases hstate
    · rw [hsum, hsize, hformat]
      exact h.unset hbefore
  set := hset

theorem written_attach (now : Time) (hupload : row.uploadID = none) :
    row.Written (row.attach row.id now) :=
  ⟨rfl, rfl, rfl, rfl, rfl, rfl, rfl, rfl, rfl, .inl rfl, .inr ⟨hupload, rfl⟩,
    .inr ⟨fun h ↦ h, rfl, rfl, rfl⟩⟩

theorem written_moveTo {target} (now : Time) (h : CanTransition row.state target)
    (hne : target ≠ .replicating) : row.Written (row.moveTo target now) :=
  ⟨rfl, rfl, rfl, rfl, rfl, rfl, rfl, rfl, rfl, .inr h, .inl rfl,
    .inr ⟨fun heq ↦ absurd heq hne, rfl, rfl, rfl⟩⟩

theorem written_claim (now : Time) : row.Written (row.claim now) :=
  ⟨rfl, rfl, rfl, rfl, rfl, rfl, rfl, rfl, rfl, .inl rfl, .inl rfl, .inr ⟨fun h ↦ h, rfl, rfl, rfl⟩⟩

theorem written_markClean (format : Format) (size : Int) (digest : Digest) (now : Time)
    (h : row.state = .scanning) : row.Written (row.markClean format size digest now) :=
  ⟨rfl, rfl, rfl, rfl, rfl, rfl, rfl, rfl, rfl, .inr (h.symm ▸ .inl rfl), .inl rfl,
    .inl ⟨h, rfl⟩⟩

theorem written_deferCleanup (now : Time) : row.Written (row.deferCleanup now) :=
  ⟨rfl, rfl, rfl, rfl, rfl, rfl, rfl, rfl, rfl, .inl rfl, .inl rfl, .inr ⟨fun h ↦ h, rfl, rfl, rfl⟩⟩

/-- A write that enters no derivative. -/
theorem Sound.of_same_clean (h : row.Sound env) (hw : row.Written row')
    (hchecked : row'.Checked env) (hto : row'.state = .replicating → row.state = .replicating)
    (hsum : row'.cleanSHA256 = row.cleanSHA256) (hsize : row'.cleanSize = row.cleanSize)
    (hformat : row'.cleanFormat = row.cleanFormat) : row'.Sound env := by
  refine h.of_written hw hchecked fun hstate ↦ ?_
  rw [hsum, hsize, hformat]
  exact h.set (hw.state_before hto hstate)

end UploadRow

/-! ## The record of a worker -/

theorem record_dispatch (h : (dispatch r now).record = some r') : r = r' := by
  unfold dispatch purge cleanupReady at h
  repeat' split at h
  all_goals cases h
  all_goals rfl

theorem record_abort {e} (h : (abort r e).record = some r') : r = r' := by
  unfold abort at h
  split at h <;> cases h
  rfl

theorem record_sweep {keys e} (h : (sweep r keys e).record = some r') : r = r' := by
  unfold sweep at h
  split at h <;> cases h <;> rfl

/-- A call of `Step` keeps the record that it has claimed. -/
theorem Worked.record (h : Worked env rows objects pc a e) (hr : e.pc.record = some r) :
    pc.record = some r ∨ ∃ row, e.rows.find r.id = some row ∧ decode env row = some r := by
  cases h with
  | @claimed _ id _ row _ hrow hdecode =>
    cases hr
    have hid : r.id = id := by
      rw [UploadRow.eq_record_of_decode hdecode, ← Table.key_eq_of_find hrow]
      rfl
    exact .inr ⟨row, hid ▸ hrow, hdecode⟩
  | ended hpc =>
    rw [hpc] at hr
    cases hr
  | dispatched => exact .inl (congrArg some (record_dispatch hr))
  | @put _ _ _ _ answer | @copy _ _ _ _ answer =>
    cases answer with
    | none => exact .inl hr
    | some => exact .inl (congrArg some (record_abort hr))
  | listed | kept | swept => exact .inl (congrArg some (record_sweep hr))
  | aborted hpc =>
    cases record_abort hr
    exact .inl hpc
  | part | read | cleaned | scannedSource | scannedClean | verified | fetched | checked
  | checkedLast | purged => exact .inl hr

/-! ## What the writes have in common -/

open UploadRow (Written)

theorem Moves.target_ne (h : Moves pc event r target) : target ≠ .replicating := by
  cases h <;> decide

theorem Moves.record (h : Moves pc event r target) : pc.record = some r := by
  cases h <;> rfl

/-- A worker writes to one row, and to no row that is new. -/
theorem WorkChange.written (h : WorkChange env pc e row row') :
    row' = row ∨ ∃ old new, row = some old ∧ row' = some new ∧ old.Written new ∧
      (old.Sound env → new.Sound env) ∧ ∀ r ∈ pc.record, r.IsCurrent old := by
  cases h with
  | same => exact .inl rfl
  | @claimed _ row now _ hchecked =>
    have hw := row.written_claim now
    refine .inr ⟨_, _, rfl, rfl, hw, fun hsound ↦ ?_, fun _ hr ↦ by cases hr⟩
    exact hsound.of_same_clean hw hchecked (fun h ↦ h) rfl rfl rfl
  | @moved _ _ r target row now hpc hr hstate hcan hchecked =>
    have hw := row.written_moveTo now (hstate.symm ▸ hcan) hpc.target_ne
    refine .inr ⟨_, _, rfl, rfl, hw, fun hsound ↦ ?_, fun r' hr' ↦ ?_⟩
    · exact hsound.of_same_clean hw hchecked (absurd · hpc.target_ne) rfl rfl rfl
    · cases hpc.record.symm.trans hr'
      exact hr
  | @cleaned _ r _ clean format row now _ hr hrow _ hformat hpos hmax hsum hchecked =>
    have hw := row.written_markClean format clean.length (env.sha256 clean) now hrow
    refine .inr ⟨_, _, rfl, rfl, hw, fun hsound ↦ ?_, fun r' hr' ↦ by cases hr'; exact hr⟩
    exact hsound.of_written hw hchecked fun _ ↦ ⟨_, rfl, hsum, hpos, hmax, hformat⟩
  | @deferred _ r row now hr _ hchecked =>
    have hw := row.written_deferCleanup now
    refine .inr ⟨_, _, rfl, rfl, hw, fun hsound ↦ ?_, fun r' hr' ↦ by cases hr'; exact hr⟩
    exact hsound.of_same_clean hw hchecked (fun h ↦ h) rfl rfl rfl

theorem IsNew.sound {v} (h : IsNew env rows v now) : (v.row env now).Sound env := by
  obtain ⟨howner, hid, hkey, hmanifest⟩ := h.valid
  exact ⟨hid, howner, hkey, hmanifest, rfl, h.checked, .inl rfl, fun _ ↦ ⟨rfl, rfl, rfl⟩, by
    rintro (hstate | hstate) <;> cases hstate⟩

/-- A call writes to one row, or adds a new one. -/
theorem CallChange.written {pc} (h : CallChange env rows pc row row') :
    row' = row ∨ (∃ old new, row = some old ∧ row' = some new ∧ old.Written new ∧
      (old.Sound env → new.Sound env)) ∨
    row = none ∧ ∃ req v now, pc = .inserting req v ∧ row' = some (v.row env now) ∧
      IsNew env rows v now := by
  cases h with
  | same => exact .inl rfl
  | inserted hnew => exact .inr (.inr ⟨rfl, _, _, _, rfl, rfl, hnew⟩)
  | @attached _ record row now hr _ hupload hchecked =>
    have hw := row.written_attach now hupload
    rw [hr.id] at hw
    refine .inr (.inl ⟨_, _, rfl, rfl, hw, fun hsound ↦ ?_⟩)
    exact hsound.of_same_clean hw hchecked (fun h ↦ h) rfl rfl rfl
  | @completed record row now hr hstate hcan hchecked =>
    have hne : State.scanning ≠ .replicating := by decide
    have hw := row.written_moveTo now (hstate.symm ▸ hcan) hne
    refine .inr (.inl ⟨_, _, rfl, rfl, hw, fun hsound ↦ ?_⟩)
    exact hsound.of_same_clean hw hchecked (absurd · hne) rfl rfl rfl
  | @removed record row now hr hstate hcan hchecked =>
    have hne : State.deleted ≠ .replicating := by decide
    have hw := row.written_moveTo now (hstate.symm ▸ hcan) hne
    refine .inr (.inl ⟨_, _, rfl, rfl, hw, fun hsound ↦ ?_⟩)
    exact hsound.of_same_clean hw hchecked (absurd · hne) rfl rfl rfl

/-! ## The history of a row -/

namespace UploadRow

/-- The derivative may still be entered. -/
def IsEarly (row : UploadRow) : Prop :=
  row.state = .uploading ∨ row.state = .scanning

/-- **What holds of a row and of what has become of it.** -/
structure Later (row row' : UploadRow) : Prop where
  id : row'.id = row.id
  owner : row'.owner = row.owner
  key : row'.idempotencyKey = row.idempotencyKey
  object : row'.objectKey = row.objectKey
  manifest : row'.manifest = row.manifest
  expires : row'.expiresAt = row.expiresAt
  version : row' = row ∨ row.version < row'.version
  state : Relation.ReflTransGen CanTransition row.state row'.state
  upload : row.uploadID ≠ none → row'.uploadID = row.uploadID
  clean : ¬ row.IsEarly → row'.cleanSHA256 = row.cleanSHA256 ∧ row'.cleanSize = row.cleanSize ∧
    row'.cleanFormat = row.cleanFormat

variable {row row' row'' : UploadRow}

theorem Later.refl (row : UploadRow) : row.Later row :=
  ⟨rfl, rfl, rfl, rfl, rfl, rfl, .inl rfl, .refl, fun _ ↦ rfl, fun _ ↦ ⟨rfl, rfl, rfl⟩⟩

theorem Written.later (h : row.Written row') : row.Later row' where
  id := h.id
  owner := h.owner
  key := h.key
  object := h.object
  manifest := h.manifest
  expires := h.expires
  version := .inr (h.version ▸ Int.lt_succ _)
  state := by
    obtain heq | hcan := h.state
    · rw [heq]
    · exact .single hcan
  upload := by
    intro hne
    obtain heq | ⟨hnone, -⟩ := h.upload
    · exact heq
    · exact absurd hnone hne
  clean := by
    intro hlate
    obtain ⟨hscanning, -⟩ | ⟨-, hclean⟩ := h.clean
    · exact absurd (.inr hscanning) hlate
    · exact hclean

theorem Later.not_isEarly (h : row.Later row') (hrow : ¬ row.IsEarly) : ¬ row'.IsEarly := by
  have hlate : ∀ state, Relation.ReflTransGen CanTransition row.state state →
      state ≠ .uploading ∧ state ≠ .scanning := by
    intro state hpath
    induction hpath with
    | refl => exact not_or.mp hrow
    | @tail b c _ hcan ih =>
      revert hcan ih
      cases b <;> cases c <;> simp [CanTransition]
  exact not_or.mpr (hlate _ h.state)

theorem Later.trans (h : row.Later row') (h' : row'.Later row'') : row.Later row'' where
  id := h'.id.trans h.id
  owner := h'.owner.trans h.owner
  key := h'.key.trans h.key
  object := h'.object.trans h.object
  manifest := h'.manifest.trans h.manifest
  expires := h'.expires.trans h.expires
  version := by
    obtain rfl | hlt := h.version
    · exact h'.version
    · obtain rfl | hlt' := h'.version
      · exact .inr hlt
      · exact .inr (hlt.trans hlt')
  state := h.state.trans h'.state
  upload := by
    intro hne
    have heq := h.upload hne
    exact (h'.upload (heq ▸ hne)).trans heq
  clean := by
    intro hlate
    obtain ⟨hsum, hsize, hformat⟩ := h.clean hlate
    obtain ⟨hsum', hsize', hformat'⟩ := h'.clean (h.not_isEarly hlate)
    exact ⟨hsum'.trans hsum, hsize'.trans hsize, hformat'.trans hformat⟩

end UploadRow

namespace Deployment

open UploadRow (Later)

variable {s s' : Deployment} {a : Action} {row row' : UploadRow} {old : UploadRow}

/-- The call that makes the step adds this row. -/
def Inserts (env : Env) (s : Deployment) (a : Action) (row : UploadRow) : Prop :=
  ∃ c b req v now, a = .call c b ∧ s.calls[c]? = some (.inserting req v) ∧ row = v.row env now ∧
    IsNew env s.rows v now

theorem Inserts.sound (h : Inserts env s a row) : row.Sound env := by
  obtain ⟨c, b, req, v, now, -, -, rfl, hnew⟩ := h
  exact hnew.sound

/-- **Rows are written by workers and by calls.** -/
theorem step_row (h : step env s a = some s') (id : ID) :
    s'.rows.find id = s.rows.find id ∨
    (∃ k b pc e, a = .work k b ∧ s.steps[k]? = some pc ∧
      WorkChange env pc e (s.rows.find id) (s'.rows.find id)) ∨
    ∃ c b pc, a = .call c b ∧ s.calls[c]? = some pc ∧
      CallChange env s.rows pc (s.rows.find id) (s'.rows.find id) := by
  cases a with
  | work k b =>
    obtain ⟨pc, e, hk, he, rfl⟩ := step_work h
    exact .inr (.inl ⟨k, b, pc, e, rfl, hk, work_row he id⟩)
  | call c b =>
    obtain ⟨pc, e, hc, he, rfl⟩ := step_call h
    exact .inr (.inr ⟨c, b, pc, rfl, hc, serve_row he id⟩)
  | upload =>
    rw [step] at h
    split at h <;> cases h
    exact .inl rfl
  | store | remove =>
    obtain ⟨_, -, rfl⟩ := Option.map_eq_some_iff.mp h
    exact .inl rfl
  | start | create | complete | delete =>
    cases h
    exact .inl rfl

/-- **A row changes by committed writes, one in a step.**  It does not vanish. -/
theorem step_written (h : step env s a = some s') (id : ID) :
    s'.rows.find id = s.rows.find id ∨
    (∃ old new, s.rows.find id = some old ∧ s'.rows.find id = some new ∧ old.Written new ∧
      (old.Sound env → new.Sound env)) ∨
    s.rows.find id = none ∧ ∃ new, s'.rows.find id = some new ∧ Inserts env s a new := by
  obtain heq | ⟨k, b, pc, e, -, -, hchange⟩ | ⟨c, b, pc, rfl, hc, hchange⟩ := step_row h id
  · exact .inl heq
  · obtain heq | ⟨old, new, hold, hnew, hw, hsound, -⟩ := hchange.written
    · exact .inl heq
    · exact .inr (.inl ⟨old, new, hold, hnew, hw, hsound⟩)
  · obtain heq | hwritten | ⟨hnone, req, v, now, rfl, hnew, hv⟩ := hchange.written
    · exact .inl heq
    · exact .inr (.inl hwritten)
    · exact .inr (.inr ⟨hnone, _, hnew, c, b, req, v, now, rfl, hc, rfl, hv⟩)

/-- The runs of the service. -/
abbrev Runs (env : Env) : Deployment → Deployment → Prop :=
  Machine.Reach (step env) (fun _ _ ↦ True)

theorem sound (h : Runs env {} s) : ∀ id row, s.rows.find id = some row → row.Sound env := by
  refine h.invariant (fun _ _ h ↦ by cases h) fun s a s' _ ih _ hstep id row hrow ↦ ?_
  obtain heq | ⟨old, new, hold, hnew, -, hsound⟩ | ⟨-, new, hnew, hinserts⟩ :=
    step_written hstep id
  · exact ih id row (heq ▸ hrow)
  · cases hnew.symm.trans hrow
    exact hsound (ih id old hold)
  · cases hnew.symm.trans hrow
    exact hinserts.sound

theorem step_later (h : step env s a = some s') {id} (hrow : s.rows.find id = some row) :
    ∃ row', s'.rows.find id = some row' ∧ row.Later row' := by
  obtain heq | ⟨old, new, hold, hnew, hw, -⟩ | ⟨hnone, -⟩ := step_written h id
  · exact ⟨row, heq.trans hrow, .refl row⟩
  · cases hold.symm.trans hrow
    exact ⟨new, hnew, hw.later⟩
  · cases hnone.symm.trans hrow

/-- The rows are kept over a run. -/
theorem later (h : Runs env s s') {id} (hrow : s.rows.find id = some row) :
    ∃ row', s'.rows.find id = some row' ∧ row.Later row' := by
  refine h.invariant ⟨row, hrow, .refl row⟩ fun b a b' _ ih _ hstep ↦ ?_
  obtain ⟨row', hrow', hlater⟩ := ih
  obtain ⟨row'', hrow'', hlater'⟩ := step_later hstep hrow'
  exact ⟨row'', hrow'', hlater.trans hlater'⟩

/-- A step adds one row at most. -/
theorem Inserts.id_eq (h : Inserts env s a row) (h' : Inserts env s a row') : row.id = row'.id := by
  obtain ⟨c, b, req, v, now, rfl, hc, rfl, -⟩ := h
  obtain ⟨c', b', req', v', now', ha, hc', rfl, -⟩ := h'
  cases ha
  cases hc.symm.trans hc'
  rfl

/-- The rows have one object key, or one owner and idempotency key. -/
def Clash (row row' : UploadRow) : Prop :=
  row.objectKey = row'.objectKey ∨
    row.owner = row'.owner ∧ row.idempotencyKey = row'.idempotencyKey

theorem Clash.symm (h : Clash row row') : Clash row' row :=
  h.imp Eq.symm fun h ↦ ⟨h.1.symm, h.2.symm⟩

theorem Clash.of_later {old'} (h : Clash row row') (hold : old.Later row)
    (hold' : old'.Later row') : Clash old old' := by
  rwa [Clash, hold.object, hold.owner, hold.key, hold'.object, hold'.owner, hold'.key] at h

/-- A new row clashes with none that is there, as the insertion has checked. -/
theorem Inserts.not_clash {id} (h : Inserts env s a row)
    (hold : s.rows.find id = some old) : ¬ Clash old row := by
  obtain ⟨_, _, _, v, now, -, -, rfl, hv⟩ := h
  exact not_or.mpr ⟨hv.object old (Table.mem_rows_of_find hold),
    hv.key old (Table.mem_rows_of_find hold)⟩

/-- Where a row of the next state comes from. -/
theorem step_origin (h : step env s a = some s') {id} (hrow : s'.rows.find id = some row) :
    (∃ old, s.rows.find id = some old ∧ old.Later row) ∨ Inserts env s a row := by
  obtain heq | ⟨old, new, hold, hnew, hw, -⟩ | ⟨-, new, hnew, hinserts⟩ := step_written h id
  · exact .inl ⟨row, heq ▸ hrow, .refl row⟩
  · cases hnew.symm.trans hrow
    exact .inl ⟨old, hold, hw.later⟩
  · cases hnew.symm.trans hrow
    exact .inr hinserts

/-- No two rows clash. -/
theorem unique (h : Runs env {} s) : ∀ id id' row row', s.rows.find id = some row →
    s.rows.find id' = some row' → Clash row row' → id = id' := by
  refine h.invariant (fun _ _ _ _ h ↦ by cases h)
    fun s a s' _ ih _ hstep id id' row row' hrow hrow' hclash ↦ ?_
  obtain ⟨old, hold, hlater⟩ | hinserts := step_origin hstep hrow
  · obtain ⟨old', hold', hlater'⟩ | hinserts' := step_origin hstep hrow'
    · exact ih id id' old old' hold hold' (hclash.of_later hlater hlater')
    · exact absurd (hclash.of_later hlater (.refl _)) (hinserts'.not_clash hold)
  · obtain ⟨old', hold', hlater'⟩ | hinserts' := step_origin hstep hrow'
    · exact absurd (hclash.symm.of_later hlater' (.refl _)) (hinserts.not_clash hold')
    · rw [← Table.key_eq_of_find hrow, ← Table.key_eq_of_find hrow']
      exact hinserts.id_eq hinserts'

/-- A worker changes nothing once the version that it has claimed is superseded. -/
theorem fenced {k : Nat} {pc r a} (hk : s.steps[k]? = some pc)
    (hr : pc.record = some r) (hrow : s.rows.find r.id = some row) (hne : row.version ≠ r.version)
    (h : step env s (.work k a) = some s') (id : ID) : s'.rows.find id = s.rows.find id := by
  obtain ⟨pc', e, hk', he, rfl⟩ := step_work h
  cases hk.symm.trans hk'
  obtain heq | ⟨old, new, hold, -, -, -, hcurrent⟩ := (work_row he id).written
  · exact heq
  · have hcurrent := hcurrent r hr
    have hid : id = r.id := (Table.key_eq_of_find hold).symm.trans hcurrent.id
    rw [hid, hrow] at hold
    cases hold
    exact absurd hcurrent.version hne

/-- **The life of a file.**  In every state of a run: every row decodes; the derivative is entered
exactly for a row that has left `scanning` for `replicating`; a step changes a row by a committed
write or not at all, or adds a row in its first state; whatever becomes of a row later is a path of
permitted transitions; and a worker whose version is superseded changes no row. -/
theorem lifecycle (h : Runs env {} s) :
    (∀ id row, s.rows.find id = some row → decode env row = some row.record ∧
      (row.uploadID = none ∨ row.uploadID = some row.id) ∧
      (row.IsEarly → row.cleanSHA256 = none ∧ row.cleanSize = 0 ∧ row.cleanFormat = .unknown) ∧
      (row.state = .replicating ∨ row.state = .ready → row.cleanSHA256 ≠ none ∧
        0 < row.cleanSize ∧ row.cleanFormat.IsClean)) ∧
    (∀ a s', step env s a = some s' → ∀ id,
      s'.rows.find id = s.rows.find id ∨
      (∃ row row', s.rows.find id = some row ∧ s'.rows.find id = some row' ∧ row.Written row') ∨
      s.rows.find id = none ∧ ∃ row', s'.rows.find id = some row' ∧ row'.state = .uploading ∧
        row'.version = 1 ∧ row'.uploadID = none) ∧
    (∀ s', Runs env s s' → ∀ id row, s.rows.find id = some row →
      ∃ row', s'.rows.find id = some row' ∧ row.Later row' ∧
        (row.state = .deleted → row'.state = .deleted)) ∧
    ∀ k pc r row, s.steps[k]? = some pc → pc.record = some r → s.rows.find r.id = some row →
      row.version ≠ r.version → ∀ a s', step env s (.work k a) = some s' →
      ∀ id, s'.rows.find id = s.rows.find id := by
  refine ⟨fun id row hrow ↦ ?_, fun a s' hstep id ↦ ?_, fun s' hrun id row hrow ↦ ?_,
    fun k pc r row hk hr hrow hne a s' hstep ↦ fenced hk hr hrow hne hstep⟩
  · have hsound := sound h id row hrow
    refine ⟨hsound.decode, hsound.upload, hsound.unset, fun hstate ↦ ?_⟩
    obtain ⟨sum, hsum, -, hpos, -, hformat⟩ := hsound.set hstate
    exact ⟨by rw [hsum]; exact Option.some_ne_none sum, hpos, hformat⟩
  · obtain heq | ⟨old, new, hold, hnew, hw, -⟩ | ⟨hnone, new, hnew, hinserts⟩ :=
      step_written hstep id
    · exact .inl heq
    · exact .inr (.inl ⟨old, new, hold, hnew, hw⟩)
    · obtain ⟨_, _, _, v, now, -, -, rfl, -⟩ := hinserts
      exact .inr (.inr ⟨hnone, _, hnew, rfl, rfl, rfl⟩)
  · obtain ⟨row', hrow', hlater⟩ := later hrun hrow
    refine ⟨row', hrow', hlater, fun hdeleted ↦ ?_⟩
    have hpath := hlater.state
    rw [hdeleted] at hpath
    obtain heq | ⟨b, hcan, -⟩ := hpath.cases_head
    · exact heq.symm
    · cases b <;> simp [CanTransition] at hcan

/-! ## What a worker knows of its file -/

/-- The record was read of the row of its file, before or in its present state. -/
def Seen (env : Env) (rows : Uploads) (r : Record) : Prop :=
  ∃ old row : UploadRow, old.record = r ∧ old.Sound env ∧ rows.find r.id = some row ∧ old.Later row

theorem Seen.step {r} (h : Seen env s.rows r) (hstep : step env s a = some s') :
    Seen env s'.rows r := by
  obtain ⟨old, row, hr, hsound, hrow, hlater⟩ := h
  obtain ⟨row', hrow', hlater'⟩ := step_later hstep hrow
  exact ⟨old, row', hr, hsound, hrow', hlater.trans hlater'⟩

/-- The record of a worker is the one of the row that it has claimed. -/
theorem seen (h : Runs env {} s) : ∀ (k : Nat) (pc : StepPc) r, s.steps[k]? = some pc →
    pc.record = some r → Seen env s.rows r := by
  refine h.invariant (fun _ _ _ h ↦ by cases h)
    fun s a s' hrun ih _ hstep k pc r hk hr ↦ ?_
  obtain hold | rfl | ⟨b, pc', e, rfl, hk', he, rfl, rfl⟩ := step_pc hstep hk
  · exact (ih k pc r hold hr).step hstep
  · cases hr
  · obtain hr' | ⟨row, hrow, hdecode⟩ := (Worked.of_work he).record hr
    · exact (ih k pc' r hk' hr').step hstep
    · have hsound := sound (hrun.next trivial hstep) _ row hrow
      cases hsound.decode.symm.trans hdecode
      exact ⟨row, row, rfl, hsound, hrow, .refl row⟩

/-! ## A file that is created, scanned and published -/

/-- A stand-in for SHA-256 on short data. -/
def sampleEnv : Env where
  sha256 b := .ofFn fun i ↦ b.getD i 255
  jsonSize _ := 100
  render _ pages := pages.flatMap Page.rgb

def sampleID (n : UInt8) : ID := .replicate 16 n

def sampleOwner : Owner := ⟨sampleID 1, sampleID 2⟩

def sampleManifest : Manifest where
  format := .png
  size := 3
  sha256 := sampleEnv.sha256 [1, 2, 3]
  parts := [⟨3, sampleEnv.sha256 [1, 2, 3]⟩]

def sampleRequest : CreateRequest := ⟨sampleOwner, sampleID 3, sampleManifest⟩

def sampleObject : Object where
  data := [1, 2, 3]
  encrypted := true
  fileID := some (sampleID 4)
  uploadID := some (sampleID 4)

/-- One page of one pixel. -/
def samplePixels : Bytes := magic ++ [0, 0, 0, 1, 0, 0, 0, 1, 0, 0, 0, 1, 9, 8, 7]

/-- A file is created and uploaded; the first worker scans it. -/
def sampleScan : List Action :=
  [.create sampleRequest (sampleID 4) (sampleID 5) 10, .call 0 (.commit 10 true),
    .call 0 (.proceed 10), .call 0 (.commit 10 true),
    .upload (partKey (sampleID 5) 1) sampleObject, .complete sampleOwner (sampleID 4),
    .call 1 (.commit 20 true), .call 1 (.head (.ok "etag")), .call 1 (.proceed 20),
    .call 1 (.commit 20 true), .start, .work 0 (.claim 30 (sampleID 4) true),
    .work 0 (.dispatch 30), .work 0 .read, .work 0 .read]

/-- The first worker enters the derivative, and the second one publishes it. -/
def samplePublish : List Action :=
  [.work 0 (.clean (.body { bytes := samplePixels })), .work 0 (.scan .clean),
    .work 0 (.scan .clean), .work 0 (.put none), .store 0, .work 0 .verify,
    .work 0 (.commit 40 true), .start, .work 1 (.claim 50 (sampleID 4) true),
    .work 1 (.dispatch 50), .work 1 .fetch, .work 1 (.put none), .store 1, .work 1 .verify,
    .work 1 (.put none), .store 2, .work 1 .verify, .work 1 (.commit 60 true)]

theorem sample_runs : ∃ s, Runs sampleEnv {} s ∧
    (s.rows.find (sampleID 4)).any (·.state = .ready) = true := by
  exact Machine.exists_of_script _ _ _ (sampleScan ++ samplePublish) _ (by decide +kernel)

theorem lifecycle_sample : ∃ s row, Runs sampleEnv {} s ∧ s.rows.find (sampleID 4) = some row ∧
    row.state = .ready ∧ decode sampleEnv row = some row.record := by
  obtain ⟨s, hrun, hready⟩ := sample_runs
  obtain ⟨row, hrow, hready⟩ := (Option.any_eq_true _ _).mp hready
  exact ⟨s, row, hrun, hrow, of_decide_eq_true hready, ((lifecycle hrun).1 _ row hrow).1⟩

end Deployment

end MarketMesh.Files
