import MarketMesh.Files.Lifecycle

/-!
# A file that is ready has been scanned

The evidence for a derivative is gathered by several calls of `Step` that share nothing but the row
of the file.  A worker enters a derivative in the version that it has claimed, after it has read and
scanned all of it; a later worker publishes it, after it has read back the copies.
-/

set_option autoImplicit false

namespace MarketMesh.Files

open Auth (Bytes Time Digest)

variable {env : Env} {rows : Uploads} {objects : Objects} {body : Bytes} {size : Int}
  {object : Object} {a : WorkAction}

/-- The data of an event. -/
def Event.data : Event → List Bytes
  | .part _ _ body => [body]
  | .read _ source => [source]
  | .cleaned source _ clean => [source, clean]
  | .scanned data => [data]
  | .marked _ _ clean => [clean]
  | .copied _ _ copy => [copy]
  | .published _ => []

/-! ## What the dependencies have answered -/

theorem readPart_ok {part} (h : readPart env part object = .ok body) :
    (body.length : Int) = part.size ∧ env.sha256 body = part.sha256 := by
  unfold readPart at h
  dsimp only at h
  split at h <;> cases h
  rename_i hgood
  exact ⟨hgood.1, hgood.2.1⟩

theorem readClean_ok {sum} (h : readClean env size sum object = .ok body) :
    (body.length : Int) = size ∧ env.sha256 body = sum := by
  unfold readClean at h
  split at h
  · cases h
  · dsimp only at h
    split at h <;> cases h
    rename_i hgood
    exact hgood

theorem scan_ok {data answer} (h : scan data size answer = .ok ()) :
    (data.length : Int) = size := by
  unfold scan at h
  split at h
  · cases h
  · split at h
    · cases h
    · split at h
      · assumption
      · cases h
    · cases h

theorem sandboxClean_ok {format format' answer clean}
    (h : sandboxClean env.render size format answer = .ok (format', clean)) :
    (clean.length : Int) ≤ maxSize := by
  unfold sandboxClean at h
  split at h
  · cases h
  · split at h
    · cases h
    · cases h
    · unfold reconstruct at h
      split at h
      · cases h
      · dsimp only at h
        split at h
        · cases h
        · rename_i hmax
          cases h
          exact not_lt.mp hmax

/-! ## What a worker has done -/

/-- These parts were read by the worker, and are what the manifest says. -/
def PartsRead (env : Env) (log : List (Nat × Event)) (k : Nat) (r : Record) (parts : List Part)
    (bodies : List Bytes) : Prop :=
  bodies.length = parts.length ∧ ∀ i part body, parts[i]? = some part → bodies[i]? = some body →
    (k, .part r (i + 1) body) ∈ log ∧ (body.length : Int) = part.size ∧
      env.sha256 body = part.sha256

/-- The worker has read all parts of the file, with the hash of the manifest. -/
structure HasRead (env : Env) (log : List (Nat × Event)) (k : Nat) (r : Record) (source : Bytes) :
    Prop where
  parts : ∃ bodies, source = bodies.flatten ∧ PartsRead env log k r r.manifest.parts bodies
  whole : env.sha256 source = r.manifest.sha256
  read : (k, .read r source) ∈ log

/-- The worker has reconstructed a derivative from what it has read. -/
structure HasCleaned (env : Env) (log : List (Nat × Event)) (k : Nat) (r : Record) (source : Bytes)
    (format : Format) (clean : Bytes) : Prop extends HasRead env log k r source where
  cleaned : (k, .cleaned source format clean) ∈ log
  ne_nil : clean ≠ []
  size_le : (clean.length : Int) ≤ maxSize
  format_eq : format = .png ∨ format = .pdf

/-- The scanner has found all of the source clean. -/
structure HasScannedSource (env : Env) (log : List (Nat × Event)) (k : Nat) (r : Record)
    (source : Bytes) (format : Format) (clean : Bytes) : Prop
    extends HasCleaned env log k r source format clean where
  source_size : (source.length : Int) = r.manifest.size
  source_clean : (k, .scanned source) ∈ log

/-- The scanner has found the source and the derivative clean. -/
structure HasScanned (env : Env) (log : List (Nat × Event)) (k : Nat) (r : Record)
    (source : Bytes) (format : Format) (clean : Bytes) : Prop
    extends HasScannedSource env log k r source format clean where
  derivative_clean : (k, .scanned clean) ∈ log

/-- Where the worker has still to read copies, it has read the others. -/
def HasCopied (log : List (Nat × Event)) (k : Nat) (r : Record) (dcs : List (Fin 2)) : Prop :=
  ∀ dc, dc ∉ dcs → ∃ copy, (k, .copied r dc copy) ∈ log

/-- What a worker has done, where it is. -/
def StepPc.Has (env : Env) (log : List (Nat × Event)) (k : Nat) : StepPc → Prop
  | .reading r source number parts => ∃ done bodies, done ++ parts = r.manifest.parts ∧
      number = done.length + 1 ∧ source = bodies.flatten ∧ PartsRead env log k r done bodies
  | .cleaning r source => HasRead env log k r source
  | .scanningSource r source format clean => HasCleaned env log k r source format clean
  | .scanningClean r source format clean => HasScannedSource env log k r source format clean
  | .putting r source format clean | .verifying r source format clean
  | .marking r source format clean => HasScanned env log k r source format clean
  | .fetching r => r.state = .replicating
  | .copying r _ dcs => r.state = .replicating ∧ HasCopied log k r dcs
  | .checking r _ dc dcs => r.state = .replicating ∧ HasCopied log k r (dc :: dcs)
  | .publishing r => r.state = .replicating ∧ HasCopied log k r []
  | _ => True

section Mono

variable {log log' : List (Nat × Event)} {k : Nat} {r : Record} {source clean : Bytes}
  {format : Format}

theorem PartsRead.mono {parts bodies} (h : PartsRead env log k r parts bodies) (hlog : log ⊆ log') :
    PartsRead env log' k r parts bodies :=
  ⟨h.1, fun i part body hpart hbody ↦
    ⟨hlog (h.2 i part body hpart hbody).1, (h.2 i part body hpart hbody).2⟩⟩

theorem HasRead.mono (h : HasRead env log k r source) (hlog : log ⊆ log') :
    HasRead env log' k r source := by
  obtain ⟨bodies, hsource, hparts⟩ := h.parts
  exact ⟨⟨bodies, hsource, hparts.mono hlog⟩, h.whole, hlog h.read⟩

theorem HasCleaned.mono (h : HasCleaned env log k r source format clean) (hlog : log ⊆ log') :
    HasCleaned env log' k r source format clean :=
  ⟨h.toHasRead.mono hlog, hlog h.cleaned, h.ne_nil, h.size_le, h.format_eq⟩

theorem HasScannedSource.mono (h : HasScannedSource env log k r source format clean)
    (hlog : log ⊆ log') : HasScannedSource env log' k r source format clean :=
  ⟨h.toHasCleaned.mono hlog, h.source_size, hlog h.source_clean⟩

theorem HasScanned.mono (h : HasScanned env log k r source format clean) (hlog : log ⊆ log') :
    HasScanned env log' k r source format clean :=
  ⟨h.toHasScannedSource.mono hlog, hlog h.derivative_clean⟩

theorem HasCopied.mono {dcs} (h : HasCopied log k r dcs) (hlog : log ⊆ log') :
    HasCopied log' k r dcs := by
  intro dc hdc
  obtain ⟨copy, hcopy⟩ := h dc hdc
  exact ⟨copy, hlog hcopy⟩

theorem StepPc.Has.mono {pc : StepPc} (h : pc.Has env log k) (hlog : log ⊆ log') :
    pc.Has env log' k := by
  cases pc with
  | reading =>
    obtain ⟨done, bodies, hdone, hnumber, hsource, hparts⟩ := h
    exact ⟨done, bodies, hdone, hnumber, hsource, hparts.mono hlog⟩
  | cleaning => exact HasRead.mono h hlog
  | scanningSource => exact HasCleaned.mono h hlog
  | scanningClean => exact HasScannedSource.mono h hlog
  | putting | verifying | marking => exact HasScanned.mono h hlog
  | copying | checking | publishing => exact ⟨h.1, HasCopied.mono h.2 hlog⟩
  | fetching => exact h
  | claiming | claimed | expiring | purging | sweeping | deferring | rejecting | finished => trivial

end Mono

variable {log : List (Nat × Event)} {k : Nat} {r : Record}

theorem has_dispatch (r : Record) (now : Time) : (dispatch r now).Has env log k := by
  unfold dispatch
  split
  · trivial
  · split
    · trivial
    · split
      · exact ⟨[], [], rfl, rfl, rfl, rfl, fun _ _ _ h ↦ by cases h⟩
      · trivial
    · split
      · assumption
      · trivial
    · unfold purge
      repeat' split
      all_goals trivial
    · unfold purge
      repeat' split
      all_goals trivial
    · unfold purge
      repeat' split
      all_goals trivial
    · unfold cleanupReady
      repeat' split
      all_goals trivial

theorem has_abort (r : Record) (e : Err) : (abort r e).Has env log k := by
  unfold abort
  split <;> trivial

theorem has_sweep (r : Record) (keys : List Bytes) (e : Option Err) :
    (sweep r keys e).Has env log k := by
  unfold sweep
  split <;> trivial

/-- One more part. -/
theorem PartsRead.append {parts bodies part}
    (h : PartsRead env log k r parts bodies) (hlog : (k, .part r (parts.length + 1) body) ∈ log)
    (hsize : (body.length : Int) = part.size) (hsum : env.sha256 body = part.sha256) :
    PartsRead env log k r (parts ++ [part]) (bodies ++ [body]) := by
  refine ⟨by rw [List.length_append, List.length_append, h.1]; rfl,
    fun i part' body' hpart hbody ↦ ?_⟩
  obtain ⟨hi, rfl⟩ | hold := Pool.of_append hpart
  · obtain ⟨-, rfl⟩ | hold' := Pool.of_append hbody
    · exact ⟨hi ▸ hlog, hsize, hsum⟩
    · rw [hi, ← h.1, List.getElem?_eq_none (Nat.le_refl _)] at hold'
      cases hold'
  · obtain ⟨hi, rfl⟩ | hold' := Pool.of_append hbody
    · rw [hi, h.1, List.getElem?_eq_none (Nat.le_refl _)] at hold
      cases hold
    · exact h.2 i part' body' hold hold'

/-- A worker does what it has to do before it goes on. -/
theorem Worked.has {pc e} (h : Worked env rows objects pc a e) (hpc : pc.Has env log k) :
    e.pc.Has env (log ++ e.event.toList.map (Prod.mk k)) k := by
  have hmem : ∀ {event : Event}, (k, event) ∈ log ++ [(k, event)] := by simp
  have hmono : log ⊆ log ++ e.event.toList.map (Prod.mk k) := List.subset_append_left ..
  cases h with
  | claimed | purged => trivial
  | ended hfinished =>
    rw [hfinished]
    trivial
  | dispatched => exact has_dispatch _ _
  | @part r source body number part parts object _ hread =>
    obtain ⟨done, bodies, hdone, rfl, rfl, hparts⟩ := hpc
    obtain ⟨hsize, hsum⟩ := readPart_ok hread
    refine ⟨done ++ [part], bodies ++ [body], ?_, ?_, ?_, ?_⟩
    · rw [← hdone, List.append_assoc, List.singleton_append]
    · rw [List.length_append, List.length_singleton]
    · rw [List.flatten_append, List.flatten_singleton]
    · exact (hparts.mono hmono).append hmem hsize hsum
  | @read r source number hwhole =>
    obtain ⟨done, bodies, hdone, -, hsource, hparts⟩ := hpc
    rw [List.append_nil] at hdone
    exact ⟨⟨bodies, hsource, hdone ▸ hparts.mono hmono⟩, hwhole, hmem⟩
  | cleaned hclean hne hformat =>
    exact ⟨HasRead.mono hpc hmono, hmem, hne, sandboxClean_ok hclean, hformat⟩
  | scannedSource hscan => exact ⟨HasCleaned.mono hpc hmono, scan_ok hscan, hmem⟩
  | scannedClean => exact ⟨HasScannedSource.mono hpc hmono, hmem⟩
  | @put _ _ _ _ answer =>
    cases answer with
    | none => exact HasScanned.mono hpc hmono
    | some => exact has_abort _ _
  | verified => exact HasScanned.mono hpc hmono
  | fetched => exact ⟨hpc, fun dc hdc ↦ absurd (by revert dc; decide) hdc⟩
  | @copy _ _ _ _ answer =>
    cases answer with
    | none => exact ⟨hpc.1, HasCopied.mono hpc.2 hmono⟩
    | some => exact has_abort _ _
  | @checked r data copy dc =>
    refine ⟨hpc.1, fun dc'' hdc ↦ ?_⟩
    by_cases heq : dc'' = dc
    · exact ⟨copy, heq ▸ hmem⟩
    · exact HasCopied.mono hpc.2 hmono dc'' (by simp [heq, hdc])
  | @checkedLast r data copy dc =>
    refine ⟨hpc.1, fun dc'' hdc ↦ ?_⟩
    by_cases heq : dc'' = dc
    · exact ⟨copy, heq ▸ hmem⟩
    · exact HasCopied.mono hpc.2 hmono dc'' (by simp [heq])
  | listed | kept | swept => exact has_sweep _ _ _
  | aborted => exact has_abort _ _

/-- A copy is recorded as it was read. -/
theorem Worked.copied {pc e dc copy}
    (h : Worked env rows objects pc a e) (hevent : e.event = some (.copied r dc copy)) :
    (∃ data dcs, pc = .checking r data dc dcs) ∧ (copy.length : Int) = r.cleanSize ∧
      env.sha256 copy = r.cleanSHA256 := by
  cases h with
  | ended _ _ _ hne => exact absurd hevent (hne _ _ _)
  | checked _ hread | checkedLast _ hread =>
    cases hevent
    exact ⟨⟨_, _, rfl⟩, readClean_ok hread⟩
  | claimed | dispatched | part | read | cleaned | scannedSource | scannedClean | put | verified
  | fetched | copy | purged | listed | kept | swept | aborted => cases hevent

namespace Deployment

variable {s s' : Deployment} {a : Action} {row old new : UploadRow} {id : ID} {b' b : Deployment}
  {source : Bytes}

theorem log_subset_of_step (h : step env s a = some s') : s.log ⊆ s'.log := by
  obtain ⟨k, b, pc, e, -, -, -, rfl⟩ | ⟨-, heq, -⟩ := step_workers h
  · exact List.subset_append_left ..
  · rw [heq]
    exact fun _ h ↦ h

theorem has (h : Runs env {} s) : ∀ (k : Nat) (pc : StepPc), s.steps[k]? = some pc →
    pc.Has env s.log k := by
  refine h.invariant (fun _ _ h ↦ by cases h) fun s a s' _ ih _ hstep k pc hk ↦ ?_
  obtain hold | rfl | ⟨b, pc', e, -, hk', he, rfl, rfl⟩ := step_pc hstep hk
  · exact (ih k pc hold).mono (log_subset_of_step hstep)
  · trivial
  · exact (Worked.of_work he).has (ih k pc' hk')

/-- A copy is read for a file that is replicated, and has the hash of the derivative. -/
theorem copied (h : Runs env {} s) : ∀ k r dc copy, (k, Event.copied r dc copy) ∈ s.log →
    r.state = .replicating ∧ (copy.length : Int) = r.cleanSize ∧
      env.sha256 copy = r.cleanSHA256 ∧ Seen env s.rows r := by
  refine h.invariant (fun _ _ _ _ h ↦ by cases h)
    fun s a s' hrun ih _ hstep k r dc copy hmem ↦ ?_
  have hold (hmem : (k, Event.copied r dc copy) ∈ s.log) : r.state = .replicating ∧
      (copy.length : Int) = r.cleanSize ∧ env.sha256 copy = r.cleanSHA256 ∧ Seen env s'.rows r := by
    obtain ⟨hstate, hsize, hsum, hseen⟩ := ih k r dc copy hmem
    exact ⟨hstate, hsize, hsum, hseen.step hstep⟩
  obtain ⟨j, b, pc, e, rfl, hj, he, rfl⟩ | ⟨-, heq, -⟩ := step_workers hstep
  · obtain hmem | hmem := List.mem_append.mp hmem
    · exact hold hmem
    · obtain ⟨event, hevent, heq⟩ := List.mem_map.mp hmem
      cases heq
      obtain ⟨⟨data, dcs, rfl⟩, hsize, hsum⟩ :=
        (Worked.of_work he).copied (Option.mem_toList.mp hevent)
      exact ⟨(has hrun _ _ hj).1, hsize, hsum, (seen hrun _ _ r hj rfl).step hstep⟩
  · exact hold (heq ▸ hmem)

/-! ## The two steps that make a file ready -/

/-- The worker that has scanned the file in its present version enters the derivative. -/
structure Marking (env : Env) (b b' : Deployment) (k : Nat) (r : Record) (source : Bytes)
    (format : Format) (clean : Bytes) : Prop where
  run : Runs env {} b
  step : ∃ a, step env b (.work k a) = some b'
  pc : b.steps[k]? = some (.marking r source format clean)
  current : ∃ row : UploadRow, b.rows.find r.id = some row ∧ row.record = r
  state : r.state = .scanning
  scanned : HasScanned env b.log k r source format clean

/-- The worker that has read both copies publishes the file, in its present version; in the state
`b` it had not read them. -/
structure Publishing (env : Env) (b c c' : Deployment) (k : Nat) (r : Record)
    (copies : Fin 2 → Bytes) : Prop where
  step : ∃ a, Deployment.step env c (.work k a) = some c'
  pc : c.steps[k]? = some (.publishing r)
  current : ∃ row : UploadRow, c.rows.find r.id = some row ∧ row.record = r
  state : r.state = .replicating
  read : ∀ dc, (k, .copied r dc (copies dc)) ∈ c.log
  later : ∀ dc, (k, .copied r dc (copies dc)) ∉ b.log

/-- A record in the version of the row is what the row says. -/
theorem Seen.record_eq {r} (h : Seen env s.rows r) (hrow : s.rows.find id = some row)
    (hr : r.IsCurrent row) : s.rows.find r.id = some row ∧ row.record = r := by
  obtain ⟨old, row', hold, -, hrow', hlater⟩ := h
  have hid : id = r.id := (Table.key_eq_of_find hrow).symm.trans hr.id
  rw [← hid] at hrow' ⊢
  cases hrow.symm.trans hrow'
  have hversion : row.version = old.version := by rw [hr.version, ← hold, UploadRow.record]
  obtain rfl | hlt := hlater.version
  · exact ⟨hrow, hold⟩
  · rw [hversion] at hlt
    exact absurd hlt (lt_irrefl _)

/-- Who enters a derivative. -/
theorem step_marking (hrun : Runs env {} s) (h : step env s a = some s')
    (hold : s.rows.find id = some old) (hnew : s'.rows.find id = some new)
    (hscanning : old.state = .scanning) (hreplicating : new.state = .replicating) :
    ∃ k r source clean, Marking env s s' k r source new.cleanFormat clean ∧ r.id = id ∧
      r.manifest = new.manifest ∧ new.cleanSHA256 = some (env.sha256 clean) ∧
      new.cleanSize = clean.length := by
  have hne : old.state ≠ new.state := by
    rw [hscanning, hreplicating]
    decide
  obtain heq | ⟨k, b, pc, e, rfl, hk, hchange⟩ | ⟨c, b, pc, -, -, hchange⟩ := step_row h id
  · rw [hold, hnew] at heq
    cases heq
    exact absurd rfl hne
  · rw [hold, hnew] at hchange
    cases hchange with
    | same | claimed | deferred => exact absurd rfl hne
    | moved hpc => exact absurd hreplicating hpc.target_ne
    | @cleaned _ r source clean format _ now _ hr _ hstate =>
      obtain ⟨hrow, hrecord⟩ := (seen hrun k _ r hk rfl).record_eq hold hr
      refine ⟨k, r, source, clean, ⟨hrun, ⟨b, h⟩, hk, ⟨old, hrow, hrecord⟩, hstate,
        has hrun k _ hk⟩, ?_, ?_, rfl, rfl⟩
      · exact hr.id.symm.trans (Table.key_eq_of_find hold)
      · rw [← hrecord]
        rfl
  · rw [hold, hnew] at hchange
    cases hchange with
    | same | attached => exact absurd rfl hne
    | completed | removed => cases hreplicating

/-- Who publishes a file. -/
theorem step_publishing (hrun : Runs env {} s) (h : step env s a = some s')
    (hold : s.rows.find id = some old) (hnew : s'.rows.find id = some new)
    (hne : old.state ≠ .ready) (hready : new.state = .ready) :
    old.state = .replicating ∧ ∃ k b, a = .work k b ∧
      s.steps[k]? = some (.publishing old.record) := by
  have hne : old.state ≠ new.state := by rwa [hready]
  obtain heq | ⟨k, b, pc, e, rfl, hk, hchange⟩ | ⟨c, b, pc, -, -, hchange⟩ := step_row h id
  · rw [hold, hnew] at heq
    cases heq
    exact absurd rfl hne
  · rw [hold, hnew] at hchange
    cases hchange with
    | same | claimed | deferred => exact absurd rfl hne
    | @moved _ _ r target _ now hpc hr hstate hcan =>
      have htarget : target = .ready := hready
      subst htarget
      have hpc' : pc = .publishing r := by
        generalize e.event = event at hpc
        cases hpc
        rfl
      obtain ⟨-, hrecord⟩ := (seen hrun k _ r hk hpc.record).record_eq hold hr
      refine ⟨?_, k, b, rfl, hrecord ▸ hpc' ▸ hk⟩
      rw [hstate]
      revert hcan
      cases r.state <;> simp [CanTransition]
    | cleaned => cases hready
  · rw [hold, hnew] at hchange
    cases hchange with
    | same | attached => exact absurd rfl hne
    | completed | removed => cases hready

/-- How the derivative of a row came to be, on the way to the state `s`. -/
structure Derived (env : Env) (s : Deployment) (row : UploadRow) (b b' : Deployment) (k : Nat)
    (r : Record) (source clean : Bytes) : Prop where
  marking : Marking env b b' k r source row.cleanFormat clean
  run : Runs env b' s
  id : r.id = row.id
  manifest : r.manifest = row.manifest
  sum : row.cleanSHA256 = some (env.sha256 clean)
  size : row.cleanSize = clean.length

theorem Derived.step {k : Nat} {r clean}
    (h : Derived env s old b b' k r source clean) (hstep : step env s a = some s')
    (hlater : old.Later new) (hlate : ¬ old.IsEarly) :
    Derived env s' new b b' k r source clean := by
  obtain ⟨hsum, hsize, hformat⟩ := hlater.clean hlate
  refine ⟨hformat ▸ h.marking, h.run.next trivial hstep, ?_, ?_, hsum.trans h.sum,
    hsize.trans h.size⟩
  · rw [hlater.id, h.id]
  · rw [hlater.manifest, h.manifest]

theorem derived (h : Runs env {} s) : ∀ id row, s.rows.find id = some row →
    row.state = .replicating ∨ row.state = .ready →
    ∃ b b' k r source clean, Derived env s row b b' k r source clean := by
  refine h.invariant (fun _ _ h ↦ by cases h) fun s a s' hrun ih _ hstep id row hrow hstate ↦ ?_
  have hlate {old : UploadRow} (hold : old.state = .replicating ∨ old.state = .ready) :
      ¬ old.IsEarly := by
    obtain hold | hold := hold <;> simp [UploadRow.IsEarly, hold]
  obtain heq | ⟨old, new, hold, hnew, hw, -⟩ | ⟨-, new, hnew, _, _, _, v, now, -, -, rfl, -⟩ :=
    step_written hstep id
  · obtain ⟨b, b', k, r, source, clean, hderived⟩ := ih id row (heq ▸ hrow) hstate
    exact ⟨b, b', k, r, source, clean, hderived.step hstep (.refl row) (hlate hstate)⟩
  · cases hnew.symm.trans hrow
    obtain ⟨hscanning, hreplicating⟩ | ⟨hto, -⟩ := hw.clean
    · obtain ⟨k, r, source, clean, hmarking, hid, hmanifest, hsum, hsize⟩ :=
        step_marking hrun hstep hold hrow hscanning hreplicating
      exact ⟨s, s', k, r, source, clean, hmarking, .start,
        hid.trans (Table.key_eq_of_find hrow).symm, hmanifest, hsum, hsize⟩
    · have hbefore := hw.state_before hto hstate
      obtain ⟨b, b', k, r, source, clean, hderived⟩ := ih id old hold hbefore
      exact ⟨b, b', k, r, source, clean, hderived.step hstep hw.later (hlate hbefore)⟩
  · cases hnew.symm.trans hrow
    obtain hstate | hstate := hstate <;> cases hstate

/-- Before the derivative is entered, no copy is read. -/
theorem Marking.not_copied {k k' : Nat} {r r' clean copy format dc}
    (h : Marking env b b' k r source format clean)
    (hid : r'.id = r.id) : (k', .copied r' dc copy) ∉ b.log := by
  intro hmem
  obtain ⟨hstate, -, -, old, row, hold, -, hrow, hlater⟩ := copied h.run _ _ _ _ hmem
  obtain ⟨row', hrow', hcurrent⟩ := h.current
  rw [hid] at hrow
  cases hrow.symm.trans hrow'
  have hlate : ¬ old.IsEarly := by
    have : old.state = .replicating := by rw [← hstate, ← hold, UploadRow.record]
    simp [UploadRow.IsEarly, this]
  refine hlater.not_isEarly hlate (.inr ?_)
  rw [← h.state, ← hcurrent, UploadRow.record]

/-- How a row came to be ready, on the way to the state `s`. -/
structure Published (env : Env) (s : Deployment) (row : UploadRow) (b b' : Deployment) (k : Nat)
    (r : Record) (source clean : Bytes) (c c' : Deployment) (k' : Nat) (r' : Record)
    (copies : Fin 2 → Bytes) : Prop extends Derived env s row b b' k r source clean where
  between : Runs env b' c
  publishing : Publishing env b c c' k' r' copies
  after : Runs env c' s
  id' : r'.id = row.id
  copies_size : ∀ dc, (copies dc).length = clean.length
  copies_sum : ∀ dc, env.sha256 (copies dc) = env.sha256 clean

/-- The step that publishes a file has all the evidence. -/
theorem published_of_step (hrun : Runs env {} s) (h : step env s a = some s')
    (hold : s.rows.find id = some old) (hnew : s'.rows.find id = some new) (hlater : old.Later new)
    (hne : old.state ≠ .ready) (hready : new.state = .ready) :
    ∃ b b' k r source clean c c' k' r' copies,
      Published env s' new b b' k r source clean c c' k' r' copies := by
  obtain ⟨hreplicating, k', act, rfl, hk'⟩ := step_publishing hrun h hold hnew hne hready
  obtain ⟨b, b', k, r, source, clean, hderived⟩ := derived hrun id old hold (.inl hreplicating)
  have hrow : s.rows.find old.id = some old := (Table.key_eq_of_find hold).symm ▸ hold
  have hlate : ¬ old.IsEarly := by simp [UploadRow.IsEarly, hreplicating]
  choose copies hcopies using fun dc ↦ (has hrun k' _ hk').2 dc List.not_mem_nil
  have hcopied dc := copied hrun _ _ _ _ (hcopies dc)
  refine ⟨b, b', k, r, source, clean, s, s', k', old.record, copies,
    ⟨hderived.step h hlater hlate, hderived.run,
      ⟨⟨act, h⟩, hk', ⟨old, hrow, rfl⟩, hreplicating, hcopies,
      fun dc ↦ hderived.marking.not_copied ?_⟩, .start, hlater.id.symm, fun dc ↦ ?_, fun dc ↦ ?_⟩⟩
  · exact hderived.id.symm
  · have hsize := (hcopied dc).2.1
    rw [UploadRow.record, hderived.size] at hsize
    exact Int.ofNat_inj.mp hsize
  · have hsum := (hcopied dc).2.2.1
    rwa [UploadRow.record, hderived.sum, Option.getD_some] at hsum

theorem published (h : Runs env {} s) : ∀ id row, s.rows.find id = some row → row.state = .ready →
    ∃ b b' k r source clean c c' k' r' copies,
      Published env s row b b' k r source clean c c' k' r' copies := by
  refine h.invariant (fun _ _ h ↦ by cases h) fun s a s' hrun ih _ hstep id row hrow hready ↦ ?_
  obtain ⟨old, hold, hlater⟩ | ⟨_, _, _, v, now, -, -, rfl, -⟩ := step_origin hstep hrow
  · by_cases hold' : old.state = .ready
    · obtain ⟨b, b', k, r, source, clean, c, c', k', r', copies, hpublished⟩ := ih id old hold hold'
      have hlate : ¬ old.IsEarly := by simp [UploadRow.IsEarly, hold']
      exact ⟨b, b', k, r, source, clean, c, c', k', r', copies,
        hpublished.toDerived.step hstep hlater hlate, hpublished.between, hpublished.publishing,
        hpublished.after.next trivial hstep, hpublished.id'.trans hlater.id.symm,
        hpublished.copies_size, hpublished.copies_sum⟩
    · exact published_of_step hrun hstep hold hrow hlater hold' hready
  · cases hready

/-- What was read and hashed in the run. -/
def hashed (s : Deployment) : List Bytes :=
  s.log.flatMap fun entry ↦ entry.2.data

/-- SHA-256 has no collision on what was hashed. -/
def Collisionless (env : Env) (s : Deployment) : Prop :=
  ∀ x ∈ s.hashed, ∀ y ∈ s.hashed, env.sha256 x = env.sha256 y → x = y
  deriving Decidable

end Deployment

end MarketMesh.Files
