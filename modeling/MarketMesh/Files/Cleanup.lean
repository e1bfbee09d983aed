import MarketMesh.Files.Lifecycle

/-!
# Cleaning up

A worker deletes objects on the strength of a record that it has read earlier, and a deletion may be
carried out much later.  It hits no live content all the same: the states in which something is
deleted are never left for those in which it is needed, and the keys of a file are its own.
-/

set_option autoImplicit false

namespace MarketMesh.Files

open Auth (Bytes Time Digest)

variable {env : Env} {rows : Uploads} {objects : Objects} {r : Record} {state' : State}

/-! ## What is deleted -/

/-- The states in which everything of a file is deleted. -/
def State.IsTerminal (state : State) : Prop :=
  state = .rejected ∨ state = .expired ∨ state = .deleted

/-- The objects that are deleted for a record. -/
def MayDelete (r : Record) : Bucket → Bytes → Prop
  | .quarantine, key =>
    (r.state.IsTerminal ∨ r.state = .ready) ∧ ∃ number, key = partKey r.objectKey number
  | .internal, key =>
    (r.state.IsTerminal ∨ r.state = .ready ∧ key ≠ cleanKey r.objectKey r.cleanSHA256) ∧
      cleanFolder r.objectKey <+: key
  | .clean _, key => r.state.IsTerminal ∧ key = objectKey r.objectKey

/-- What is deleted begins with the object key of the record. -/
theorem MayDelete.exists_append {bucket key}
    (h : MayDelete r bucket key) : ∃ rest, key = objectKey r.objectKey ++ rest := by
  cases bucket with
  | quarantine =>
    obtain ⟨-, number, rfl⟩ := h
    exact ⟨_, rfl⟩
  | internal =>
    obtain ⟨-, rest, rfl⟩ := h
    exact ⟨_, List.append_assoc ..⟩
  | clean => exact ⟨[], h.2.trans (List.append_nil _).symm⟩

/-- What holds of a worker that cleans up. -/
def StepPc.Deletes : StepPc → Prop
  | .purging r keys _ =>
    (r.state.IsTerminal ∨ r.state = .ready) ∧ ∀ p ∈ keys, MayDelete r p.1 p.2
  | .sweeping r _ _ => r.state.IsTerminal ∨ r.state = .ready
  | _ => True

theorem mayDelete_partKeys (h : r.state.IsTerminal ∨ r.state = .ready) :
    ∀ p ∈ partKeys r, MayDelete r p.1 p.2 := by
  intro p hp
  obtain ⟨i, -, rfl⟩ := List.mem_map.mp hp
  exact ⟨h, i + 1, rfl⟩

theorem deletes_purge (h : r.state.IsTerminal) : (purge r).Deletes := by
  have hcopies : ∀ p ∈ [((.clean 0 : Bucket), objectKey r.objectKey),
      (.clean 1, objectKey r.objectKey)], MayDelete r p.1 p.2 := by
    intro p hp
    simp only [List.mem_cons, List.not_mem_nil, or_false] at hp
    obtain rfl | rfl := hp <;> exact ⟨h, rfl⟩
  unfold purge
  split
  · split
    · exact ⟨.inl h, hcopies⟩
    · split
      · refine ⟨.inl h, fun p hp ↦ ?_⟩
        obtain hp | hp := List.mem_append.mp hp
        · exact mayDelete_partKeys (.inl h) p hp
        · exact hcopies p hp
      · exact ⟨.inl h, hcopies⟩
  · trivial

theorem deletes_cleanupReady (h : r.state = .ready) : (cleanupReady r).Deletes := by
  unfold cleanupReady
  split
  · split
    · exact ⟨.inr h, mayDelete_partKeys (.inr h)⟩
    · exact ⟨.inr h, nofun⟩
  · trivial

theorem deletes_dispatch (r : Record) (now : Time) : (dispatch r now).Deletes := by
  unfold dispatch
  split
  · trivial
  · split
    · trivial
    · split <;> trivial
    · split <;> trivial
    · exact deletes_purge (.inl ‹_›)
    · exact deletes_purge (.inr (.inl ‹_›))
    · exact deletes_purge (.inr (.inr ‹_›))
    · exact deletes_cleanupReady ‹_›

theorem deletes_abort (r : Record) (e : Err) : (abort r e).Deletes := by
  unfold abort
  split <;> trivial

theorem deletes_sweep (h : r.state.IsTerminal ∨ r.state = .ready) (keys : List Bytes)
    (e : Option Err) : (sweep r keys e).Deletes := by
  unfold sweep
  split
  · trivial
  · trivial
  · exact h

/-- A step deletes no more than it may. -/
theorem Worked.deletes {pc a e} (h : Worked env rows objects pc a e) (hpc : pc.Deletes) :
    e.pc.Deletes ∧ ∀ d ∈ e.delete, MayDelete d.record d.bucket d.key ∧
      pc.record = some d.record := by
  have hnone : ∀ d ∈ (none : Option Deletion),
      MayDelete d.record d.bucket d.key ∧ pc.record = some d.record := fun _ h ↦ by cases h
  cases h with
  | ended hfinished _ hdelete =>
    rw [hfinished, hdelete]
    exact ⟨trivial, hnone⟩
  | dispatched => exact ⟨deletes_dispatch _ _, hnone⟩
  | @put _ _ _ _ answer | @copy _ _ _ _ answer =>
    cases answer with
    | none => exact ⟨trivial, hnone⟩
    | some => exact ⟨deletes_abort _ _, hnone⟩
  | purged =>
    refine ⟨⟨hpc.1, fun p hp ↦ hpc.2 p (List.mem_cons_of_mem _ hp)⟩, fun d hd ↦ ?_⟩
    cases hd
    exact ⟨hpc.2 _ List.mem_cons_self, rfl⟩
  | listed => exact ⟨deletes_sweep hpc.1 _ _, hnone⟩
  | kept => exact ⟨deletes_sweep hpc _ _, hnone⟩
  | @swept r key _ _ _ hfolder hkept =>
    refine ⟨deletes_sweep hpc _ _, fun d hd ↦ ?_⟩
    cases hd
    refine ⟨⟨hpc.imp_right fun hready ↦ ⟨hready, fun heq ↦ hkept ?_⟩, hfolder⟩, rfl⟩
    rw [Files.kept, if_pos hready, ← heq]
  | aborted => exact ⟨deletes_abort _ _, hnone⟩
  | claimed | part | read | cleaned | scannedSource | scannedClean | verified | fetched | checked
  | checkedLast => exact ⟨trivial, hnone⟩

/-! ## States that are never left -/

theorem isTerminal_of_path {state} (h : Relation.ReflTransGen CanTransition state state')
    (hstate : state.IsTerminal) : state'.IsTerminal := by
  induction h with
  | refl => exact hstate
  | @tail b c _ hcan ih =>
    revert hcan ih
    cases b <;> cases c <;> simp [CanTransition, State.IsTerminal]

theorem ready_or_terminal_of_path {state}
    (h : Relation.ReflTransGen CanTransition state state') (hstate : state = .ready) :
    state' = .ready ∨ state'.IsTerminal := by
  induction h with
  | refl => exact .inl hstate
  | @tail b c _ hcan ih =>
    revert hcan ih
    cases b <;> cases c <;> simp [CanTransition, State.IsTerminal]

namespace Deployment

variable {s s' : Deployment} {a : Action} {row : UploadRow} {id : ID} {d : Deletion}
  {bucket : Bucket}

/-- What holds of the workers and of the deletions that were sent. -/
structure Tidy (env : Env) (s : Deployment) : Prop where
  steps : ∀ (k : Nat) (pc : StepPc), s.steps[k]? = some pc → pc.Deletes
  deletes : ∀ d ∈ s.deletes, MayDelete d.record d.bucket d.key ∧ Seen env s.rows d.record

theorem tidy (h : Runs env {} s) : s.Tidy env := by
  refine h.invariant (P := Tidy env) ⟨fun _ _ h ↦ (by cases h), fun _ h ↦ by cases h⟩
    fun s a s' hrun ih _ hstep ↦ ⟨fun k pc hk ↦ ?_, fun d hd ↦ ?_⟩
  · obtain hold | rfl | ⟨b, pc', e, -, hk', he, -, rfl⟩ := step_pc hstep hk
    · exact ih.steps k pc hold
    · trivial
    · exact ((Worked.of_work he).deletes (ih.steps k pc' hk')).1
  · obtain ⟨k, b, pc, e, rfl, hk, he, rfl⟩ | ⟨heq, -⟩ := step_workers hstep
    · obtain hd | hd := List.mem_append.mp hd
      · exact ⟨(ih.deletes d hd).1, (ih.deletes d hd).2.step hstep⟩
      · obtain ⟨hmay, hrecord⟩ := ((Worked.of_work he).deletes (ih.steps k pc hk)).2 d
          (Option.mem_toList.mp hd)
        exact ⟨hmay, (seen hrun k pc d.record hk hrecord).step hstep⟩
    · rw [heq] at hd
      exact ⟨(ih.deletes d hd).1, (ih.deletes d hd).2.step hstep⟩

section

variable (h : Runs env {} s) (hrow : s.rows.find id = some row) (hd : d ∈ s.deletes)
include h hrow hd

/-- A deletion hits only keys of the file that it was sent for. -/
theorem deletion_own (hkey : KeyOf row.objectKey d.bucket d.key) :
    d.record.id = id ∧
      ∃ old : UploadRow, MayDelete old.record d.bucket d.key ∧ old.Later row := by
  obtain ⟨hmay, old, row', hold, -, hrow', hlater⟩ := (tidy h).deletes d hd
  obtain ⟨rest, hrest⟩ := hmay.exists_append
  have hobject : row.objectKey = row'.objectKey := by
    rw [hkey.object_eq hrest, hlater.object, ← hold]
    rfl
  have hid := unique h _ _ row row' hrow hrow' (.inl hobject)
  rw [← hid, hrow] at hrow'
  cases hrow'
  exact ⟨hid.symm, old, hold ▸ hmay, hlater⟩

theorem deletion_quarantine (hbucket : d.bucket = .quarantine) {number : Nat}
    (hkey : d.key = partKey row.objectKey number) : row.state.IsTerminal ∨ row.state = .ready := by
  obtain ⟨-, old, hmay, hlater⟩ := deletion_own h hrow hd (by rw [hbucket]; exact ⟨number, hkey⟩)
  rw [hbucket] at hmay
  obtain hterminal | hready := hmay.1
  · exact .inl (isTerminal_of_path hlater.state hterminal)
  · exact (ready_or_terminal_of_path hlater.state hready).symm

theorem deletion_clean {dc} (hbucket : d.bucket = .clean dc)
    (hkey : d.key = objectKey row.objectKey) : row.state.IsTerminal := by
  obtain ⟨-, old, hmay, hlater⟩ := deletion_own h hrow hd (by rw [hbucket]; exact hkey)
  rw [hbucket] at hmay
  exact isTerminal_of_path hlater.state hmay.1

/-- The derivative of a file is kept by name, and its name does not change. -/
theorem deletion_internal (hbucket : d.bucket = .internal) {sum}
    (hsum : row.cleanSHA256 = some sum) (hkey : d.key = cleanKey row.objectKey sum) :
    row.state.IsTerminal := by
  obtain ⟨-, old, hmay, hlater⟩ := deletion_own h hrow hd (by rw [hbucket]; exact ⟨sum, hkey⟩)
  rw [hbucket] at hmay
  obtain hterminal | ⟨hready, hne⟩ := hmay.1
  · exact isTerminal_of_path hlater.state hterminal
  · have hlate : ¬ old.IsEarly := by
      rw [UploadRow.IsEarly, show old.state = .ready from hready]
      decide
    refine absurd ?_ hne
    rw [hkey, hlater.object, UploadRow.record, ← (hlater.clean hlate).1, hsum, Option.getD_some]

end

/-! ## Objects that are kept -/

theorem objects_set_of_ne {bucket' key key' object} (h : ¬ (bucket' = bucket ∧ key' = key)) :
    objects.set bucket key object bucket' key' = objects bucket' key' :=
  if_neg h

/-- An object is removed by a deletion that was sent, and in no other way; it is never replaced. -/
theorem step_object (h : step env s a = some s') {key object}
    (hobject : s.objects bucket key = some object) :
    s'.objects bucket key = some object ∨ ∃ d ∈ s.deletes, d.bucket = bucket ∧ d.key = key := by
  cases a with
  | work =>
    obtain ⟨_, _, _, _, rfl⟩ := step_work h
    exact .inl hobject
  | call =>
    obtain ⟨_, _, _, _, rfl⟩ := step_call h
    exact .inl hobject
  | upload key' object' =>
    rw [step] at h
    split at h <;> cases h
    rename_i hnone
    refine .inl ((objects_set_of_ne ?_).trans hobject)
    rintro ⟨rfl, rfl⟩
    cases hnone.symm.trans hobject
  | store i =>
    obtain ⟨p, -, rfl⟩ := Option.map_eq_some_iff.mp h
    refine .inl ?_
    change s.objects.put p bucket key = some object
    unfold Objects.put
    split
    · rename_i hnone
      refine (objects_set_of_ne ?_).trans hobject
      rintro ⟨rfl, rfl⟩
      cases hnone.symm.trans hobject
    · exact hobject
  | remove =>
    obtain ⟨d, hd, rfl⟩ := Option.map_eq_some_iff.mp h
    by_cases hkey : bucket = d.bucket ∧ key = d.key
    · exact .inr ⟨d, List.mem_of_getElem? hd, hkey.1.symm, hkey.2.symm⟩
    · exact .inl ((objects_set_of_ne hkey).trans hobject)
  | start | create | complete | delete =>
    cases h
    exact .inl hobject

/-- **Cleaning up destroys no live content.**  In every state of a run and for every file: the
deletions that were sent, for whatever they are carried out, hit keys of no other file; and no step
removes a part while the file is uploaded, scanned or replicated, nor a copy or the derivative that
the row names while it is replicated or ready. -/
theorem cleanup (h : Runs env {} s) (hrow : s.rows.find id = some row) :
    (∀ d ∈ s.deletes, KeyOf row.objectKey d.bucket d.key → d.record.id = id) ∧
    ∀ a s', step env s a = some s' →
      (row.state = .uploading ∨ row.state = .scanning ∨ row.state = .replicating →
        ∀ number object, s.objects .quarantine (partKey row.objectKey number) = some object →
          s'.objects .quarantine (partKey row.objectKey number) = some object) ∧
      (row.state = .replicating ∨ row.state = .ready →
        (∀ dc object, s.objects (.clean dc) (objectKey row.objectKey) = some object →
          s'.objects (.clean dc) (objectKey row.objectKey) = some object) ∧
        ∀ sum object, row.cleanSHA256 = some sum →
          s.objects .internal (cleanKey row.objectKey sum) = some object →
          s'.objects .internal (cleanKey row.objectKey sum) = some object) := by
  refine ⟨fun d hd hkey ↦ (deletion_own h hrow hd hkey).1, fun a s' hstep ↦ ⟨?_, ?_⟩⟩
  · intro hstate number object hobject
    obtain hkept | ⟨d, hd, hbucket, hkey⟩ := step_object hstep hobject
    · exact hkept
    · have hdone := deletion_quarantine h hrow hd hbucket hkey
      obtain hstate | hstate | hstate := hstate <;> simp [hstate, State.IsTerminal] at hdone
  · intro hstate
    have hnot : ¬ row.state.IsTerminal := by
      obtain hstate | hstate := hstate <;> simp [hstate, State.IsTerminal]
    refine ⟨fun dc object hobject ↦ ?_, fun sum object hsum hobject ↦ ?_⟩
    · obtain hkept | ⟨d, hd, hbucket, hkey⟩ := step_object hstep hobject
      · exact hkept
      · exact absurd (deletion_clean h hrow hd hbucket hkey) hnot
    · obtain hkept | ⟨d, hd, hbucket, hkey⟩ := step_object hstep hobject
      · exact hkept
      · exact absurd (deletion_internal h hrow hd hbucket hsum hkey) hnot

/-- The third worker deletes the part of the file that was published. -/
def sampleCleanup : List Action :=
  [.start, .work 2 (.claim 70 (sampleID 4) true), .work 2 (.dispatch 70), .work 2 (.delete none),
    .remove 0]

theorem cleanup_sample : ∃ s row d, Runs sampleEnv {} s ∧ s.rows.find (sampleID 4) = some row ∧
    row.state = .ready ∧ d ∈ s.deletes ∧ KeyOf row.objectKey d.bucket d.key ∧
    d.record.id = sampleID 4 := by
  obtain ⟨s, hreach, htest⟩ := Machine.exists_of_script (step sampleEnv) (fun _ _ ↦ True) {}
    (sampleScan ++ samplePublish ++ sampleCleanup)
    (fun s ↦ (s.rows.find (sampleID 4)).any fun row ↦ s.deletes.any fun d ↦
      row.state = .ready ∧ d.bucket = .quarantine ∧ d.key = partKey row.objectKey 1)
    (by decide +kernel)
  obtain ⟨row, hrow, htest⟩ := (Option.any_eq_true _ _).mp htest
  obtain ⟨d, hd, htest⟩ := List.any_eq_true.mp htest
  obtain ⟨hready, hbucket, hkey⟩ := of_decide_eq_true htest
  have hof : KeyOf row.objectKey d.bucket d.key := by
    rw [hbucket]
    exact ⟨1, hkey⟩
  exact ⟨s, row, d, hreach, hrow, hready, hd, hof, (cleanup hreach hrow).1 d hd hof⟩

end Deployment

end MarketMesh.Files
