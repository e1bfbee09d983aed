import MarketMesh.Auth.Session
import MarketMesh.Lib.Run
import Mathlib.Algebra.Order.Group.Int

/-!
# The refresh tokens of a session

A session and its refresh tokens are a family: `Create` issues the first token, each `Rotate`
exchanges the current token for the next one, and a token that comes back after it was exchanged
ends the family.  `History` is the tables together with the digests that the committed transactions
have issued and exchanged, and `Family` says what the tables hold of them: the consumed digests are
those that were exchanged, in order, and the current digest is the one that was issued last.
-/

set_option autoImplicit false

namespace MarketMesh.Auth

open Machine

/-! ## What a transaction can do -/

theorem minTime_le_right (a b : Time) : minTime a b ≤ b := by
  rw [minTime]
  split
  · rename_i h
    exact h.le
  · exact le_rfl

theorem lt_minTime {a b c} (ha : c < a) (hb : c < b) : c < minTime a b := by
  rw [minTime]
  split
  · exact ha
  · exact hb

/-- A rotation of an active session leaves a record that can be read again. -/
theorem ValidRecord.rotated {row : SessionRow} {now : Time} {accessTTL idleTTL : Duration}
    {next : Digest} (h : ValidRecord row.record) (hactive : row.record.Active now)
    (haccess : 0 < accessTTL) (hidle : 0 < idleTTL) :
    ValidRecord (row.rotated now accessTTL idleTTL next).record := by
  obtain ⟨hid, hsubject, hversion, hcreated, -, -, -, -⟩ := h
  obtain ⟨-, -, -, -, hnow, hend⟩ := hactive
  have hlater {ttl : Duration} (httl : 0 < ttl) : row.record.createdAt < now + ttl :=
    hnow.trans_lt (lt_add_of_pos_right now httl)
  exact ⟨hid, hsubject, Int.lt_add_one_of_le hversion.le, hcreated,
    lt_minTime (hlater haccess) (hnow.trans_lt hend),
    lt_minTime (hlater hidle) (hnow.trans_lt hend), minTime_le_right _ _, minTime_le_right _ _⟩

namespace SessionTables

variable {tables tables' : SessionTables} {id : SessionID} {record : Record} {digest : Digest}

/-- The ways `Rotate` can end. -/
inductive Rotation (tables : SessionTables) (id : SessionID) (previous next : Digest) (now : Time) :
    SessionTables → Except SessionErr Record → Prop
  | refused {e} (he : e ≠ .refreshReuse) :
      Rotation tables id previous next now tables (.error e)
  | reused {row} (hrow : tables.sessions.find id = some row) (hactive : row.record.Active now)
      (hconsumed : (tables.consumed.find (id, previous)).isSome = true) :
      Rotation tables id previous next now
        (tables.revokeWhere (fun r ↦ r.record.id = id) now "refresh_reuse")
        (.error .refreshReuse)
  | exchanged {row accessTTL idleTTL consumed sessions}
      (hrow : tables.sessions.find id = some row) (hvalid : ValidRecord row.record)
      (hactive : row.record.Active now) (hrefresh : now < row.record.refreshExpiresAt)
      (haccess : 0 < accessTTL) (hidle : 0 < idleTTL) (hprevious : row.refreshDigest = previous)
      (hnext : next ≠ previous) (hnew : tables.consumed.find (id, next) = none)
      (hc : tables.consumed.insert { sessionID := id, digest := previous, consumedAt := now } =
        some consumed)
      (hs : ∀ i, sessions.find i = (tables.sessions.find i).map fun r ↦
        if r.record.id = id then r.rotated now accessTTL idleTTL next else r) :
      Rotation tables id previous next now
        { tables with sessions := sessions, consumed := consumed }
        (.ok (row.rotated now accessTTL idleTTL next).record)

theorem rotateActive_rotation {row previous next now accessTTL idleTTL}
    (hrow : tables.sessions.find id = some row)
    (hvalid : ValidRecord row.record) (hactive : row.record.Active now) (haccess : 0 < accessTTL)
    (hidle : 0 < idleTTL) (hnext : previous ≠ next) :
    Rotation tables id previous next now
      (tables.rotateActive row previous next now accessTTL idleTTL).1
      (tables.rotateActive row previous next now accessTTL idleTTL).2 := by
  have hid : row.id = id := Table.key_eq_of_find hrow
  obtain rfl : row.record.id = id := hid
  rw [rotateActive]
  by_cases hprevious : row.refreshDigest = previous
  · simp only [hprevious, ne_eq, not_true_eq_false, if_false]
    split
    · exact .refused (by simp)
    · rename_i hopen
      rw [not_or, not_le] at hopen
      split
      · exact .refused (by simp)
      · rename_i hnew
        split
        · exact .refused (by simp)
        · rename_i consumed hc
          split
          · refine .exchanged hrow hvalid hactive hopen.1 haccess hidle hprevious hnext.symm
              (Option.not_isSome_iff_eq_none.mp hnew) hc fun i ↦ ?_
            rw [Table.find_update]
            simp only [decide_eq_true_eq]
          · exact .refused (by simp)
  · simp only [ne_eq, hprevious, not_false_eq_true, if_true]
    split
    · rename_i hconsumed
      exact .reused hrow hactive hconsumed
    · exact .refused (by simp)

theorem rotate_rotation (tables : SessionTables) (id : SessionID) (previous next : Digest)
    (now : Time) (accessTTL idleTTL : Duration) :
    Rotation tables id previous next now (tables.rotate id previous next now accessTTL idleTTL).1
      (tables.rotate id previous next now accessTTL idleTTL).2 := by
  rw [rotate]
  split
  · exact .refused (by simp)
  · rename_i hargs
    simp only [not_or, not_le] at hargs
    split
    · exact .refused (by simp)
    · rename_i row hrow
      split
      · rename_i hvalid
        split
        · rename_i hactive
          exact rotateActive_rotation hrow hvalid hactive hargs.2.1 hargs.2.2.1 hargs.2.2.2
        · exact .refused (by simp)
      · exact .refused (by simp)

theorem insertSession_eq_some (h : tables.insertSession record digest = some tables') : ∃ sessions,
      tables.sessions.insert { record := record, refreshDigest := digest } = some sessions ∧
        tables' = { tables with sessions := sessions } := by
  rw [insertSession] at h
  split at h
  · obtain ⟨sessions, hs, rfl⟩ := Option.map_eq_some_iff.mp h
    exact ⟨sessions, hs, rfl⟩
  · cases h

theorem create_eq_ok (h : tables.create record digest = .ok tables') :
    (ValidRecord record ∧ record.revokedAt = none ∧ record.version = 1) ∧
      tables.insertSession record digest = some tables' := by
  rw [create] at h
  split at h
  · rename_i hrecord
    split at h <;> cases h
    rename_i hinsert
    exact ⟨hrecord, hinsert⟩
  · cases h

theorem find_revokeWhere (p : SessionRow → Bool) (now : Time) (reason : String) (id : SessionID) :
    (tables.revokeWhere p now reason).sessions.find id = (tables.sessions.find id).map fun row ↦
      if p row && row.record.revokedAt.isNone then row.revoked now else row :=
  Table.find_update (SessionRow.id_revoked now) id

end SessionTables

/-! ## Histories -/

/-- A transaction of the repository. -/
inductive Transaction where
  | create (record : Record) (digest : Digest)
  | rotate (id : SessionID) (previous next : Digest) (now : Time) (accessTTL idleTTL : Duration)
  | revoke (id : SessionID) (now : Time) (reason : String)
  | revokeAll (subject : SubjectID) (now : Time) (reason : String)

/-- The tables, and what the transactions so far have issued and exchanged. -/
structure History where
  tables : SessionTables := {}
  issued : List (SessionID × Digest) := []
  rotated : List (SessionID × Digest) := []

/-- The digests of one session. -/
def digestsOf (id : SessionID) (l : List (SessionID × Digest)) : List Digest :=
  (l.filter fun entry ↦ entry.1 = id).map Prod.snd

theorem digestsOf_append (id : SessionID) (l l' : List (SessionID × Digest)) :
    digestsOf id (l ++ l') = digestsOf id l ++ digestsOf id l' := by
  simp [digestsOf]

@[simp] theorem digestsOf_self (id : SessionID) (d : Digest) : digestsOf id [(id, d)] = [d] := by
  simp [digestsOf]

theorem digestsOf_of_ne {id i} (h : i ≠ id) (d : Digest) : digestsOf id [(i, d)] = [] := by
  simp [digestsOf, h]

namespace SessionTables

def consumedOf (tables : SessionTables) (id : SessionID) : List Digest :=
  digestsOf id (tables.consumed.rows.map ConsumedDigest.key)

def revocationsOf (tables : SessionTables) (id : SessionID) : List Revocation :=
  tables.revocations.filter fun r ↦ r.sessionID = id

variable {tables : SessionTables}

theorem mem_consumedOf {id d} :
    d ∈ tables.consumedOf id ↔ (tables.consumed.find (id, d)).isSome = true := by
  rw [Option.isSome_iff_exists]
  constructor
  · intro h
    obtain ⟨⟨i, d'⟩, hentry, rfl⟩ := List.mem_map.mp h
    obtain ⟨hmem, hi⟩ := List.mem_filter.mp hentry
    obtain rfl : i = id := of_decide_eq_true hi
    obtain ⟨row, hrow, hkey⟩ := List.mem_map.mp hmem
    exact ⟨row, Table.find_eq_some_iff.mpr ⟨hrow, hkey⟩⟩
  · rintro ⟨row, hrow⟩
    obtain ⟨hmem, hkey⟩ := Table.find_eq_some_iff.mp hrow
    refine List.mem_map.mpr ⟨(id, d), List.mem_filter.mpr ⟨?_, decide_eq_true rfl⟩, rfl⟩
    exact hkey ▸ List.mem_map_of_mem hmem

theorem consumedOf_insert {consumed row} (h : tables.consumed.insert row = some consumed)
    (sessions : Table SessionRow.id) (id : SessionID) :
    consumedOf { tables with sessions := sessions, consumed := consumed } id =
      tables.consumedOf id ++ digestsOf id [row.key] := by
  rw [consumedOf, (Table.insert_eq_some h).2, List.map_append, digestsOf_append]
  rfl

theorem revocationsOf_revokeWhere (tables : SessionTables) (p : SessionRow → Bool) (now : Time)
    (reason : String) (id : SessionID) :
    ((tables.revokeWhere p now reason).revocationsOf id).length =
      (tables.revocationsOf id).length +
        if (tables.sessions.find id).any fun row ↦ p row && row.record.revokedAt.isNone then 1
        else 0 := by
  rw [revocationsOf, revokeWhere, List.filter_append, List.length_append, List.filter_map,
    List.length_map]
  refine congrArg (_ + ·) ?_
  have hkey : (tables.sessions.rows.filter fun row ↦ decide (row.record.id = id)) =
      (tables.sessions.find id).toList := tables.sessions.filter_key id
  simp only [Function.comp_def]
  rw [List.filter_comm, hkey]
  cases tables.sessions.find id with
  | none => rfl
  | some row =>
    rw [Option.toList_some, List.filter_singleton, Option.any_some]
    cases p row && row.record.revokedAt.isNone <;> rfl

end SessionTables

namespace History

def commit (h : History) : Transaction → History
  | .create record digest =>
    match h.tables.create record digest with
    | .ok tables => { h with tables := tables, issued := h.issued ++ [(record.id, digest)] }
    | .error _ => h
  | .rotate id previous next now accessTTL idleTTL =>
    match h.tables.rotate id previous next now accessTTL idleTTL with
    | (tables, .ok _) =>
      { tables := tables
        issued := h.issued ++ [(id, next)]
        rotated := h.rotated ++ [(id, previous)] }
    | (tables, .error _) => { h with tables := tables }
  | .revoke id now reason =>
    match h.tables.revoke id now reason with
    | .ok tables => { h with tables := tables }
    | .error _ => h
  | .revokeAll subject now reason =>
    match h.tables.revokeAll subject now reason with
    | .ok tables => { h with tables := tables }
    | .error _ => h

def step (h : History) (t : Transaction) : Option History :=
  some (h.commit t)

/-- What the tables hold of the family of a session. -/
structure Family (h : History) (row : SessionRow) : Prop where
  /-- The consumed digests are those that were exchanged, in order. -/
  consumed : h.tables.consumedOf row.id = digestsOf row.id h.rotated
  /-- What was issued is what was exchanged, and then the current digest. -/
  issued : digestsOf row.id h.issued = digestsOf row.id h.rotated ++ [row.refreshDigest]
  nodup : (digestsOf row.id h.issued).Nodup
  version : row.record.version = 1 + (digestsOf row.id h.rotated).length
  revocations : (h.tables.revocationsOf row.id).length = if row.record.revokedAt.isSome
    then 1 else 0
  valid : ValidRecord row.record

/-- Nothing is known of a session that is not in the table. -/
structure Absent (h : History) (id : SessionID) : Prop where
  consumed : h.tables.consumedOf id = []
  issued : digestsOf id h.issued = []
  rotated : digestsOf id h.rotated = []
  revocations : h.tables.revocationsOf id = []

/-- What is known of a session. -/
structure Known (h : History) (id : SessionID) : Prop where
  family : ∀ row, h.tables.sessions.find id = some row → h.Family row
  absent : h.tables.sessions.find id = none → h.Absent id

/-- **What a transaction can do to a history.** -/
inductive Change (h : History) : History → Prop
  | same : Change h h
  | created {record digest sessions}
      (hrecord : ValidRecord record ∧ record.revokedAt = none ∧ record.version = 1)
      (hs : h.tables.sessions.insert { record := record, refreshDigest := digest } =
        some sessions) :
      Change h { h with
        tables := { h.tables with sessions := sessions }
        issued := h.issued ++ [(record.id, digest)] }
  | rotated {id tables record previous next now}
      (hr : h.tables.Rotation id previous next now tables (.ok record)) :
      Change h
        { tables := tables
          issued := h.issued ++ [(id, next)]
          rotated := h.rotated ++ [(id, previous)] }
  | revoked {p now reason} :
      Change h { h with tables := h.tables.revokeWhere p now reason }

theorem commit_change (h : History) (t : Transaction) : Change h (h.commit t) := by
  cases t with
  | create record digest =>
    rw [commit]
    split
    · rename_i tables hcreate
      obtain ⟨hrecord, hinsert⟩ := SessionTables.create_eq_ok hcreate
      obtain ⟨sessions, hs, rfl⟩ := SessionTables.insertSession_eq_some hinsert
      exact .created hrecord hs
    · exact .same
  | rotate id previous next now accessTTL idleTTL =>
    have hr := h.tables.rotate_rotation id previous next now accessTTL idleTTL
    rw [commit]
    generalize h.tables.rotate id previous next now accessTTL idleTTL = out at hr
    obtain ⟨tables, result⟩ := out
    cases result with
    | ok => exact .rotated hr
    | error =>
      cases hr with
      | refused => exact .same
      | reused => exact .revoked
  | revoke id now reason =>
    rw [commit, SessionTables.revoke]
    cases validReason reason with
    | true => exact .revoked
    | false => exact .same
  | revokeAll subject now reason =>
    rw [commit, SessionTables.revokeAll]
    by_cases hargs : validReason reason = true ∧ subject ≠ zeroID
    · rw [if_pos hargs]
      exact .revoked
    · rw [if_neg hargs]
      exact .same

variable {h h' : History} {row : SessionRow} {id : SessionID} {ok : History → Transaction → Prop}
  {record : Record}

section

variable (hc : h'.tables.consumedOf id = h.tables.consumedOf id)
  (hi : digestsOf id h'.issued = digestsOf id h.issued)
  (hr : digestsOf id h'.rotated = digestsOf id h.rotated)
  (ho : (h'.tables.revocationsOf id).length = (h.tables.revocationsOf id).length)

include hc hi hr ho

/-- A step that leaves the lists of a session alone keeps what is known of it. -/
theorem Family.of_eq (hf : h.Family row) (hid : row.id = id) : h'.Family row := by
  subst hid
  exact ⟨by rw [hc, hr, hf.consumed], by rw [hi, hr, hf.issued], by rw [hi]; exact hf.nodup,
    by rw [hr]; exact hf.version, by rw [ho]; exact hf.revocations, hf.valid⟩

theorem Absent.of_eq (ha : h.Absent id) : h'.Absent id :=
  ⟨by rw [hc, ha.consumed], by rw [hi, ha.issued], by rw [hr, ha.rotated],
    List.length_eq_zero_iff.mp (by rw [ho, ha.revocations]; rfl)⟩

theorem Known.of_eq (hk : h.Known id)
    (hfind : h'.tables.sessions.find id = h.tables.sessions.find id) : h'.Known id := by
  refine ⟨fun row hrow ↦ ?_, fun hnone ↦ ?_⟩
  · exact .of_eq hc hi hr ho (hk.family _ (hfind ▸ hrow)) (Table.key_eq_of_find hrow)
  · exact .of_eq hc hi hr ho (hk.absent (hfind ▸ hnone))

end

/-- The row of a session that is in the table is all there is to know. -/
theorem known_of_find (hrow : h.tables.sessions.find id = some row) (hf : h.Family row) :
    h.Known id := by
  refine ⟨fun row' hrow' ↦ ?_, fun hnone ↦ ?_⟩
  · cases hrow.symm.trans hrow'
    exact hf
  · cases hrow.symm.trans hnone

theorem Known.created {digest sessions}
    (hk : h.Known id) (hrecord : ValidRecord record ∧ record.revokedAt = none ∧ record.version = 1)
    (hs : h.tables.sessions.insert { record := record, refreshDigest := digest } =
      some sessions) :
    Known { h with
      tables := { h.tables with sessions := sessions }
      issued := h.issued ++ [(record.id, digest)] } id := by
  have hfind : sessions.find id = if record.id = id
      then some { record := record, refreshDigest := digest } else h.tables.sessions.find id :=
    Table.find_insert hs id
  by_cases hid : record.id = id
  · subst hid
    have hnone : h.tables.sessions.find record.id = none := (Table.insert_eq_some hs).1
    have hlast := hk.absent hnone
    rw [if_pos rfl] at hfind
    have hissued : digestsOf record.id (h.issued ++ [(record.id, digest)]) = [digest] := by
      rw [digestsOf_append, hlast.issued, digestsOf_self, List.nil_append]
    refine known_of_find hfind ⟨?_, ?_, ?_, ?_, ?_, hrecord.1⟩
    · exact hlast.consumed.trans hlast.rotated.symm
    · exact hissued.trans (by rw [SessionRow.id, hlast.rotated, List.nil_append])
    · exact hissued ▸ List.nodup_singleton digest
    · rw [SessionRow.id, hlast.rotated]
      exact hrecord.2.2
    · rw [hrecord.2.1]
      exact congrArg List.length hlast.revocations
  · rw [if_neg hid] at hfind
    refine hk.of_eq (h := h) rfl ?_ rfl rfl hfind
    rw [digestsOf_append, digestsOf_of_ne hid, List.append_nil]

theorem Known.rotated {i : SessionID} {tables : SessionTables}
    {previous next : Digest} {now : Time} (hk : h.Known id)
    (hrot : h.tables.Rotation i previous next now tables (.ok record)) :
    Known
      { tables := tables
        issued := h.issued ++ [(i, next)]
        rotated := h.rotated ++ [(i, previous)] } id := by
  cases hrot with
  | @exchanged row accessTTL idleTTL consumed sessions hrow hvalid hactive hrefresh haccess hidle
      hprevious hnext hnew hc hs =>
    have hconsumed := SessionTables.consumedOf_insert hc sessions id
    have hid : row.id = i := Table.key_eq_of_find hrow
    by_cases hi : i = id
    · subst hi
      have hf := hk.family row hrow
      obtain rfl := hid
      have hrow' : sessions.find row.id = some (row.rotated now accessTTL idleTTL next) := by
        rw [hs, hrow]
        exact congrArg some (if_pos rfl)
      have hrotated : digestsOf row.id (h.rotated ++ [(row.id, previous)]) =
          digestsOf row.id h.rotated ++ [previous] := by rw [digestsOf_append, digestsOf_self]
      have hissued : digestsOf row.id (h.issued ++ [(row.id, next)]) =
          digestsOf row.id h.issued ++ [next] := by rw [digestsOf_append, digestsOf_self]
      refine known_of_find hrow' ⟨?_, ?_, ?_, ?_, hf.revocations,
        hvalid.rotated hactive haccess hidle⟩
      · rw [SessionRow.id_rotated, hconsumed, hf.consumed, hrotated, ConsumedDigest.key,
          digestsOf_self]
      · rw [SessionRow.id_rotated, hissued, hf.issued, hrotated, hprevious]
        rfl
      · rw [SessionRow.id_rotated, hissued, List.nodup_append_comm, List.singleton_append,
          List.nodup_cons]
        refine ⟨fun hmem ↦ ?_, hf.nodup⟩
        rw [hf.issued, ← hf.consumed, List.mem_append, List.mem_singleton,
          SessionTables.mem_consumedOf, hnew] at hmem
        obtain hmem | hmem := hmem
        · cases hmem
        · exact hnext (hmem.trans hprevious)
      · rw [SessionRow.id_rotated, hrotated, List.length_append]
        have := hf.version
        simp only [SessionRow.rotated, List.length_singleton]
        push_cast
        omega
    · refine hk.of_eq (h := h) ?_ ?_ ?_ rfl ?_
      · rw [hconsumed, ConsumedDigest.key, digestsOf_of_ne hi, List.append_nil]
      · rw [digestsOf_append, digestsOf_of_ne hi, List.append_nil]
      · rw [digestsOf_append, digestsOf_of_ne hi, List.append_nil]
      · rw [hs]
        cases hfind : h.tables.sessions.find id with
        | none => rfl
        | some r =>
          have hr : r.id = id := Table.key_eq_of_find hfind
          rw [Option.map_some, if_neg fun heq ↦ hi (heq.symm.trans hr)]

theorem Known.revoked {p : SessionRow → Bool} {now reason} (hk : h.Known id) :
    Known { h with tables := h.tables.revokeWhere p now reason } id := by
  have hfind := h.tables.find_revokeWhere p now reason id
  have hout := h.tables.revocationsOf_revokeWhere p now reason id
  cases hold : h.tables.sessions.find id with
  | none =>
    rw [hold] at hfind hout
    refine ⟨fun row hrow ↦ (nomatch hfind.symm.trans hrow), fun _ ↦ ?_⟩
    exact (hk.absent hold).of_eq (h := h) rfl rfl rfl hout
  | some row =>
    rw [hold, Option.map_some] at hfind
    rw [hold, Option.any_some] at hout
    have hf := hk.family row hold
    have hcount := hf.revocations
    obtain rfl : row.id = id := Table.key_eq_of_find hold
    refine known_of_find hfind ?_
    by_cases hp : (p row && row.record.revokedAt.isNone) = true
    · rw [if_pos hp] at hout ⊢
      have hnone : row.record.revokedAt = none :=
        Option.isNone_iff_eq_none.mp (Bool.and_eq_true_iff.mp hp).2
      rw [hnone] at hcount
      refine ⟨hf.consumed, hf.issued, hf.nodup, hf.version, ?_, hf.valid⟩
      rw [SessionRow.id_revoked, hout, hcount]
      rfl
    · rw [if_neg hp] at hout ⊢
      exact hf.of_eq (h := h) rfl rfl rfl hout rfl

theorem Change.known (hchange : Change h h') (hk : h.Known id) : h'.Known id := by
  cases hchange with
  | same => exact hk
  | created hrecord hs => exact hk.created hrecord hs
  | rotated hr => exact hk.rotated hr
  | revoked => exact hk.revoked

theorem known (hreach : Reach step ok {} h) (id : SessionID) : h.Known id := by
  have hstart : Known {} id := ⟨nofun, fun _ ↦ ⟨rfl, rfl, rfl, rfl⟩⟩
  refine hreach.invariant (P := fun h ↦ h.Known id) hstart fun h t h' _ hk _ hstep ↦ ?_
  cases hstep
  exact (h.commit_change t).known hk

/-- What never changes of a session: its identity, its end, and its revocation. -/
structure Kept (row row' : SessionRow) : Prop where
  subjectID : row'.record.subjectID = row.record.subjectID
  createdAt : row'.record.createdAt = row.record.createdAt
  expiresAt : row'.record.expiresAt = row.record.expiresAt
  revokedAt : ∀ time, row.record.revokedAt = some time → row'.record.revokedAt = some time

theorem Kept.refl (row : SessionRow) : Kept row row :=
  ⟨rfl, rfl, rfl, fun _ h ↦ h⟩

theorem Kept.trans {row₁ row₂ row₃} (h : Kept row₁ row₂) (h' : Kept row₂ row₃) :
    Kept row₁ row₃ :=
  ⟨h'.subjectID.trans h.subjectID, h'.createdAt.trans h.createdAt, h'.expiresAt.trans h.expiresAt,
    fun time ht ↦ h'.revokedAt time (h.revokedAt time ht)⟩

theorem Change.kept (hchange : Change h h') (hrow : h.tables.sessions.find id = some row) :
    ∃ row', h'.tables.sessions.find id = some row' ∧ Kept row row' := by
  cases hchange with
  | same => exact ⟨row, hrow, .refl row⟩
  | @created record digest sessions hrecord hs =>
    refine ⟨row, ?_, .refl row⟩
    rw [Table.find_insert hs, if_neg]
    · exact hrow
    · rintro rfl
      cases (Table.insert_eq_some hs).1.symm.trans hrow
  | rotated hr =>
    cases hr with
    | exchanged _ _ _ _ _ _ _ _ _ _ hs =>
      refine ⟨_, (hs id).trans (congrArg (Option.map _) hrow), ?_⟩
      simp only
      split
      · exact ⟨rfl, rfl, rfl, fun _ h ↦ h⟩
      · exact .refl row
  | @revoked p now reason =>
    refine ⟨_, (h.tables.find_revokeWhere p now reason id).trans (congrArg (Option.map _) hrow), ?_⟩
    simp only
    split
    · rename_i hp
      have hnone := Option.isNone_iff_eq_none.mp (Bool.and_eq_true_iff.mp hp).2
      exact ⟨rfl, rfl, rfl, fun _ h ↦ (nomatch hnone.symm.trans h)⟩
    · exact .refl row

theorem kept (hreach : Reach step ok h h') (hrow : h.tables.sessions.find id = some row) :
    ∃ row', h'.tables.sessions.find id = some row' ∧ Kept row row' := by
  induction hreach with
  | start => exact ⟨row, hrow, .refl row⟩
  | @next h₁ h₂ t _ _ hstep ih =>
    obtain ⟨row₁, hrow₁, hkept₁⟩ := ih
    cases hstep
    obtain ⟨row₂, hrow₂, hkept₂⟩ := (h₁.commit_change t).kept hrow₁
    exact ⟨row₂, hrow₂, hkept₁.trans hkept₂⟩

theorem Family.mem_issued (hf : h.Family row) (d : Digest) :
    d ∈ digestsOf row.id h.issued ↔ d ∈ h.tables.consumedOf row.id ∨ d = row.refreshDigest := by
  rw [hf.issued, hf.consumed, List.mem_append, List.mem_singleton]

theorem Family.current_notMem (hf : h.Family row) :
    row.refreshDigest ∉ h.tables.consumedOf row.id := by
  have hnodup := hf.nodup
  rw [hf.issued, List.nodup_append_comm, List.singleton_append, List.nodup_cons] at hnodup
  rw [hf.consumed]
  exact hnodup.1

theorem Family.nodup_rotated (hf : h.Family row) : (digestsOf row.id h.rotated).Nodup := by
  have hnodup := hf.nodup
  rw [hf.issued] at hnodup
  exact hnodup.of_append_left

end History

namespace SessionTables

variable {tables : SessionTables} {accessTTL idleTTL : Duration} {previous : Digest}

/-- A consumed digest that is presented to an active session ends it. -/
theorem rotate_of_consumed {row next now}
    (hrow : tables.sessions.find row.id = some row) (hvalid : ValidRecord row.record)
    (hactive : row.record.Active now) (hcurrent : row.refreshDigest ∉ tables.consumedOf row.id)
    (hconsumed : previous ∈ tables.consumedOf row.id) (haccess : 0 < accessTTL)
    (hidle : 0 < idleTTL) (hnext : previous ≠ next) :
    (tables.rotate row.id previous next now accessTTL idleTTL).2 = .error .refreshReuse ∧
      (tables.rotate row.id previous next now accessTTL idleTTL).1.sessions.find row.id =
        some (row.revoked now) := by
  have hargs : ¬ (row.id = zeroID ∨ accessTTL ≤ 0 ∨ idleTTL ≤ 0 ∨ previous = next) := by
    rintro (h | h | h | h)
    · exact hactive.1 h
    · exact absurd h haccess.not_ge
    · exact absurd h hidle.not_ge
    · exact hnext h
  have hne : row.refreshDigest ≠ previous := fun h ↦ hcurrent (h ▸ hconsumed)
  have hmem : (tables.consumed.find (row.record.id, previous)).isSome = true :=
    mem_consumedOf.mp hconsumed
  rw [rotate, if_neg hargs, hrow]
  simp only [hvalid, hactive, if_true]
  rw [rotateActive]
  simp only [ne_eq, hne, not_false_eq_true, if_true]
  rw [if_pos hmem]
  refine ⟨rfl, ?_⟩
  rw [find_revokeWhere, hrow, Option.map_some, if_pos]
  rw [hactive.2.2.2.1]
  exact (Bool.and_true _).trans (decide_eq_true rfl)

/-- Only a reuse changes anything when `Rotate` fails. -/
theorem rotate_of_error {id next now e}
    (h : (tables.rotate id previous next now accessTTL idleTTL).2 = .error e)
    (he : e ≠ .refreshReuse) :
    (tables.rotate id previous next now accessTTL idleTTL).1 = tables := by
  have hr := tables.rotate_rotation id previous next now accessTTL idleTTL
  rw [h] at hr
  generalize (tables.rotate id previous next now accessTTL idleTTL).1 = tables' at hr
  cases hr with
  | refused => rfl
  | reused => exact absurd rfl he

end SessionTables

/-- **The family of refresh tokens.**  After any sequence of transactions, for every session in the
table: the current digest is not among the consumed ones, the digests ever issued are the consumed
ones and the current one, none was issued or exchanged twice, the version counts the rotations,
there is one row in the outbox if the session is revoked and none otherwise, the expiries do not
exceed the end of the session, and the row can be read; whatever transactions follow, the session
keeps its subject, its beginning, its end and its revocation.  A consumed digest that is presented
to an active session revokes it, and a rotation that fails otherwise changes nothing. -/
theorem refresh_family {h : History} (hreach : Reach History.step (fun _ _ ↦ True) {} h) :
    (∀ row ∈ h.tables.sessions.rows,
      row.refreshDigest ∉ h.tables.consumedOf row.id ∧
      (∀ d, d ∈ digestsOf row.id h.issued ↔
        d ∈ h.tables.consumedOf row.id ∨ d = row.refreshDigest) ∧
      (digestsOf row.id h.issued).Nodup ∧ (digestsOf row.id h.rotated).Nodup ∧
      row.record.version = 1 + (digestsOf row.id h.rotated).length ∧
      (h.tables.revocationsOf row.id).length = (if row.record.revokedAt.isSome then 1 else 0) ∧
      row.record.accessExpiresAt ≤ row.record.expiresAt ∧
      row.record.refreshExpiresAt ≤ row.record.expiresAt ∧
      ValidRecord row.record ∧ h.tables.find row.id = .ok row.record ∧
      ∀ h', Reach History.step (fun _ _ ↦ True) h h' →
        ∃ row', h'.tables.sessions.find row.id = some row' ∧ History.Kept row row') ∧
    (∀ row ∈ h.tables.sessions.rows, ∀ previous next now accessTTL idleTTL,
      row.record.Active now → previous ∈ h.tables.consumedOf row.id →
      0 < accessTTL → 0 < idleTTL → previous ≠ next →
      (h.tables.rotate row.id previous next now accessTTL idleTTL).2 = .error .refreshReuse ∧
      (h.tables.rotate row.id previous next now accessTTL idleTTL).1.sessions.find row.id =
        some (row.revoked now)) ∧
    ∀ id previous next now accessTTL idleTTL e,
      (h.tables.rotate id previous next now accessTTL idleTTL).2 = .error e → e ≠ .refreshReuse →
      (h.tables.rotate id previous next now accessTTL idleTTL).1 = h.tables := by
  have hfamily {row : SessionRow} (hrow : row ∈ h.tables.sessions.rows) : h.Family row :=
    (History.known hreach row.id).family row (Table.find_of_mem hrow)
  refine ⟨fun row hmem ↦ ?_, fun row hmem previous next now accessTTL idleTTL hactive hconsumed
    haccess hidle hnext ↦ ?_, fun id previous next now accessTTL idleTTL e herr he ↦
      SessionTables.rotate_of_error herr he⟩
  · have hf := hfamily hmem
    have hrow := Table.find_of_mem hmem
    have hread : h.tables.find row.id = .ok row.record := by
      rw [SessionTables.find, hrow]
      exact if_pos hf.valid
    exact ⟨hf.current_notMem, hf.mem_issued, hf.nodup, hf.nodup_rotated, hf.version,
      hf.revocations, hf.valid.2.2.2.2.2.2.1, hf.valid.2.2.2.2.2.2.2, hf.valid, hread,
      fun h' hreach' ↦ History.kept hreach' hrow⟩
  · have hf := hfamily hmem
    exact SessionTables.rotate_of_consumed (Table.find_of_mem hmem) hf.valid hactive
      hf.current_notMem hconsumed haccess hidle hnext

/-- A session for examples. -/
def sampleRecord : Record where
  id := List.Vector.replicate 16 1
  subjectID := List.Vector.replicate 16 2
  version := 1
  createdAt := 1
  accessExpiresAt := 10
  refreshExpiresAt := 20
  expiresAt := 100

def sampleDigest (n : UInt8) : Digest := List.Vector.replicate 32 n

/-- A session that was rotated once, and the first digest once more. -/
theorem refresh_family_sample :
    ∃ h, Reach History.step (fun _ _ ↦ True) {} h ∧ ∃ row ∈ h.tables.sessions.rows,
      row.record.version = 2 ∧
      (h.tables.rotate row.id (sampleDigest 1) (sampleDigest 3) 6 10 20).2 =
        .error .refreshReuse := by
  obtain ⟨h, hreach, htest⟩ := exists_of_script History.step (fun _ _ ↦ True) {}
    [.create sampleRecord (sampleDigest 1),
      .rotate sampleRecord.id (sampleDigest 1) (sampleDigest 2) 5 10 20]
    (fun h ↦ h.tables.sessions.rows.any fun row ↦ row.record.version = 2 ∧ row.record.Active 6 ∧
      sampleDigest 1 ∈ h.tables.consumedOf row.id) (by decide +kernel)
  obtain ⟨row, hrow, htest⟩ := List.any_eq_true.mp htest
  obtain ⟨hversion, hactive, hconsumed⟩ := of_decide_eq_true htest
  have hfamily := refresh_family hreach
  exact ⟨h, hreach, row, hrow, hversion, (hfamily.2.1 row hrow _ _ _ _ _ hactive hconsumed
    (by decide) (by decide) (by decide)).1⟩

end MarketMesh.Auth
