import MarketMesh.Files.Repository

/-!
# The worker

A call of `Step` claims a file and carries it one state further, or cleans up after it.  Between any
two of its requests to the database, the object store, the sandbox and the scanner anything may
happen, so each request is a step of its own; what the dependencies answer is part of the action.  A
worker that crashes makes no more steps.
-/

set_option autoImplicit false

namespace MarketMesh.Files

open Auth (Bytes Time Duration Digest)

/-- A request that fails, because of the dependency or because the context of the call has ended. -/
inductive Failure where
  | unavailable
  | cancelled
  deriving DecidableEq

/-- `safeError`. -/
def Failure.err : Failure → Err
  | .unavailable => .unavailable
  | .cancelled => .cancelled

/-- What the scanner answers; `failed` is every answer but the two exact ones. -/
inductive ScanAnswer where
  | clean
  | found
  | failed
  deriving DecidableEq

/-- `Scan`: the data has to have the size that was announced. -/
def scan (data : Bytes) (size : Int) (answer : ScanAnswer) : Except Err Unit :=
  if size ≤ 0 ∨ maxSize < size then .error .invalid
  else
    match answer with
    | .failed => .error .unavailable
    | .clean => if (data.length : Int) = size then .ok () else .error .rejected
    | .found => .error .rejected

/-- Where a call of `Step` is; the record is the one that it has claimed. -/
inductive StepPc where
  | claiming
  | claimed (r : Record)
  | expiring (r : Record)
  /-- `ReadUpload`, with what was read and the parts that remain. -/
  | reading (r : Record) (source : Bytes) (number : Nat) (parts : List Part)
  | cleaning (r : Record) (source : Bytes)
  | scanningSource (r : Record) (source : Bytes) (format : Format) (clean : Bytes)
  | scanningClean (r : Record) (source : Bytes) (format : Format) (clean : Bytes)
  /-- `PutClean`. -/
  | putting (r : Record) (source : Bytes) (format : Format) (clean : Bytes)
  | verifying (r : Record) (source : Bytes) (format : Format) (clean : Bytes)
  | marking (r : Record) (source : Bytes) (format : Format) (clean : Bytes)
  /-- `Replicate`: it reads the derivative, and then has copies to make. -/
  | fetching (r : Record)
  | copying (r : Record) (data : Bytes) (dcs : List (Fin 2))
  | checking (r : Record) (data : Bytes) (dc : Fin 2) (dcs : List (Fin 2))
  | publishing (r : Record)
  /-- `Purge` and `CleanupReady`: it has objects to delete, and knows the first error. -/
  | purging (r : Record) (keys : List (Bucket × Bytes)) (e : Option Err)
  | sweeping (r : Record) (keys : List Bytes) (e : Option Err)
  | deferring (r : Record)
  | rejecting (r : Record)
  /-- `Step` has returned. -/
  | finished (result : Option Err)

namespace StepPc

/-- The record that the call has claimed. -/
def record : StepPc → Option Record
  | .claiming | .finished _ => none
  | .claimed r | .expiring r | .reading r _ _ _ | .cleaning r _ | .scanningSource r _ _ _
  | .scanningClean r _ _ _ | .putting r _ _ _ | .verifying r _ _ _ | .marking r _ _ _ | .fetching r
  | .copying r _ _ | .checking r _ _ _ | .publishing r | .purging r _ _ | .sweeping r _ _
  | .deferring r | .rejecting r => some r

/-- The result of a call one of whose requests fails; the repository reports each failure alike. -/
def failure : StepPc → Failure → Option Err
  | .claimed _, _ | .finished _, _ => none
  | .reading _ _ _ _, f | .putting _ _ _ _, f | .verifying _ _ _ _, f | .fetching _, f
  | .copying _ _ _, f | .checking _ _ _ _, f | .purging _ _ none, f | .sweeping _ _ none, f =>
    some f.err
  | .purging _ _ (some e), _ | .sweeping _ _ (some e), _ => some e
  | .rejecting _, _ => some .rejected
  | .claiming, _ | .expiring _, _ | .cleaning _ _, _ | .scanningSource _ _ _ _, _
  | .scanningClean _ _ _ _, _ | .marking _ _ _ _, _ | .publishing _, _ | .deferring _, _ =>
    some .unavailable

end StepPc

inductive WorkAction where
  /-- `Claim` selects a row; `answered` says that the worker gets it. -/
  | claim (now : Time) (id : ID) (answered : Bool)
  | nothing
  | dispatch (now : Time)
  /-- A request fails, or the context of the call ends. -/
  | fail (f : Failure)
  | read
  | clean (answer : SandboxAnswer)
  | scan (answer : ScanAnswer)
  /-- A conditional put is sent, and answered or not. -/
  | put (answer : Option Failure)
  | verify
  | fetch
  | delete (answer : Option Failure)
  | list (keys : List Bytes) (truncated : Bool)
  /-- The statement of the database that the call has come to. -/
  | commit (now : Time) (answered : Bool)

/-- What is recorded of a step. -/
inductive Event where
  /-- The part with this number was read, and has the size and the hash of the manifest. -/
  | part (r : Record) (number : Nat) (body : Bytes)
  /-- All parts were read, and the whole has the hash of the manifest. -/
  | read (r : Record) (source : Bytes)
  /-- The derivative was reconstructed from the source. -/
  | cleaned (source : Bytes) (format : Format) (clean : Bytes)
  /-- The scanner has found the data clean. -/
  | scanned (data : Bytes)
  /-- The derivative was entered in the row, in the version of the record. -/
  | marked (r : Record) (format : Format) (clean : Bytes)
  /-- A copy was read back. -/
  | copied (r : Record) (dc : Fin 2) (data : Bytes)
  | published (r : Record)

/-- What a step of a worker does. -/
structure Effect where
  pc : StepPc
  rows : Uploads
  put : Option Put := none
  delete : Option Deletion := none
  event : Option Event := none

variable (env : Env)

/-- The keys that `Abort` deletes. -/
def partKeys (r : Record) : List (Bucket × Bytes) :=
  (List.range r.manifest.parts.length).map fun i ↦ (.quarantine, partKey r.objectKey (i + 1))

/-- The start of `Purge`. -/
def purge (r : Record) : StepPc :=
  if r.ValidStored then
    let copies : List (Bucket × Bytes) :=
      [(.clean 0, objectKey r.objectKey), (.clean 1, objectKey r.objectKey)]
    if r.uploadID = none then .purging r copies none
    else if r.uploadID = some r.id then .purging r (partKeys r ++ copies) none
    else .purging r copies (some .invalid)
  else .finished (some .invalid)

/-- The start of `CleanupReady`. -/
def cleanupReady (r : Record) : StepPc :=
  if r.ValidStored ∧ r.cleanSHA256 ≠ zeroDigest then
    if r.uploadID = some r.id then .purging r (partKeys r) none
    else .purging r [] (some .invalid)
  else .finished (some .invalid)

/-- The candidate that is kept. -/
def kept (r : Record) : Option Bytes :=
  if r.state = .ready then some (cleanKey r.objectKey r.cleanSHA256) else none

/-- The switch on the state of the record. -/
def dispatch (r : Record) (now : Time) : StepPc :=
  if (r.state = .scanning ∨ r.state = .replicating) ∧ r.createdAt ≠ 0 ∧
      r.createdAt + processingTTL < now then .expiring r
  else
    match r.state with
    | .uploading => .expiring r
    | .scanning =>
      if r.ValidStored ∧ r.uploadID = some r.id then .reading r [] 1 r.manifest.parts
      else .finished (some .invalid)
    | .replicating =>
      if r.ValidStored ∧ 0 < r.cleanSize ∧ r.cleanSize ≤ maxSize ∧ r.cleanSHA256 ≠ zeroDigest ∧
          (r.cleanFormat = .png ∨ r.cleanFormat = .pdf) then .fetching r
      else .finished (some .invalid)
    | .rejected | .expired | .deleted => purge r
    | .ready => cleanupReady r

/-- The end of a call with an error; a rejection is recorded. -/
def abort (r : Record) (e : Err) : StepPc :=
  if e = .rejected ∧ (r.state = .scanning ∨ r.state = .replicating) then .rejecting r
  else .finished (some e)

/-- The result of the statement that ends a call. -/
def finish (reply : Reply) (answered : Bool) : Option Err :=
  if answered then
    match reply.result env .conflict with
    | .ok _ => none
    | .error e => some e
  else some .unavailable

/-- The next candidate to be deleted, or the end. -/
def sweep (r : Record) (keys : List Bytes) (e : Option Err) : StepPc :=
  match keys, e with
  | [], none => .deferring r
  | [], some e => .finished (some e)
  | key :: keys, e => .sweeping r (key :: keys) e

/-- A step of a call that is in the middle of its work. -/
def work (rows : Uploads) (objects : Objects) : StepPc → WorkAction → Option Effect
  | .claiming, .claim now id answered =>
    match claim env rows id now with
    | (.row row, rows) =>
      match decode env row with
      | some r =>
        some { pc := if answered then .claimed r else .finished (some .unavailable), rows := rows }
      | none => some { pc := .finished (some .unavailable), rows := rows }
    | _ => none
  | .claiming, .nothing => some { pc := .finished (some .notFound), rows := rows }
  | .claimed r, .dispatch now => some { pc := dispatch r now, rows := rows }
  | .reading r source number (part :: parts), .read =>
    match objects .quarantine (partKey r.objectKey number) with
    | none => some { pc := abort r .unavailable, rows := rows }
    | some object =>
      match readPart env part object with
      | .ok body =>
        some
          { pc := .reading r (source ++ body) (number + 1) parts
            rows := rows
            event := some (.part r number body) }
      | .error e => some { pc := abort r e, rows := rows }
  | .reading r source _ [], .read =>
    if env.sha256 source = r.manifest.sha256 then
      some { pc := .cleaning r source, rows := rows, event := some (.read r source) }
    else some { pc := abort r .rejected, rows := rows }
  | .cleaning r source, .clean answer =>
    match sandboxClean env.render r.manifest.size r.manifest.format answer with
    | .ok (format, clean) =>
      if clean ≠ [] ∧ (format = .png ∨ format = .pdf) then
        some
          { pc := .scanningSource r source format clean
            rows := rows
            event := some (.cleaned source format clean) }
      else some { pc := abort r .rejected, rows := rows }
    | .error e => some { pc := abort r e, rows := rows }
  | .scanningSource r source format clean, .scan answer =>
    match scan source r.manifest.size answer with
    | .ok _ =>
      some
        { pc := .scanningClean r source format clean
          rows := rows
          event := some (.scanned source) }
    | .error e => some { pc := abort r e, rows := rows }
  | .scanningClean r source format clean, .scan answer =>
    match scan clean clean.length answer with
    | .ok _ =>
      some { pc := .putting r source format clean, rows := rows, event := some (.scanned clean) }
    | .error e => some { pc := abort r e, rows := rows }
  | .putting r source format clean, .put answer =>
    let sum := env.sha256 clean
    some
      { pc := answer.elim (.verifying r source format clean) (abort r ·.err)
        rows := rows
        put := some
          { bucket := .internal
            key := cleanKey r.objectKey sum
            object := cleanObject clean sum } }
  | .verifying r source format clean, .verify =>
    let sum := env.sha256 clean
    match objects .internal (cleanKey r.objectKey sum) with
    | none => some { pc := abort r .unavailable, rows := rows }
    | some object =>
      match readClean env clean.length sum object with
      | .ok _ => some { pc := .marking r source format clean, rows := rows }
      | .error e => some { pc := abort r e, rows := rows }
  | .marking r _ format clean, .commit now answered =>
    let (reply, rows) := markClean env rows r format clean.length (env.sha256 clean) now
    some
      { pc := .finished (finish env reply answered)
        rows := rows
        event := match reply with | .row _ => some (.marked r format clean) | _ => none }
  | .fetching r, .fetch =>
    match objects .internal (cleanKey r.objectKey r.cleanSHA256) with
    | none => some { pc := abort r .unavailable, rows := rows }
    | some object =>
      match readClean env r.cleanSize r.cleanSHA256 object with
      | .ok data => some { pc := .copying r data [0, 1], rows := rows }
      | .error e => some { pc := abort r e, rows := rows }
  | .copying r data (dc :: dcs), .put answer =>
    some
      { pc := answer.elim (.checking r data dc dcs) (abort r ·.err)
        rows := rows
        put := some
          { bucket := .clean dc
            key := objectKey r.objectKey
            object := cleanObject data r.cleanSHA256 } }
  | .checking r data dc dcs, .verify =>
    match objects (.clean dc) (objectKey r.objectKey) with
    | none => some { pc := abort r .unavailable, rows := rows }
    | some object =>
      match readClean env r.cleanSize r.cleanSHA256 object with
      | .ok copy =>
        some
          { pc := match dcs with | [] => .publishing r | _ => .copying r data dcs
            rows := rows
            event := some (.copied r dc copy) }
      | .error e => some { pc := abort r e, rows := rows }
  | .publishing r, .commit now answered =>
    let (reply, rows) := transition env rows r .ready now
    some
      { pc := .finished (finish env reply answered)
        rows := rows
        event := match reply with | .row _ => some (.published r) | _ => none }
  | .expiring r, .commit now answered =>
    let (reply, rows) := transition env rows r .expired now
    some { pc := .finished (finish env reply answered), rows := rows }
  | .rejecting r, .commit now _ =>
    let (_, rows) := transition env rows r .rejected now
    some { pc := .finished (some .rejected), rows := rows }
  | .purging r ((bucket, key) :: keys) e, .delete answer =>
    some
      { pc := .purging r keys (e.or (answer.map Failure.err))
        rows := rows
        delete := some { record := r, bucket := bucket, key := key } }
  | .purging r [] e, .list keys truncated =>
    -- what is listed is there, under the prefix that was asked for
    if keys.all fun key ↦ (cleanFolder r.objectKey).isPrefixOf key ∧
      (objects .internal key).isSome then
      -- a list that is cut off is an error after all its keys
      some {
        pc := sweep r keys (e.or (if truncated then some .unavailable else none))
        rows := rows }
    else none
  | .sweeping r (key :: keys) e, .delete answer =>
    if ¬ (cleanFolder r.objectKey).isPrefixOf key ∨
        key.length ≠ (cleanFolder r.objectKey).length + 64 then
      some { pc := abort r .rejected, rows := rows }
    else if kept r = some key then some { pc := sweep r keys e, rows := rows }
    else
      some
        { pc := sweep r keys (e.or (answer.map Failure.err))
          rows := rows
          delete := some { record := r, bucket := .internal, key := key } }
  | .deferring r, .commit now answered =>
    let (reply, rows) := deferCleanup env rows r now
    some { pc := .finished (finish env reply answered), rows := rows }
  | pc, .fail f => (pc.failure f).map fun e ↦ { pc := .finished (some e), rows := rows }
  | _, _ => none

/-! ## What a step of a worker does -/

/-- Why a step rejects the file. -/
inductive Rejects (env : Env) (objects : Objects) : StepPc → WorkAction → Record → Prop
  | part {r source number part parts object}
      (hobject : objects .quarantine (partKey r.objectKey number) = some object)
      (h : readPart env part object = .error .rejected) :
      Rejects env objects (.reading r source number (part :: parts)) .read r
  | whole {r source number} (h : env.sha256 source ≠ r.manifest.sha256) :
      Rejects env objects (.reading r source number []) .read r
  | cleaned {r source answer}
      (h : sandboxClean env.render r.manifest.size r.manifest.format answer = .error .rejected) :
      Rejects env objects (.cleaning r source) (.clean answer) r
  | derivative {r source clean answer format}
      (h : sandboxClean env.render r.manifest.size r.manifest.format answer = .ok (format, clean))
      (hbad : ¬ (clean ≠ [] ∧ (format = .png ∨ format = .pdf))) :
      Rejects env objects (.cleaning r source) (.clean answer) r
  | source {r source clean format answer}
      (h : scan source r.manifest.size answer = .error .rejected) :
      Rejects env objects (.scanningSource r source format clean) (.scan answer) r
  | clean {r source clean format answer} (h : scan clean clean.length answer = .error .rejected) :
      Rejects env objects (.scanningClean r source format clean) (.scan answer) r
  | verified {r source clean format object}
      (hobject : objects .internal (cleanKey r.objectKey (env.sha256 clean)) = some object)
      (h : readClean env clean.length (env.sha256 clean) object = .error .rejected) :
      Rejects env objects (.verifying r source format clean) .verify r
  | fetched {r object}
      (hobject : objects .internal (cleanKey r.objectKey r.cleanSHA256) = some object)
      (h : readClean env r.cleanSize r.cleanSHA256 object = .error .rejected) :
      Rejects env objects (.fetching r) .fetch r
  | checked {r data dc dcs object}
      (hobject : objects (.clean dc) (objectKey r.objectKey) = some object)
      (h : readClean env r.cleanSize r.cleanSHA256 object = .error .rejected) :
      Rejects env objects (.checking r data dc dcs) .verify r
  | listed {r key keys e answer} (h : ¬ cleanFolder r.objectKey <+: key ∨
        key.length ≠ (cleanFolder r.objectKey).length + 64) :
      Rejects env objects (.sweeping r (key :: keys) e) (.delete answer) r

/-- **What a step of a worker does**, apart from what it writes to the database. -/
inductive Worked (env : Env) (rows : Uploads) (objects : Objects) :
    StepPc → WorkAction → Effect → Prop
  | claimed {now id r row rows'} (hrow : rows'.find id = some row) (hr : decode env row = some r) :
      Worked env rows objects .claiming (.claim now id true) { pc := .claimed r, rows := rows' }
  | ended {pc a e result}
      (hpc : e.pc = .finished result) (hput : e.put = none) (hdelete : e.delete = none)
      (hevent : ∀ r dc copy, e.event ≠ some (.copied r dc copy))
      (hresult : result = some .rejected → ∃ r, pc = .rejecting r ∨
        ∃ keys, pc = .purging r keys (some .rejected) ∨
          ∃ keys, pc = .sweeping r keys (some .rejected)) : Worked env rows objects pc a e
  | dispatched {r now} :
      Worked env rows objects (.claimed r) (.dispatch now) { pc := dispatch r now, rows := rows }
  | part {r source body number part parts object}
      (hobject : objects .quarantine (partKey r.objectKey number) = some object)
      (h : readPart env part object = .ok body) :
      Worked env rows objects (.reading r source number (part :: parts)) .read
        { pc := .reading r (source ++ body) (number + 1) parts
          rows := rows
          event := some (.part r number body) }
  | read {r source number} (h : env.sha256 source = r.manifest.sha256) :
      Worked env rows objects (.reading r source number []) .read
        { pc := .cleaning r source, rows := rows, event := some (.read r source) }
  | cleaned {r source clean answer format}
      (h : sandboxClean env.render r.manifest.size r.manifest.format answer = .ok (format, clean))
      (hclean : clean ≠ []) (hformat : format = .png ∨ format = .pdf) :
      Worked env rows objects (.cleaning r source) (.clean answer)
        { pc := .scanningSource r source format clean
          rows := rows
          event := some (.cleaned source format clean) }
  | scannedSource {r source clean format answer} (h : scan source r.manifest.size answer = .ok ()) :
      Worked env rows objects (.scanningSource r source format clean) (.scan answer)
        { pc := .scanningClean r source format clean, rows := rows,
          event := some (.scanned source) }
  | scannedClean {r source clean format answer} (h : scan clean clean.length answer = .ok ()) :
      Worked env rows objects (.scanningClean r source format clean) (.scan answer)
        { pc := .putting r source format clean, rows := rows, event := some (.scanned clean) }
  | put {r source clean format answer} :
      Worked env rows objects (.putting r source format clean) (.put answer)
        { pc := answer.elim (.verifying r source format clean) (abort r ·.err)
          rows := rows
          put := some
            { bucket := .internal
              key := cleanKey r.objectKey (env.sha256 clean)
              object := cleanObject clean (env.sha256 clean) } }
  | verified {r source clean body format object}
      (hobject : objects .internal (cleanKey r.objectKey (env.sha256 clean)) = some object)
      (h : readClean env clean.length (env.sha256 clean) object = .ok body) :
      Worked env rows objects (.verifying r source format clean) .verify
        { pc := .marking r source format clean, rows := rows }
  | fetched {r data object}
      (hobject : objects .internal (cleanKey r.objectKey r.cleanSHA256) = some object)
      (h : readClean env r.cleanSize r.cleanSHA256 object = .ok data) :
      Worked env rows objects (.fetching r) .fetch { pc := .copying r data [0, 1], rows := rows }
  | copy {r data dc dcs answer} :
      Worked env rows objects (.copying r data (dc :: dcs)) (.put answer)
        { pc := answer.elim (.checking r data dc dcs) (abort r ·.err)
          rows := rows
          put := some
            { bucket := .clean dc
              key := objectKey r.objectKey
              object := cleanObject data r.cleanSHA256 } }
  | checked {r data copy dc dc' dcs object}
      (hobject : objects (.clean dc) (objectKey r.objectKey) = some object)
      (h : readClean env r.cleanSize r.cleanSHA256 object = .ok copy) :
      Worked env rows objects (.checking r data dc (dc' :: dcs)) .verify
        { pc := .copying r data (dc' :: dcs), rows := rows, event := some (.copied r dc copy) }
  | checkedLast {r data copy dc object}
      (hobject : objects (.clean dc) (objectKey r.objectKey) = some object)
      (h : readClean env r.cleanSize r.cleanSHA256 object = .ok copy) :
      Worked env rows objects (.checking r data dc []) .verify
        { pc := .publishing r, rows := rows, event := some (.copied r dc copy) }
  | purged {r bucket key keys e answer} :
      Worked env rows objects (.purging r ((bucket, key) :: keys) e) (.delete answer)
        { pc := .purging r keys (e.or (answer.map Failure.err))
          rows := rows
          delete := some { record := r, bucket := bucket, key := key } }
  | listed {r keys truncated e}
      (h : ∀ key ∈ keys, cleanFolder r.objectKey <+: key ∧ objects .internal key ≠ none) :
      Worked env rows objects (.purging r [] e) (.list keys truncated)
        { pc := sweep r keys (e.or (if truncated then some .unavailable else none)), rows := rows }
  | kept {r key keys e answer} :
      Worked env rows objects (.sweeping r (key :: keys) e) (.delete answer)
        { pc := sweep r keys e, rows := rows }
  | swept {r key keys e answer}
      (hfolder : cleanFolder r.objectKey <+: key) (h : kept r ≠ some key) :
      Worked env rows objects (.sweeping r (key :: keys) e) (.delete answer)
        { pc := sweep r keys (e.or (answer.map Failure.err))
          rows := rows
          delete := some { record := r, bucket := .internal, key := key } }
  | aborted {pc a r e} (hr : pc.record = some r) (h : e = .rejected → Rejects env objects pc a r) :
      Worked env rows objects pc a { pc := abort r e, rows := rows }

variable {env} {rows : Uploads} {objects : Objects}

theorem Failure.err_ne (f : Failure) : f.err ≠ .rejected := by
  cases f <;> decide

theorem finish_ne (reply : Reply) (answered : Bool) :
    finish env reply answered ≠ some .rejected := by
  unfold finish
  split
  · cases reply with
    | row r =>
      rw [Reply.result]
      cases decode env r <;> simp
    | none | refused | limited | failed => simp [Reply.result]
  · simp

/-- A failure is no rejection, unless there was one before. -/
theorem failure_eq_rejected {pc : StepPc} {f : Failure} (h : pc.failure f = some .rejected) :
    ∃ r, pc = .rejecting r ∨ ∃ keys, pc = .purging r keys (some .rejected) ∨
      ∃ keys, pc = .sweeping r keys (some .rejected) := by
  have := f.err_ne
  unfold StepPc.failure at h
  split at h
  all_goals simp_all

theorem Worked.of_work {pc : StepPc} {a : WorkAction} {e : Effect}
    (h : work env rows objects pc a = some e) : Worked env rows objects pc a e := by
  unfold work at h
  split at h
  · rename_i now id answered
    split at h
    · rename_i row rows' hclaim
      split at h
      · rename_i r hr
        cases h
        cases answered with
        | true => exact .claimed (swap_row hclaim) hr
        | false => exact .ended rfl rfl rfl (by simp) (by simp)
      · cases h
        exact .ended rfl rfl rfl (by simp) (by simp)
    · cases h
  · cases h
    exact .ended rfl rfl rfl (by simp) (by simp)
  · cases h
    exact .dispatched
  -- `ReadUpload`
  · split at h
    · cases h
      exact .aborted rfl (by simp)
    · rename_i object hobject
      split at h
      · rename_i body hbody
        cases h
        exact .part hobject hbody
      · rename_i err herr
        cases h
        exact .aborted rfl fun hrejected ↦ .part hobject (hrejected ▸ herr)
  · split at h
    · rename_i hwhole
      cases h
      exact .read hwhole
    · rename_i hwhole
      cases h
      exact .aborted rfl fun _ ↦ .whole hwhole
  -- the sandbox and the scanner
  · split at h
    · rename_i format clean hclean
      split at h
      · rename_i hgood
        cases h
        exact .cleaned hclean hgood.1 hgood.2
      · rename_i hbad
        cases h
        exact .aborted rfl fun _ ↦ .derivative hclean hbad
    · rename_i err herr
      cases h
      exact .aborted rfl fun hrejected ↦ .cleaned (hrejected ▸ herr)
  · split at h
    · rename_i hscan
      cases h
      exact .scannedSource hscan
    · rename_i err herr
      cases h
      exact .aborted rfl fun hrejected ↦ .source (hrejected ▸ herr)
  · split at h
    · rename_i hscan
      cases h
      exact .scannedClean hscan
    · rename_i err herr
      cases h
      exact .aborted rfl fun hrejected ↦ .clean (hrejected ▸ herr)
  -- `PutClean`
  · cases h
    exact .put
  · extract_lets sum at h
    split at h
    · cases h
      exact .aborted rfl (by simp)
    · rename_i object hobject
      split at h
      · rename_i body hbody
        cases h
        exact .verified hobject hbody
      · rename_i err herr
        cases h
        exact .aborted rfl fun hrejected ↦ .verified hobject (hrejected ▸ herr)
  · split at h
    rename_i reply _ _
    cases h
    refine .ended rfl rfl rfl ?_ fun hresult ↦ absurd hresult (finish_ne _ _)
    cases reply <;> simp
  -- `Replicate`
  · split at h
    · cases h
      exact .aborted rfl (by simp)
    · rename_i object hobject
      split at h
      · rename_i data hdata
        cases h
        exact .fetched hobject hdata
      · rename_i err herr
        cases h
        exact .aborted rfl fun hrejected ↦ .fetched hobject (hrejected ▸ herr)
  · cases h
    exact .copy
  · rename_i dcs
    split at h
    · cases h
      exact .aborted rfl (by simp)
    · rename_i object hobject
      split at h
      · rename_i copy hcopy
        cases h
        cases dcs with
        | nil => exact .checkedLast hobject hcopy
        | cons => exact .checked hobject hcopy
      · rename_i err herr
        cases h
        exact .aborted rfl fun hrejected ↦ .checked hobject (hrejected ▸ herr)
  -- the transitions
  · split at h
    rename_i reply _ _
    cases h
    refine .ended rfl rfl rfl ?_ fun hresult ↦ absurd hresult (finish_ne _ _)
    cases reply <;> simp
  · split at h
    cases h
    exact .ended rfl rfl rfl (by simp) fun hresult ↦ absurd hresult (finish_ne _ _)
  · split at h
    cases h
    exact .ended rfl rfl rfl (by simp) fun _ ↦ ⟨_, .inl rfl⟩
  -- `Purge` and `CleanupReady`
  · cases h
    exact .purged
  · split at h <;> cases h
    rename_i hkeys
    refine .listed fun key hkey ↦ ?_
    obtain ⟨hpre, hsome⟩ := of_decide_eq_true (List.all_eq_true.mp hkeys key hkey)
    exact ⟨List.isPrefixOf_iff_prefix.mp hpre, Option.isSome_iff_ne_none.mp hsome⟩
  · split at h
    · rename_i hlisted
      cases h
      rw [List.isPrefixOf_iff_prefix] at hlisted
      exact .aborted rfl fun _ ↦ .listed hlisted
    · rename_i hlisted
      split at h
      · cases h
        exact .kept
      · rename_i hkept
        cases h
        have hfolder := not_not.mp (not_or.mp hlisted).1
        exact .swept (List.isPrefixOf_iff_prefix.mp hfolder) hkept
  · split at h
    cases h
    exact .ended rfl rfl rfl (by simp) fun hresult ↦ absurd hresult (finish_ne _ _)
  · obtain ⟨err, herr, rfl⟩ := Option.map_eq_some_iff.mp h
    refine .ended rfl rfl rfl (by simp) fun hresult ↦ ?_
    cases hresult
    exact failure_eq_rejected herr
  · cases h

end MarketMesh.Files
