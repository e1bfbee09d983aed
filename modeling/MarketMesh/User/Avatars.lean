import MarketMesh.Lib.Lease
import MarketMesh.Lib.Optimistic
import MarketMesh.Lib.Table
import MarketMesh.User.Address

/-!
# Avatars

A profile refers to a file of another service as its avatar.  `Set` replaces it in one transaction,
which locks the profile, compares the version, asks whether the new file has been retired, puts the
old one into the queue of retirements and changes the profile.  Workers take the queued files and
ask the other service to delete them; a row of the queue is leased to the worker that handles it and
is never removed, so that a file that was asked to be deleted cannot come back.

Every statement is a step of `Optimistic.Spec.step`, and so are the calls of the other service.  A
transaction is read committed: its statements see what is committed, and what they write is kept
with the call until `COMMIT`.  A worker that crashes makes no more steps, and the answer to a
statement may be lost.
-/

set_option autoImplicit false

namespace MarketMesh.User.Avatars

open Validation

abbrev FileID := List.Vector UInt8 16
abbrev Token := List.Vector UInt8 16

/-- A time of the database, in microseconds. -/
abbrev Time := Int

def second : Time := 1000000

/-! ## The database -/

/-- The columns `avatar_version` and `avatar_file_id` of `users.profiles`. -/
structure Columns where
  version : Int := 1
  fileID : Option FileID := none

structure Avatar where
  subjectID : SubjectID
  version : Int
  /-- Zero denotes no selected avatar. -/
  fileID : FileID

/-- `decode`. -/
def decode (owner : SubjectID) : Option Columns → Except Err Avatar
  | none => .error .notReady
  | some c =>
    if owner = zeroID ∨ c.version < 1 then .error .invalidStored
    else
      match c.fileID with
      | none => .ok { subjectID := owner, version := c.version, fileID := zeroID }
      | some id =>
        if id = zeroID then .error .invalidStored
        else .ok { subjectID := owner, version := c.version, fileID := id }

/-- A row of `users.avatar_retirements`. -/
structure RetirementRow where
  subjectID : SubjectID
  fileID : FileID
  nextAttemptAt : Time
  attempts : Nat := 0
  lease : Option (Lease Token Time) := none
  retiredAt : Option Time := none

namespace RetirementRow

/-- The primary key. -/
def key (row : RetirementRow) : SubjectID × FileID := (row.subjectID, row.fileID)

/-- What `Claim` selects. -/
def IsCandidate (row : RetirementRow) (now : Time) : Prop :=
  row.retiredAt = none ∧ row.nextAttemptAt ≤ now ∧ Lease.Free row.lease now
  deriving Decidable

/-- What `Finish` and `Retry` update. -/
def IsHeld (row : RetirementRow) (token : Token) (now : Time) : Prop :=
  Lease.Held row.lease token now ∧ row.retiredAt = none
  deriving Decidable

/-- The update of `Claim`, for thirty seconds. -/
def claim (token : Token) (now : Time) (row : RetirementRow) : RetirementRow :=
  { row with
    lease := some { token := token, deadline := now + 30 * second }
    attempts := min row.attempts 2147483646 + 1 }

/-- The update of `Finish`. -/
def finish (now : Time) (row : RetirementRow) : RetirementRow :=
  { row with retiredAt := some now, lease := none }

/-- The update of `Retry`. -/
def retry (next : Time) (row : RetirementRow) : RetirementRow :=
  { row with nextAttemptAt := next, lease := none }

theorem key_claim (token : Token) (now : Time) (row : RetirementRow) :
    (row.claim token now).key = row.key := rfl

theorem key_finish (now : Time) (row : RetirementRow) : (row.finish now).key = row.key := rfl

theorem key_retry (next : Time) (row : RetirementRow) : (row.retry next).key = row.key := rfl

end RetirementRow

structure Store where
  profiles : SubjectID → Option Columns := fun _ ↦ none
  retirements : Table RetirementRow.key := ∅

/-- The file is the avatar of the owner. -/
def Store.Wears (S : Store) (owner : SubjectID) (id : FileID) : Prop :=
  ∃ c, S.profiles owner = some c ∧ c.fileID = some id

/-- The profile of a new owner is stored. -/
def Store.register (S : Store) (owner : SubjectID) : Store :=
  { S with profiles := Function.update S.profiles owner (some {}) }

/-- `INSERT … ON CONFLICT DO NOTHING`. -/
def Store.retire (S : Store) (row : RetirementRow) : Store :=
  { S with retirements := (S.retirements.insert row).getD S.retirements }

/-- `UPDATE users.profiles SET avatar_file_id, avatar_version=avatar_version+1`; zero is no file. -/
def Columns.replace (c : Columns) (id : FileID) : Columns where
  version := c.version + 1
  fileID := if id = zeroID then none else some id

/-- What the transaction of a change writes. -/
def Store.change (S : Store) (owner : SubjectID) (id : FileID) (retired : Option RetirementRow) :
    Store :=
  let S := retired.elim S S.retire
  { S with
    profiles := Function.update S.profiles owner ((S.profiles owner).map fun c ↦ c.replace id) }

/-! ## Changes -/

/-- The part of `identity.Principal` that is read here. -/
structure Principal where
  subjectID : SubjectID
  canRead : Bool
  canWrite : Bool

def authorize (ctxDone : Bool) (p : Principal) (write : Bool) : Except Err Unit := do
  ensure (p.subjectID ≠ zeroID) Err.unauthenticated
  ensure (ctxDone = false) Err.context
  ensure ((if write then p.canWrite else p.canRead) = true) Err.forbidden

/-- `avatar.ValidExpectedVersion`. -/
def ValidExpectedVersion (v : Int) : Prop := 0 < v ∧ v < maxInt64
  deriving Decidable

/-- What `Service.Set` does before the transaction; `inspected` is the answer of `Inspect`. -/
def prepareSet (ctxDone : Bool) (p : Principal) (id : FileID) (version : Int)
    (inspected : Except Err Unit) : Except Err Unit := do
  authorize ctxDone p true
  ensure (id ≠ zeroID ∧ ValidExpectedVersion version) Err.invalid
  inspected

/-- What `Service.Clear` does before the transaction. -/
def prepareClear (ctxDone : Bool) (p : Principal) (version : Int) : Except Err Unit := do
  authorize ctxDone p true
  ensure (ValidExpectedVersion version) Err.invalid

/-- A call of `Set`, or of `Clear` if the file is zero. -/
structure Request where
  owner : SubjectID
  fileID : FileID
  expected : Int

/-- Where the transaction of a change is, once it has the lock of the profile. -/
inductive Tx where
  /-- The version is the expected one. -/
  | locked (current : Avatar)
  /-- The new file is not in the queue. -/
  | vetted (current : Avatar)
  /-- `retired` is the row that it has inserted. -/
  | replaced (retired : Option RetirementRow)

/-- `SELECT … FOR UPDATE`. -/
def lock (S : Store) (r : Request) : Except Err Tx := do
  let current ← decode r.owner (S.profiles r.owner)
  ensure (current.version = r.expected) Err.conflict
  .ok (.locked current)

/-- The next statement: `SELECT EXISTS`, `INSERT` at the time `now`, or `UPDATE`. -/
def next (S : Store) (r : Request) (now : Time) : Tx → Except Err (Optimistic.Progress Tx Avatar)
  | .locked current =>
    if r.fileID ≠ zeroID ∧ (S.retirements.find (r.owner, r.fileID)).isSome = true then
      .error .unavailable
    else .ok (.more (.vetted current))
  | .vetted current =>
    if current.fileID ≠ zeroID ∧ current.fileID ≠ r.fileID then
      .ok (.more (.replaced
        (some { subjectID := r.owner, fileID := current.fileID, nextAttemptAt := now })))
    else .ok (.more (.replaced none))
  | .replaced retired => do
    let result ← decode r.owner ((S.change r.owner r.fileID retired).profiles r.owner)
    .ok (.ready (.replaced retired) result)

inductive Input where
  | set (ctxDone : Bool) (p : Principal) (id : FileID) (version : Int) (inspected : Except Err Unit)
  | clear (ctxDone : Bool) (p : Principal) (version : Int)

/-- The error before the transaction. -/
def refusal : Except Err Unit → Option Err
  | .ok () => none
  | .error e => some e

def Input.enter : Input → Option (Request × Option Err)
  | .set ctxDone p id version inspected =>
    some (⟨p.subjectID, id, version⟩, refusal (prepareSet ctxDone p id version inspected))
  | .clear ctxDone p version =>
    some (⟨p.subjectID, zeroID, version⟩, refusal (prepareClear ctxDone p version))

/-! ## Workers -/

structure Retirement where
  subjectID : SubjectID
  fileID : FileID
  leaseToken : Token
  attempts : Nat

def Retirement.key (r : Retirement) : SubjectID × FileID := (r.subjectID, r.fileID)

/-- `time.Second << min(max(record.Attempts-1, 0), 8)`. -/
def Retirement.delay (r : Retirement) : Time := second * 2 ^ min (r.attempts - 1) 8

/-- Where a call of `Worker.Step` is. -/
inductive WorkerPc where
  | claiming
  | claimed (r : Retirement)
  /-- `Retire` has been called. -/
  | retiring (r : Retirement)
  /-- `Retire` has succeeded. -/
  | retired (r : Retirement)
  /-- `Retire` has failed. -/
  | failed (r : Retirement)
  | ended

/-- The database and the workers.  `claims`, `retires` and `successes` record the leases that were
given, the calls of `Retire` and those that succeeded, with the workers. -/
structure World where
  store : Store := {}
  workers : List WorkerPc := []
  claims : List (Nat × Retirement) := []
  retires : List (Nat × Retirement) := []
  successes : List (Nat × Retirement) := []

/-- What happens outside of the changes. -/
inductive Event where
  | register (owner : SubjectID)
  /-- `Worker.Step` is called. -/
  | start
  /-- The statement of `Claim`; `answered` says that the worker gets the row. -/
  | claim (w : Nat) (now : Time) (token : Token) (key : SubjectID × FileID) (answered : Bool)
  | retire (w : Nat)
  /-- `Retire` returns. -/
  | returned (w : Nat) (isOk : Bool)
  /-- The statement of `Finish`. -/
  | finish (w : Nat) (now : Time)
  /-- The statement of `Retry`. -/
  | retry (w : Nat) (now : Time)
  /-- The worker returns without another statement: there is nothing to claim, the statement fails
  or the context is done. -/
  | stop (w : Nat)

namespace World

def setWorker (W : World) (w : Nat) (pc : WorkerPc) : World :=
  { W with workers := W.workers.set w pc }

/-- The record that a worker gets from `Claim`; it rejects the token zero. -/
def claimed (r : Retirement) (answered : Bool) : WorkerPc :=
  if answered = true ∧ r.leaseToken ≠ zeroID ∧ r.subjectID ≠ zeroID ∧
    r.fileID ≠ zeroID then .claimed r
  else .ended

def updateRows (W : World) (p : RetirementRow → Bool) (f : RetirementRow → RetirementRow)
    (hf : ∀ row, (f row).key = row.key) : World :=
  { W with store := { W.store with retirements := W.store.retirements.update p f hf } }

def handle (W : World) : Event → Option World
  | .register owner =>
    if W.store.profiles owner = none then some { W with store := W.store.register owner } else none
  | .start => some { W with workers := W.workers ++ [.claiming] }
  | .claim w now token key answered =>
    match W.workers[w]?, W.store.retirements.find key with
    | some .claiming, some row =>
      if row.IsCandidate now then
        let r : Retirement :=
          { subjectID := row.subjectID, fileID := row.fileID, leaseToken := token
            attempts := (row.claim token now).attempts }
        some { (W.updateRows (fun row ↦ row.key = key) (.claim token now)
            (RetirementRow.key_claim token now)).setWorker w (claimed r answered) with
          claims := W.claims ++ [(w, r)] }
      else none
    | _, _ => none
  | .retire w =>
    match W.workers[w]? with
    | some (.claimed r) =>
      some { W.setWorker w (.retiring r) with retires := W.retires ++ [(w, r)] }
    | _ => none
  | .returned w isOk =>
    match W.workers[w]? with
    | some (.retiring r) =>
      if isOk then some { W.setWorker w (.retired r) with successes := W.successes ++ [(w, r)] }
      else some (W.setWorker w (.failed r))
    | _ => none
  | .finish w now =>
    match W.workers[w]? with
    | some (.retired r) =>
      some ((W.updateRows (fun row ↦ row.key = r.key ∧ row.IsHeld r.leaseToken now) (.finish now)
        (RetirementRow.key_finish now)).setWorker w .ended)
    | _ => none
  | .retry w now =>
    match W.workers[w]? with
    | some (.failed r) =>
      some ((W.updateRows (fun row ↦ row.key = r.key ∧ row.IsHeld r.leaseToken now)
        (.retry (now + r.delay)) (RetirementRow.key_retry _)).setWorker w .ended)
    | _ => none
  | .stop w =>
    match W.workers[w]? with
    | some _ => some (W.setWorker w .ended)
    | none => none

/-- The transaction of a change is committed. -/
def commit (W : World) (r : Request) : Tx → World
  | .replaced retired => { W with store := W.store.change r.owner r.fileID retired }
  | .locked _ | .vetted _ => W

end World

def spec : Optimistic.Spec World SubjectID Request Tx Avatar Err Time Event Input where
  owner := Request.owner
  expected := Request.expected
  enter := Input.enter
  lock W r := lock W.store r
  next W r tx now := some (next W.store r now tx)
  commit := World.commit
  answer _ result := .ok result
  broken := .database
  env := World.handle

abbrev System := Optimistic.System World Request Tx Avatar Err
abbrev Action := Optimistic.Action Time Event Input

end MarketMesh.User.Avatars
