import MarketMesh.Files.Worker
import MarketMesh.Lib.Pool

/-!
# The service

The calls of users: `Create` makes a record or finds the one of an earlier call, and returns the
parts that were received together with capabilities to upload the others; `Complete` hands the file
to the worker; `Delete` marks it as deleted.  Each request of a call is a step of its own, and what
the object store answers is part of the action.
-/

set_option autoImplicit false

namespace MarketMesh.Files

open Auth (Bytes Time Duration Digest second)

structure Capability where
  partNumber : Nat
  expiresAt : Time
  deriving DecidableEq

structure ReceivedPart where
  number : Nat
  size : Int
  sha256 : Digest
  etag : String
  deriving DecidableEq

/-- What `Create` returns. -/
structure Upload where
  file : Record
  parts : List Capability := []
  received : List Nat := []

structure CreateRequest where
  owner : Owner
  key : ID
  manifest : Manifest
  deriving DecidableEq

/-- Where a call is. -/
inductive CallPc where
  | inserting (req : CreateRequest) (v : Record)
  | selecting (req : CreateRequest)
  | created (req : CreateRequest) (record : Record)
  | attaching (req : CreateRequest) (record : Record)
  /-- The upload could not be attached, for this error. -/
  | recovering (req : CreateRequest) (record : Record) (e : Err)
  /-- `capabilities`: the parts are looked up, and the others are signed. -/
  | preparing (req : CreateRequest) (record : Record)
  | heading (req : CreateRequest) (record : Record) (received : List ReceivedPart) (number : Nat)
      (parts : List Part)
  | signing (req : CreateRequest) (record : Record) (received : List Nat) (until' : Time)
      (signed : List Capability) (number : Nat) (parts : List Part)
  | replied (req : CreateRequest) (result : Except Err Upload)
  /-- `Complete` and `Delete`. -/
  | completing (owner : Owner) (id : ID)
  /-- `Completed` looks up the parts, and once `again` if some are missing. -/
  | checking (record : Record) (again : Bool) (received : List ReceivedPart) (number : Nat)
      (parts : List Part)
  | advancing (record : Record)
  | rereading (record : Record)
  | deleting (owner : Owner) (id : ID)
  | removing (record : Record)
  | returned (result : Except Err Record)

inductive CallAction where
  /-- The statement that the call has come to; `answered` says that the call gets its result. -/
  | commit (now : Time) (answered : Bool)
  /-- A statement fails. -/
  | fail
  /-- The call reads the clock and goes on. -/
  | proceed (now : Time)
  /-- A `HEAD` request, which fails or is answered, also with this `ETag`. -/
  | head (answer : Except Failure String)
  | sign (now : Time) (answer : Option Failure)

/-- What a step of a call does. -/
structure CallEffect where
  pc : CallPc
  rows : Uploads
  /-- The part that was found. -/
  head : Option (Record × ReceivedPart) := none

variable (env : Env)

/-- The record that a call of `Create` asks for. -/
def newRecord (req : CreateRequest) (id object : ID) (now : Time) : Record where
  id := id
  owner := req.owner
  idempotencyKey := req.key
  manifest := req.manifest
  objectKey := object
  state := .uploading
  version := 1
  createdAt := now
  expiresAt := now + uploadTTL

/-- The start of `Create`, with the identifiers that it draws. -/
def create (req : CreateRequest) (id object : ID) (now : Time) : CallPc :=
  if ¬ req.owner.Valid ∨ req.key = zeroID ∨ ¬ req.manifest.Valid then .replied req (.error .invalid)
  else .inserting req (newRecord req id object now)

/-- The start of `Complete`. -/
def complete (owner : Owner) (id : ID) : CallPc :=
  if ¬ owner.Valid ∨ id = zeroID then .returned (.error .invalid) else .completing owner id

/-- The start of `Delete`. -/
def delete (owner : Owner) (id : ID) : CallPc :=
  if ¬ owner.Valid ∨ id = zeroID then .returned (.error .invalid) else .deleting owner id

def minTime (a b : Time) : Time :=
  if a < b then a else b

def ValidPart (record : Record) (part : ReceivedPart) : Prop :=
  1 ≤ part.number ∧ part.etag ≠ "" ∧
    ∃ expected, record.manifest.parts[part.number - 1]? = some expected ∧
      expected.size = part.size ∧ expected.sha256 = part.sha256

instance (record : Record) (part : ReceivedPart) : Decidable (ValidPart record part) :=
  match h : record.manifest.parts[part.number - 1]? with
  | some expected =>
    decidable_of_iff
      (1 ≤ part.number ∧ part.etag ≠ "" ∧ expected.size = part.size ∧ expected.sha256 = part.sha256)
      ⟨fun ⟨h1, h2, h3⟩ ↦ ⟨h1, h2, expected, h, h3⟩, fun ⟨h1, h2, _, hx, h3⟩ ↦ by
        cases h.symm.trans hx
        exact ⟨h1, h2, h3⟩⟩
  | none => isFalse fun ⟨_, _, _, hx, _⟩ ↦ by cases h.symm.trans hx

/-- What follows the creation, on the record that was found. -/
def proceed (req : CreateRequest) (record : Record) (now : Time) : CallPc :=
  if record.manifest.fingerprint env ≠ req.manifest.fingerprint env then
    .replied req (.error .conflict)
  else if record.state ≠ .uploading then .replied req (.ok { file := record })
  else if record.expiresAt ≤ now then .replied req (.error .conflict)
  else if record.uploadID = none then
    if record.ValidStored then .attaching req record else .replied req (.error .invalid)
  else .preparing req record

/-- The start of `capabilities`. -/
def prepare (req : CreateRequest) (record : Record) (now : Time) : CallPc :=
  if record.state ≠ .uploading then .replied req (.ok { file := record })
  else if record.uploadID = none ∨ record.expiresAt ≤ now then .replied req (.error .conflict)
  else if record.ValidStored ∧ record.uploadID = some record.id then
    .heading req record [] 1 record.manifest.parts
  else .replied req (.error .invalid)

/-- The answer, once all parts are signed. -/
def offer (req : CreateRequest) (record : Record) (received : List Nat) (until' : Time)
    (signed : List Capability) (number : Nat) (parts : List Part) : CallPc :=
  match parts with
  | [] => .replied req (.ok { file := record, parts := signed, received := received })
  | _ => .signing req record received until' signed number parts

/-- A `HEAD` request for a part that is answered: nothing, or an object, whose hash the object store
has checked. -/
def headPart (objects : Objects) (record : Record) (number : Nat) (etag : String) :
    Except Err (Option ReceivedPart) :=
  match objects .quarantine (partKey record.objectKey number) with
  | none => .ok none
  | some object =>
    if object.fileID = some record.id ∧ object.uploadID = record.uploadID ∧ object.encrypted then
      .ok (some
        { number := number
          size := object.data.length
          sha256 := env.sha256 object.data
          etag := etag })
    else .error .rejected

/-- `Complete` of the store: all parts are there in their order, as the manifest has them. -/
def AllReceived (record : Record) (received : List ReceivedPart) : Prop :=
  received.map ReceivedPart.number = List.range' 1 record.manifest.parts.length ∧
    ∀ part ∈ received, ValidPart record part
  deriving Decidable

/-- The parts of `Complete` are looked up. -/
def check (record : Record) (again : Bool) : CallPc :=
  if record.ValidStored ∧ record.uploadID = some record.id then
    .checking record again [] 1 record.manifest.parts
  else .returned (.error .invalid)

/-- All parts were looked up. -/
def checked (record : Record) (again : Bool) (received : List ReceivedPart) : CallPc :=
  if received.length ≠ record.manifest.parts.length then
    if again then .returned (.error .conflict) else check record true
  else if AllReceived record received then .advancing record
  else .returned (.error .rejected)

/-- `Get`. -/
def get (rows : Uploads) (owner : Owner) (id : ID) : Except Err Record :=
  match getRow rows owner id with
  | some row => (decode env row).elim (.error .unavailable) .ok
  | none => .error .notFound

/-- A step of a call. -/
def serve (rows : Uploads) (objects : Objects) : CallPc → CallAction → Option CallEffect
  | .inserting req v, .commit now answered =>
    if ¬ v.Valid then some { pc := .replied req (.error .invalid), rows := rows }
    else
      let (reply, rows) := insertRow env rows v now
      some
        { pc :=
            if answered then
              match reply.result env .notFound with
              | .ok record => .created req record
              | .error .notFound => .selecting req
              | .error e => .replied req (.error e)
            else .replied req (.error .unavailable)
          rows := rows }
  | .selecting req, .commit _ _ =>
    match selectRow rows req.owner req.key with
    | some row =>
      some
        { pc := (decode env row).elim (.replied req (.error .unavailable)) (.created req)
          rows := rows }
    | none => some { pc := .replied req (.error .notFound), rows := rows }
  | .created req record, .proceed now => some { pc := proceed env req record now, rows := rows }
  | .attaching req record, .commit now answered =>
    let (reply, rows) := attachUpload env rows record record.id now
    some
      { pc :=
          if answered then
            match reply.result env .conflict with
            | .ok attached => .preparing req attached
            | .error e => .recovering req record e
          else .recovering req record .unavailable
        rows := rows }
  | .recovering req record e, .commit _ _ =>
    some
      { pc :=
          match get env rows req.owner record.id with
          | .ok current =>
            if current.uploadID = some record.id ∨ e = .conflict then .preparing req current
            else .replied req (.error e)
          | .error _ => .replied req (.error e)
        rows := rows }
  | .preparing req record, .proceed now => some { pc := prepare req record now, rows := rows }
  | .heading req record received number (_ :: parts), .head (.ok etag) =>
    match headPart env objects record number etag with
    | .ok part =>
      some
        { pc := .heading req record (received ++ part.toList) (number + 1) parts
          rows := rows
          head := part.map (Prod.mk record) }
    | .error e => some { pc := .replied req (.error e), rows := rows }
  | .heading req _ _ _ (_ :: _), .head (.error f) =>
    some { pc := .replied req (.error f.err), rows := rows }
  | .heading req record received _ [], .proceed now =>
    some
      { pc :=
          if (∀ part ∈ received, ValidPart record part) ∧
              (received.map ReceivedPart.number).Nodup then
            offer req record (received.map ReceivedPart.number)
              (minTime (now + capabilityTTL) record.expiresAt) [] 1 record.manifest.parts
          else .replied req (.error .rejected)
        rows := rows }
  | .signing req record received until' signed number (_ :: parts), .sign now answer =>
    some
      { pc :=
          if number ∈ received then offer req record received until' signed (number + 1) parts
          else if until' - now < second ∨ capabilityTTL < until' - now then
            .replied req (.error .invalid)
          else
            match answer with
            | none =>
              let capability : Capability := { partNumber := number, expiresAt := until' }
              offer req record received until' (signed ++ [capability]) (number + 1) parts
            | some f => .replied req (.error f.err)
        rows := rows }
  | .completing owner id, .commit now _ =>
    some
      { pc :=
          match get env rows owner id with
          | .ok record =>
            if record.state = .scanning ∨ record.state = .replicating ∨ record.state = .ready then
              .returned (.ok record)
            else if record.state ≠ .uploading ∨ record.uploadID = none ∨ record.expiresAt ≤ now then
              .returned (.error .conflict)
            else check record false
          | .error e => .returned (.error e)
        rows := rows }
  | .checking record again received number (_ :: parts), .head (.ok etag) =>
    match headPart env objects record number etag with
    | .ok part =>
      some
        { pc := .checking record again (received ++ part.toList) (number + 1) parts
          rows := rows
          head := part.map (Prod.mk record) }
    | .error e => some { pc := .returned (.error e), rows := rows }
  | .checking _ _ _ _ (_ :: _), .head (.error f) =>
    some { pc := .returned (.error f.err), rows := rows }
  | .checking record again received _ [], .proceed _ =>
    some { pc := checked record again received, rows := rows }
  | .advancing record, .commit now answered =>
    let (reply, rows) := transition env rows record .scanning now
    some
      { pc :=
          if answered then
            match reply.result env .conflict with
            | .error .conflict => .rereading record
            | result => .returned result
          else .returned (.error .unavailable)
        rows := rows }
  | .rereading record, .commit _ _ =>
    some { pc := .returned (get env rows record.owner record.id), rows := rows }
  | .deleting owner id, .commit _ _ =>
    some
      { pc :=
          match get env rows owner id with
          | .ok record =>
            if record.state = .deleted then .returned (.ok record) else .removing record
          | .error e => .returned (.error e)
        rows := rows }
  | .removing record, .commit now answered =>
    let (reply, rows) := transition env rows record .deleted now
    some
      { pc := .returned (if answered then reply.result env .conflict else .error .unavailable)
        rows := rows }
  | .inserting req _, .fail | .selecting req, .fail =>
    some { pc := .replied req (.error .unavailable), rows := rows }
  | .attaching req record, .fail =>
    some { pc := .recovering req record .unavailable, rows := rows }
  | .recovering req _ e, .fail => some { pc := .replied req (.error e), rows := rows }
  | .completing _ _, .fail | .advancing _, .fail | .rereading _, .fail | .deleting _ _, .fail
  | .removing _, .fail => some { pc := .returned (.error .unavailable), rows := rows }
  | _, _ => none

/-! ## The deployment

Any number of workers and of calls of users, on one database and one object store.  A request to the
object store is carried out at any time after it was sent, and any number of times; in between, the
clients upload their parts. -/

/-- The database, the object store and everyone at work.  `puts` and `deletes` are the requests that
were sent, `heads` and `log` record what calls and workers have seen and done. -/
structure Deployment where
  rows : Uploads := ∅
  objects : Objects := fun _ _ ↦ none
  puts : List Put := []
  deletes : List Deletion := []
  steps : List StepPc := []
  calls : List CallPc := []
  heads : List (Record × ReceivedPart) := []
  log : List (Nat × Event) := []

namespace Deployment

inductive Action where
  /-- A worker calls `Step`. -/
  | start
  | work (k : Nat) (a : WorkAction)
  | create (req : CreateRequest) (id object : ID) (now : Time)
  | complete (owner : Owner) (id : ID)
  | delete (owner : Owner) (id : ID)
  | call (c : Nat) (a : CallAction)
  /-- A client uploads an object, under a key that is not in use. -/
  | upload (key : Bytes) (object : Object)
  /-- A put, or a deletion, is carried out. -/
  | store (i : Nat)
  | remove (i : Nat)

/-- The state after a worker's step. -/
def worked (s : Deployment) (k : Nat) (e : Effect) : Deployment :=
  { s with
    rows := e.rows
    puts := s.puts ++ e.put.toList
    deletes := s.deletes ++ e.delete.toList
    steps := s.steps.set k e.pc
    log := s.log ++ e.event.toList.map (Prod.mk k) }

/-- The state after a call's step. -/
def served (s : Deployment) (c : Nat) (e : CallEffect) : Deployment :=
  { s with
    rows := e.rows
    calls := s.calls.set c e.pc
    heads := s.heads ++ e.head.toList }

def step (env : Env) (s : Deployment) : Action → Option Deployment
  | .start => some { s with steps := s.steps ++ [.claiming] }
  | .work k a =>
    s.steps[k]?.bind fun pc ↦ (Files.work env s.rows s.objects pc a).map (s.worked k)
  | .create req id object now =>
    some { s with calls := s.calls ++ [Files.create req id object now] }
  | .complete owner id => some { s with calls := s.calls ++ [Files.complete owner id] }
  | .delete owner id => some { s with calls := s.calls ++ [Files.delete owner id] }
  | .call c a =>
    s.calls[c]?.bind fun pc ↦ (serve env s.rows s.objects pc a).map (s.served c)
  | .upload key object =>
    if s.objects .quarantine key = none then
      some { s with objects := s.objects.set .quarantine key (some object) }
    else none
  | .store i => s.puts[i]?.map fun p ↦ { s with objects := s.objects.put p }
  | .remove i => s.deletes[i]?.map fun d ↦ { s with objects := s.objects.delete d }

variable {env} {s s' : Deployment} {a : Action}

theorem step_work {k : Nat} {a} (h : step env s (.work k a) = some s') :
    ∃ pc e, s.steps[k]? = some pc ∧ Files.work env s.rows s.objects pc a = some e ∧
      s' = s.worked k e := by
  obtain ⟨pc, hpc, h⟩ := Option.bind_eq_some_iff.mp h
  obtain ⟨e, he, rfl⟩ := Option.map_eq_some_iff.mp h
  exact ⟨pc, e, hpc, he, rfl⟩

theorem step_call {c : Nat} {a} (h : step env s (.call c a) = some s') :
    ∃ pc e, s.calls[c]? = some pc ∧ serve env s.rows s.objects pc a = some e ∧
      s' = s.served c e := by
  obtain ⟨pc, hpc, h⟩ := Option.bind_eq_some_iff.mp h
  obtain ⟨e, he, rfl⟩ := Option.map_eq_some_iff.mp h
  exact ⟨pc, e, hpc, he, rfl⟩

/-- **Only the workers act on the object store**, and what is recorded is what they do. -/
theorem step_workers (h : step env s a = some s') :
    (∃ k b pc e, a = .work k b ∧ s.steps[k]? = some pc ∧
      Files.work env s.rows s.objects pc b = some e ∧ s' = s.worked k e) ∨
    s'.deletes = s.deletes ∧ s'.log = s.log ∧
      (s'.steps = s.steps ∨ s'.steps = s.steps ++ [.claiming]) := by
  cases a with
  | work k b =>
    obtain ⟨pc, e, hk, he, hs'⟩ := step_work h
    exact .inl ⟨k, b, pc, e, rfl, hk, he, hs'⟩
  | call =>
    obtain ⟨_, _, _, _, rfl⟩ := step_call h
    exact .inr ⟨rfl, rfl, .inl rfl⟩
  | upload =>
    rw [step] at h
    split at h <;> cases h
    exact .inr ⟨rfl, rfl, .inl rfl⟩
  | store | remove =>
    obtain ⟨_, -, rfl⟩ := Option.map_eq_some_iff.mp h
    exact .inr ⟨rfl, rfl, .inl rfl⟩
  | start =>
    cases h
    exact .inr ⟨rfl, rfl, .inr rfl⟩
  | create | complete | delete =>
    cases h
    exact .inr ⟨rfl, rfl, .inl rfl⟩

/-- Where the state of a worker comes from. -/
theorem step_pc (h : step env s a = some s') {k : Nat} {pc} (hk : s'.steps[k]? = some pc) :
    s.steps[k]? = some pc ∨ pc = .claiming ∨
    ∃ b pc' e, a = .work k b ∧ s.steps[k]? = some pc' ∧
      Files.work env s.rows s.objects pc' b = some e ∧ s' = s.worked k e ∧ pc = e.pc := by
  obtain ⟨j, b, pc', e, rfl, hj, he, rfl⟩ | ⟨-, -, heq | heq⟩ := step_workers h
  · obtain ⟨rfl, rfl⟩ | ⟨-, hold⟩ := Pool.of_set hk
    · exact .inr (.inr ⟨b, pc', e, rfl, hj, he, rfl, rfl⟩)
    · exact .inl hold
  · exact .inl (heq ▸ hk)
  · rw [heq] at hk
    obtain ⟨-, rfl⟩ | hold := Pool.of_append hk
    · exact .inr (.inl rfl)
    · exact .inl hold

end Deployment

end MarketMesh.Files
