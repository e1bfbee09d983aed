import Mathlib.Algebra.Order.Ring.Int
import MarketMesh.Auth.Operations
import MarketMesh.Lib.Lease
import MarketMesh.Lib.Pool
import MarketMesh.Registration.Wire

/-!
# The delivery of registrations

Auth keeps an outbox of registration events.  Workers lease its rows and publish them to a stream,
and mark the rows that were published.  The consumers of User take the messages of the stream, in
any order and any number of times, and apply them: a statement enters the event in an inbox and
creates the profile.

A step is a statement of a database, which reads the clock of the database, or a step of a worker,
of a consumer or of the broker.  A process that crashes makes no more steps, and another one is
started.
-/

set_option autoImplicit false

namespace MarketMesh.Registration

open Auth

def millisecond : Duration := 1000000

/-- A duration in whole microseconds. -/
def microseconds (d : Duration) : Duration := d - d % 1000

/-! ## The outbox -/

/-- A row of `auth.registration_outbox`. -/
structure OutboxRow where
  eventID : ChallengeID
  subject : SubjectID
  occurredAt : Time
  payload : Auth.Bytes
  attempts : Nat := 0
  nextAttemptAt : Time
  lease : Option (Lease ChallengeID Time) := none
  publishedAt : Option Time := none

namespace OutboxRow

/-- What `Claim` selects. -/
def IsCandidate (row : OutboxRow) (now : Time) : Prop :=
  row.publishedAt = none ∧ row.nextAttemptAt ≤ now ∧ Lease.Free row.lease now
  deriving Decidable

/-- What `MarkPublished` and `Retry` update. -/
def IsHeld (row : OutboxRow) (token : ChallengeID) (now : Time) : Prop :=
  Lease.Held row.lease token now ∧ row.publishedAt = none
  deriving Decidable

def claim (token : ChallengeID) (lease : Duration) (now : Time) (row : OutboxRow) : OutboxRow :=
  { row with
    lease := some { token := token, deadline := now + microseconds lease }
    attempts := min row.attempts 2147483646 + 1 }

def markPublished (now : Time) (row : OutboxRow) : OutboxRow :=
  { row with publishedAt := some now, lease := none }

def retry (delay : Duration) (now : Time) (row : OutboxRow) : OutboxRow :=
  { row with nextAttemptAt := now + microseconds delay, lease := none }

theorem eventID_claim (token : ChallengeID) (lease : Duration) (now : Time) (row : OutboxRow) :
    (row.claim token lease now).eventID = row.eventID := rfl

theorem eventID_markPublished (now : Time) (row : OutboxRow) :
    (row.markPublished now).eventID = row.eventID := rfl

theorem eventID_retry (delay : Duration) (now : Time) (row : OutboxRow) :
    (row.retry delay now).eventID = row.eventID := rfl

end OutboxRow

/-- The record that `Claim` returns. -/
structure Record where
  id : ChallengeID
  leaseToken : ChallengeID
  payload : Auth.Bytes
  attempts : Nat
  occurredAt : Time

/-! ## The worker -/

structure Config where
  leaseDuration : Duration
  publishTimeout : Duration
  pollInterval : Duration
  retryInitial : Duration
  retryMax : Duration
  batchSize : Int

namespace Config

/-- The value of a field, or its default. -/
def orDefault (value default : Int) : Int :=
  if value = 0 then default else value

def withDefaults (c : Config) : Config where
  leaseDuration := orDefault c.leaseDuration (15 * second)
  publishTimeout := orDefault c.publishTimeout (5 * second)
  pollInterval := orDefault c.pollInterval second
  retryInitial := orDefault c.retryInitial second
  retryMax := orDefault c.retryMax (60 * second)
  batchSize := orDefault c.batchSize 32

/-- What `New` requires of a configuration with its defaults. -/
def Valid (c : Config) : Prop :=
  c.publishTimeout < c.leaseDuration ∧ c.leaseDuration ≤ hour ∧ 0 < c.publishTimeout ∧
    0 < c.pollInterval ∧ c.pollInterval ≤ hour ∧ millisecond ≤ c.retryInitial ∧
    c.retryInitial ≤ c.retryMax ∧ c.retryMax ≤ 24 * hour ∧ 1 ≤ c.batchSize ∧ c.batchSize ≤ 1024

/-- The loop of `backoff`, with the number of doublings that remain. -/
def backoffFrom (c : Config) : Nat → Duration → Duration
  | 0, delay => min delay c.retryMax
  | remaining + 1, delay =>
    if delay < c.retryMax then
      if c.retryMax / 2 < delay then c.retryMax else c.backoffFrom remaining (delay * 2)
    else min delay c.retryMax

def backoff (c : Config) (attempt : Nat) : Duration :=
  c.backoffFrom (attempt - 1) c.retryInitial

/-- The loop of `backoff` in 64 bits, where a doubling may wrap around. -/
def backoffFrom64 (c : Config) : Nat → Duration → Duration
  | 0, delay => min delay c.retryMax
  | remaining + 1, delay =>
    if delay < c.retryMax then
      if c.retryMax / 2 < delay then c.retryMax
      else c.backoffFrom64 remaining ((delay * 2).bmod (2 ^ 64))
    else min delay c.retryMax

theorem backoffFrom_eq (c : Config) (remaining : Nat) {delay} (hpos : 0 < delay) :
    c.backoffFrom remaining delay = min (delay * 2 ^ remaining) c.retryMax := by
  induction remaining generalizing delay with
  | zero => rw [backoffFrom, pow_zero, mul_one]
  | succ remaining ih =>
    have hone : (1 : Int) ≤ 2 ^ remaining := one_le_pow₀ (by decide)
    have hle : delay * 2 ≤ delay * 2 * 2 ^ remaining :=
      le_mul_of_one_le_right (mul_pos hpos two_pos).le hone
    rw [backoffFrom, pow_succ', ← mul_assoc]
    split_ifs with hlt hhalf
    · exact (min_eq_right (((Int.ediv_lt_iff_lt_mul two_pos).mp hhalf).le.trans hle)).symm
    · exact ih (mul_pos hpos two_pos)
    · have hdouble : delay ≤ delay * 2 := le_mul_of_one_le_right hpos.le one_le_two
      rw [min_eq_right (not_lt.mp hlt), min_eq_right ((not_lt.mp hlt).trans (hdouble.trans hle))]

/-- Below the maximum nothing wraps around. -/
theorem backoffFrom64_eq (c : Config) (hmax : c.retryMax < 2 ^ 63) (remaining : Nat)
    {delay} (hpos : 0 < delay) :
    c.backoffFrom64 remaining delay = c.backoffFrom remaining delay := by
  have hbmod : ∀ d : Int, 0 < d → d < 2 ^ 63 → d.bmod (2 ^ 64) = d := fun d _ _ ↦
    Int.bmod_eq_of_le (by omega) (by omega)
  induction remaining generalizing delay with
  | zero => rfl
  | succ remaining ih =>
    rw [backoffFrom64, backoffFrom]
    split_ifs with hlt hhalf
    · rfl
    · have hle : delay * 2 ≤ c.retryMax := (Int.le_ediv_iff_mul_le two_pos).mp (not_lt.mp hhalf)
      rw [hbmod _ (mul_pos hpos two_pos) (hle.trans_lt hmax)]
      exact ih (mul_pos hpos two_pos)
    · rfl

end Config

/-- Where a worker is. -/
inductive WorkerPc where
  | ready
  | claimed (r : Record)
  /-- It waits for the acknowledgement of the broker. -/
  | sent (r : Record)
  /-- `Publish` has returned without an error. -/
  | published (r : Record)
  | failed (r : Record)

def WorkerPc.record : WorkerPc → Option Record
  | .ready => none
  | .claimed r | .sent r | .published r | .failed r => some r

structure Worker where
  config : { c : Config // c.Valid }
  pc : WorkerPc := .ready

/-- A message of the broker. -/
structure Msg where
  subject : String
  msgID : Option ChallengeID
  data : Auth.Bytes
  deriving DecidableEq

/-- The subject of registration events. -/
def streamSubject : String := "auth.account.registered.v1"

/-! ## The inbox -/

structure InboxRow where
  eventID : ChallengeID
  subject : SubjectID
  payloadHash : Digest

/-- A row of `users.profiles`: of its other columns those that `updateSettings` works on, with their
defaults. -/
structure Profile where
  subject : SubjectID
  theme : String := "system"
  settingsVersion : Int := 1

/-- The tables of User. -/
structure UserStore where
  inbox : Table InboxRow.eventID := ∅
  profiles : Table Profile.subject := ∅

/-- The outcome of `Apply`. -/
inductive Applied where
  | applied
  | duplicate
  deriving DecidableEq

/-- `INSERT INTO users.profiles … ON CONFLICT DO NOTHING`. -/
def UserStore.project (u : UserStore) (subject : SubjectID) : UserStore :=
  { u with profiles := (u.profiles.insert { subject := subject }).getD u.profiles }

/-- The statement of `Apply`; it selects no row in case of a conflict. -/
def UserStore.apply (u : UserStore) (e : Event) (hash : Digest) : Option (Applied × UserStore) :=
  let row : InboxRow := { eventID := e.eventID, subject := e.subject, payloadHash := hash }
  match u.inbox.insert row with
  | some inbox => some (.applied, UserStore.project { u with inbox := inbox } e.subject)
  | none =>
    if (u.inbox.find e.eventID).any fun row ↦ row.subject = e.subject ∧ row.payloadHash = hash then
      some (.duplicate, u.project e.subject)
    else none

/-- `UPDATE users.profiles SET theme, settings_version=settings_version+1`, for the version that the
user has seen. -/
def UserStore.updateSettings (u : UserStore) (subject : SubjectID) (theme : String)
    (expected : Int) : UserStore :=
  let set (row : Profile) : Profile :=
    { row with theme := theme, settingsVersion := row.settingsVersion + 1 }
  { u with
    profiles := u.profiles.update
      (fun row ↦ row.subject = subject ∧ row.settingsVersion = expected) set fun _ ↦ rfl }

/-- Where a consumer is. -/
inductive ConsumerPc where
  | ready
  | delivered (m : Msg)
  | applying (m : Msg) (e : Event)
  /-- `Apply` has returned without an error. -/
  | applied (m : Msg) (e : Event)

/-! ## The system -/

/-- What the services are given: the protobuf library and SHA-256. -/
structure Env where
  codec : Codec
  sha256 : Auth.Bytes → Digest

/-- The state.  `published` records the workers whose `Publish` has succeeded, with what they have
published; `accepted` the events that were entered in the inbox; `committed` the events whose
`Apply` was committed without a conflict; and `acked` the messages that were acknowledged. -/
structure Delivery where
  clock : Time := 0
  outbox : Table OutboxRow.eventID := ∅
  workers : List Worker := []
  stream : List Msg := []
  user : UserStore := {}
  consumers : List ConsumerPc := []
  published : List (Nat × Record) := []
  accepted : List Event := []
  committed : List Event := []
  acked : List Msg := []

namespace Delivery

inductive Action where
  | tick (time : Time)
  /-- A registration is committed. -/
  | enqueue (e : Event)
  | startWorker (config : { c : Config // c.Valid })
  /-- `answered` says that the worker gets the row. -/
  | claim (w : Nat) (token id : ChallengeID) (answered : Bool)
  /-- The worker sends its message, or fails to. -/
  | send (w : Nat) (ok : Bool)
  /-- The broker stores a message: one that was sent, however late, or one from elsewhere. -/
  | store (m : Msg)
  /-- `Publish` returns. -/
  | answer (w : Nat) (ok : Bool)
  | markPublished (w : Nat)
  | retry (w : Nat)
  | startConsumer
  | deliver (c : Nat) (m : Msg)
  /-- The consumer reads its message. -/
  | decode (c : Nat)
  /-- The statement of `Apply`; `answered` says that the consumer gets its result. -/
  | apply (c : Nat) (answered : Bool)
  | ack (c : Nat)
  /-- The user changes the profile. -/
  | edit (subject : SubjectID) (theme : String) (expected : Int)

def setWorker (s : Delivery) (w : Nat) (worker : Worker) (pc : WorkerPc) : Delivery :=
  { s with workers := s.workers.set w { worker with pc := pc } }

def setConsumer (s : Delivery) (c : Nat) (pc : ConsumerPc) : Delivery :=
  { s with consumers := s.consumers.set c pc }

/-- The record of a row that was claimed, which `Claim` checks. -/
def claimedRecord (row : OutboxRow) (token : ChallengeID) : Option Record :=
  if 1 ≤ row.payload.length ∧ row.payload.length ≤ 8192 ∧ row.eventID ≠ zeroID then
    some
      { id := row.eventID
        leaseToken := token
        payload := row.payload
        attempts := min row.attempts 2147483646 + 1
        occurredAt := row.occurredAt }
  else none

variable (env : Env)

/-- What the outbox is after `MarkPublished` and `Retry`. -/
def updateHeld (s : Delivery) (r : Record) (f : OutboxRow → OutboxRow)
    (hf : ∀ row, (f row).eventID = row.eventID) : Table OutboxRow.eventID :=
  s.outbox.update (fun row ↦ row.eventID = r.id ∧ row.IsHeld r.leaseToken s.clock) f hf

/-- The statement of `Apply` and what the consumer does after it. -/
def applied (s : Delivery) (c : Nat) (m : Msg) (e : Event) (answered : Bool) : Delivery :=
  match marshal env.codec e with
  | none => s.setConsumer c .ready
  | some payload =>
    match s.user.apply e (env.sha256 payload) with
    -- a conflict
    | none => s.setConsumer c .ready
    | some (outcome, user) =>
      { s.setConsumer c (if answered then .applied m e else .ready) with
        user := user
        accepted := if outcome = .applied then s.accepted ++ [e] else s.accepted
        committed := s.committed ++ [e] }

def step (s : Delivery) : Action → Option Delivery
  | .tick time => if s.clock ≤ time then some { s with clock := time } else none
  | .enqueue e =>
    match marshal env.codec e with
    | some payload =>
      -- `subject_id` is unique, too
      if s.outbox.rows.any (·.subject = e.subject) then none
      else
        let row : OutboxRow :=
          { eventID := e.eventID
            subject := e.subject
            occurredAt := e.occurredAt
            payload := payload
            nextAttemptAt := s.clock }
        (s.outbox.insert row).map fun outbox ↦ { s with outbox := outbox }
    | none => none
  | .startWorker config => some { s with workers := s.workers ++ [{ config := config }] }
  | .claim w token id answered =>
    match s.workers[w]?, s.outbox.find id with
    | some { config := config, pc := .ready }, some row =>
      if row.IsCandidate s.clock then
        let pc : WorkerPc :=
          match claimedRecord row token with
          | some r => if answered then .claimed r else .ready
          | none => .ready
        some { s.setWorker w { config := config } pc with
          outbox := s.outbox.update (·.eventID = id)
            (.claim token config.1.leaseDuration s.clock)
            (OutboxRow.eventID_claim token config.1.leaseDuration s.clock) }
      else none
    | _, _ => none
  | .send w ok =>
    match s.workers[w]? with
    | some { config := config, pc := .claimed r } =>
      some (s.setWorker w { config := config }
        (if ok ∧ validatePayload env.codec r.payload r.id then .sent r else .failed r))
    | _ => none
  | .store m => some { s with stream := s.stream ++ [m] }
  | .answer w ok =>
    match s.workers[w]? with
    | some { config := config, pc := .sent r } =>
      if ok then
        -- the message is stored, or is taken for one that was
        if s.stream.any (·.msgID = some r.id) then
          some { s.setWorker w { config := config } (.published r) with
            published := s.published ++ [(w, r)] }
        else none
      else some (s.setWorker w { config := config } (.failed r))
    | _ => none
  | .markPublished w =>
    match s.workers[w]? with
    | some { config := config, pc := .published r } =>
      some { s.setWorker w { config := config } .ready with
        outbox := s.updateHeld r (.markPublished s.clock)
          (OutboxRow.eventID_markPublished s.clock) }
    | _ => none
  | .retry w =>
    match s.workers[w]? with
    | some { config := config, pc := .failed r } =>
      let delay := config.1.backoff r.attempts
      some { s.setWorker w { config := config } .ready with
        outbox :=
          if millisecond ≤ delay ∧ delay ≤ 24 * hour then
            s.updateHeld r (.retry delay s.clock) (OutboxRow.eventID_retry delay s.clock)
          else s.outbox }
    | _ => none
  | .startConsumer => some { s with consumers := s.consumers ++ [.ready] }
  | .deliver c m =>
    match s.consumers[c]? with
    | some .ready => if m ∈ s.stream then some (s.setConsumer c (.delivered m)) else none
    | _ => none
  | .decode c =>
    match s.consumers[c]? with
    | some (.delivered m) =>
      match unmarshal env.codec m.data with
      | some e =>
          some (s.setConsumer c (if m.subject = streamSubject then .applying m e else .ready))
      | none => some (s.setConsumer c .ready)
    | _ => none
  | .apply c answered =>
    match s.consumers[c]? with
    | some (.applying m e) => some (s.applied env c m e answered)
    | _ => none
  | .ack c =>
    match s.consumers[c]? with
    | some (.applied m _) => some { s.setConsumer c .ready with acked := s.acked ++ [m] }
    | _ => none
  | .edit subject theme expected =>
    some { s with user := s.user.updateSettings subject theme expected }

/-- **The backoff of the publications**, for every configuration that `New` accepts.  The delay
doubles up to its maximum, no doubling leaves the 64 bits of a duration, and `Retry` accepts every
delay, so that a publication that failed gets its next time. -/
theorem backoff_schedule (c : Config) (h : c.withDefaults.Valid) :
    let d := c.withDefaults
    (∀ n, 1 ≤ n → d.backoff n = min (d.retryInitial * 2 ^ (n - 1)) d.retryMax ∧
      d.backoffFrom64 (n - 1) d.retryInitial = d.backoff n ∧
      millisecond ≤ d.backoff n ∧ d.backoff n ≤ 24 * hour) ∧
    (∀ m n, 1 ≤ m → m ≤ n → d.backoff m ≤ d.backoff n) ∧
    ∀ (env : Env) (s : Delivery) w r, s.workers[w]? = some { config := ⟨d, h⟩, pc := .failed r } →
      (s.step env (.retry w)).map Delivery.outbox = some (s.updateHeld r
        (.retry (d.backoff r.attempts) s.clock) (OutboxRow.eventID_retry _ s.clock)) := by
  intro d
  obtain ⟨-, -, -, -, -, hinitial, hmax, hday, -⟩ := id h
  have hpos : 0 < d.retryInitial := lt_of_lt_of_le (by decide) hinitial
  have heq (n : Nat) := d.backoffFrom_eq (n - 1) hpos
  have hmono (m n : Nat) (hmn : m ≤ n) : d.backoff m ≤ d.backoff n := by
    rw [Config.backoff, heq, Config.backoff, heq]
    have hpow : (2 : Int) ^ (m - 1) ≤ 2 ^ (n - 1) := pow_le_pow_right₀ (by decide) (by omega)
    exact min_le_min_right _ (mul_le_mul_of_nonneg_left hpow hpos.le)
  have hrange (n : Nat) : millisecond ≤ d.backoff n ∧ d.backoff n ≤ 24 * hour := by
    constructor
    · refine hinitial.trans (le_trans ?_ (hmono 0 n n.zero_le))
      rw [Config.backoff, heq]
      exact le_min (mul_one _).ge hmax
    · rw [Config.backoff, heq]
      exact (min_le_right _ _).trans hday
  refine ⟨fun n _ ↦ ⟨heq n, ?_, hrange n⟩, fun m n _ ↦ hmono m n, fun env s w r hw ↦ ?_⟩
  · exact d.backoffFrom64_eq (hday.trans_lt (by decide)) (n - 1) hpos
  · simp only [step, hw, if_pos (hrange r.attempts), Option.map_some]

theorem backoff_schedule_default : ∃ d : Config, d.Valid ∧ d.backoff 3 = 4 * second := by
  have h : (Config.withDefaults ⟨0, 0, 0, 0, 0, 0⟩).Valid := by
    unfold Config.Valid
    decide
  refine ⟨_, h, ?_⟩
  rw [((backoff_schedule _ h).1 3 (by decide)).1]
  decide

end Delivery

end MarketMesh.Registration
