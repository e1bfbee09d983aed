import Mathlib.Algebra.Group.Fin.Basic
import Mathlib.Data.Fintype.Basic
import Mathlib.Tactic.FinCases
import MarketMesh.GatewayIn.Request
import MarketMesh.Lib.Run

/-!
# The outbound queue of gateway-in

Any number of goroutines call `enqueue`, which puts a frame into its lane and then, in a step of its
own, leaves a token in `wake`.  The write loop calls `dequeue`, which looks at one lane after the
other and waits for the token when all were empty.
-/

set_option autoImplicit false

namespace MarketMesh.GatewayIn

open Protocol Machine

-- The literals of `Lane` rest on this.
local instance laneNeZero : NeZero 4 := ⟨by decide⟩

structure OutboundQueue where
  lanes : Lanes := fun _ ↦ []
  wake : Bool := false
  next : Lane := 0
  /-- The offset from `next` of the lane `dequeue` looks at next; `none` if it waits. -/
  scan : Option Lane := some 0
  /-- The calls of `enqueue` that have yet to leave their token. -/
  signals : Nat := 0
  /-- The lanes of the frames dequeued since some moment, as a history. -/
  served : List Lane := []

namespace OutboundQueue

inductive Action where
  | enqueue (frame : ConnectResponse)
  | signal
  | look
  | woken

/-- One atomic step.  An `enqueue` that is refused changes nothing, and a loop whose context has
ended takes no more steps. -/
def step (limits : QueueLimits) (q : OutboundQueue) : Action → Option OutboundQueue
  | .enqueue frame =>
    match q.lanes.enqueue limits none frame, queueLane frame.header.trafficClass with
    | none, some lane =>
      some { q with
        lanes := Function.update q.lanes lane (q.lanes lane ++ [frame])
        signals := q.signals + 1 }
    | _, _ => none
  | .signal =>
    if 0 < q.signals then some { q with wake := true, signals := q.signals - 1 } else none
  | .look =>
    match q.scan with
    | some offset =>
      match q.lanes (q.next + offset) with
      | _ :: rest =>
        some { q with
          lanes := Function.update q.lanes (q.next + offset) rest
          next := q.next + offset + 1
          scan := some 0
          served := q.served ++ [q.next + offset] }
      | [] => some { q with scan := if offset = 3 then none else some (offset + 1) }
    | none => none
  | .woken =>
    if q.scan = none ∧ q.wake then some { q with wake := false, scan := some 0 } else none

/-- How many lanes this scan found empty. -/
def looked (q : OutboundQueue) : Nat := q.scan.elim 4 Fin.val

variable {limits : QueueLimits} {q q₀ q' : OutboundQueue} {a : Action} {lane : Lane}

/-- What a step does to the scan. -/
inductive Change (q : OutboundQueue) : OutboundQueue → Prop
  | offered {lanes wake signals} (hs : wake = true ∨ 0 < signals) :
      Change q { q with lanes, wake, signals }
  | taken {offset lanes} (hscan : q.scan = some offset) :
      Change q { q with
        lanes, next := q.next + offset + 1, scan := some 0,
        served := q.served ++ [q.next + offset] }
  | passed {offset scan} (hscan : q.scan = some offset)
      (hempty : q.lanes (q.next + offset) = []) (hl : scan.elim 4 Fin.val = offset.val + 1) :
      Change q { q with scan }
  | woken : Change q { q with wake := false, scan := some 0 }

theorem step_change (h : q.step limits a = some q') : Change q q' := by
  cases a with
  | enqueue frame =>
    simp only [step] at h
    split at h <;> cases h
    exact .offered (.inr (Nat.succ_pos _))
  | signal =>
    obtain ⟨-, ⟨⟩⟩ := Option.ite_none_right_eq_some.mp h
    exact .offered (.inl rfl)
  | look =>
    simp only [step] at h
    split at h
    · rename_i offset hscan
      split at h <;> cases h
      · exact .taken hscan
      · rename_i hempty
        exact .passed hscan hempty (by fin_cases offset <;> rfl)
    · cases h
  | woken =>
    obtain ⟨-, ⟨⟩⟩ := Option.ite_none_right_eq_some.mp h
    exact .woken

/-- **No wake-up is lost**: while `dequeue` waits and a lane is not empty, a token has been left or
is about to be. -/
theorem wakes (h : Reach (step limits) (fun _ _ ↦ True) {} q) (hwait : q.scan = none)
    (hlane : q.lanes lane ≠ []) : q.wake = true ∨ 0 < q.signals := by
  -- A frame may enter a lane that the scan has passed.
  have hq : ∀ o : Lane, o.val < q.looked → q.lanes (q.next + o) ≠ [] →
      q.wake = true ∨ 0 < q.signals := by
    refine h.invariant (fun _ h ↦ (by cases h)) fun q a q' _ hq _ hstep ↦ ?_
    cases step_change hstep with
    | offered hs => exact fun _ _ _ ↦ hs
    | taken | woken => exact fun _ hlt ↦ (by cases hlt)
    | passed hscan hempty hl =>
      intro o hlt hne
      obtain hlt | heq := Nat.lt_succ_iff_lt_or_eq.mp (hlt.trans_eq hl)
      · exact hq o (by rwa [looked, hscan]) hne
      · exact absurd (Fin.ext heq ▸ hempty) hne
  refine hq (lane - q.next) ?_ (by rwa [add_sub_cancel])
  rw [looked, hwait]
  exact (lane - q.next).isLt

/-- A frame enters a lane that the scan has passed. -/
theorem wakes_late : ∃ q, Reach (step ⟨1, 1, 1, 1⟩) (fun _ _ ↦ True) {} q ∧ q.scan = none ∧
    q.lanes 0 ≠ [] ∧ (q.wake = true ∨ 0 < q.signals) := by
  obtain ⟨q, h, hwait, hlane⟩ := exists_of_script (step ⟨1, 1, 1, 1⟩) (fun _ _ ↦ True) {}
    [.look, .enqueue default, .look, .look, .look] (fun q ↦ q.scan = none ∧ q.lanes 0 ≠ [])
    (by decide)
  exact ⟨q, h, hwait, hlane, wakes h hwait hlane⟩

/-- A frame of another lane brings `next` nearer. -/
theorem nearer : ∀ {lane next offset : Lane}, offset.val ≤ (lane - next).val →
    lane ≠ next + offset → (lane - (next + offset + 1)).val < (lane - next).val := by
  decide

/-- **No lane starves**: a lane that is not empty from the start of a `dequeue` on is one of the
first four that are served, whatever is enqueued meanwhile. -/
theorem fair (hstart : q₀.scan = some 0) (hserved : q₀.served = [])
    (h : Reach (step limits) (fun q _ ↦ q.lanes lane ≠ []) q₀ q) (hfour : 4 ≤ q.served.length) :
    lane ∈ q.served := by
  -- Until then each frame brings `next` nearer to the lane, and no scan passes it.
  have hq : lane ∈ q.served ∨
      q.served.length + (lane - q.next).val < 4 ∧ q.looked ≤ (lane - q.next).val := by
    refine h.invariant (.inr ⟨by simp [hserved], by simp [looked, hstart]⟩)
      fun q a q' _ hq hne hstep ↦ ?_
    cases step_change hstep with
    | offered => exact hq
    | woken => exact hq.imp_right fun hq ↦ ⟨hq.1, Nat.zero_le _⟩
    | passed hscan hempty hl =>
      refine hq.imp_right fun hq ↦ ⟨hq.1, ?_⟩
      rw [looked, hscan] at hq
      refine hl.trans_le (lt_of_le_of_ne hq.2 fun heq ↦ hne ?_)
      rw [← hempty, Fin.ext heq, add_sub_cancel]
    | @taken offset lanes hscan =>
      by_cases heq : lane = q.next + offset
      · exact .inl (by simp [heq])
      · refine hq.imp (List.mem_append_left _) fun hq ↦ ⟨?_, Nat.zero_le _⟩
        rw [looked, hscan] at hq
        have hnear := nearer hq.2 heq
        simp only [List.length_append, List.length_singleton]
        omega
  exact hq.resolve_right fun hq ↦ (by omega)

/-- The last lane waits for the others. -/
theorem fair_last : ∃ q, Reach (step ⟨1, 1, 1, 1⟩) (fun q _ ↦ q.lanes 3 ≠ [])
    { lanes := fun _ ↦ [default] } q ∧ 3 ∈ q.served := by
  refine (exists_of_script (step _) _ _ [.look, .look, .look, .look]
    (fun q ↦ 4 ≤ q.served.length) ?_).imp fun q h ↦ ⟨h.1, fair rfl rfl h.1 h.2⟩
  decide

end OutboundQueue

end MarketMesh.GatewayIn
