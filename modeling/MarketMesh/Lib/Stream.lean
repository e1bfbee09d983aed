import MarketMesh.Lib.Pool
import Mathlib.Data.List.Infix

/-!
# Streams of messages

What two ends of a channel need of the messages between them: that those of a class stay in order
(`Fifo`), that each belongs to one conversation (`Demux`), and that none is missing (`Numbered`).
-/

set_option autoImplicit false

universe u v w

/-! ## First-in first-out queues with several lanes

A sender puts items into lanes, and one goroutine takes items out of a lane and sends them, in
whichever order of the lanes it likes.  Within one lane nothing overtakes: what was accepted is
what was sent, then what the sending goroutine holds, then what is still queued.  `Conserved` says
this, and every `Step` keeps it.

A class of items that all go through one lane inherits the order (`Conserved.filter`): of such a
class, what was sent is a prefix of what was accepted. -/

namespace Fifo

variable {α : Type u} {ι : Type v} [DecidableEq ι]

/-- What a sender was given and has sent, what it holds, and what is queued in its lanes. -/
structure Sender (α : Type u) (ι : Type v) where
  accepted : List α
  sent : List α
  held : List α
  queues : ι → List α

/-- **What a sender can do.** -/
inductive Step (lane : α → ι) (x : Sender α ι) : Sender α ι → Prop
  | same : Step lane x x
  /-- A batch enters the end of its lane. -/
  | pushed {i batch} (hb : ∀ a ∈ batch, lane a = i) :
      Step lane x { x with
        accepted := x.accepted ++ batch
        queues := Function.update x.queues i (x.queues i ++ batch) }
  /-- The sender takes a batch from the front of a lane. -/
  | taken {i batch rest} (hidle : x.held = []) (hq : x.queues i = batch ++ rest) :
      Step lane x { x with held := batch, queues := Function.update x.queues i rest }
  /-- The sender sends the first item it holds. -/
  | sent {a rest} (hsend : x.held = a :: rest) :
      Step lane x { x with sent := x.sent ++ [a], held := rest }

/-- In every lane, what was accepted is what was sent, then what is held, then what is queued. -/
def Conserved (lane : α → ι) (x : Sender α ι) : Prop :=
  ∀ i, x.accepted.filter (fun a ↦ lane a = i) =
    x.sent.filter (fun a ↦ lane a = i) ++ x.held.filter (fun a ↦ lane a = i) ++ x.queues i

variable {lane : α → ι} {x y : Sender α ι} {i : ι} {a : α} {batch : List α}

/-- A batch of one lane, as every lane sees it. -/
theorem filter_of_forall_lane (hb : ∀ a ∈ batch, lane a = i) (j : ι) :
    batch.filter (fun a ↦ lane a = j) = if j = i then batch else [] := by
  split
  · rename_i hj
    exact List.filter_eq_self.mpr fun a ha ↦ by simpa [hj] using hb a ha
  · rename_i hj
    refine List.filter_eq_nil_iff.mpr fun a ha ↦ ?_
    rw [decide_eq_true_eq, hb a ha]
    exact fun hij ↦ hj hij.symm

/-- What is queued in a lane belongs there. -/
theorem Conserved.mem_queue (h : Conserved lane x) (ha : a ∈ x.queues i) : lane a = i := by
  have hmem : a ∈ x.accepted.filter (fun a ↦ lane a = i) := by
    rw [h i]
    exact List.mem_append_right _ ha
  simpa using List.of_mem_filter hmem

theorem Conserved.step (h : Conserved lane x) (hstep : Step lane x y) : Conserved lane y := by
  intro j
  cases hstep with
  | same => exact h j
  | @pushed i batch hb =>
    simp only
    rw [List.filter_append, h j, filter_of_forall_lane hb]
    by_cases hj : j = i
    · subst hj
      rw [if_pos rfl, Function.update_self, List.append_assoc _ (x.queues j)]
    · rw [if_neg hj, List.append_nil, Function.update_of_ne hj]
  | @taken i batch rest hidle hq =>
    have hb : ∀ a ∈ batch, lane a = i := fun a ha ↦
      h.mem_queue (hq ▸ List.mem_append_left _ ha)
    simp only
    rw [h j, hidle, List.filter_nil, List.append_nil, filter_of_forall_lane hb]
    by_cases hj : j = i
    · subst hj
      rw [if_pos rfl, Function.update_self, hq, List.append_assoc]
    · rw [if_neg hj, List.append_nil, Function.update_of_ne hj]
  | sent hsend =>
    simp only
    rw [h j, hsend, ← List.filter_append, ← List.filter_append, List.append_assoc x.sent]
    rfl

/-- What was sent stays sent. -/
theorem Step.prefix_of_sent (h : Step lane x y) : x.sent <+: y.sent := by
  cases h with
  | sent => exact List.prefix_append _ _
  | _ => exact List.prefix_rfl

theorem Conserved.of_mem (h : Conserved lane x) (ha : a ∈ x.accepted) :
    a ∈ x.sent ∨ a ∈ x.held ∨ a ∈ x.queues (lane a) := by
  have hmem : a ∈ x.accepted.filter (fun b ↦ lane b = lane a) :=
    List.mem_filter.mpr ⟨ha, by simp⟩
  rw [h (lane a), List.mem_append, List.mem_append, or_assoc] at hmem
  exact hmem.imp List.mem_of_mem_filter (Or.imp_left List.mem_of_mem_filter)

theorem Conserved.mem_sent (h : Conserved lane x) (ha : a ∈ x.sent) : a ∈ x.accepted := by
  have hmem : a ∈ x.accepted.filter (fun b ↦ lane b = lane a) := by
    rw [h (lane a), List.append_assoc]
    exact List.mem_append_left _ (List.mem_filter.mpr ⟨ha, by simp⟩)
  exact List.mem_of_mem_filter hmem

theorem Conserved.mem_held (h : Conserved lane x) (ha : a ∈ x.held) : a ∈ x.accepted := by
  have hmem : a ∈ x.accepted.filter (fun b ↦ lane b = lane a) := by
    rw [h (lane a)]
    exact List.mem_append_left _ (List.mem_append_right _ (List.mem_filter.mpr ⟨ha, by simp⟩))
  exact List.mem_of_mem_filter hmem

/-- **Items that share a lane keep their order.** -/
theorem Conserved.filter (h : Conserved lane x) {P : α → Bool}
    (hP : ∀ a ∈ x.accepted, P a = true → lane a = i) :
    x.accepted.filter P = x.sent.filter P ++ x.held.filter P ++ (x.queues i).filter P := by
  have hfilter : ∀ l : List α, (∀ a ∈ l, a ∈ x.accepted) →
      (l.filter (fun a ↦ lane a = i)).filter P = l.filter P := by
    intro l hl
    rw [List.filter_filter]
    refine List.filter_congr fun a ha ↦ ?_
    cases hPa : P a with
    | false => rfl
    | true => simpa using hP a (hl a ha) hPa
  have hi := congrArg (List.filter P) (h i)
  rw [List.filter_append, List.filter_append, hfilter _ fun _ ha ↦ ha,
    hfilter _ fun _ ha ↦ h.mem_sent ha, hfilter _ fun _ ha ↦ h.mem_held ha] at hi
  exact hi

/-- Of items that share a lane, the sent ones are the first of the accepted ones. -/
theorem Conserved.prefix_of_sent (h : Conserved lane x) {P : α → Bool}
    (hP : ∀ a ∈ x.accepted, P a = true → lane a = i) : x.sent.filter P <+: x.accepted.filter P := by
  rw [h.filter hP, List.append_assoc]
  exact List.prefix_append _ _

end Fifo

/-! ## One log shared by several entries

A channel carries the messages of many conversations.  Each message names its conversation by a
key, and each end keeps an entry for every conversation it knows.  `Attributed` says that the log
of the channel and the logs of the entries are two views of the same thing: the messages of the
log that name an entry are the log of that entry, in the same order, and no two entries share a
key.  Messages whose key is `foreign` belong to the channel itself.

The rules are the ways a log grows: a new entry appears, possibly with first messages
(`Attributed.add`), an entry is changed and records messages (`Attributed.record`), and the channel
itself has messages (`Attributed.skip`). -/

namespace Demux

variable {α : Type u} {β : Type v} {κ : Type w} [DecidableEq κ]

/-- The messages of the log that name an entry are the log of that entry. -/
structure Attributed (key : β → κ) (id : α → κ) (own : α → List β) (foreign : κ → Prop)
    (entries : List α) (log : List β) : Prop where
  /-- No two entries share a key. -/
  distinct : ∀ {i j : Nat} {x y : α}, entries[i]? = some x → entries[j]? = some y →
    id x = id y → i = j
  not_foreign : ∀ {i : Nat} {x : α}, entries[i]? = some x → ¬ foreign (id x)
  own_eq : ∀ {i : Nat} {x : α}, entries[i]? = some x → log.filter (fun b ↦ key b = id x) = own x
  /-- Every message belongs to an entry or to the channel. -/
  owned : ∀ b ∈ log, foreign (key b) ∨ ∃ x ∈ entries, key b = id x

variable {key : β → κ} {id : α → κ} {own : α → List β} {foreign : κ → Prop} {entries : List α}
  {log batch : List β}

namespace Attributed

theorem init (key : β → κ) (id : α → κ) (own : α → List β) (foreign : κ → Prop) :
    Attributed key id own foreign [] [] where
  distinct h := by simp at h
  not_foreign h := by simp at h
  own_eq h := by simp at h
  owned _ h := by simp at h

private theorem filter_eq_self {k : κ} (h : ∀ b ∈ batch, key b = k) :
    batch.filter (fun b ↦ key b = k) = batch :=
  List.filter_eq_self.mpr fun b hb ↦ by simpa using h b hb

private theorem filter_eq_nil {k : κ} (h : ∀ b ∈ batch, key b ≠ k) :
    batch.filter (fun b ↦ key b = k) = [] :=
  List.filter_eq_nil_iff.mpr fun b hb ↦ by simpa using h b hb

/-- A new entry appears together with its first messages. -/
theorem add (h : Attributed key id own foreign entries log) {y : α}
    (hnew : ∀ x ∈ entries, id x ≠ id y) (hforeign : ¬ foreign (id y))
    (hbatch : ∀ b ∈ batch, key b = id y) (hown : own y = batch) :
    Attributed key id own foreign (entries ++ [y]) (log ++ batch) where
  distinct {i j x x'} hx hx' heq := by
    obtain ⟨rfl, rfl⟩ | hi := Pool.of_append hx
    · obtain ⟨rfl, -⟩ | hj := Pool.of_append hx'
      · rfl
      · exact absurd heq.symm (hnew x' (List.mem_of_getElem? hj))
    · obtain ⟨-, rfl⟩ | hj := Pool.of_append hx'
      · exact absurd heq (hnew x (List.mem_of_getElem? hi))
      · exact h.distinct hi hj heq
  not_foreign {i x} hx := by
    rcases List.mem_append.mp (List.mem_of_getElem? hx) with hx | hx
    · obtain ⟨j, hj⟩ := List.mem_iff_getElem?.mp hx
      exact h.not_foreign hj
    · rwa [List.mem_singleton.mp hx]
  own_eq {i x} hx := by
    rw [List.filter_append]
    rcases List.mem_append.mp (List.mem_of_getElem? hx) with hx | hx
    · obtain ⟨j, hj⟩ := List.mem_iff_getElem?.mp hx
      rw [h.own_eq hj, filter_eq_nil fun b hb ↦ hbatch b hb ▸ (hnew x hx).symm, List.append_nil]
    · obtain rfl := List.mem_singleton.mp hx
      -- nothing in the log names the new entry yet
      have hlog : log.filter (fun b ↦ key b = id x) = [] := filter_eq_nil fun b hb heq ↦ by
        obtain hb | ⟨z, hz, hb⟩ := h.owned b hb
        · exact hforeign (heq ▸ hb)
        · exact hnew z hz (hb ▸ heq)
      rw [hlog, filter_eq_self hbatch, hown, List.nil_append]
  owned b hb := by
    rcases List.mem_append.mp hb with hb | hb
    · obtain hb | ⟨z, hz, hb⟩ := h.owned b hb
      · exact .inl hb
      · exact .inr ⟨z, List.mem_append_left _ hz, hb⟩
    · exact .inr ⟨y, by simp, hbatch b hb⟩

/-- An entry changes and records messages. -/
theorem record (h : Attributed key id own foreign entries log) {r : Nat} {x x' : α}
    (hx : entries[r]? = some x) (hid : id x' = id x) (hown : own x' = own x ++ batch)
    (hbatch : ∀ b ∈ batch, key b = id x) :
    Attributed key id own foreign (entries.set r x') (log ++ batch) := by
  -- every entry of the new list has the key of the old entry at its place
  have hold : ∀ {i : Nat} {y : α}, (entries.set r x')[i]? = some y →
      ∃ z, entries[i]? = some z ∧ id y = id z ∧ (i = r ∧ y = x' ∧ z = x ∨ i ≠ r ∧ y = z) := by
    intro i y hy
    obtain ⟨rfl, rfl⟩ | ⟨hir, hy⟩ := Pool.of_set hy
    · exact ⟨x, hx, hid, .inl ⟨rfl, rfl, rfl⟩⟩
    · exact ⟨y, hy, rfl, .inr ⟨hir, rfl⟩⟩
  refine ⟨fun {i j y y'} hy hy' heq ↦ ?_, fun {i y} hy ↦ ?_, fun {i y} hy ↦ ?_, fun b hb ↦ ?_⟩
  · obtain ⟨z, hz, hyz, -⟩ := hold hy
    obtain ⟨z', hz', hyz', -⟩ := hold hy'
    exact h.distinct hz hz' (by rw [← hyz, ← hyz', heq])
  · obtain ⟨z, hz, hyz, -⟩ := hold hy
    exact hyz ▸ h.not_foreign hz
  · rw [List.filter_append]
    obtain ⟨z, hz, hyz, ⟨rfl, rfl, rfl⟩ | ⟨hir, rfl⟩⟩ := hold hy
    · rw [hid, h.own_eq hz, filter_eq_self hbatch, hown]
    · rw [h.own_eq hz, filter_eq_nil fun b hb heq ↦ ?_, List.append_nil]
      exact hir (h.distinct hz hx (by rw [← heq, hbatch b hb]))
  · have hset : x' ∈ entries.set r x' :=
      List.mem_set (List.getElem?_eq_some_iff.mp hx).1 _
    rcases List.mem_append.mp hb with hb | hb
    · obtain hb | ⟨z, hz, hb⟩ := h.owned b hb
      · exact .inl hb
      · obtain ⟨j, hj⟩ := List.mem_iff_getElem?.mp hz
        by_cases hjr : j = r
        · subst hjr
          cases hj.symm.trans hx
          exact .inr ⟨x', hset, hid ▸ hb⟩
        · exact .inr ⟨z, List.mem_of_getElem? (Pool.set_of_ne hj hjr x'), hb⟩
    · exact .inr ⟨x', hset, hid ▸ hbatch b hb⟩

/-- The channel itself has messages. -/
theorem skip (h : Attributed key id own foreign entries log)
    (hbatch : ∀ b ∈ batch, foreign (key b)) :
    Attributed key id own foreign entries (log ++ batch) where
  distinct := h.distinct
  not_foreign := h.not_foreign
  own_eq {i x} hx := by
    rw [List.filter_append, h.own_eq hx, filter_eq_nil fun b hb heq ↦ ?_, List.append_nil]
    exact h.not_foreign hx (heq ▸ hbatch b hb)
  owned b hb := by
    rcases List.mem_append.mp hb with hb | hb
    · exact h.owned b hb
    · exact .inl (hbatch b hb)

end Attributed

end Demux

/-! ## Consecutive numbers

A sender that gives each item the next number builds a numbered list (`Numbered.append`), and a
receiver that has taken the first `n` items of one in order finds the number `n + 1` on the next
(`Numbered.next`). -/

/-- The items carry the numbers `1, 2, 3, ...` in order. -/
def Numbered {α : Type u} (seq : α → Nat) (l : List α) : Prop := l.map seq = List.range' 1 l.length

namespace Numbered

variable {α : Type u} {seq : α → Nat} {l l' : List α} {a : α}

theorem nil : Numbered seq [] := rfl

theorem append (h : Numbered seq l) (ha : seq a = l.length + 1) : Numbered seq (l ++ [a]) := by
  rw [Numbered, List.map_append, h, List.length_append, List.length_singleton,
    List.range'_concat, List.map_singleton, ha, Nat.one_mul, Nat.add_comm 1]

theorem of_isPrefix (h : Numbered seq l) (hp : l' <+: l) : Numbered seq l' := by
  obtain ⟨rest, rfl⟩ := hp
  rw [Numbered, List.map_append, List.length_append, ← List.range'_append_1] at h
  exact (List.append_inj h (by simp)).1

/-- **The next item has the next number.** -/
theorem next (h : Numbered seq l) (hp : l' ++ [a] <+: l) : seq a = l'.length + 1 := by
  have hnum := h.of_isPrefix hp
  rw [Numbered, List.map_append, List.length_append, List.length_singleton,
    List.range'_concat] at hnum
  have hlast := (List.append_inj' hnum rfl).2
  rw [List.map_singleton, List.singleton_inj] at hlast
  omega

end Numbered
