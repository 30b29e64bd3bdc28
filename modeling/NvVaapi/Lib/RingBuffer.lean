import Mathlib.Data.List.Basic
import Mathlib.Tactic.SplitIfs
import Mathlib.Data.UInt

/-!
# Rings without a full check

A ring of `N` slots with a read and a write index that wrap on their own. Equal indices mean that
the ring is empty, so that `N - 1` entries fit, and `enqueue` does not look.

* `RingBuffer.pending`: the entries from the read index up to the write index.
* `pending_enqueue`, `pending_dequeue`: an entry is added at the end while there is room, and taken
  at the front while there is one.
* `pending_enqueue_full`: one entry too many makes the ring empty.
-/

/-- A ring of `N` slots. -/
structure RingBuffer (N : Nat) (α : Type*) where
  slots : Nat → α
  readIdx : Nat
  writeIdx : Nat
  read_lt : readIdx < N
  write_lt : writeIdx < N

namespace RingBuffer

variable {N : Nat} {α : Type*}

/-- The index after `i`. -/
def next (N i : Nat) : Nat := if i + 1 ≥ N then 0 else i + 1

theorem next_lt {i : Nat} (h : i < N) : next N i < N := by
  unfold next
  split <;> omega

/-- Equal indices: the ring counts as empty. -/
def IsEmpty (q : RingBuffer N α) : Prop := q.readIdx = q.writeIdx

instance (q : RingBuffer N α) : Decidable q.IsEmpty := inferInstanceAs (Decidable (_ = _))

/-- There is no room: one more entry would make the indices equal. -/
def IsFull (q : RingBuffer N α) : Prop := next N q.writeIdx = q.readIdx

instance (q : RingBuffer N α) : Decidable q.IsFull := inferInstanceAs (Decidable (_ = _))

/-- The number of entries between the indices. -/
def count (q : RingBuffer N α) : Nat :=
  if q.readIdx ≤ q.writeIdx then q.writeIdx - q.readIdx else N + q.writeIdx - q.readIdx

/-- The slot that is `i` behind the read index. -/
def slotAt (q : RingBuffer N α) (i : Nat) : Nat :=
  if q.readIdx + i < N then q.readIdx + i else q.readIdx + i - N

/-- The entries between the indices, the oldest first. -/
def pending (q : RingBuffer N α) : List α := (List.range q.count).map fun i => q.slots (q.slotAt i)

/-- Write `a` at the write index and advance it. -/
def enqueue (q : RingBuffer N α) (a : α) : RingBuffer N α :=
  { q with
    slots := fun i => if i = q.writeIdx then a else q.slots i
    writeIdx := next N q.writeIdx
    write_lt := next_lt q.write_lt }

/-- The entry at the read index. -/
def front (q : RingBuffer N α) : α := q.slots q.readIdx

/-- Advance the read index. -/
def dequeue (q : RingBuffer N α) : RingBuffer N α :=
  { q with readIdx := next N q.readIdx, read_lt := next_lt q.read_lt }

theorem count_lt (q : RingBuffer N α) : q.count < N := by
  have h₁ := q.read_lt
  have h₂ := q.write_lt
  unfold count
  split <;> omega

theorem isEmpty_iff (q : RingBuffer N α) : q.IsEmpty ↔ q.pending = [] := by
  have h₁ := q.read_lt
  have h₂ := q.write_lt
  rw [pending, List.map_eq_nil_iff, List.range_eq_nil, IsEmpty, count]
  split <;> omega

theorem count_enqueue (q : RingBuffer N α) (a : α) (h : ¬q.IsFull) :
    (q.enqueue a).count = q.count + 1 := by
  have h₁ := q.read_lt
  have h₂ := q.write_lt
  unfold IsFull next at h
  simp only [enqueue, count, next]
  split_ifs at h ⊢ <;> omega

/-- While there is room, an entry is added at the end. -/
theorem pending_enqueue (q : RingBuffer N α) (a : α) (h : ¬q.IsFull) :
    (q.enqueue a).pending = q.pending ++ [a] := by
  have h₁ := q.read_lt
  have h₂ := q.write_lt
  have hc := q.count_lt
  have hw : q.slotAt q.count = q.writeIdx := by
    unfold slotAt count
    split <;> split <;> omega
  have hne : ∀ i < q.count, q.slotAt i ≠ q.writeIdx := by
    intro i hi
    unfold count at hi
    unfold slotAt
    split at hi <;> split <;> omega
  rw [pending, count_enqueue q a h, List.range_succ, List.map_append, pending]
  congr 1
  · refine List.map_congr_left fun i hi => ?_
    exact if_neg (hne i (List.mem_range.mp hi))
  · exact congrArg (fun x => [x]) (if_pos hw)

/-- One entry too many makes the indices equal. -/
theorem pending_enqueue_full (q : RingBuffer N α) (a : α) (h : q.IsFull) :
    (q.enqueue a).pending = [] :=
  (isEmpty_iff _).mp h.symm

/-- While there is an entry, the oldest one is taken. -/
theorem pending_dequeue (q : RingBuffer N α) (h : ¬q.IsEmpty) :
    q.pending = q.front :: q.dequeue.pending := by
  have h₁ := q.read_lt
  have h₂ := q.write_lt
  have hc : q.count = q.dequeue.count + 1 := by
    unfold IsEmpty at h
    simp only [dequeue, count, next]
    split <;> split <;> split <;> omega
  have hat : ∀ i < q.dequeue.count, q.slotAt (i + 1) = q.dequeue.slotAt i := by
    intro i hi
    have hlt := q.dequeue.count_lt
    simp only [dequeue, slotAt, next]
    split <;> split <;> split <;> omega
  have h0 : q.slotAt 0 = q.readIdx := if_pos h₁
  rw [pending, hc, List.range_succ_eq_map, List.map_cons, List.map_map, h0, front, pending]
  congr 1
  refine List.map_congr_left fun i hi => ?_
  exact congrArg q.slots (hat i (List.mem_range.mp hi))

/-- A zeroed ring. -/
def zero (hN : 0 < N) (a : α) : RingBuffer N α := ⟨fun _ => a, 0, 0, hN, hN⟩

@[simp] theorem pending_zero (hN : 0 < N) (a : α) : (zero hN a).pending = [] := rfl

end RingBuffer
