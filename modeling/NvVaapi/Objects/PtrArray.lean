import Mathlib.Data.List.InsertIdx
import Mathlib.Data.UInt

/-!
# The pointer array of `list.c`

* `PtrArray`: a buffer of slots, the first `size` of them in use, the others NULL.
* `addElement`, `removeElementAt`: the two operations, with the growth of the buffer and the loop
  that closes a gap.
* `toList`: the pointers in use. An operation does to it what it does to a list.

`realloc` does not fail here. A growth loop that does not end has no result.
-/

namespace NvVaapi

/-- `Array`. The slots in use come first, and a slot that is not in use is NULL. -/
structure PtrArray (α : Type) where
  buf : List (Option α)
  size : UInt32
  capacity : UInt32
  holds : ∃ l : List α, l.length = size.toNat ∧ size.toNat ≤ capacity.toNat ∧
    buf = l.map some ++ List.replicate (capacity.toNat - size.toNat) none
  /-- Half of the capacity is something to add. -/
  grows : capacity = 0 ∨ 2 ≤ capacity.toNat

namespace PtrArray

variable {α : Type}

/-- The array that `calloc` leaves. -/
def empty : PtrArray α := ⟨[], 0, 0, ⟨[], rfl, Nat.le_refl _, rfl⟩, .inl rfl⟩

/-- The pointers in use. -/
def toList (a : PtrArray α) : List α := a.buf.filterMap id

theorem filterMap_shape (l : List α) (n : Nat) :
    (l.map some ++ List.replicate n none).filterMap id = l := by
  rw [List.filterMap_append, List.filterMap_map, List.filterMap_replicate_of_none rfl,
    List.append_nil]
  exact List.filterMap_some

theorem buf_eq (a : PtrArray α) :
    a.buf = a.toList.map some ++ List.replicate (a.capacity.toNat - a.size.toNat) none := by
  obtain ⟨l, -, -, h⟩ := a.holds
  rw [toList, h, filterMap_shape]

@[simp] theorem length_toList (a : PtrArray α) : a.toList.length = a.size.toNat := by
  obtain ⟨l, hl, -, h⟩ := a.holds
  rw [toList, h, filterMap_shape, hl]

theorem size_le (a : PtrArray α) : a.size.toNat ≤ a.capacity.toNat := by
  obtain ⟨l, -, h, -⟩ := a.holds
  exact h

/-- `(A)->buf[idx]`, below `size`. -/
def get? (a : PtrArray α) (idx : Nat) : Option α :=
  if idx < a.size.toNat then (a.buf[idx]?).join else none

theorem get?_eq (a : PtrArray α) (idx : Nat) : a.get? idx = a.toList[idx]? := by
  unfold get?
  split
  case isTrue h =>
    rw [buf_eq, List.getElem?_append_left (by simpa using h), List.getElem?_map]
    cases a.toList[idx]? <;> rfl
  case isFalse h =>
    rw [List.getElem?_eq_none]
    simpa using h

/-! ## Growth -/

/-- `while (new_capacity > capacity) capacity += capacity >> 1`, for `fuel` tests. There are no more
capacities than `2 ^ 32`, so a loop that needs more tests does not end. -/
def growCapacity (newCapacity : UInt32) : Nat → UInt32 → Option UInt32
  | 0, _ => none
  | fuel + 1, capacity =>
    if newCapacity > capacity then growCapacity newCapacity fuel (capacity + capacity >>> 1)
    else some capacity

/-- The capacity that `ensure_capacity` chooses when there is not enough of it. -/
def grownCapacity (capacity newCapacity : UInt32) : Option UInt32 :=
  if capacity = 0 then some 16 else growCapacity newCapacity (2 ^ 32) capacity

theorem growCapacity_le {n : UInt32} {fuel : Nat} {c c' : UInt32}
    (h : growCapacity n fuel c = some c') : n.toNat ≤ c'.toNat := by
  induction fuel generalizing c with
  | zero => cases h
  | succ fuel ih =>
    unfold growCapacity at h
    split at h
    case isTrue => exact ih h
    case isFalse hn =>
      cases h
      exact UInt32.le_iff_toNat_le.mp (UInt32.not_lt.mp hn)

theorem le_grownCapacity {c n c' : UInt32} (h : grownCapacity c n = some c') (hn : ¬n ≤ c)
    (hg : c = 0 ∨ 2 ≤ c.toNat) : c.toNat ≤ c'.toNat ∧ 2 ≤ c'.toNat := by
  unfold grownCapacity at h
  split at h
  case isTrue h0 =>
    cases h
    exact ⟨by simp [h0], by decide⟩
  case isFalse h0 =>
    have := hg.resolve_left h0
    have := growCapacity_le h
    have := UInt32.lt_iff_toNat_lt.mp (UInt32.not_le.mp hn)
    omega

def ensureCapacity (a : PtrArray α) (newCapacity : UInt32) : Option (PtrArray α) :=
  if hn : newCapacity ≤ a.capacity then some a
  else
    match hg : grownCapacity a.capacity newCapacity with
    | none => none
    | some capacity => some {
      buf := a.buf ++ List.replicate (capacity.toNat - a.capacity.toNat) none
      size := a.size
      capacity
      holds := by
        have hle := (le_grownCapacity hg hn a.grows).1
        have := a.size_le
        refine ⟨a.toList, a.length_toList, by omega, ?_⟩
        rw [buf_eq, List.append_assoc, List.replicate_append_replicate]
        congr 2
        omega
      grows := .inr (le_grownCapacity hg hn a.grows).2 }

theorem ensureCapacity_some {a a' : PtrArray α} {n : UInt32} (h : a.ensureCapacity n = some a') :
    a'.toList = a.toList ∧ a'.size = a.size := by
  unfold ensureCapacity at h
  split at h
  case isTrue =>
    cases h
    exact ⟨rfl, rfl⟩
  case isFalse =>
    split at h
    · cases h
    · cases h
      refine ⟨?_, rfl⟩
      show (a.buf ++ _).filterMap id = _
      rw [List.filterMap_append, List.filterMap_replicate_of_none rfl, List.append_nil]
      rfl

/-! ## Adding -/

/-- `add_element`. Without room for the slot it would write behind the buffer. -/
def addElement (a : PtrArray α) (x : α) : Option (PtrArray α) :=
  match a.ensureCapacity (a.size + 1) with
  | none => none
  | some a =>
    if h : a.size.toNat < a.capacity.toNat then
      some {
        buf := a.buf.set a.size.toNat (some x)
        size := a.size + 1
        capacity := a.capacity
        holds := by
          have hc := a.capacity.toNat_lt
          have hs : (a.size + 1).toNat = a.size.toNat + 1 := by
            simp only [UInt32.toNat_add, UInt32.reduceToNat]
            omega
          refine ⟨a.toList ++ [x], by simp [hs], by omega, ?_⟩
          rw [buf_eq, List.set_append_right _ _ (by simp), hs,
            show a.capacity.toNat - a.size.toNat =
                a.capacity.toNat - (a.size.toNat + 1) + 1 by omega,
            List.replicate_succ]
          simp
        grows := a.grows }
    else none

theorem addElement_toList {a a' : PtrArray α} {x : α} (h : a.addElement x = some a') :
    a'.toList = a.toList ++ [x] := by
  unfold addElement at h
  split at h
  · cases h
  case h_2 a₁ h₁ =>
    split at h
    case isTrue hc =>
      cases h
      rw [← (ensureCapacity_some h₁).1]
      show (a₁.buf.set _ _).filterMap id = _
      rw [a₁.buf_eq, List.set_append_right _ _ (by simp), List.length_map, length_toList,
        Nat.sub_self, show a₁.capacity.toNat - a₁.size.toNat =
          a₁.capacity.toNat - (a₁.size.toNat + 1) + 1 by omega, List.replicate_succ,
            List.set_cons_zero,
        List.append_cons, ← List.map_singleton (f := some), ← List.map_append, filterMap_shape]
    case isFalse => cases h

/-- What is left of the array that has room for the element. -/
theorem addElement_some {a a' : PtrArray α} {x : α} (h : a.addElement x = some a') :
    ∃ a₁, a.ensureCapacity (a.size + 1) = some a₁ ∧ a₁.size.toNat < a₁.capacity.toNat ∧
      a'.size = a₁.size + 1 ∧
      a'.capacity = a₁.capacity := by
  unfold addElement at h
  split at h
  · cases h
  case h_2 a₁ h₁ =>
    split at h
    case isTrue hc =>
      cases h
      exact ⟨a₁, h₁, hc, rfl, rfl⟩
    case isFalse => cases h

/-! ## Removing -/

/-- `for (uint32_t i = index; i < size; i++) buf[i] = buf[i+1]`, for `n` rounds. -/
def shiftDown (buf : List (Option α)) (i : Nat) : Nat → List (Option α)
  | 0 => buf
  | n + 1 => shiftDown (buf.set i (buf[i + 1]?).join) (i + 1) n

theorem shiftDown_getElem? (buf : List (Option α)) (i n j : Nat) (h : i + n < buf.length) :
    (shiftDown buf i n)[j]? = if i ≤ j ∧ j < i + n then buf[j + 1]? else buf[j]? := by
  induction n generalizing buf i with
  | zero =>
    rw [if_neg (by omega)]
    rfl
  | succ n ih =>
    rw [shiftDown, ih _ _ (by simp only [List.length_set]; omega)]
    have hv : ((buf[i + 1]?).join : Option α) = buf[i + 1] := by
      rw [List.getElem?_eq_getElem (by omega)]
      rfl
    rcases Nat.lt_trichotomy j i with hj | rfl | hj
    · rw [if_neg (by omega), if_neg (by omega), List.getElem?_set_ne (by omega)]
    · rw [if_neg (by omega), if_pos (by omega), List.getElem?_set_self (by omega), hv,
        List.getElem?_eq_getElem (by omega)]
    · rw [List.getElem?_set_ne (by omega), List.getElem?_set_ne (by omega)]
      exact if_congr (by omega) rfl rfl

theorem length_shiftDown (buf : List (Option α)) (i n : Nat) :
    (shiftDown buf i n).length = buf.length := by
  induction n generalizing buf i with
  | zero => rfl
  | succ n ih => rw [shiftDown, ih, List.length_set]

/-- Closing the gap at `i` and clearing the last slot leaves the slots without the slot `i`. -/
theorem shiftDown_set_slots (l : List (Option α)) (i k : Nat) (hi : i < l.length) :
    (shiftDown (l ++ List.replicate k none) i (l.length - 1 - i)).set (l.length - 1) none =
      l.eraseIdx i ++ List.replicate (k + 1) none := by
  refine List.ext_getElem? fun j => ?_
  have hlen := List.length_eraseIdx_of_lt hi
  by_cases hj : j = l.length - 1
  · subst hj
    rw [List.getElem?_set_self (by simp only [length_shiftDown, List.length_append]; omega),
      List.getElem?_append_right (by omega), hlen, Nat.sub_self]
    rfl
  · rw [List.getElem?_set_ne (Ne.symm hj),
      shiftDown_getElem? _ _ _ _ (by rw [List.length_append]; omega)]
    rcases Nat.lt_or_ge j (l.length - 1) with hlt | hge
    · rw [List.getElem?_append_left (show j < (l.eraseIdx i).length by omega),
        List.getElem?_eraseIdx]
      by_cases hji : j < i
      · rw [if_neg (by omega), if_pos hji, List.getElem?_append_left (by omega)]
      · rw [if_pos (by omega), if_neg hji, List.getElem?_append_left (by omega)]
    · rw [if_neg (by omega), List.getElem?_append_right (by omega),
        List.getElem?_append_right (by omega), hlen,
        show j - (l.length - 1) = j - l.length + 1 by omega, List.replicate_succ,
            List.getElem?_cons_succ]

/-- The same for a list of elements. -/
theorem shiftDown_set (l : List α) (i k : Nat) (hi : i < l.length) :
    (shiftDown (l.map some ++ List.replicate k none) i (l.length - 1 - i)).set (l.length - 1) none =
      (l.eraseIdx i).map some ++ List.replicate (k + 1) none := by
  have hslots := shiftDown_set_slots (l.map some) i k (by rwa [List.length_map])
  rwa [List.length_map, List.eraseIdx_map] at hslots

def removeElementAt (a : PtrArray α) (index : Nat) : PtrArray α :=
  if h : index ≥ a.size.toNat then a
  else {
    buf := (shiftDown a.buf index ((a.size - 1).toNat - index)).set (a.size - 1).toNat none
    size := a.size - 1
    capacity := a.capacity
    holds := by
      have hle := a.size_le
      have hs : (a.size - 1).toNat = a.toList.length - 1 := by
        rw [length_toList, UInt32.toNat_sub_of_le _ _ (UInt32.le_iff_toNat_le.mpr (by simp; omega))]
        rfl
      refine ⟨a.toList.eraseIdx index, ?_, ?_, ?_⟩
      · rw [hs, List.length_eraseIdx_of_lt (by simpa using h)]
      · simp only [hs, length_toList]
        omega
      · rw [hs, a.buf_eq, shiftDown_set _ _ _ (by simpa using h), length_toList]
        congr 2
        omega
    grows := a.grows }

theorem removeElementAt_of_le {a : PtrArray α} {index : Nat} (h : a.size.toNat ≤ index) :
    a.removeElementAt index = a := dif_pos h

theorem removeElementAt_of_lt {a : PtrArray α} {index : Nat} (h : index < a.size.toNat) :
    (a.removeElementAt index).size = a.size - 1 ∧
      (a.removeElementAt index).capacity = a.capacity := by
  unfold removeElementAt
  rw [dif_neg (by omega)]
  exact ⟨rfl, rfl⟩

/-- `remove_element_at` erases from the list. -/
theorem removeElementAt_toList (a : PtrArray α) (index : Nat) :
    (a.removeElementAt index).toList = a.toList.eraseIdx index := by
  unfold removeElementAt
  split
  case isTrue h => rw [List.eraseIdx_of_length_le (by simpa using h)]
  case isFalse h =>
    have hs : (a.size - 1).toNat = a.toList.length - 1 := by
      rw [length_toList, UInt32.toNat_sub_of_le _ _ (UInt32.le_iff_toNat_le.mpr (by simp; omega))]
      rfl
    show ((shiftDown a.buf _ _).set _ _).filterMap id = _
    rw [hs, a.buf_eq, shiftDown_set _ _ _ (by simpa using h), filterMap_shape]

/-! ## Termination of the growth -/

/-- Up to `2 ^ 31` slots the capacity does not wrap, and every round adds to it. -/
theorem growCapacity_isSome {n : UInt32} (hn : n.toNat ≤ 2 ^ 31) (fuel : Nat) {c : UInt32}
    (hc : 2 ≤ c.toNat) (hf : n.toNat ≤ c.toNat + fuel) : (growCapacity n (fuel + 1) c).isSome := by
  induction fuel generalizing c with
  | zero =>
    rw [growCapacity, if_neg (UInt32.not_lt.mpr (UInt32.le_iff_toNat_le.mpr (by omega)))]
    rfl
  | succ fuel ih =>
    unfold growCapacity
    split
    case isTrue hlt =>
      have hlt := UInt32.lt_iff_toNat_lt.mp hlt
      have hs : (c + c >>> 1).toNat = c.toNat + c.toNat / 2 := by
        have : (c >>> 1).toNat = c.toNat / 2 := by
          rw [UInt32.toNat_shiftRight, Nat.shiftRight_eq_div_pow]
          rfl
        rw [UInt32.toNat_add, this]
        omega
      exact ih (by omega) (by omega)
    case isFalse => rfl

/-- There is room for a slot more while there are fewer than `2 ^ 31`. -/
theorem ensureCapacity_isSome (a : PtrArray α) (hs : a.size.toNat < 2 ^ 31) :
    ∃ a', a.ensureCapacity (a.size + 1) = some a' ∧ a'.size.toNat < a'.capacity.toNat := by
  have hs1 : (a.size + 1).toNat = a.size.toNat + 1 := by
    simp only [UInt32.toNat_add, UInt32.reduceToNat]
    omega
  have hle := a.size_le
  unfold ensureCapacity
  split
  case isTrue hn =>
    have := UInt32.le_iff_toNat_le.mp hn
    exact ⟨a, rfl, by omega⟩
  case isFalse hn =>
    obtain ⟨c, hg, hc⟩ : ∃ c, grownCapacity a.capacity (a.size + 1) = some c ∧
        a.size.toNat < c.toNat := by
      unfold grownCapacity
      split
      case isTrue h0 =>
        refine ⟨16, rfl, ?_⟩
        simp only [h0, UInt32.toNat_zero, Nat.le_zero] at hle
        simp [hle]
      case isFalse h0 =>
        have hg : (growCapacity (a.size + 1) (2 ^ 32) a.capacity).isSome :=
          growCapacity_isSome (by omega) (2 ^ 32 - 1) (a.grows.resolve_left h0) (by omega)
        obtain ⟨c, hg⟩ := Option.isSome_iff_exists.mp hg
        have := growCapacity_le hg
        exact ⟨c, hg, by omega⟩
    split
    case h_1 h => rw [hg] at h; cases h
    case h_2 c' h =>
      rw [hg] at h
      cases h
      exact ⟨_, rfl, hc⟩

/-- An element is added while there are fewer than `2 ^ 31`. -/
theorem addElement_isSome (a : PtrArray α) (x : α) (hs : a.size.toNat < 2 ^ 31) :
    (a.addElement x).isSome := by
  obtain ⟨a', ha', hcap⟩ := a.ensureCapacity_isSome hs
  unfold addElement
  simp only [ha', dif_pos hcap]
  rfl

end PtrArray

end NvVaapi
