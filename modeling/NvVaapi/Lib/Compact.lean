import Mathlib.Logic.Function.Basic

/-!
# Removing items from an array in place

* `Compact.items`: the items that are in use of an array.
* `Compact.shiftDown`: the loop that closes a gap.
* `Compact.compact`: the walk that removes every item that is not kept, and looks at the place again
  where it closed a gap.
* `items_compact`: it leaves the items that are kept, in their order.
-/

namespace Compact

variable {α : Type}

/-- The first `n` items. -/
def items (a : Nat → α) (n : Nat) : List α := (List.range n).map a

/-- The `k` items behind `i` move one place to the front. -/
def shiftDown (a : Nat → α) (i : Nat) : Nat → Nat → α
  | 0 => a
  | k + 1 => shiftDown (Function.update a i (a (i + 1))) (i + 1) k

/-- The turns that are left of the walk, from the item `i` on. -/
def compactTurns (keep : α → Bool) : (turns : Nat) → (Nat → α) → (n i : Nat) → (Nat → α) × Nat
  | 0, a, n, _ => (a, n)
  | turns + 1, a, n, i =>
    if keep (a i) then compactTurns keep turns a n (i + 1)
    else compactTurns keep turns (shiftDown a i (n - 1 - i)) (n - 1) i

def compact (keep : α → Bool) (a : Nat → α) (n : Nat) : (Nat → α) × Nat := compactTurns keep n a n 0

variable {a b : Nat → α} {n i : Nat}

@[simp] theorem length_items : (items a n).length = n := by
  simp [items]

theorem items_getElem? {j : Nat} : (items a n)[j]? = if j < n then some (a j) else none := by
  rw [items, List.getElem?_map]
  split
  · next h => rw [List.getElem?_range h, Option.map_some]
  · next h => rw [List.getElem?_eq_none (by simpa using h), Option.map_none]

theorem items_succ : items a (n + 1) = items a n ++ [a n] := by
  simp [items, List.range_succ]

theorem items_congr (h : ∀ j < n, a j = b j) : items a n = items b n :=
  List.map_congr_left fun j hj => h j (List.mem_range.mp hj)

theorem items_update {x : α} : items (Function.update a n x) (n + 1) = items a n ++ [x] := by
  rw [items_succ, Function.update_self]
  congr 1
  refine items_congr fun j hj => ?_
  rw [Function.update_of_ne (by omega)]

theorem shiftDown_apply {k j : Nat} :
    shiftDown a i k j = if i ≤ j ∧ j < i + k then a (j + 1) else a j := by
  induction k generalizing a i with
  | zero => rw [shiftDown, if_neg (by omega)]
  | succ k ih =>
    rw [shiftDown, ih]
    rcases Nat.lt_trichotomy j i with hj | rfl | hj
    · rw [if_neg (by omega), if_neg (by omega), Function.update_of_ne (by omega)]
    · rw [if_neg (by omega), if_pos (by omega), Function.update_self]
    · rw [Function.update_of_ne (by omega), Function.update_of_ne (by omega)]
      exact if_congr (by omega) rfl rfl

/-- What is behind the gap that is closed is what was behind the item. -/
theorem drop_shiftDown (h : i < n) :
    (items (shiftDown a i (n - 1 - i)) (n - 1)).drop i = (items a n).drop (i + 1) := by
  refine List.ext_getElem? fun j => ?_
  rw [List.getElem?_drop, List.getElem?_drop, items_getElem?, items_getElem?, shiftDown_apply]
  by_cases hj : i + j < n - 1
  · rw [if_pos hj, if_pos (by omega), if_pos (by omega), Nat.add_right_comm]
  · rw [if_neg hj, if_neg (by omega)]

theorem drop_items (h : i < n) : (items a n).drop i = a i :: (items a n).drop (i + 1) := by
  rw [List.drop_eq_getElem_cons (by simpa using h)]
  simp [items]

theorem items_compactTurns (keep : α → Bool) {turns : Nat} (h : i + turns = n) :
    items (compactTurns keep turns a n i).1 (compactTurns keep turns a n i).2 =
      items a i ++ ((items a n).drop i).filter keep := by
  induction turns generalizing a n i with
  | zero =>
    obtain rfl : i = n := by omega
    rw [List.drop_eq_nil_of_le (by simp)]
    simp [compactTurns]
  | succ turns ih =>
    rw [drop_items (by omega), compactTurns]
    cases hk : keep (a i) with
    | true =>
      rw [if_pos rfl, ih (by omega), items_succ, List.filter_cons_of_pos hk, List.append_assoc]
      rfl
    | false =>
      have hbefore : items (shiftDown a i (n - 1 - i)) i = items a i := by
        refine items_congr fun j hj => ?_
        rw [shiftDown_apply, if_neg (by omega)]
      rw [if_neg (by simp), ih (by omega), hbefore, drop_shiftDown (by omega),
        List.filter_cons_of_neg (by simp [hk])]

/-- The walk leaves the items that are kept, in their order. -/
theorem items_compact (keep : α → Bool) (a : Nat → α) (n : Nat) :
    items (compact keep a n).1 (compact keep a n).2 = (items a n).filter keep := by
  rw [compact, items_compactTurns keep (Nat.zero_add n)]
  rfl

end Compact
