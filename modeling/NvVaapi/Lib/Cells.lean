import Mathlib.Data.List.Basic

/-!
# Blocks of allocated cells

A block is the list of its cells. An access behind its end has no result.

* `alloc fresh n`: a block of `n` cells, with whatever is in them.
* `resize fresh cells n`: the block that a reallocation makes of another one.
* `read`, `write`, `store`: the accesses. `write_spec`, `write_alloc`, `write_resize` and
  `store_append` say what they leave.
-/

namespace Cells

variable {α : Type*}

def alloc (fresh : Nat → α) (n : Nat) : List α := (List.range n).map fresh

/-- The cells that both blocks have stay, and there is something in the others. -/
def resize (fresh : Nat → α) (cells : List α) (n : Nat) : List α :=
  cells.take n ++ (alloc fresh n).drop cells.length

/-- The `n` cells from `off` on. -/
def read (cells : List α) (off n : Nat) : Option (List α) :=
  if off + n ≤ cells.length then some ((cells.drop off).take n) else none

/-- The block after a copy of `src` to `off`. -/
def write (cells : List α) (off : Nat) (src : List α) : Option (List α) :=
  if off + src.length ≤ cells.length then some
    (cells.take off ++ src ++ cells.drop (off + src.length)) else none

def store (cells : List α) (i : Nat) (x : α) : Option (List α) :=
  if i < cells.length then some (cells.set i x) else none

variable {fresh : Nat → α} {cells src : List α} {off n : Nat} {x : α}

@[simp] theorem length_alloc (fresh : Nat → α) (n : Nat) : (alloc fresh n).length = n := by
  simp [alloc]

@[simp] theorem length_resize (fresh : Nat → α) (cells : List α) (n : Nat) :
    (resize fresh cells n).length = n := by
  simp only [resize, List.length_append, List.length_take, List.length_drop, length_alloc]
  omega

theorem read_front (h : n ≤ cells.length) : read cells 0 n = some (cells.take n) := by
  rw [read, if_pos (by omega), List.drop_zero]

theorem read_all (src : List α) : read src 0 src.length = some src := by
  rw [read_front (Nat.le_refl _), List.take_length]

/-- A copy that fits keeps the cells before it. -/
theorem write_spec (h : off + src.length ≤ cells.length) :
    ∃ cells', write cells off src = some cells' ∧ cells'.length = cells.length ∧
      cells'.take (off + src.length) = cells.take off ++ src := by
  refine ⟨_, if_pos h, ?_, ?_⟩
  · simp only [List.length_append, List.length_take, List.length_drop]
    omega
  · apply List.take_left'
    simp only [List.length_append, List.length_take]
    omega

/-- A copy to the front of a new block. -/
theorem write_alloc (fresh : Nat → α) (h : src.length ≤ n) :
    ∃ cells, write (alloc fresh n) 0 src = some cells ∧ cells.length = n ∧
      cells.take src.length = src := by
  have hfit : 0 + src.length ≤ (alloc fresh n).length := by
    rw [length_alloc]
    omega
  obtain ⟨cells, hw, hlen, htake⟩ := write_spec hfit
  refine ⟨cells, hw, hlen.trans (length_alloc fresh n), ?_⟩
  rwa [Nat.zero_add, List.take_zero, List.nil_append] at htake

/-- Setting the cells that a reallocation adds. -/
theorem write_resize (fresh : Nat → α) (h : cells.length + src.length = n) :
    write (resize fresh cells n) cells.length src = some (cells ++ src) := by
  rw [write, length_resize, if_pos (by omega),
    List.drop_of_length_le (by rw [length_resize]; omega),
    List.append_nil, resize, List.take_of_length_le (show cells.length ≤ n by omega),
      List.take_left]

/-- Setting the first cell behind a prefix. -/
theorem store_append (cells : List α) (y x : α) (rest : List α) :
    store (cells ++ y :: rest) cells.length x = some (cells ++ x :: rest) := by
  rw [store, if_pos (by simp), List.set_append_right _ _ (Nat.le_refl _), Nat.sub_self,
    List.set_cons_zero]

end Cells
