import Mathlib.Order.Interval.Basic
import Mathlib.Order.Bounds.Basic
import Mathlib.Order.Lattice.Nat

/-!
# Boxes of pixels

A box has at least one pixel: its columns and its rows are intervals that are not empty. Boxes are
ordered by inclusion, so the least box around some boxes is their least upper bound.

* `Box.ofSize`: the box with a first column and row, a width and a height, which are not 0.
* `Box.ofSize_sup`: the least box around two boxes.
* `BoundingBox`: the least box around the boxes of a list. `boundingBox_concat` adds one box.
-/

/-- The columns and the rows. -/
abbrev Box := NonemptyInterval ℕ × NonemptyInterval ℕ

namespace Box

/-- The `length` positions from `start` on. There is one at least. -/
def span (start length : ℕ) : NonemptyInterval ℕ :=
  ⟨(start, start + (length - 1)), Nat.le_add_right _ _⟩

theorem span_sup {a m b n : ℕ} (hm : 0 < m) (hn : 0 < n) :
    span a m ⊔ span b n = span (min a b) (max (a + m) (b + n) - min a b) := by
  refine NonemptyInterval.ext (Prod.ext rfl ?_)
  show max (a + (m - 1)) (b + (n - 1)) = min a b + (max (a + m) (b + n) - min a b - 1)
  omega

def ofSize (x y width height : ℕ) : Box := ⟨span x width, span y height⟩

theorem ofSize_sup {x y w h x' y' w' h' : ℕ} (hw : 0 < w) (hh : 0 < h) (hw' : 0 < w')
    (hh' : 0 < h') :
    ofSize x y w h ⊔ ofSize x' y' w' h' =
      ofSize (min x x') (min y y') (max (x + w) (x' + w') - min x x')
        (max (y + h) (y' + h') - min y y') :=
  Prod.ext (span_sup hw hw') (span_sup hh hh')

end Box

/-- The least box around the boxes `bs`. -/
def BoundingBox (bs : List Box) (b : Box) : Prop := IsLUB {a | a ∈ bs} b

theorem boundingBox_singleton (b : Box) : BoundingBox [b] b := by
  have hset : {a | a ∈ [b]} = {b} := by
    ext a
    simp
  rw [BoundingBox, hset]
  exact isLUB_singleton

theorem boundingBox_concat {bs : List Box} {b : Box} (h : BoundingBox bs b) (a : Box) :
    BoundingBox (bs ++ [a]) (b ⊔ a) := by
  have hset : {c | c ∈ bs ++ [a]} = insert a {c | c ∈ bs} := by
    ext c
    simp [or_comm]
  rw [BoundingBox, hset, sup_comm]
  exact IsLUB.insert a h
