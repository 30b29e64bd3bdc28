import NvVaapi.Lib.Latest
import NvVaapi.Lib.TwoPlane
import Mathlib.Data.List.Induction

/-!
# Drawings

A drawing is made of copies of parts of other pictures, one over the other.

* `Stroke`: a part of each plane, with the picture that it is copied from.
* `Picture.draw`: a picture after some strokes.
* `draw_luma`, `draw_chroma`: a sample of a drawing is what the latest stroke over it gave.
-/

namespace PlaneCopy

variable {c : PlaneCopy} {dst src : Nat → Nat → UInt8} {r x : Nat}

/-- What is copied to a place, if anything is. -/
def sample (c : PlaneCopy) (src : Nat → Nat → UInt8) (r x : Nat) : Option UInt8 :=
  if c.Covers r x then some (src (c.srcY + (r - c.dstY)) (c.srcX + (x - c.dstX))) else none

theorem paste_eq_getD : c.paste dst src r x = (c.sample src r x).getD (dst r x) := by
  unfold paste sample
  split <;> rfl

/-- Only what is copied matters of the source. -/
theorem paste_congr_source {src' : Nat → Nat → UInt8}
    (h : ∀ i < c.rows, ∀ j < c.width,
      src (c.srcY + i) (c.srcX + j) = src' (c.srcY + i) (c.srcX + j)) :
    c.paste dst src = c.paste dst src' := by
  funext r x
  unfold paste
  split
  · next hc =>
    obtain ⟨hr, hr', hx, hx'⟩ := hc
    exact h _ (by omega) _ (by omega)
  · rfl

end PlaneCopy

structure Stroke where
  copies : PlaneCopy × PlaneCopy
  source : Picture

namespace Stroke

def luma (s : Stroke) (r x : Nat) : Option UInt8 := s.copies.1.sample s.source.luma r x

def chroma (s : Stroke) (r x : Nat) : Option UInt8 := s.copies.2.sample s.source.chroma r x

end Stroke

namespace Picture

variable {p q : Picture} {strokes : List Stroke}

def draw (p : Picture) (strokes : List Stroke) : Picture :=
  strokes.foldl (fun p s => p.paste s.source s.copies) p

@[simp] theorem draw_nil (p : Picture) : p.draw [] = p := rfl

@[simp] theorem draw_cons (p : Picture) (s : Stroke) (strokes : List Stroke) :
    p.draw (s :: strokes) = (p.paste s.source s.copies).draw strokes := rfl

theorem draw_concat (p : Picture) (strokes : List Stroke) (s : Stroke) :
    p.draw (strokes ++ [s]) = (p.draw strokes).paste s.source s.copies := by
  simp [draw]

/-- The latest stroke over a place of the luma plane decides what it shows. -/
theorem draw_luma (p : Picture) (strokes : List Stroke) (r x : Nat) :
    (p.draw strokes).luma r x = (latest (fun s => s.luma r x) strokes).getD (p.luma r x) := by
  induction strokes using List.reverseRecOn with
  | nil => rfl
  | append_singleton strokes s ih =>
    rw [draw_concat, latest_concat, Option.getD_or, ← ih]
    exact PlaneCopy.paste_eq_getD

theorem draw_chroma (p : Picture) (strokes : List Stroke) (r x : Nat) :
    (p.draw strokes).chroma r x = (latest (fun s => s.chroma r x) strokes).getD (p.chroma r x) := by
  induction strokes using List.reverseRecOn with
  | nil => rfl
  | append_singleton strokes s ih =>
    rw [draw_concat, latest_concat, Option.getD_or, ← ih]
    exact PlaneCopy.paste_eq_getD

end Picture
