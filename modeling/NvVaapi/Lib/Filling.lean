import NvVaapi.Lib.Block
import Mathlib.Data.List.Pairwise

/-!
# Filling blocks with pictures

* `Block.fillAll`: pictures that are copied to blocks, one after another. `Block.fillAll_inside`
  says what they can change.
* `Block.Apart`: two blocks have no byte in common.
* `Block.fillAll_at`: where this is so for all of them, each block ends up with its own picture.
-/

namespace Block

variable {b c : Block} {m : Nat → UInt8} {pix : Nat → Nat → UInt8}

def fillAll (parts : List (Block × (Nat → Nat → UInt8))) (m : Nat → UInt8) : Nat → UInt8 :=
  parts.foldl (fun m part => part.1.fill part.2 m) m

def Apart (b c : Block) : Prop := ∀ a, b.Covers a → ¬c.Covers a

theorem apart_of_inside {lo mid mid' hi : Nat} (hb : b.Inside lo mid) (hc : c.Inside mid' hi)
    (h : mid ≤ mid') : b.Apart c := by
  intro a hab hac
  have hbefore := (hb.of_covers hab).2
  have hbehind := (hc.of_covers hac).1
  omega

theorem fill_at (hw : b.width ≤ b.pitch) {r x : Nat} (hr : r < b.rows) (hx : x < b.width) :
    b.fill pix m (b.addr r x) = pix r x := by
  have haddr : b.addr r x = b.offset + (r * b.pitch + x) := Nat.add_assoc _ _ _
  have hbase : b.offset = b.offset + (0 * b.pitch + 0) := by simp
  have hrow : 0 + b.width ≤ b.pitch := by omega
  unfold fill
  rw [haddr, Plane.copyRows_at hbase hrow (by omega), if_pos (by omega), Nat.sub_zero, Nat.sub_zero]

theorem fillAll_of_not_covers {parts : List (Block × (Nat → Nat → UInt8))} {a : Nat}
    (h : ∀ part ∈ parts, ¬part.1.Covers a) : fillAll parts m a = m a := by
  unfold fillAll
  induction parts generalizing m with
  | nil => rfl
  | cons part parts ih =>
    rw [List.foldl_cons, ih fun q hq => h q (List.mem_cons_of_mem _ hq)]
    exact fill_of_not_covers (h part List.mem_cons_self)

/-- Copies to blocks that are inside a range change bytes of the range only. -/
theorem fillAll_inside {parts : List (Block × (Nat → Nat → UInt8))} {lo hi : Nat}
    (hin : ∀ part ∈ parts, part.1.Inside lo hi) {a : Nat} (ha : fillAll parts m a ≠ m a) :
    lo ≤ a ∧ a < hi := by
  by_contra hout
  refine ha (fillAll_of_not_covers fun part hpart hcov => ?_)
  exact hout ((hin part hpart).of_covers hcov)

theorem fillAll_at {parts : List (Block × (Nat → Nat → UInt8))}
    (h : parts.Pairwise fun p q => p.1.Apart q.1) {part : Block × (Nat → Nat → UInt8)}
    (hmem : part ∈ parts) (hw : part.1.width ≤ part.1.pitch) {r x : Nat} (hr : r < part.1.rows)
    (hx : x < part.1.width) : fillAll parts m (part.1.addr r x) = part.2 r x := by
  induction parts generalizing m with
  | nil => simp at hmem
  | cons first parts ih =>
    obtain ⟨hfirst, hrest⟩ := List.pairwise_cons.mp h
    obtain rfl | hmem := List.mem_cons.mp hmem
    · -- the blocks behind it do not touch it
      exact (fillAll_of_not_covers fun q hq =>
        hfirst q hq _ ⟨r, hr, x, hx, rfl⟩).trans (fill_at hw hr hx)
    · exact ih hrest hmem

end Block
