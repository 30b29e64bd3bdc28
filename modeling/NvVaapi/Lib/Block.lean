import NvVaapi.Lib.Plane

/-!
# Blocks of a byte memory

A block is rows of bytes, each a pitch behind the one before it.

* `Block.Inside`: every byte of the block is in a range. `Block.inside_of_last` is for the last row.
* `Block.Part`: a block with the same place and pitch, and with no more rows and columns. It is
  inside where the whole is (`Block.Inside.part`).
-/

/-- `rows` rows of `width` bytes, the first one at `offset`. -/
structure Block where
  offset : Nat
  pitch : Nat
  width : Nat
  rows : Nat
  deriving DecidableEq

namespace Block

variable (b : Block)

/-- The address of a byte, by row and column. -/
def addr (r x : Nat) : Nat := b.offset + r * b.pitch + x

/-- The address is one of a byte of the block. -/
def Covers (a : Nat) : Prop := ∃ r < b.rows, ∃ x < b.width, a = b.addr r x

/-- Every byte of the block is from `lo` on and before `hi`. -/
def Inside (lo hi : Nat) : Prop := ∀ r < b.rows, ∀ x < b.width, lo ≤ b.addr r x ∧ b.addr r x < hi

/-- Set the bytes of the block to those of a picture. -/
def fill (pix : Nat → Nat → UInt8) (m : Nat → UInt8) : Nat → UInt8 :=
  Plane.copyRows b.pitch b.offset pix b.width b.rows m

/-- `b` is the first columns of the first rows of `c`. -/
structure Part (b c : Block) : Prop where
  offset : b.offset = c.offset
  pitch : b.pitch = c.pitch
  width : b.width ≤ c.width
  rows : b.rows ≤ c.rows

variable {b} {c : Block} {m : Nat → UInt8} {lo hi lo' hi' : Nat}

/-- The last row is the one to look at. -/
theorem inside_of_last (hlo : lo ≤ b.offset)
    (hlast : 0 < b.rows → b.offset + ((b.rows - 1) * b.pitch + b.width) ≤ hi) : b.Inside lo hi := by
  intro r hr x hx
  have hle : r * b.pitch ≤ (b.rows - 1) * b.pitch := Nat.mul_le_mul_right _ (by omega)
  have := hlast (by omega)
  unfold addr
  omega

theorem Inside.mono (h : b.Inside lo hi) (hlo : lo' ≤ lo) (hhi : hi ≤ hi') : b.Inside lo' hi' :=
  fun r hr x hx => ⟨Nat.le_trans hlo (h r hr x hx).1, Nat.lt_of_lt_of_le (h r hr x hx).2 hhi⟩

theorem Inside.part (h : c.Inside lo hi) (hp : b.Part c) : b.Inside lo hi := by
  intro r hr x hx
  have haddr : b.addr r x = c.addr r x := by rw [addr, addr, hp.offset, hp.pitch]
  rw [haddr]
  exact h r (Nat.lt_of_lt_of_le hr hp.rows) x (Nat.lt_of_lt_of_le hx hp.width)

theorem Inside.of_covers (h : b.Inside lo hi) {a : Nat} (ha : b.Covers a) : lo ≤ a ∧ a < hi := by
  obtain ⟨r, hr, x, hx, rfl⟩ := ha
  exact h r hr x hx

theorem fill_of_not_covers {pix : Nat → Nat → UInt8} {a : Nat} (ha : ¬b.Covers a) :
    b.fill pix m a = m a := by
  obtain heq | ⟨r, hr, x, hx, haddr, -⟩ : b.fill pix m a = m a ∨ _ := Plane.copyRows_cases a
  · exact heq
  · exact absurd ⟨r, hr, x, hx, haddr⟩ ha

end Block
