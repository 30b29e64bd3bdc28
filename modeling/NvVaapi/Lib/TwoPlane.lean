import NvVaapi.Lib.Plane

/-!
# Pictures of two planes

A picture has a luma plane and a chroma plane with half the rows, whose rows are as long.

* `PlaneCopy`: a part of a plane that is copied. `PlaneCopy.paste` is the plane after it.
* `PlaneCopy.run`: the loop that copies the part row by row, which is a `paste` (`run_at`).
* `TwoPlane`: where the planes of a picture are in a memory. `TwoPlane.picture` is the picture that
  a memory holds.
* `TwoPlane.copy`: the copies of both planes. Where the memory has room for the planes, each is a
  `paste` (`copy_luma`, `copy_chroma`).
* `TwoPlane.rect`: the copies of a rectangle with even sides. `sameRect_copy` and `sameOutside_copy`
  are what they leave inside and outside of it.
-/

/-- The bytes of a picture, by row and column. -/
structure Picture where
  luma : Nat → Nat → UInt8
  chroma : Nat → Nat → UInt8

/-- `rows` rows of `width` bytes, from a place in one plane to a place in another. -/
structure PlaneCopy where
  srcX : Nat
  srcY : Nat
  dstX : Nat
  dstY : Nat
  width : Nat
  rows : Nat
  deriving DecidableEq

namespace PlaneCopy

variable (c : PlaneCopy)

/-- The place is written. -/
def Covers (r x : Nat) : Prop :=
  c.dstY ≤ r ∧ r < c.dstY + c.rows ∧ c.dstX ≤ x ∧ x < c.dstX + c.width

instance (r x : Nat) : Decidable (c.Covers r x) := inferInstanceAs (Decidable (_ ∧ _ ∧ _ ∧ _))

/-- What a plane is after the copy. -/
def paste (dst src : Nat → Nat → UInt8) : Nat → Nat → UInt8 := fun r x =>
  if c.Covers r x then src (c.srcY + (r - c.dstY)) (c.srcX + (x - c.dstX)) else dst r x

theorem paste_of_lt {c : PlaneCopy} {dst src : Nat → Nat → UInt8} {r x : Nat} (hr : r < c.rows)
    (hx : x < c.width) :
    c.paste dst src (c.dstY + r) (c.dstX + x) = src (c.srcY + r) (c.srcX + x) := by
  rw [paste, if_pos ⟨by omega, by omega, by omega, by omega⟩, Nat.add_sub_cancel_left,
    Nat.add_sub_cancel_left]

theorem paste_of_not_covers {c : PlaneCopy} {dst src : Nat → Nat → UInt8} {r x : Nat}
    (h : ¬c.Covers r x) : c.paste dst src r x = dst r x := if_neg h

theorem paste_congr {c : PlaneCopy} {dst dst' src : Nat → Nat → UInt8} {r x : Nat}
    (h : dst r x = dst' r x) : c.paste dst src r x = c.paste dst' src r x := by
  unfold paste
  rw [h]

/-- The loop that copies the rows, between planes with these offsets and pitches. -/
def run (dstOffset dstPitch srcOffset srcPitch : Nat) (src dst : Nat → UInt8) : Nat → UInt8 :=
  Plane.memcpyRows dstPitch (dstOffset + c.dstY * dstPitch + c.dstX) src srcPitch
    (srcOffset + c.srcY * srcPitch + c.srcX) c.width c.rows dst

variable {c} {dstOffset dstPitch srcOffset srcPitch : Nat} {src dst : Nat → UInt8}

theorem run_eq : c.run dstOffset dstPitch srcOffset srcPitch src dst =
    Plane.copyRows dstPitch (dstOffset + (c.dstY * dstPitch + c.dstX))
      (fun r x => src (srcOffset + ((c.srcY + r) * srcPitch + (c.srcX + x)))) c.width
        c.rows dst := by
  have haddr (r x : Nat) : srcOffset + c.srcY * srcPitch + c.srcX + r * srcPitch + x =
      srcOffset + ((c.srcY + r) * srcPitch + (c.srcX + x)) := by
    rw [Nat.add_mul]
    omega
  rw [run, Plane.memcpyRows_eq, Nat.add_assoc dstOffset]
  simp only [haddr]

theorem run_at (hw : c.dstX + c.width ≤ dstPitch) {r x : Nat} (hx : x < dstPitch) :
    c.run dstOffset dstPitch srcOffset srcPitch src dst (dstOffset + (r * dstPitch + x)) =
      c.paste (fun r x => dst (dstOffset + (r * dstPitch + x)))
        (fun r x => src (srcOffset + (r * srcPitch + x))) r x := by
  rw [run_eq, Plane.copyRows_at rfl hw hx]
  rfl

theorem run_of_not_covers (hw : c.dstX + c.width ≤ dstPitch) {a r x : Nat} (hx : x < dstPitch)
    (ha : a = dstOffset + (r * dstPitch + x)) (hno : ¬c.Covers r x) :
    c.run dstOffset dstPitch srcOffset srcPitch src dst a = dst a := by
  subst ha
  exact (run_at hw hx).trans (paste_of_not_covers hno)

theorem run_before {a : Nat} (h : a < dstOffset) :
    c.run dstOffset dstPitch srcOffset srcPitch src dst a = dst a := by
  rw [run_eq]
  exact Plane.copyRows_before (by omega)

theorem run_behind (hw : c.dstX + c.width ≤ dstPitch) {a : Nat}
    (ha : dstOffset + (c.dstY + c.rows) * dstPitch ≤ a) :
    c.run dstOffset dstPitch srcOffset srcPitch src dst a = dst a := by
  rw [run_eq]
  exact Plane.copyRows_behind rfl hw ha

/-- The copy writes inside a picture of `w` columns and `h` rows. -/
def WritesInside (c : PlaneCopy) (w h : Nat) : Prop := c.dstX + c.width ≤ w ∧ c.dstY + c.rows ≤ h

/-- Every byte that is copied is inside the source's plane and inside the destination's. -/
def Inside (c : PlaneCopy) (srcW srcH dstW dstH : Nat) : Prop :=
  ∀ r < c.rows, ∀ x < c.width,
    c.srcX + x < srcW ∧ c.srcY + r < srcH ∧ c.dstX + x < dstW ∧ c.dstY + r < dstH

theorem inside_iff {srcW srcH dstW dstH : Nat} : c.Inside srcW srcH dstW dstH ↔
    c.rows = 0 ∨ c.width = 0 ∨ c.srcX + c.width ≤ srcW ∧ c.srcY + c.rows ≤ srcH ∧
      c.dstX + c.width ≤ dstW ∧ c.dstY + c.rows ≤ dstH := by
  constructor
  · intro hi
    by_cases hempty : c.rows = 0 ∨ c.width = 0
    · exact hempty.elim .inl fun hw => .inr (.inl hw)
    · -- the last byte of the last row
      have hlast := hi (c.rows - 1) (by omega) (c.width - 1) (by omega)
      omega
  · intro hle r hr x hx
    omega

end PlaneCopy

namespace Picture

variable {p q q' : Picture} {x y x' y' x'' y'' width height : Nat}

/-- A rectangle of `p` at `(x, y)` is the one of `q` at `(x', y')`. -/
def SameRect (p q : Picture) (x y x' y' width height : Nat) : Prop :=
  (∀ r < height, ∀ i < width, p.luma (y + r) (x + i) = q.luma (y' + r) (x' + i)) ∧
    ∀ r < height / 2, ∀ i < width, p.chroma (y / 2 + r) (x + i) = q.chroma (y' / 2 + r) (x' + i)

theorem SameRect.trans (h : p.SameRect q x y x' y' width height)
    (h' : q.SameRect q' x' y' x'' y'' width height) : p.SameRect q' x y x'' y'' width height :=
  ⟨fun r hr i hi => (h.1 r hr i hi).trans (h'.1 r hr i hi),
    fun r hr i hi => (h.2 r hr i hi).trans (h'.2 r hr i hi)⟩

/-- A picture with a part of another one in it. -/
def paste (dst src : Picture) (c : PlaneCopy × PlaneCopy) : Picture :=
  ⟨c.1.paste dst.luma src.luma, c.2.paste dst.chroma src.chroma⟩

/-- Of `w` columns and `h` rows those are the same that `c` does not cover. -/
def SameOutside (p q : Picture) (c : PlaneCopy × PlaneCopy) (w h : Nat) : Prop :=
  (∀ r < h, ∀ i < w, ¬c.1.Covers r i → p.luma r i = q.luma r i) ∧
    ∀ r < h / 2, ∀ i < w, ¬c.2.Covers r i → p.chroma r i = q.chroma r i

end Picture

/-- Where the planes of a picture are in a memory. -/
structure TwoPlane where
  offsetY : Nat
  pitchY : Nat
  offsetUV : Nat
  pitchUV : Nat

namespace TwoPlane

variable (L D S : TwoPlane)

def luma (r x : Nat) : Nat := L.offsetY + (r * L.pitchY + x)

def chroma (r x : Nat) : Nat := L.offsetUV + (r * L.pitchUV + x)

/-- The picture that a memory holds. -/
def picture (m : Nat → UInt8) : Picture := ⟨fun r x => m (L.luma r x), fun r x => m (L.chroma r x)⟩

/-- There is room for a picture of `w` columns and `h` rows, with chroma behind luma. -/
structure Room (w h : Nat) : Prop where
  pitchY : w ≤ L.pitchY
  pitchUV : w ≤ L.pitchUV
  apart : L.offsetY + h * L.pitchY ≤ L.offsetUV

/-- Copy a part of the luma plane and then a part of the chroma plane. -/
def copy (c : PlaneCopy × PlaneCopy) (src dst : Nat → UInt8) : Nat → UInt8 :=
  c.2.run D.offsetUV D.pitchUV S.offsetUV S.pitchUV src
    (c.1.run D.offsetY D.pitchY S.offsetY S.pitchY src dst)

variable {L D S} {c : PlaneCopy × PlaneCopy} {src dst : Nat → UInt8} {w h : Nat}

/-- The rows of luma are before chroma. -/
theorem Room.luma_lt (hr : L.Room w h) {r x : Nat} (hrow : r < h) (hx : x < w) :
    L.luma r x < L.offsetUV := by
  have hle := Nat.mul_le_mul_right L.pitchY (Nat.succ_le_of_lt hrow)
  rw [Nat.succ_mul] at hle
  have := hr.pitchY
  have := hr.apart
  unfold luma
  omega

theorem copy_luma (hr : D.Room w h) (hc : c.1.WritesInside w h) {r x : Nat} (hrow : r < h)
    (hx : x < w) : (D.picture (D.copy S c src dst)).luma r x =
      c.1.paste (D.picture dst).luma (S.picture src).luma r x := by
  have hlt := hr.luma_lt hrow hx
  refine (PlaneCopy.run_before hlt).trans ?_
  exact PlaneCopy.run_at (Nat.le_trans hc.1 hr.pitchY) (Nat.lt_of_lt_of_le hx hr.pitchY)

theorem copy_chroma (hr : D.Room w h) (hc : c.1.WritesInside w h) (hw : c.2.dstX + c.2.width ≤ w)
    {r x : Nat} (hx : x < w) : (D.picture (D.copy S c src dst)).chroma r x =
      c.2.paste (D.picture dst).chroma (S.picture src).chroma r x := by
  have hluma (r x : Nat) : c.1.run D.offsetY D.pitchY S.offsetY S.pitchY src dst (D.chroma r x) =
      dst (D.chroma r x) := by
    refine PlaneCopy.run_behind (Nat.le_trans hc.1 hr.pitchY) ?_
    have hle := Nat.mul_le_mul_right D.pitchY hc.2
    have := hr.apart
    unfold chroma
    omega
  refine (PlaneCopy.run_at (Nat.le_trans hw hr.pitchUV) (Nat.lt_of_lt_of_le hx hr.pitchUV)).trans ?_
  congr 1
  funext r x
  exact hluma r x

/-- A copy into a memory that holds the picture `p` pastes into `p`. -/
theorem sameRect_paste (hr : D.Room w h) (hc : c.1.WritesInside w h) (hw : c.2.dstX + c.2.width ≤ w)
    {p : Picture} (hp : (D.picture dst).SameRect p 0 0 0 0 w h) :
    (D.picture (D.copy S c src dst)).SameRect (p.paste (S.picture src) c) 0 0 0 0 w h := by
  refine ⟨fun r hrow x hx => ?_, fun r hrow x hx => ?_⟩
  · have hdst := hp.1 r hrow x hx
    simp only [Nat.zero_add] at hdst ⊢
    exact (copy_luma hr hc hrow hx).trans (PlaneCopy.paste_congr hdst)
  · have hdst := hp.2 r hrow x hx
    simp only [Nat.zero_add, Nat.zero_div] at hdst ⊢
    exact (copy_chroma hr hc hw hx).trans (PlaneCopy.paste_congr hdst)

/-- With room for a picture there is a memory that holds it. -/
theorem Room.exists_picture (hr : L.Room w h) (p : Picture) : ∃ m,
    (∀ r < h, ∀ x < w, (L.picture m).luma r x = p.luma r x) ∧
      ∀ r < h / 2, ∀ x < w, (L.picture m).chroma r x = p.chroma r x := by
  refine ⟨Plane.copyRows L.pitchUV L.offsetUV p.chroma w (h / 2)
    (Plane.copyRows L.pitchY L.offsetY p.luma w h fun _ => 0), fun r hrow x hx => ?_,
    fun r hrow x hx => ?_⟩
  · have hbase : L.offsetY = L.offsetY + (0 * L.pitchY + 0) := by omega
    have hw : 0 + w ≤ L.pitchY := Nat.le_trans (by omega) hr.pitchY
    refine (Plane.copyRows_before (hr.luma_lt hrow hx)).trans ?_
    refine (Plane.copyRows_at hbase hw (Nat.lt_of_lt_of_le hx hr.pitchY)).trans ?_
    rw [if_pos (by omega)]
    rfl
  · have hbase : L.offsetUV = L.offsetUV + (0 * L.pitchUV + 0) := by omega
    have hw : 0 + w ≤ L.pitchUV := Nat.le_trans (by omega) hr.pitchUV
    refine (Plane.copyRows_at hbase hw (Nat.lt_of_lt_of_le hx hr.pitchUV)).trans ?_
    rw [if_pos (by omega)]
    rfl

/-! ## Rectangles with even sides -/

/-- The copies of a rectangle whose places and sides are even: chroma has half the rows. -/
def rect (srcX srcY dstX dstY width height : Nat) : PlaneCopy × PlaneCopy :=
  (⟨srcX, srcY, dstX, dstY, width, height⟩, ⟨srcX, srcY / 2, dstX, dstY / 2, width, height / 2⟩)

variable {srcX srcY dstX dstY width height : Nat}

theorem sameRect_copy (hr : D.Room w h) (hw : dstX + width ≤ w) (hh : dstY + height ≤ h) :
    (D.picture (D.copy S (rect srcX srcY dstX dstY width height) src dst)).SameRect (S.picture src)
      dstX dstY srcX srcY width height := by
  have hin : (rect srcX srcY dstX dstY width height).1.WritesInside w h := ⟨hw, hh⟩
  constructor
  · intro r hrow x hx
    refine (copy_luma hr hin ?_ ?_).trans (PlaneCopy.paste_of_lt hrow hx)
    · show dstY + r < h
      omega
    · show dstX + x < w
      omega
  · intro r hrow x hx
    refine (copy_chroma hr hin hw ?_).trans (PlaneCopy.paste_of_lt hrow hx)
    show dstX + x < w
    omega

theorem sameOutside_copy (hr : D.Room w h) (hw : dstX + width ≤ w) (hh : dstY + height ≤ h) :
    (D.picture (D.copy S (rect srcX srcY dstX dstY width height) src dst)).SameOutside
      (D.picture dst)
      (rect srcX srcY dstX dstY width height) w h := by
  have hin : (rect srcX srcY dstX dstY width height).1.WritesInside w h := ⟨hw, hh⟩
  constructor
  · intro r hrow x hx hno
    exact (copy_luma hr hin hrow hx).trans (PlaneCopy.paste_of_not_covers hno)
  · intro r _ x hx hno
    exact (copy_chroma hr hin hw hx).trans (PlaneCopy.paste_of_not_covers hno)

end TwoPlane
