import NvVaapi.Image.Transfer

/-!
# Where images are read and written

The sizes of a copy are clipped to the image and to the surface, with sums of 32 bits.

* `Transfer.Inside`: everything is copied inside the image and inside the surface.
* `PutFits`, `GetFits`: the arguments with which no clip is skipped because its sum wraps around.
* `transfers_inside_iff`: these are the arguments with which `nvPutImage` and `nvGetImage` copy
  inside.
-/

namespace NvVaapi.Image

open Objects (PutArgs GetResults)

/-- What is copied is inside a luma plane and inside a chroma plane of half the rows, on both
sides. -/
def CopiesInside (copies : PlaneCopy × PlaneCopy) (srcW srcH dstW dstH : Nat) : Prop :=
  copies.1.Inside srcW srcH dstW dstH ∧ copies.2.Inside srcW (srcH / 2) dstW (dstH / 2)

/-- From an image of the size of `img` to a surface of the size of `sf`. -/
def Transfer.PutInside (t : Transfer NVSurface) (img : NVImage) (sf : NVSurface) : Prop :=
  ∀ copies ∈ t.copied,
    CopiesInside copies img.width.toNat img.height.toNat sf.width.toNat sf.height.toNat

/-- From a surface of the size of `sf` to an image of the size of `img`. -/
def Transfer.GetInside (t : Transfer NVImage) (sf : NVSurface) (img : NVImage) : Prop :=
  ∀ copies ∈ t.copied,
    CopiesInside copies sf.width.toNat sf.height.toNat img.width.toNat img.height.toNat

/-! ## The conditions -/

/-- On one axis, `n` samples from `src` on in an image and from `dst` on in a surface: neither sum
wraps around, or only the first one does and what the surface clips to is still in the image. -/
def PutAxisFits (src dst n imgSize sfSize : Nat) : Prop :=
  if src + n < 2 ^ 32 then dst + min n (imgSize - src) < 2 ^ 32
  else dst + n < 2 ^ 32 ∧ src + min n (sfSize - dst) ≤ imgSize

instance (src dst n imgSize sfSize : Nat) : Decidable (PutAxisFits src dst n imgSize sfSize) :=
  inferInstanceAs (Decidable (if src + n < 2 ^ 32 then _ < _ else _ < _ ∧ _ ≤ _))

def PutFits (img : NVImage) (sf : NVSurface) (p : PutArgs) : Prop :=
  PutEmpty p ∨
    PutAxisFits p.srcX.toUInt32.toNat p.destX.toUInt32.toNat
      (min p.srcWidth.toNat p.destWidth.toNat)
        img.width.toNat sf.width.toNat ∧
      PutAxisFits p.srcY.toUInt32.toNat p.destY.toUInt32.toNat
        (min p.srcHeight.toNat p.destHeight.toNat) img.height.toNat sf.height.toNat

instance (img : NVImage) (sf : NVSurface) (p : PutArgs) : Decidable (PutFits img sf p) :=
  inferInstanceAs (Decidable (_ ∨ _ ∧ _))

/-- On one axis, `n` samples from `src` on in a surface: the sum does not wrap around, or what the
image takes is still in the surface. -/
def GetAxisFits (src n sfSize imgSize : Nat) : Prop :=
  src + n < 2 ^ 32 ∨ src + min n imgSize ≤ sfSize

instance (src n sfSize imgSize : Nat) : Decidable (GetAxisFits src n sfSize imgSize) :=
  inferInstanceAs (Decidable (_ < _ ∨ _ ≤ _))

def GetFits (sf : NVSurface) (img : NVImage) (x y : Int32) (width height : UInt32) : Prop :=
  (width = 0 ∨ img.width = 0) ∨ (height = 0 ∨ img.height = 0) ∨
    GetAxisFits x.toUInt32.toNat width.toNat sf.width.toNat img.width.toNat ∧
      GetAxisFits y.toUInt32.toNat height.toNat sf.height.toNat img.height.toNat

instance (sf : NVSurface) (img : NVImage) (x y : Int32) (width height : UInt32) :
    Decidable (GetFits sf img x y width height) :=
  inferInstanceAs (Decidable (_ ∨ _ ∨ _ ∧ _))

/-! ## One axis -/

theorem putAxis {src dst n imgSize sfSize : UInt32} (hs : src < imgSize) (hd : dst < sfSize)
    (hn : n ≠ 0) :
    0 < (clip dst (clip src n imgSize) sfSize).toNat ∧
      (src.toNat + (clip dst (clip src n imgSize) sfSize).toNat ≤ imgSize.toNat ∧
          dst.toNat + (clip dst (clip src n imgSize) sfSize).toNat ≤ sfSize.toNat ↔
        PutAxisFits src.toNat dst.toNat n.toNat imgSize.toNat sfSize.toNat) := by
  have hpos : 0 < n.toNat := Nat.pos_of_ne_zero fun h => hn (UInt32.toNat_inj.mp h)
  have hi := imgSize.toNat_lt
  have hf := sfSize.toNat_lt
  rw [toNat_clip _ hd, toNat_clip _ hs]
  rw [UInt32.lt_iff_toNat_lt] at hs hd
  unfold PutAxisFits
  split_ifs <;> omega

theorem getAxis {src sfSize : UInt32} (n imgSize : UInt32) (hs : src < sfSize) :
    ((lesser imgSize (clip src n sfSize)).toNat = 0 ↔ n = 0 ∨ imgSize = 0) ∧
      (src.toNat + (lesser imgSize (clip src n sfSize)).toNat ≤ sfSize.toNat ↔
        GetAxisFits src.toNat n.toNat sfSize.toNat imgSize.toNat) := by
  have hf := sfSize.toNat_lt
  rw [toNat_lesser, toNat_clip _ hs, ← UInt32.toNat_inj, ← UInt32.toNat_inj, UInt32.toNat_zero]
  rw [UInt32.lt_iff_toNat_lt] at hs
  unfold GetAxisFits
  split_ifs <;> omega

/-! ## Both axes -/

/-- Luma decides: where it is inside, the chroma that belongs to it is. -/
theorem planeCopies_inside_iff {srcX srcY dstX dstY w h : UInt32} {srcW srcH dstW dstH : Nat} :
    CopiesInside (planeCopies srcX srcY dstX dstY w h) srcW srcH dstW dstH ↔
      h.toNat = 0 ∨ w.toNat = 0 ∨ srcX.toNat + w.toNat ≤ srcW ∧ srcY.toNat + h.toNat ≤ srcH ∧
        dstX.toNat + w.toNat ≤ dstW ∧ dstY.toNat + h.toNat ≤ dstH := by
  unfold CopiesInside
  rw [PlaneCopy.inside_iff, PlaneCopy.inside_iff]
  simp only [planeCopies, toNat_evenDown, UInt32.toNat_div, UInt32.reduceToNat]
  refine and_iff_left_of_imp fun hluma => ?_
  omega

section Fits

variable {calloc : Bool} {sf : NVSurface} {img : NVImage}

/-- Something is copied, and it is in the bounds exactly when the arguments fit. -/
theorem putBounds_iff {p : PutArgs} (hz : ¬PutEmpty p) (hs : PutStarts sf.toEncodeSurface img p) :
    (0 < (putWidth sf.toEncodeSurface img p).toNat ∧
      0 < (putHeight sf.toEncodeSurface img p).toNat) ∧
      ((p.srcX.toUInt32.toNat + (putWidth sf.toEncodeSurface img p).toNat ≤ img.width.toNat ∧
            p.destX.toUInt32.toNat + (putWidth sf.toEncodeSurface img p).toNat ≤ sf.width.toNat) ∧
          p.srcY.toUInt32.toNat + (putHeight sf.toEncodeSurface img p).toNat ≤ img.height.toNat ∧
            p.destY.toUInt32.toNat + (putHeight sf.toEncodeSurface img p).toNat ≤ sf.height.toNat ↔
        PutFits img sf p) := by
  obtain ⟨-, himg, hsf⟩ := hs
  rw [not_or, UInt32.not_le, UInt32.not_le] at himg hsf
  have hn : ¬(lesser p.srcWidth p.destWidth = 0) ∧ ¬(lesser p.srcHeight p.destHeight = 0) := by
    unfold PutEmpty at hz
    unfold lesser
    split_ifs <;> grind
  obtain ⟨hw, hx⟩ := putAxis himg.1 hsf.1 hn.1
  obtain ⟨hh, hy⟩ := putAxis himg.2 hsf.2 hn.2
  refine ⟨⟨hw, hh⟩, ?_⟩
  rw [toNat_lesser] at hx hy
  rw [PutFits, or_iff_right hz, ← hx, ← hy]
  rfl

theorem putInside_iff {p : PutArgs} (h : (nvPutImage calloc sf img p).status = .success) :
    (nvPutImage calloc sf img p).PutInside img sf ↔ PutFits img sf p := by
  obtain ⟨src, r, -, -, ⟨hz, he⟩ | ⟨hz, hs, he⟩⟩ := nvPutImage_success h
  · rw [he]
    exact iff_of_true (by simp [Transfer.PutInside, Transfer.plain]) (.inl hz)
  · obtain ⟨hpos, hbounds⟩ := putBounds_iff hz hs
    rw [he, ← hbounds]
    simp only [Transfer.PutInside, Option.mem_some_iff, forall_eq', putCopies,
      planeCopies_inside_iff]
    omega

theorem getInside_iff {x y : Int32} {width height : UInt32}
    (h : (getImageHost sf img x y width height).status = .success) :
    (getImageHost sf img x y width height).GetInside sf img ↔ GetFits sf img x y width height := by
  obtain ⟨host, dst, -, -, ⟨-, hs⟩, he⟩ := getImageHost_success h
  rw [not_or, UInt32.not_le, UInt32.not_le] at hs
  obtain ⟨hw, hx⟩ := getAxis width img.width hs.1
  obtain ⟨hh, hy⟩ := getAxis height img.height hs.2
  rw [he]
  simp only [Transfer.GetInside, Option.mem_some_iff, forall_eq', getCopies, planeCopies_inside_iff,
    UInt32.toNat_zero, Nat.zero_add, toNat_lesser] at hx hy hw hh ⊢
  rw [GetFits, ← hw, ← hh, ← hx, ← hy]
  omega

/-- A successful call copies inside the image and inside the surface exactly when its arguments
fit. -/
theorem transfers_inside_iff (calloc : Bool) (sf : NVSurface) (img : NVImage)
    (p : PutArgs) (x y : Int32) (width height : UInt32) :
    ((nvPutImage calloc sf img p).status = .success →
      ((nvPutImage calloc sf img p).PutInside img sf ↔ PutFits img sf p)) ∧
    ((getImageHost sf img x y width height).status = .success →
      ((getImageHost sf img x y width height).GetInside sf img ↔
        GetFits sf img x y width height)) :=
  ⟨putInside_iff, getInside_iff⟩

end Fits

/-- A surface as it is created, with a host buffer. -/
def plainSurface (width height : UInt32) (host : Memory) : NVSurface :=
  { EncodeSurface.created width height with
    hostData := some host
    backingImage := none
    status := .ready }

/-- A 16x16 image is put at (2, 2) of an 8x8 surface, and got back from there, as far as it fits. -/
theorem transfers_inside_iff_clipped :
    ∃ img, nvCreateImage .nv12 16 16 (some fun _ => 0) = some (.ok img) ∧
    let sf := plainSurface 8 8 fun _ => 0
    let put := nvPutImage true sf img ⟨0, 0, 16, 16, 2, 2, 16, 16⟩
    let get := getImageHost sf img 2 2 16 16
    (put.status = .success ∧ put.PutInside img sf) ∧ get.status = .success ∧
      get.GetInside sf img := by
  refine ⟨_, rfl, ?_⟩
  obtain ⟨hput, hget⟩ :=
    transfers_inside_iff true (plainSurface 8 8 fun _ => 0) _ ⟨0, 0, 16, 16, 2, 2, 16, 16⟩ 2 2 16 16
  exact ⟨⟨rfl, (hput rfl).mpr (by decide)⟩, rfl, (hget rfl).mpr (by decide)⟩

/-- A rectangle of an 8x8 image whose right side wraps around to column 0 is read up to column 9. -/
theorem putImage_outside : ∃ img, nvCreateImage .nv12 8 8 (some fun _ => 0) = some (.ok img) ∧
    let t :=
      nvPutImage true (plainSurface 8 8 fun _ => 0) img ⟨2, 0, 0xfffffffe, 2, 0, 0, 0xfffffffe, 2⟩
    t.status = .success ∧ ¬t.PutInside img (plainSurface 8 8 fun _ => 0) := by
  refine ⟨_, rfl, rfl, fun h => ?_⟩
  have hin := (h _ rfl).1 0 (by decide) 7 (by decide)
  exact absurd hin (by decide)

/-- A rectangle of an 8x8 surface whose right side wraps around to column 0 is read up to column
17. -/
theorem getImage_outside : ∃ img, nvCreateImage .nv12 16 16 (some fun _ => 0) = some (.ok img) ∧
    let t := getImageHost (plainSurface 8 8 fun _ => 0) img 2 0 0xfffffffe 2
    t.status = .success ∧ ¬t.GetInside (plainSurface 8 8 fun _ => 0) img := by
  refine ⟨_, rfl, rfl, fun h => ?_⟩
  have hin := (h _ rfl).1 0 (by decide) 15 (by decide)
  exact absurd hin (by decide)

end NvVaapi.Image
