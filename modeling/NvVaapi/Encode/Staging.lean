import NvVaapi.Lib.Plane

/-!
# The copy into the encoder's input buffer

The part of `nvEndPicture` between the lock and the unlock of the input buffer.

* `EncodeContext`, `EncodeSurface`: the fields of an encode context and of a surface that decide the
  sizes.
* `selectRegion`: the source region, from the visible rectangle, the content rectangle or the whole
  surface.
* `stagePicture`: the copy, in one piece for each plane or row by row.
* `stagePicture_samples`: every sample of the input buffer after the copy.
-/

namespace NvVaapi

/-! ## The context and the surface -/

/-- The sizes in `NV_ENC_INITIALIZE_PARAMS`. -/
structure EncInitParams where
  encodeWidth : UInt32
  encodeHeight : UInt32
  darWidth : UInt32
  darHeight : UInt32
  maxEncodeWidth : UInt32
  maxEncodeHeight : UInt32
  deriving DecidableEq

structure EncodeContext where
  width : UInt32
  height : UInt32
  encIsHevc : Bool
  encInitParams : EncInitParams
  encNeedsReconfigure : Bool
  encCurrentSurface : Option Nat
  encHasCodedBuf : Bool
  encVisibleX : UInt32
  encVisibleY : UInt32
  encVisibleWidth : UInt32
  encVisibleHeight : UInt32
  encVisibleValid : Bool
  /-- The size of the input buffers, which stays as it was created. -/
  inputWidth : UInt32
  inputHeight : UInt32
  deriving DecidableEq

/-- A surface with a host buffer. -/
structure EncodeSurface where
  width : UInt32
  height : UInt32
  contentX : UInt32
  contentY : UInt32
  contentWidth : UInt32
  contentHeight : UInt32
  contentValid : Bool
  deriving DecidableEq

/-- What `nvCreateContext` sets for a picture size. -/
def EncodeContext.created (pictureWidth pictureHeight : UInt32) (isHevc : Bool) :
    EncodeContext where
  width := pictureWidth
  height := pictureHeight
  encIsHevc := isHevc
  encInitParams :=
    ⟨pictureWidth, pictureHeight, pictureWidth, pictureHeight, pictureWidth, pictureHeight⟩
  encNeedsReconfigure := false
  encCurrentSurface := none
  encHasCodedBuf := false
  encVisibleX := 0
  encVisibleY := 0
  encVisibleWidth := pictureWidth
  encVisibleHeight := pictureHeight
  encVisibleValid := false
  inputWidth := pictureWidth
  inputHeight := pictureHeight

/-- A surface as `nvCreateSurfaces` leaves it. -/
def EncodeSurface.created (width height : UInt32) : EncodeSurface :=
  ⟨width, height, 0, 0, width, height, false⟩

def nvencPitchAlign : UInt32 := 64
def nvencHeightAlign : UInt32 := 16

/-- `ROUND_UP` -/
def roundUp (n s : UInt32) : UInt32 := (n + s - 1) / s * s

namespace EncodeSurface

/-! What `ensureSurfaceHostBuffer` allocates. -/

def hostPitch (sf : EncodeSurface) : Nat := (roundUp sf.width nvencPitchAlign).toNat

/-- The luma rows of the host buffer, `ah` in the source. -/
def hostRows (sf : EncodeSurface) : Nat := (roundUp sf.height nvencHeightAlign).toNat

def hostYSize (sf : EncodeSurface) : Nat := sf.hostPitch * sf.hostRows

def hostTotalSize (sf : EncodeSurface) : Nat :=
  (sf.hostYSize + sf.hostPitch * (sf.hostRows / 2)) % 2 ^ 64

end EncodeSurface

/-! ## The source region -/

structure SourceRegion where
  srcX : UInt32
  srcY : UInt32
  copyWidth : UInt32
  copyHeight : UInt32
  deriving DecidableEq

/-- `n & ~1U` -/
def evenDown (n : UInt32) : UInt32 := n &&& ~~~1

/-- `a < b ? a : b` -/
def lesser (a b : UInt32) : UInt32 := if a < b then a else b

/-- The whole surface, as far as the encoder takes it. -/
def wholeRegion (ctx : EncodeContext) (sf : EncodeSurface) : SourceRegion :=
  ⟨0, 0, lesser sf.width ctx.width, lesser sf.height ctx.height⟩

def visibleRegion (ctx : EncodeContext) : SourceRegion :=
  ⟨ctx.encVisibleX, ctx.encVisibleY, lesser ctx.encVisibleWidth ctx.width,
    lesser ctx.encVisibleHeight ctx.height⟩

/-- `copyWidth` after it was clipped to the surface, and `copyHeight` likewise. -/
def clip (src copy limit : UInt32) : UInt32 := if src + copy > limit then limit - src else copy

def contentRegion (ctx : EncodeContext) (sf : EncodeSurface) : SourceRegion :=
  if sf.contentX ≥ sf.width ∨ sf.contentY ≥ sf.height then wholeRegion ctx sf
  else ⟨sf.contentX, sf.contentY, clip sf.contentX (lesser sf.contentWidth ctx.width) sf.width,
    clip sf.contentY (lesser sf.contentHeight ctx.height) sf.height⟩

def EncodeContext.UsesVisible (ctx : EncodeContext) : Prop :=
  ctx.encVisibleValid ∧ ctx.encVisibleWidth > 0 ∧ ctx.encVisibleHeight > 0

instance (ctx : EncodeContext) : Decidable ctx.UsesVisible :=
  inferInstanceAs (Decidable (_ ∧ _ ∧ _))

def EncodeSurface.UsesContent (sf : EncodeSurface) : Prop :=
  sf.contentValid ∧ sf.contentWidth > 0 ∧ sf.contentHeight > 0

instance (sf : EncodeSurface) : Decidable sf.UsesContent := inferInstanceAs (Decidable (_ ∧ _ ∧ _))

/-- The region before it is made even. -/
def chooseRegion (ctx : EncodeContext) (sf : EncodeSurface) : SourceRegion :=
  if ctx.UsesVisible then visibleRegion ctx
  else if sf.UsesContent then contentRegion ctx sf
  else wholeRegion ctx sf

/-- The even part of a region, or the encoder's size when nothing is left of it. -/
def evenRegion (ctx : EncodeContext) (r : SourceRegion) : SourceRegion :=
  if evenDown r.copyWidth = 0 ∨ evenDown r.copyHeight = 0 then
    ⟨0, 0, evenDown ctx.width, evenDown ctx.height⟩
  else ⟨evenDown r.srcX, evenDown r.srcY, evenDown r.copyWidth, evenDown r.copyHeight⟩

def selectRegion (ctx : EncodeContext) (sf : EncodeSurface) : SourceRegion :=
  evenRegion ctx (chooseRegion ctx sf)

/-! ## The copy -/

section Copy

variable (ctx : EncodeContext) (sf : EncodeSurface) (dstPitch : Nat) (src : Nat → UInt8)

/-- Full-frame copies with matching pitches are made in one piece. -/
def WholePlane : Prop :=
  let r := selectRegion ctx sf
  r.srcX = 0 ∧ r.srcY = 0 ∧ r.copyWidth = ctx.width ∧ r.copyHeight = ctx.height ∧
    sf.hostPitch = dstPitch

instance : Decidable (WholePlane ctx sf dstPitch) :=
  inferInstanceAs (Decidable (_ ∧ _ ∧ _ ∧ _ ∧ _))

/-- The two copies of the fast path. -/
def copyWhole (dst : Nat → UInt8) : Nat → UInt8 :=
  let dstUV := ctx.height.toNat * dstPitch
  let dst := Bytes.write dst 0 (Bytes.read src 0 (ctx.height.toNat * dstPitch))
  Bytes.write dst dstUV (Bytes.read src sf.hostYSize (ctx.height.toNat / 2 * dstPitch))

/-- The loops that copy luma and chroma row by row. -/
def copyPayload (r : SourceRegion) (dst : Nat → UInt8) : Nat → UInt8 :=
  let dstUV := ctx.height.toNat * dstPitch
  let dst := Plane.memcpyRows dstPitch 0 src sf.hostPitch
    (r.srcY.toNat * sf.hostPitch + r.srcX.toNat) r.copyWidth.toNat r.copyHeight.toNat dst
  Plane.memcpyRows dstPitch dstUV src sf.hostPitch
    (sf.hostYSize + r.srcY.toNat / 2 * sf.hostPitch + r.srcX.toNat) r.copyWidth.toNat
    (r.copyHeight.toNat / 2) dst

/-- The loops that clear what is right of the payload. -/
def clearRight (r : SourceRegion) (dst : Nat → UInt8) : Nat → UInt8 :=
  let dstUV := ctx.height.toNat * dstPitch
  if r.copyWidth < ctx.width then
    let pad := ctx.width.toNat - r.copyWidth.toNat
    let dst := Plane.memsetRows dstPitch r.copyWidth.toNat 0x00 pad 0 r.copyHeight.toNat dst
    Plane.memsetRows dstPitch (dstUV + r.copyWidth.toNat) 0x80 pad 0 (r.copyHeight.toNat / 2) dst
  else dst

/-- The loops that clear the rows below the payload. -/
def clearBelow (r : SourceRegion) (dst : Nat → UInt8) : Nat → UInt8 :=
  let dstUV := ctx.height.toNat * dstPitch
  if r.copyHeight < ctx.height then
    let dst :=
      Plane.memsetRows dstPitch 0 0x00 ctx.width.toNat r.copyHeight.toNat ctx.height.toNat dst
    Plane.memsetRows dstPitch dstUV 0x80 ctx.width.toNat (r.copyHeight.toNat / 2)
      (ctx.height.toNat / 2) dst
  else dst

def copyByRows (r : SourceRegion) (dst : Nat → UInt8) : Nat → UInt8 :=
  clearBelow ctx dstPitch r (clearRight ctx dstPitch r (copyPayload ctx sf dstPitch src r dst))

/-- The input buffer `dst` after the copy from the host buffer `src`. -/
def stagePicture (dst : Nat → UInt8) : Nat → UInt8 :=
  if WholePlane ctx sf dstPitch then copyWhole ctx sf dstPitch src dst
  else copyByRows ctx sf dstPitch src (selectRegion ctx sf) dst

end Copy

/-! ## What the region is -/

theorem toNat_evenDown (n : UInt32) : (evenDown n).toNat = n.toNat / 2 * 2 := by
  have hbits : n.toBitVec &&& ~~~1#32 = (n.toBitVec >>> 1) <<< 1 := by
    apply BitVec.eq_of_getLsbD_eq
    intro i hi
    simp only [BitVec.getLsbD_and, BitVec.getLsbD_not, BitVec.getLsbD_shiftLeft,
      BitVec.getLsbD_ushiftRight, BitVec.getLsbD_one]
    cases i with
    | zero => simp
    | succ i => simp [hi, Nat.add_comm]
  have h : (evenDown n).toBitVec = (n.toBitVec >>> 1) <<< 1 := hbits
  rw [← UInt32.toNat_toBitVec, h, BitVec.toNat_shiftLeft, BitVec.toNat_ushiftRight,
    Nat.shiftLeft_eq, Nat.shiftRight_eq_div_pow, UInt32.toNat_toBitVec]
  have := n.toNat_lt
  omega

@[simp] theorem toNat_lesser (a b : UInt32) : (lesser a b).toNat = min a.toNat b.toNat := by
  unfold lesser
  split
  · next h =>
    rw [UInt32.lt_iff_toNat_lt] at h
    omega
  · next h =>
    rw [UInt32.lt_iff_toNat_lt] at h
    omega

theorem toNat_clip {src limit : UInt32} (copy : UInt32) (h : src < limit) :
    (clip src copy limit).toNat =
      if src.toNat + copy.toNat < 2 ^ 32 then min copy.toNat (limit.toNat - src.toNat)
      else copy.toNat := by
  rw [UInt32.lt_iff_toNat_lt] at h
  have hc := copy.toNat_lt
  have hl := limit.toNat_lt
  unfold clip
  simp only [gt_iff_lt, UInt32.lt_iff_toNat_lt, UInt32.toNat_add]
  split
  · rw [UInt32.toNat_sub_of_le _ _ (UInt32.le_iff_toNat_le.mpr (Nat.le_of_lt h))]
    split <;> omega
  · split <;> omega

section Bounds

variable (ctx : EncodeContext) (sf : EncodeSurface)

theorem chooseRegion_le : (chooseRegion ctx sf).copyWidth.toNat ≤ ctx.width.toNat ∧
    (chooseRegion ctx sf).copyHeight.toNat ≤ ctx.height.toNat := by
  have hclip {src limit : UInt32} (copy enc : UInt32) (h : src < limit) :
      (clip src (lesser copy enc) limit).toNat ≤ enc.toNat := by
    rw [toNat_clip _ h, toNat_lesser]
    split <;> omega
  have hwhole : (wholeRegion ctx sf).copyWidth.toNat ≤ ctx.width.toNat ∧
      (wholeRegion ctx sf).copyHeight.toNat ≤ ctx.height.toNat := by
    simp only [wholeRegion, toNat_lesser]
    omega
  unfold chooseRegion
  split
  · simp only [visibleRegion, toNat_lesser]
    omega
  · split
    · unfold contentRegion
      split
      · exact hwhole
      · next h =>
        rw [not_or, UInt32.not_le, UInt32.not_le] at h
        exact ⟨hclip _ _ h.1, hclip _ _ h.2⟩
    · exact hwhole

/-- The region is not larger than the picture of the encoder. -/
theorem selectRegion_le : (selectRegion ctx sf).copyWidth.toNat ≤ ctx.width.toNat ∧
    (selectRegion ctx sf).copyHeight.toNat ≤ ctx.height.toNat := by
  have h := chooseRegion_le ctx sf
  unfold selectRegion evenRegion
  split <;> simp only [toNat_evenDown] <;> omega

end Bounds

/-! ## What the copy leaves

The input buffer is one plane, whose chroma rows follow the `ctx.height` luma rows. -/

section Samples

variable {ctx : EncodeContext} {sf : EncodeSurface} {dstPitch : Nat} {src dst : Nat → UInt8}
variable {r : SourceRegion} {row x : Nat}

theorem copyPayload_at (hw : r.copyWidth.toNat ≤ dstPitch) (hx : x < dstPitch) :
    copyPayload ctx sf dstPitch src r dst (row * dstPitch + x) =
      if ctx.height.toNat ≤ row ∧ row < ctx.height.toNat + r.copyHeight.toNat / 2 ∧
          x < r.copyWidth.toNat then
        src (sf.hostYSize + (r.srcY.toNat / 2 + (row - ctx.height.toNat)) * sf.hostPitch +
          (r.srcX.toNat + x))
      else if row < r.copyHeight.toNat ∧ x < r.copyWidth.toNat then
        src ((r.srcY.toNat + row) * sf.hostPitch + (r.srcX.toNat + x))
      else dst (row * dstPitch + x) := by
  have hw' : 0 + r.copyWidth.toNat ≤ dstPitch := by omega
  have hbase : 0 = 0 * dstPitch + 0 := by simp
  have hbaseUV : ctx.height.toNat * dstPitch = ctx.height.toNat * dstPitch + 0 := rfl
  unfold copyPayload
  rw [Plane.memcpyRows_at hbaseUV hw' hx, Plane.memcpyRows_at hbase hw' hx]
  simp only [Nat.zero_le, true_and, Nat.zero_add, Nat.sub_zero]
  split_ifs
  · congr 1
    rw [Nat.add_mul]
    omega
  · congr 1
    rw [Nat.add_mul]
    omega
  · rfl

theorem clearRight_at (hw : r.copyWidth.toNat ≤ ctx.width.toNat) (hp : ctx.width.toNat ≤ dstPitch)
    (hx : x < ctx.width.toNat) :
    clearRight ctx dstPitch r dst (row * dstPitch + x) =
      if x < r.copyWidth.toNat then dst (row * dstPitch + x)
      else if ctx.height.toNat ≤ row ∧ row < ctx.height.toNat + r.copyHeight.toNat / 2 then 0x80
      else if row < r.copyHeight.toNat then 0x00
      else dst (row * dstPitch + x) := by
  have hxp : x < dstPitch := Nat.lt_of_lt_of_le hx hp
  unfold clearRight
  by_cases hlt : r.copyWidth < ctx.width
  · have hpad : r.copyWidth.toNat + (ctx.width.toNat - r.copyWidth.toNat) ≤ dstPitch := by omega
    have hbase : r.copyWidth.toNat = 0 * dstPitch + r.copyWidth.toNat := by simp
    rw [if_pos hlt, Plane.memsetRows_at rfl hpad hxp, Plane.memsetRows_at hbase hpad hxp]
    split_ifs <;> first | rfl | omega
  · have hle := UInt32.le_iff_toNat_le.mp (UInt32.not_lt.mp hlt)
    rw [if_neg hlt, if_pos (by omega)]

theorem clearBelow_at (hp : ctx.width.toNat ≤ dstPitch) (hx : x < ctx.width.toNat) :
    clearBelow ctx dstPitch r dst (row * dstPitch + x) =
      if ctx.height.toNat + r.copyHeight.toNat / 2 ≤ row ∧
          row < ctx.height.toNat + ctx.height.toNat / 2 then 0x80
      else if r.copyHeight.toNat ≤ row ∧ row < ctx.height.toNat then 0x00
      else dst (row * dstPitch + x) := by
  have hxp : x < dstPitch := Nat.lt_of_lt_of_le hx hp
  have hrow : 0 + ctx.width.toNat ≤ dstPitch := by omega
  have hbase : 0 = 0 * dstPitch + 0 := by simp
  have hbaseUV : ctx.height.toNat * dstPitch = ctx.height.toNat * dstPitch + 0 := rfl
  unfold clearBelow
  by_cases hlt : r.copyHeight < ctx.height
  · rw [if_pos hlt, Plane.memsetRows_at hbaseUV hrow hxp, Plane.memsetRows_at hbase hrow hxp]
    split_ifs <;> first | rfl | omega
  · have hle := UInt32.le_iff_toNat_le.mp (UInt32.not_lt.mp hlt)
    rw [if_neg hlt, if_neg (by omega), if_neg (by omega)]

theorem copyWhole_at (hx : x < dstPitch) :
    copyWhole ctx sf dstPitch src dst (row * dstPitch + x) =
      if ctx.height.toNat ≤ row ∧ row < ctx.height.toNat + ctx.height.toNat / 2 then
        src (sf.hostYSize + ((row - ctx.height.toNat) * dstPitch + x))
      else if row < ctx.height.toNat then src (row * dstPitch + x)
      else dst (row * dstPitch + x) := by
  have hbase : 0 = 0 * dstPitch := by simp
  unfold copyWhole
  rw [Plane.memcpy_at rfl hx, Plane.memcpy_at hbase hx]
  simp

theorem copyByRows_luma (hp : ctx.width.toNat ≤ dstPitch) (hx : x < ctx.width.toNat)
    (hw : r.copyWidth.toNat ≤ ctx.width.toNat) {y : Nat} (hy : y < ctx.height.toNat) :
    copyByRows ctx sf dstPitch src r dst (y * dstPitch + x) =
      if x < r.copyWidth.toNat ∧ y < r.copyHeight.toNat then
        src ((r.srcY.toNat + y) * sf.hostPitch + (r.srcX.toNat + x))
      else 0x00 := by
  unfold copyByRows
  rw [clearBelow_at hp hx, clearRight_at hw hp hx,
    copyPayload_at (Nat.le_trans hw hp) (Nat.lt_of_lt_of_le hx hp), if_neg (by omega)]
  by_cases hyc : y < r.copyHeight.toNat
  · rw [if_neg (by omega)]
    by_cases hxc : x < r.copyWidth.toNat
    · rw [if_pos hxc, if_neg (by omega), if_pos ⟨hyc, hxc⟩, if_pos ⟨hxc, hyc⟩]
    · rw [if_neg hxc, if_neg (by omega), if_pos hyc, if_neg fun h => hxc h.1]
  · rw [if_pos ⟨Nat.le_of_not_lt hyc, hy⟩, if_neg fun h => hyc h.2]

theorem copyByRows_chroma (hp : ctx.width.toNat ≤ dstPitch) (hx : x < ctx.width.toNat)
    (hw : r.copyWidth.toNat ≤ ctx.width.toNat) {v : Nat} (hv : v < ctx.height.toNat / 2) :
    copyByRows ctx sf dstPitch src r dst ((ctx.height.toNat + v) * dstPitch + x) =
      if x < r.copyWidth.toNat ∧ v < r.copyHeight.toNat / 2 then
        src (sf.hostYSize + (r.srcY.toNat / 2 + v) * sf.hostPitch + (r.srcX.toNat + x))
      else 0x80 := by
  unfold copyByRows
  rw [clearBelow_at hp hx, clearRight_at hw hp hx,
    copyPayload_at (Nat.le_trans hw hp) (Nat.lt_of_lt_of_le hx hp), Nat.add_sub_cancel_left]
  by_cases hvc : v < r.copyHeight.toNat / 2
  · rw [if_neg (by omega), if_neg (by omega)]
    by_cases hxc : x < r.copyWidth.toNat
    · rw [if_pos hxc, if_pos ⟨by omega, by omega, hxc⟩, if_pos ⟨hxc, hvc⟩]
    · rw [if_neg hxc, if_pos ⟨by omega, by omega⟩, if_neg fun h => hxc h.1]
  · rw [if_pos ⟨by omega, by omega⟩, if_neg fun h => hvc h.2]

/-- Every sample after the copy: the source region, black to the right of it and below it, whatever
was in the input buffer before. -/
theorem stagePicture_samples (hp : ctx.width.toNat ≤ dstPitch) (hx : x < ctx.width.toNat) :
    (∀ y < ctx.height.toNat, stagePicture ctx sf dstPitch src dst (y * dstPitch + x) =
      let r := selectRegion ctx sf
      if x < r.copyWidth.toNat ∧ y < r.copyHeight.toNat then
        src ((r.srcY.toNat + y) * sf.hostPitch + (r.srcX.toNat + x))
      else 0x00) ∧
    ∀ v < ctx.height.toNat / 2,
      stagePicture ctx sf dstPitch src dst (ctx.height.toNat * dstPitch + v * dstPitch + x) =
        let r := selectRegion ctx sf
        if x < r.copyWidth.toNat ∧ v < r.copyHeight.toNat / 2 then
          src (sf.hostYSize + (r.srcY.toNat / 2 + v) * sf.hostPitch + (r.srcX.toNat + x))
        else 0x80 := by
  obtain ⟨hw, -⟩ := selectRegion_le ctx sf
  unfold stagePicture
  split
  · next hwhole =>
    obtain ⟨hX, hY, hcw, hch, hpitch⟩ := hwhole
    have hxp : x < dstPitch := Nat.lt_of_lt_of_le hx hp
    simp only [hX, hY, hcw, hch, hpitch, hx, UInt32.toNat_zero, Nat.zero_add,
      Nat.zero_div, true_and]
    constructor
    · intro y hy
      rw [copyWhole_at hxp, if_neg (by omega), if_pos hy, if_pos hy]
    · intro v hv
      rw [← Nat.add_mul, copyWhole_at hxp, if_pos (by omega), if_pos hv, Nat.add_sub_cancel_left,
        Nat.add_assoc]
  · refine ⟨fun y hy => copyByRows_luma hp hx hw hy, fun v hv => ?_⟩
    rw [← Nat.add_mul]
    exact copyByRows_chroma hp hx hw hv

/-- What is not a sample: the rows below the chroma rows and the columns right of the picture. -/
theorem copyByRows_outside (hp : ctx.width.toNat ≤ dstPitch) (hx : x < dstPitch)
    (hw : r.copyWidth.toNat ≤ ctx.width.toNat) (hh : r.copyHeight.toNat ≤ ctx.height.toNat)
    (h : ctx.height.toNat + ctx.height.toNat / 2 ≤ row ∨ ctx.width.toNat ≤ x) :
    copyByRows ctx sf dstPitch src r dst (row * dstPitch + x) = dst (row * dstPitch + x) := by
  have hbase {c : Nat} : c = 0 * dstPitch + c := by simp
  have hbaseUV : ctx.height.toNat * dstPitch = ctx.height.toNat * dstPitch + 0 := rfl
  have hrow : 0 + ctx.width.toNat ≤ dstPitch := by omega
  have hpad : r.copyWidth.toNat + (ctx.width.toNat - r.copyWidth.toNat) ≤ dstPitch := by omega
  have hbelow {m : Nat → UInt8} :
      clearBelow ctx dstPitch r m (row * dstPitch + x) = m (row * dstPitch + x) := by
    unfold clearBelow
    dsimp only
    split
    · rw [Plane.memsetRows_at hbaseUV hrow hx, Plane.memsetRows_at hbase hrow hx, if_neg (by omega),
        if_neg (by omega)]
    · rfl
  have hright {m : Nat → UInt8} :
      clearRight ctx dstPitch r m (row * dstPitch + x) = m (row * dstPitch + x) := by
    unfold clearRight
    dsimp only
    split
    · rw [Plane.memsetRows_at rfl hpad hx, Plane.memsetRows_at hbase hpad hx, if_neg (by omega),
        if_neg (by omega)]
    · rfl
  unfold copyByRows
  rw [hbelow, hright, copyPayload_at (Nat.le_trans hw hp) hx, if_neg (by omega), if_neg (by omega)]

/-- The copy leaves the rest of the input buffer as it is. Only a copy in one piece also takes the
padding at the right of its rows along. -/
theorem stagePicture_outside (hp : ctx.width.toNat ≤ dstPitch) (hx : x < dstPitch)
    (h : ctx.height.toNat + ctx.height.toNat / 2 ≤ row ∨
      ctx.width.toNat ≤ x ∧ ¬WholePlane ctx sf dstPitch) :
    stagePicture ctx sf dstPitch src dst (row * dstPitch + x) = dst (row * dstPitch + x) := by
  obtain ⟨hw, hh⟩ := selectRegion_le ctx sf
  unfold stagePicture
  split
  · next hwhole =>
    have hrow := h.resolve_right fun hc => hc.2 hwhole
    rw [copyWhole_at hx, if_neg (by omega), if_neg (by omega)]
  · exact copyByRows_outside hp hx hw hh (h.imp_right And.left)

end Samples

/-- A surface that is smaller than the picture: a payload sample, the chroma padding at its right
and the luma padding below it. -/
theorem stagePicture_samples_padded :
    let staged := stagePicture (.created 6 4 false) (.created 4 2) 64 (fun i => UInt8.ofNat (i + 1))
      fun _ => 0xff
    staged 3 = 4 ∧ staged (4 * 64 + 5) = 0x80 ∧ staged (3 * 64 + 3) = 0x00 := by
  have h₃ :=
    @stagePicture_samples (.created 6 4 false) (.created 4 2) 64 (fun i => UInt8.ofNat (i + 1))
    (fun _ => 0xff) 3 (by decide) (by decide)
  have h₅ :=
    @stagePicture_samples (.created 6 4 false) (.created 4 2) 64 (fun i => UInt8.ofNat (i + 1))
    (fun _ => 0xff) 5 (by decide) (by decide)
  exact ⟨(h₃.1 0 (by decide)).trans (by decide), (h₅.2 0 (by decide)).trans (by decide),
    (h₃.1 3 (by decide)).trans (by decide)⟩

end NvVaapi
