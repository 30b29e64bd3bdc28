import NvVaapi.Image.RoundTrip

/-!
# Round trips in every format

* `RoundTrips`: a picture of a format and a size that is put to a surface and read back is the same
  in every plane.
* `roundTrips_nv12`: NV12 does. `not_roundTrips_wide`, `not_roundTrips_yuv444p`: with two bytes for
  a sample half of each row is not copied, and a third plane is not copied at all.
* `roundTrips_iff`: the sizes and formats that do.
-/

namespace NvVaapi.Image

open Objects (NVFormat NVContextMode GetResults)

/-- Every byte of every plane of the image `src` is in the memory `m`. -/
def SamePlanes (src : NVImage) (pixelCount : Int) (m₁ m : Memory) : Prop :=
  ∀ (i : Fin 3) (p : NVFormatPlane), (plane src.format)[i.val]? = some p →
    ∀ k < (planeSize src.format pixelCount p).toNat,
      m ((src.offsets i).toNat + k) = m₁ ((src.offsets i).toNat + k)

/-- An image with any bytes is put to a surface of its size that was not decoded to, and what is
read back to an image of its format are these bytes. -/
def RoundTrips (fourcc : VAFourcc) (width height : Int32) : Prop :=
  ∀ (calloc : Bool) (sf : NVSurface) (mode : Option NVContextMode) (replies : GetResults)
    (m₁ m₂ : Memory), sf.width = width.toUInt32 ∧ sf.height = height.toUInt32 →
    (ensureSurfaceHostBuffer calloc sf).isSome → mode ≠ some .decode →
    ∃ src dst, nvCreateImage fourcc width height (some m₁) = some (.ok src) ∧
      nvCreateImage fourcc width height (some m₂) = some (.ok dst) ∧
      let put := nvPutImage calloc sf src
        (EvenCopy.args 0 0 0 0 width.toUInt32 height.toUInt32)
      put.status = .success ∧ ∃ get m,
        nvGetImage mode put.after dst 0 0 width.toUInt32 height.toUInt32 replies = some get ∧
          get.status = .success ∧ get.after.ptr = some m ∧
          SamePlanes src (width.toInt * height.toInt) m₁ m

/-! ## Sizes -/

/-- Even sizes whose product is an `int`. -/
structure EvenSize (width height : Int32) : Prop where
  product : width.toInt * height.toInt = (width.toUInt32.toNat * height.toUInt32.toNat : Nat)
  lt : width.toUInt32.toNat * height.toUInt32.toNat < 2 ^ 31
  pos : 0 < width.toUInt32.toNat ∧ 0 < height.toUInt32.toNat
  even : width.toUInt32.toNat % 2 = 0 ∧ height.toUInt32.toNat % 2 = 0

theorem toInt_of_nonneg {x : Int32} (h : 0 ≤ x) : x.toInt = x.toUInt32.toNat := by
  have hx : 0 ≤ x.toInt := Int32.le_iff_toInt_le.mp h
  rw [Int32.toNat_toUInt32_of_le h]
  exact (Int.toNat_of_nonneg hx).symm

section Sizes

variable {width height : Int32} (h : EvenSize width height)
include h

theorem EvenSize.pixels_eq : pixels width height = some (width.toInt * height.toInt) := by
  have hlt := h.lt
  have hp := h.product
  exact if_pos ⟨by omega, by omega⟩

/-- The luma plane, or a plane that is not subsampled. -/
theorem EvenSize.planeSize_eq (format : NVFormat) :
    (planeSize format (width.toInt * height.toInt) ⟨1, 0, 0⟩).toNat =
      width.toUInt32.toNat * height.toUInt32.toNat * format.bppc.toNat := by
  have hlt := h.lt
  have hb : format.bppc.toNat ≤ 2 := by cases format <;> decide
  have hn : (UInt32.ofInt (width.toInt * height.toInt)).toNat =
      width.toUInt32.toNat * height.toUInt32.toNat := by
    rw [h.product, toNat_ofInt]
    omega
  have hle := Nat.mul_le_mul_left (width.toUInt32.toNat * height.toUInt32.toNat) hb
  simp only [planeSize, Nat.add_zero, Int.shiftRight_zero, UInt32.mul_one, UInt32.toNat_mul, hn]
  exact Nat.mod_eq_of_lt (by omega)

/-- The pitch of every plane. -/
theorem EvenSize.pitch_eq (format : NVFormat) :
    (width.toUInt32 * format.bppc).toNat = width.toUInt32.toNat * format.bppc.toNat := by
  have hlt := h.lt
  have hle := Nat.le_mul_of_pos_right width.toUInt32.toNat h.pos.2
  have hb : format.bppc.toNat ≤ 2 := by cases format <;> decide
  have hle' := Nat.mul_le_mul_left width.toUInt32.toNat hb
  rw [UInt32.toNat_mul]
  exact Nat.mod_eq_of_lt (by omega)

/-- The offset of the second plane. -/
theorem EvenSize.planeOffset_one (format : NVFormat) :
    (planeOffset format (width.toInt * height.toInt) 1).toNat =
      width.toUInt32.toNat * height.toUInt32.toNat * format.bppc.toNat := by
  have hoff : planeOffset format (width.toInt * height.toInt) 1 =
      planeSize format (width.toInt * height.toInt) ⟨1, 0, 0⟩ := by
    cases format <;> simp [planeOffset, plane]
  rw [hoff, h.planeSize_eq]

theorem EvenSize.layout_eq (format : NVFormat) (memory : Option Memory) :
    (createdImage format width height (width.toInt * height.toInt) memory).layout =
      ⟨0, width.toUInt32.toNat * format.bppc.toNat,
        width.toUInt32.toNat * height.toUInt32.toNat * format.bppc.toNat,
        width.toUInt32.toNat * format.bppc.toNat⟩ := by
  have hb : 0 < format.bppc.toNat := by cases format <;> decide
  have hne : width.toUInt32 * format.bppc ≠ 0 := by
    intro h0
    have hpos := Nat.mul_pos h.pos.1 hb
    rw [← h.pitch_eq, h0] at hpos
    exact Nat.lt_irrefl _ hpos
  simp only [NVImage.layout, createdImage, ne_eq, hne, not_false_eq_true, if_true, h.pitch_eq]
  rw [← h.planeOffset_one format]
  rfl

end Sizes

/-! ## What comes back -/

section Full

variable {width height : Int32} {calloc : Bool} {sf : NVSurface} {r : NVSurface × Memory}
variable {mode : Option NVContextMode} {m₁ m₂ m : Memory}

/-- The image of a format and a size, with the memory `m`. -/
def fullImage (format : NVFormat) (width height : Int32) (m : Memory) : NVImage :=
  createdImage format width height (width.toInt * height.toInt) (some m)

theorem EvenSize.create_eq (h : EvenSize width height) (format : NVFormat) :
    nvCreateImage (vaFormat format) width height (some m) =
      some (.ok (fullImage format width height m)) := by
  rw [nvCreateImage, nvFormatFromVaFormat_vaFormat, h.pixels_eq]
  rfl

theorem toNat_origin : (0 : Int32).toUInt32.toNat = 0 := rfl

/-- The whole picture, as the rectangle that is put and got. -/
theorem EvenSize.evenCopy (h : EvenSize width height) (format : NVFormat) (m₁ m₂ : Memory)
    {sf : EncodeSurface}
    (hsf : sf.width = width.toUInt32 ∧ sf.height = height.toUInt32) :
    EvenCopy (fullImage format width height m₁) (fullImage format width height m₂) sf 0 0 0 0
      width.toUInt32 height.toUInt32 where
  nonneg := by decide
  even_src := by decide
  even_dest := by decide
  even_size := h.even
  in_src := by simp [fullImage, createdImage, toNat_origin]
  in_surface := by simp [hsf.1, hsf.2, toNat_origin]
  in_dst := by simp [fullImage, createdImage]

/-- What a full put and a full get leave in the second image. -/
def readBack (format : NVFormat) (width height : Int32) (sf : EncodeSurface) (m₁ m₂ host : Memory) :
    Memory :=
  let copies := TwoPlane.rect 0 0 0 0 width.toUInt32.toNat height.toUInt32.toNat
  (fullImage format width height m₂).layout.copy (hostLayout sf) copies
    ((hostLayout sf).copy (fullImage format width height m₁).layout copies m₁ host) m₂

theorem EvenSize.put_get (h : EvenSize width height) (format : NVFormat) (m₁ m₂ : Memory)
    (hsf : sf.width = width.toUInt32 ∧ sf.height = height.toUInt32)
    (he : ensureSurfaceHostBuffer calloc sf = some r) (hmode : mode ≠ some .decode)
    (replies : GetResults) :
    let put := nvPutImage calloc sf (fullImage format width height m₁)
      (EvenCopy.args 0 0 0 0 width.toUInt32 height.toUInt32)
    put.status = .success ∧ ∃ get, nvGetImage mode put.after (fullImage format width height m₂) 0 0
      width.toUInt32 height.toUInt32 replies = some get ∧ get.status = .success ∧
        get.after.ptr = some (readBack format width height sf.toEncodeSurface m₁ m₂ r.2) := by
  intro put
  have hcopy := h.evenCopy format m₁ m₂ hsf
  have hput := putImage_even hcopy he rfl h.pos.1 h.pos.2
  have hhost := putImage_hostData hcopy he rfl h.pos.1 h.pos.2
  have hafter := nvPutImage_size calloc sf (fullImage format width height m₁)
    (EvenCopy.args 0 0 0 0 width.toUInt32 height.toUInt32)
  have hget := getImage_even (hcopy.of_size hafter) hhost rfl h.pos.1 h.pos.2
  refine ⟨congrArg Transfer.status hput, _, nvGetImage_host hmode _ _ _,
    congrArg Transfer.status hget, (congrArg (fun t => t.after.ptr) hget).trans ?_⟩
  rw [hostLayout_congr hafter]
  rfl

/-- The place `k` of a plane whose rows have `w` bytes. -/
theorem row_lt {k w h : Nat} (hk : k < w * h) : k / w < h ∧ k % w < w ∧ k / w * w + k % w = k := by
  have hw : 0 < w := Nat.pos_of_lt_mul_right hk
  refine ⟨Nat.div_lt_of_lt_mul hk, Nat.mod_lt _ hw, ?_⟩
  rw [Nat.mul_comm]
  exact Nat.div_add_mod k w

theorem EvenSize.sizesFit (h : EvenSize width height) {sf : EncodeSurface}
    (hsf : sf.width = width.toUInt32 ∧ sf.height = height.toUInt32) : sf.SizesFit := by
  have hlt := h.lt
  have hw := Nat.le_mul_of_pos_right width.toUInt32.toNat h.pos.2
  have hh := Nat.le_mul_of_pos_left height.toUInt32.toNat h.pos.1
  have hp : sf.hostPitch ≤ 2 ^ 31 := by
    rw [sf.hostPitch_eq, hsf.1]
    omega
  have hr : sf.hostRows ≤ 2 ^ 31 := by
    rw [sf.hostRows_eq, hsf.2]
    omega
  have hy : sf.hostPitch * sf.hostRows ≤ 2 ^ 31 * 2 ^ 31 := Nat.mul_le_mul hp hr
  have hc : sf.hostPitch * (sf.hostRows / 2) ≤ 2 ^ 31 * 2 ^ 31 := Nat.mul_le_mul hp (by omega)
  refine ⟨by rw [hsf.1]; omega, by rw [hsf.2]; omega, ?_⟩
  unfold EncodeSurface.hostYSize
  omega

/-- The chroma plane of NV12. -/
theorem EvenSize.planeSize_chroma (h : EvenSize width height) :
    (planeSize .nv12 (width.toInt * height.toInt) ⟨2, 1, 1⟩).toNat =
      width.toUInt32.toNat * (height.toUInt32.toNat / 2) := by
  have hlt := h.lt
  have hquarter : width.toUInt32.toNat * height.toUInt32.toNat / 4 * 2 =
      width.toUInt32.toNat * (height.toUInt32.toNat / 2) := by
    obtain ⟨a, ha⟩ := Nat.dvd_of_mod_eq_zero h.even.1
    obtain ⟨b, hb⟩ := Nat.dvd_of_mod_eq_zero h.even.2
    have hprod : 2 * a * (2 * b) = 4 * (a * b) := by
      rw [Nat.mul_mul_mul_comm]
    rw [ha, hb, hprod, Nat.mul_div_cancel_left _ (by decide), Nat.mul_div_cancel_left _ (by decide),
      Nat.mul_comm, Nat.mul_assoc]
  have hn : (UInt32.ofInt ((width.toInt * height.toInt) >>> (1 + 1 : Nat))).toNat =
      width.toUInt32.toNat * height.toUInt32.toNat / 4 := by
    rw [h.product, toNat_ofInt, Int.shiftRight_eq_div_pow]
    omega
  rw [← hquarter, ← hn]
  simp only [planeSize, NVFormat.bppc, UInt32.mul_one, UInt32.toNat_mul, UInt32.reduceToNat, hn]
  exact Nat.mod_eq_of_lt (by omega)

theorem EvenSize.samePlanes_nv12 (h : EvenSize width height)
    (hs : ((fullImage .nv12 width height m₂).layout.picture m).SameRect
      ((fullImage .nv12 width height m₁).layout.picture m₁) 0 0 0 0 width.toUInt32.toNat
      height.toUInt32.toNat) :
    SamePlanes (fullImage .nv12 width height m₁) (width.toInt * height.toInt) m₁ m := by
  have hl (memory : Memory) : (fullImage .nv12 width height memory).layout = _ :=
    h.layout_eq .nv12 (some memory)
  rw [hl, hl] at hs
  intro i p hp k hk
  match i with
  | 0 =>
    obtain rfl : (⟨1, 0, 0⟩ : NVFormatPlane) = p := Option.some_inj.mp hp
    have hsize : (planeSize .nv12 (width.toInt * height.toInt) ⟨1, 0, 0⟩).toNat =
        width.toUInt32.toNat * height.toUInt32.toNat * 1 := h.planeSize_eq .nv12
    obtain ⟨hrow, hcol, hplace⟩ := row_lt (hk.trans_eq (hsize.trans (Nat.mul_one _)))
    have hbyte := hs.1 _ hrow _ hcol
    simp only [TwoPlane.picture, TwoPlane.luma, NVFormat.bppc, UInt32.reduceToNat, Nat.mul_one,
      Nat.zero_add, hplace] at hbyte
    have hoff : (fullImage .nv12 width height m₁).offsets 0 = 0 := rfl
    rw [hoff, UInt32.toNat_zero, Nat.zero_add]
    exact hbyte
  | 1 =>
    obtain rfl : (⟨2, 1, 1⟩ : NVFormatPlane) = p := Option.some_inj.mp hp
    obtain ⟨hrow, hcol, hplace⟩ := row_lt (hk.trans_eq h.planeSize_chroma)
    have hbyte := hs.2 _ hrow _ hcol
    simp only [TwoPlane.picture, TwoPlane.chroma, NVFormat.bppc, UInt32.reduceToNat, Nat.mul_one,
      Nat.zero_add, Nat.zero_div, hplace] at hbyte
    have hoff : ((fullImage .nv12 width height m₁).offsets 1).toNat =
        width.toUInt32.toNat * height.toUInt32.toNat :=
      (h.planeOffset_one .nv12).trans (Nat.mul_one _)
    rw [hoff]
    exact hbyte
  | 2 => cases hp

/-! ## What is not copied -/

/-- With two bytes for a sample, the second half of a row stays as it was. -/
theorem EvenSize.readBack_wide (h : EvenSize width height) {format : NVFormat}
    (hb : format.bppc.toNat = 2) (sf : EncodeSurface) (host : Memory) :
    readBack format width height sf m₁ m₂ host width.toUInt32.toNat = m₂ width.toUInt32.toNat := by
  have hl : (fullImage format width height m₂).layout = _ := h.layout_eq format (some m₂)
  have hpos := h.pos
  have hle := Nat.le_mul_of_pos_right width.toUInt32.toNat hpos.2
  unfold readBack TwoPlane.copy
  rw [hl, hb]
  have hchroma : width.toUInt32.toNat < width.toUInt32.toNat * height.toUInt32.toNat * 2 := by omega
  refine (PlaneCopy.run_before hchroma).trans ?_
  -- the place behind the bytes of row 0 that are copied
  have hplace :
      width.toUInt32.toNat = 0 + (0 * (width.toUInt32.toNat * 2) + width.toUInt32.toNat) := by
    omega
  refine PlaneCopy.run_of_not_covers ?_ ?_ hplace fun hcovers => ?_
  · show 0 + width.toUInt32.toNat ≤ width.toUInt32.toNat * 2
    omega
  · show width.toUInt32.toNat < width.toUInt32.toNat * 2
    omega
  · have hx : width.toUInt32.toNat < 0 + width.toUInt32.toNat := hcovers.2.2.2
    omega

/-- The third plane stays as it was. -/
theorem EvenSize.readBack_yuv444p (h : EvenSize width height) (sf : EncodeSurface) (host : Memory) :
    readBack .yuv444p width height sf m₁ m₂ host
        (width.toUInt32.toNat * height.toUInt32.toNat + width.toUInt32.toNat *
          height.toUInt32.toNat) =
      m₂ (width.toUInt32.toNat * height.toUInt32.toNat +
        width.toUInt32.toNat * height.toUInt32.toNat) := by
  have hl : (fullImage .yuv444p width height m₂).layout = _ := h.layout_eq .yuv444p (some m₂)
  have hb : NVFormat.yuv444p.bppc.toNat = 1 := rfl
  unfold readBack TwoPlane.copy
  rw [hl, hb]
  refine (PlaneCopy.run_behind ?_ ?_).trans (PlaneCopy.run_behind ?_ ?_)
  · show 0 + width.toUInt32.toNat ≤ width.toUInt32.toNat * 1
    omega
  · show width.toUInt32.toNat * height.toUInt32.toNat * 1 +
      (0 / 2 + height.toUInt32.toNat / 2) * (width.toUInt32.toNat * 1) ≤ _
    have hrows : height.toUInt32.toNat / 2 * width.toUInt32.toNat ≤
        height.toUInt32.toNat * width.toUInt32.toNat := Nat.mul_le_mul_right _ (by omega)
    rw [Nat.mul_comm height.toUInt32.toNat] at hrows
    simp only [Nat.mul_one, Nat.zero_div, Nat.zero_add]
    omega
  · show 0 + width.toUInt32.toNat ≤ width.toUInt32.toNat * 1
    omega
  · show 0 + (0 + height.toUInt32.toNat) * (width.toUInt32.toNat * 1) ≤ _
    rw [Nat.mul_one, Nat.zero_add, Nat.zero_add, Nat.mul_comm]
    omega

/-! ## Which formats and sizes -/

theorem roundTrips_nv12 (h : EvenSize width height) : RoundTrips .nv12 width height := by
  intro calloc sf mode replies m₁ m₂ hsf hhost hmode
  obtain ⟨r, he⟩ := Option.isSome_iff_exists.mp hhost
  obtain ⟨hput, get, hget, hs, hm⟩ := h.put_get .nv12 m₁ m₂ hsf he hmode replies
  refine ⟨_, _, h.create_eq .nv12, h.create_eq .nv12, hput, get, _, hget, hs, hm, ?_⟩
  have hcopy := h.evenCopy .nv12 m₁ m₂ hsf
  have hlt := h.lt
  have hroom : (fullImage .nv12 width height m₂).layout.Room width.toUInt32.toNat
      height.toUInt32.toNat := room_created (h.create_eq .nv12) (Nat.lt_trans h.lt (by decide))
  refine h.samePlanes_nv12 ((TwoPlane.sameRect_copy hroom ?_ ?_).trans
    (TwoPlane.sameRect_copy (room_host (h.sizesFit hsf)) hcopy.in_surface.1 hcopy.in_surface.2))
  · omega
  · omega

/-- A size with which something comes back. -/
theorem EvenSize.of_roundTrips {format : NVFormat} (hw : 0 ≤ width ∧ width.toUInt32.toNat % 2 = 0)
    (hh : 0 ≤ height ∧ height.toUInt32.toNat % 2 = 0)
    (h : RoundTrips (vaFormat format) width height) : EvenSize width height := by
  have hproduct :
      width.toInt * height.toInt = (width.toUInt32.toNat * height.toUInt32.toNat : Nat) := by
    rw [toInt_of_nonneg hw.1, toInt_of_nonneg hh.1, Int.natCast_mul]
  obtain ⟨src, dst, hsrc, -, -, get, m, hget, hs, -⟩ := h true
    (plainSurface width.toUInt32 height.toUInt32 fun _ => 0) none ⟨true, true, fun _ => true⟩
    (fun _ => 0) (fun _ => 0) ⟨rfl, rfl⟩ rfl (by decide)
  have hlt : width.toInt * height.toInt < 2 ^ 31 := by
    obtain ⟨n, hn, -⟩ := nvCreateImage_ok format hsrc
    simp only [pixels, Option.ite_none_right_eq_some] at hn
    exact hn.1.2
  have hpos : 0 < width.toUInt32.toNat ∧ 0 < height.toUInt32.toNat := by
    rw [nvGetImage_host (by decide)] at hget
    obtain rfl := Option.some_inj.mp hget
    obtain ⟨-, -, -, -, ⟨-, hstart⟩, -⟩ := getImageHost_success hs
    have hafter := nvPutImage_size true (plainSurface width.toUInt32 height.toUInt32 fun _ => 0) src
      (EvenCopy.args 0 0 0 0 width.toUInt32 height.toUInt32)
    rw [hafter.1, hafter.2, not_or, UInt32.not_le, UInt32.not_le] at hstart
    exact hstart
  exact ⟨hproduct, by omega, hpos, hw.2, hh.2⟩

/-- A byte of a plane that stays as it was in the second image does not come back. -/
theorem EvenSize.not_roundTrips (h : EvenSize width height) {format : NVFormat} {i : Fin 3}
    {p : NVFormatPlane} {k a : Nat} (hp : (plane format)[i.val]? = some p)
    (hk : k < (planeSize format (width.toInt * height.toInt) p).toNat)
    (ha : (planeOffset format (width.toInt * height.toInt) i).toNat + k = a)
    (hsame : ∀ m₁ m₂ : Memory, ∀ sf host, readBack format width height sf m₁ m₂ host a = m₂ a) :
    ¬RoundTrips (vaFormat format) width height := by
  intro hr
  have hmode : (none : Option NVContextMode) ≠ some .decode := by decide
  have he : ensureSurfaceHostBuffer true (plainSurface width.toUInt32 height.toUInt32 fun _ => 0) =
    some (plainSurface width.toUInt32 height.toUInt32 fun _ => 0, fun _ => 0) := rfl
  obtain ⟨src, dst, hsrc, hdst, -, get, m, hget, -, hm, hback⟩ := hr true
    (plainSurface width.toUInt32 height.toUInt32 fun _ => 0) none ⟨true, true, fun _ => true⟩
    (fun _ => 1) (fun _ => 2) ⟨rfl, rfl⟩ rfl hmode
  obtain rfl : fullImage format width height (fun _ => 1) = src := by
    simpa [h.create_eq format] using hsrc
  obtain rfl : fullImage format width height (fun _ => 2) = dst := by
    simpa [h.create_eq format] using hdst
  obtain ⟨-, get', hget', -, hm'⟩ := h.put_get format (fun _ => 1) (fun _ => 2) ⟨rfl, rfl⟩ he hmode
    ⟨true, true, fun _ => true⟩
  obtain rfl : get = get' := Option.some_inj.mp (hget.symm.trans hget')
  obtain rfl := Option.some_inj.mp (hm.symm.trans hm')
  have hone := hback i p hp k hk
  rw [show (fullImage format width height fun _ => 1).offsets i =
    planeOffset format (width.toInt * height.toInt) i from rfl, ha, hsame] at hone
  exact absurd (show (2 : UInt8) = 1 from hone) (by decide)

theorem EvenSize.not_roundTrips_wide (h : EvenSize width height) {format : NVFormat}
    (hb : format.bppc.toNat = 2) (hp : (plane format)[0]? = some ⟨1, 0, 0⟩) :
    ¬RoundTrips (vaFormat format) width height := by
  have hpos := h.pos
  have hle := Nat.le_mul_of_pos_right width.toUInt32.toNat hpos.2
  have hk :
      width.toUInt32.toNat < (planeSize format (width.toInt * height.toInt) ⟨1, 0, 0⟩).toNat := by
    rw [h.planeSize_eq, hb]
    omega
  have hzero : (planeOffset format (width.toInt * height.toInt) 0).toNat = 0 := rfl
  refine h.not_roundTrips (i := 0) hp hk ?_ fun m₁ m₂ sf host => h.readBack_wide hb sf host
  exact (congrArg (· + _) hzero).trans (Nat.zero_add _)

theorem EvenSize.not_roundTrips_yuv444p (h : EvenSize width height) :
    ¬RoundTrips .yuv444p width height := by
  have hpos := Nat.mul_pos h.pos.1 h.pos.2
  have hlt := h.lt
  have hsize := h.planeSize_eq .yuv444p
  rw [show NVFormat.yuv444p.bppc.toNat = 1 from rfl, Nat.mul_one] at hsize
  have hoff : (planeOffset .yuv444p (width.toInt * height.toInt) 2).toNat =
      width.toUInt32.toNat * height.toUInt32.toNat + width.toUInt32.toNat *
        height.toUInt32.toNat := by
    simp only [planeOffset, plane, List.take_succ_cons, List.take_zero, List.map_cons, List.map_nil,
      List.sum_cons, List.sum_nil, UInt32.add_zero, UInt32.toNat_add, hsize]
    exact Nat.mod_eq_of_lt (by omega)
  exact h.not_roundTrips (i := 2) (k := 0) rfl (hsize ▸ hpos) hoff
    fun m₁ m₂ sf host => h.readBack_yuv444p sf host

end Full

/-- Of the formats that are listed, NV12 comes back, in every even size that an image can have. -/
theorem roundTrips_iff {info : Objects.DriverInfo} {fourcc : VAFourcc} {width height : Int32}
    (hl : fourcc ∈ nvQueryImageFormats info) (hw : 0 ≤ width ∧ width.toUInt32.toNat % 2 = 0)
    (hh : 0 ≤ height ∧ height.toUInt32.toNat % 2 = 0) :
    RoundTrips fourcc width height ↔
      fourcc = .nv12 ∧ 0 < width ∧ 0 < height ∧ width.toInt * height.toInt < 2 ^ 31 := by
  obtain ⟨format, rfl⟩ := exists_format_of_listed hl
  have hwidth := toInt_of_nonneg hw.1
  have hheight := toInt_of_nonneg hh.1
  rw [Int32.lt_iff_toInt_lt, Int32.lt_iff_toInt_lt, hwidth, hheight, Int32.toInt_zero,
    ← Int.natCast_mul]
  constructor
  · intro h
    have hsize := EvenSize.of_roundTrips hw hh h
    have hpos := hsize.pos
    have hlt := hsize.lt
    refine ⟨?_, by omega, by omega, by omega⟩
    cases format with
    | nv12 => rfl
    | yuv444p => exact absurd h hsize.not_roundTrips_yuv444p
    | p010 | p012 | p016 | q416 => exact absurd h (hsize.not_roundTrips_wide rfl rfl)
  · rintro ⟨hf, hpw, hph, hlt⟩
    rw [hf]
    refine roundTrips_nv12 ⟨?_, by omega, ⟨by omega, by omega⟩, hw.2, hh.2⟩
    rw [hwidth, hheight, Int.natCast_mul]

/-- NV12 pictures of 16x8. -/
theorem roundTrips_iff_16x8 : RoundTrips .nv12 16 8 := by
  have hl : .nv12 ∈ nvQueryImageFormats ⟨true, true, true, false, false⟩ := by decide
  exact (roundTrips_iff hl (by decide) (by decide)).mpr (by decide)

/-- P010 is listed where surfaces with 16 bits are supported, and does not come back. -/
theorem roundTrips_p010_fails : .p010 ∈ nvQueryImageFormats ⟨true, true, true, false, false⟩ ∧
    ¬RoundTrips .p010 16 8 := by
  have hsize : EvenSize 16 8 := ⟨by decide, by decide, by decide, by decide⟩
  have hb : NVFormat.p010.bppc.toNat = 2 := rfl
  exact ⟨by decide, hsize.not_roundTrips_wide hb rfl⟩

end NvVaapi.Image
