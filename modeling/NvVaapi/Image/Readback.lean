import NvVaapi.Image.RoundTrip
import NvVaapi.Lib.Filling
import Mathlib.Algebra.Order.BigOperators.Group.List
import Mathlib.Tactic.Ring

/-!
# The room that an image has for a surface

* `readParts`: where `nvGetImage` writes a surface into an image of its size, on either path, and
  what it writes there. `nvGetImage_copiedTo` connects it with the copies.
* `ComesWith`: the running offset with which the loop over the planes comes to a plane.
* `NVImage.HasRoom`: each block starts where its plane does, and its rows end where the plane ends.
* `planeBytes`, `imageBytes`: the sizes without a bound on them. The sizes of a created image are
  these where 32 bits hold the sum.
* `rows_le_planeBytes`: the rows of a plane are not more than its share of the pixels. For a plane
  with half the columns and half the rows both are rounded down.
* `readback_hasRoom`: created images have room for every readback of their size.
-/

namespace NvVaapi.Image

open Objects (NVFormat NVContextMode GetResults)

/-! ## Where a readback writes -/

/-- The places that `copyArrays` copies the planes to. -/
def deviceBlocks (format : NVFormat) (width height : UInt32) :
    List NVFormatPlane → (offset : UInt32) → List Block
  | [], _ => []
  | p :: ps, offset =>
    let widthInBytes := (width >>> UInt32.ofNat p.ssX) * format.bppc * p.channelCount
    let size := ((width * height) >>> UInt32.ofNat (p.ssX + p.ssY)) * format.bppc * p.channelCount
    ⟨offset.toNat, (width * format.bppc).toNat, widthInBytes.toNat,
      (height >>> UInt32.ofNat p.ssY).toNat⟩ ::
      deviceBlocks format width height ps (offset + size)

/-- The place that a part of a plane is copied to. -/
def copyBlock (c : PlaneCopy) (offset pitch : Nat) : Block :=
  ⟨offset + (c.dstY * pitch + c.dstX), pitch, c.width, c.rows⟩

/-- The places that `getImageHost` copies the planes to. -/
def hostBlocks (sf : EncodeSurface) (img : NVImage) (x y : Int32) (width height : UInt32) :
    List Block :=
  let copies := getCopies sf img x y width height
  [copyBlock copies.1 img.layout.offsetY img.layout.pitchY,
    copyBlock copies.2 img.layout.offsetUV img.layout.pitchUV]

/-- The places of the loop over the planes, with the arrays that are copied to them. -/
def deviceParts (format : NVFormat) (width height : UInt32) (arrays : Nat → CUarray)
    (ps : List NVFormatPlane) (i : Nat) (offset : UInt32) : List (Block × CUarray) :=
  ((deviceBlocks format width height ps offset).zipIdx i).map fun b => (b.1, arrays b.2)

/-- The part of a plane that is copied, by row and column. -/
def copySource (c : PlaneCopy) (pix : Nat → Nat → UInt8) : Nat → Nat → UInt8 :=
  fun r x => pix (c.srcY + r) (c.srcX + x)

/-- The places for the planes of the host buffer, with what is copied to them. -/
def hostParts (sf : EncodeSurface) (host : Memory) (img : NVImage) (x y : Int32)
    (width height : UInt32) : List (Block × (Nat → Nat → UInt8)) :=
  let copies := getCopies sf img x y width height
  let picture := (hostLayout sf).picture host
  [(copyBlock copies.1 img.layout.offsetY img.layout.pitchY, copySource copies.1 picture.luma),
    (copyBlock copies.2 img.layout.offsetUV img.layout.pitchUV, copySource copies.2 picture.chroma)]

/-- The places that a readback of the size of the image is copied to, with what is copied to
them. -/
def readParts (mode : Option NVContextMode) (sf : NVSurface) (img : NVImage) :
    List (Block × (Nat → Nat → UInt8)) :=
  if mode = none ∨ mode = some .encode then
    hostParts sf.toEncodeSurface (sf.hostData.getD fun _ => 0) img 0 0 img.width img.height
  else
    deviceParts img.format img.width img.height (sf.backingImage.getD fun _ _ _ => 0)
      (plane img.format) 0 0

def readBlocks (mode : Option NVContextMode) (sf : NVSurface) (img : NVImage) : List Block :=
  (readParts mode sf img).map Prod.fst

theorem readBlocks_eq (mode : Option NVContextMode) (sf : NVSurface) (img : NVImage) :
    readBlocks mode sf img = if mode = none ∨ mode = some .encode then
      hostBlocks sf.toEncodeSurface img 0 0 img.width img.height
    else deviceBlocks img.format img.width img.height (plane img.format) 0 := by
  unfold readBlocks readParts
  split
  · rfl
  · unfold deviceParts
    rw [List.map_map]
    exact List.zipIdx_map_fst 0 _

/-- The loop over the planes of an image comes to plane `i` with the running offset `offset`. -/
def ComesWith (format : NVFormat) (width height : UInt32) (i : Nat) (offset : UInt32) : Prop :=
  ∀ (arrays : Nat → CUarray) (done : Nat → Bool) (dst : Memory),
    copyArrays format width height arrays done (plane format) 0 0 dst =
      let c := copyArrays format width height arrays done ((plane format).take i) 0 0 dst
      if c.1 then copyArrays format width height arrays done ((plane format).drop i) i offset c.2
      else c

/-- `image->data_size` -/
def NVImage.dataSize (img : NVImage) : UInt32 := UInt32.ofNat img.size

theorem neZero_three : NeZero 3 := ⟨by decide⟩

attribute [local instance] neZero_three in
/-- Where plane `i` ends: where the next one starts, and for the last one at `data_size`. -/
def NVImage.planeEnd (img : NVImage) (i : Fin 3) : Nat :=
  if i.val + 1 < (plane img.format).length then (img.offsets (i + 1)).toNat else img.dataSize.toNat

/-- Each block is one for a plane of the image: it starts where the plane does and stays inside. -/
structure NVImage.HasRoom (img : NVImage) (blocks : List Block) : Prop where
  length_le : blocks.length ≤ (plane img.format).length
  offset : ∀ (i : Fin 3) (b : Block), blocks[i.val]? = some b → b.offset = (img.offsets i).toNat
  inside : ∀ (i : Fin 3) (b : Block), blocks[i.val]? = some b →
    b.Inside (img.offsets i).toNat (img.planeEnd i)
  end_le : ∀ i : Fin 3, img.planeEnd i ≤ img.size

section Writes

variable {format : NVFormat} {width height : UInt32} {sf : NVSurface} {img : NVImage} {dst : Memory}

/-- The loop copies to the first blocks, up to the one that fails. -/
theorem copyArrays_fills (arrays : Nat → CUarray) (done : Nat → Bool) (ps : List NVFormatPlane)
    (i : Nat) (offset : UInt32) (dst : Memory) :
    ∃ parts, parts <+: deviceParts format width height arrays ps i offset ∧
      ((copyArrays format width height arrays done ps i offset dst).1 = true →
        parts = deviceParts format width height arrays ps i offset) ∧
      (copyArrays format width height arrays done ps i offset dst).2 = Block.fillAll parts dst := by
  induction ps generalizing i offset dst with
  | nil => exact ⟨[], List.nil_prefix, fun _ => rfl, rfl⟩
  | cons p ps ih =>
    unfold copyArrays
    cases done i with
    | false => exact ⟨[], List.nil_prefix, nofun, rfl⟩
    | true =>
      obtain ⟨parts, hpre, hall, hfill⟩ := ih (i + 1)
        (offset + ((width * height) >>> UInt32.ofNat (p.ssX + p.ssY)) * format.bppc *
          p.channelCount)
        (memcpy2D (arrays i) offset (width * format.bppc)
          ((width >>> UInt32.ofNat p.ssX) * format.bppc * p.channelCount)
          (height >>> UInt32.ofNat p.ssY) dst)
      refine ⟨_ :: parts, List.cons_prefix_cons.mpr ⟨rfl, hpre⟩, fun hdone => ?_, hfill⟩
      exact congrArg _ (hall hdone)

/-- The copies from the host buffer fill both places. -/
theorem copy_eq_fillAll (sf : EncodeSurface) (img : NVImage) (x y : Int32) (width height : UInt32)
    (host dst : Memory) :
    img.layout.copy (hostLayout sf) (getCopies sf img x y width height) host dst =
      Block.fillAll (hostParts sf host img x y width height) dst := by
  unfold TwoPlane.copy
  rw [PlaneCopy.run_eq, PlaneCopy.run_eq]
  rfl

/-- `t` is copies to the first of the places, and to all of them where it succeeds. -/
def CopiedTo (parts : List (Block × (Nat → Nat → UInt8))) (dst : Memory) (t : Transfer NVImage) :
    Prop :=
  ∃ made, made <+: parts ∧ (t.status = .success → made = parts) ∧
    t.after.ptr = some (Block.fillAll made dst)

theorem copiedTo_plain {status : Objects.VAStatus} {parts : List (Block × (Nat → Nat → UInt8))}
    (hptr : img.ptr = some dst) (hstatus : status ≠ .success) :
    CopiedTo parts dst (.plain status img) :=
  ⟨[], List.nil_prefix, fun hs => absurd hs hstatus, hptr⟩

theorem getImageHost_copiedTo (hptr : img.ptr = some dst) (x y : Int32) (width height : UInt32) :
    CopiedTo (hostParts sf.toEncodeSurface (sf.hostData.getD fun _ => 0) img x y width height) dst
      (getImageHost sf img x y width height) := by
  unfold getImageHost
  split
  · next host m hhost hm =>
    obtain rfl : dst = m := Option.some_inj.mp (hptr.symm.trans hm)
    rw [hhost, Option.getD_some]
    split
    · exact copiedTo_plain hptr (by decide)
    · refine ⟨_, List.prefix_rfl, fun _ => rfl, ?_⟩
      exact congrArg some (copy_eq_fillAll sf.toEncodeSurface img x y width height host dst)
  · exact copiedTo_plain hptr (by decide)

theorem getImageDevice_copiedTo {r : GetResults} {t : Transfer NVImage} (hptr : img.ptr = some dst)
    (h : getImageDevice sf img width height r = some t) :
    CopiedTo (deviceParts img.format width height (sf.backingImage.getD fun _ _ _ => 0)
      (plane img.format) 0 0) dst t := by
  unfold getImageDevice at h
  split at h
  · obtain rfl := Option.some_inj.mp h
    exact copiedTo_plain hptr (by decide)
  · obtain ⟨arrays, harrays, h⟩ := Option.bind_eq_some_iff.mp h
    obtain ⟨m, hm, h⟩ := Option.bind_eq_some_iff.mp h
    obtain rfl : dst = m := Option.some_inj.mp (hptr.symm.trans hm)
    rw [harrays, Option.getD_some]
    obtain ⟨made, hpre, hall, hfill⟩ :=
      copyArrays_fills arrays r.memcpy2D (plane img.format) 0 0 dst
    generalize copyArrays img.format width height arrays r.memcpy2D (plane img.format) 0 0 dst =
      copied at h hall hfill
    obtain ⟨_ | _, dst'⟩ := copied
    · obtain rfl := Option.some_inj.mp h
      exact ⟨made, hpre, nofun, congrArg some hfill⟩
    · have hptr : t.after.ptr = some dst' := by
        cases hpop : r.popped <;> rw [hpop] at h <;> obtain rfl := Option.some_inj.mp h <;> rfl
      exact ⟨made, hpre, fun _ => hall rfl, hptr.trans (congrArg some hfill)⟩

theorem nvGetImage_copiedTo {mode : Option NVContextMode} {r : GetResults} {t : Transfer NVImage}
    (hptr : img.ptr = some dst)
    (h : nvGetImage mode sf img 0 0 img.width img.height r = some t) :
    CopiedTo (readParts mode sf img) dst t := by
  unfold nvGetImage at h
  unfold readParts
  split at h
  · next hmode =>
    obtain rfl := Option.some_inj.mp h
    rw [if_pos hmode]
    exact getImageHost_copiedTo hptr _ _ _ _
  · next hmode =>
    rw [if_neg hmode]
    exact getImageDevice_copiedTo hptr h

end Writes

/-! ## The running offset -/

/-- The size by which the loop over the planes moves on. -/
def deviceSize (format : NVFormat) (width height : UInt32) (p : NVFormatPlane) : UInt32 :=
  ((width * height) >>> UInt32.ofNat (p.ssX + p.ssY)) * format.bppc * p.channelCount

/-- Behind the planes `ps` the loop goes on with the sizes of all of them in its offset. -/
theorem copyArrays_append {format : NVFormat} {width height : UInt32} (arrays : Nat → CUarray)
    (done : Nat → Bool) (ps qs : List NVFormatPlane) (i : Nat) (offset : UInt32) (dst : Memory) :
    copyArrays format width height arrays done (ps ++ qs) i offset dst =
      let c := copyArrays format width height arrays done ps i offset dst
      if c.1 then copyArrays format width height arrays done qs (i + ps.length)
        (offset + (ps.map (deviceSize format width height)).sum) c.2
      else c := by
  induction ps generalizing i offset dst with
  | nil => simp [copyArrays]
  | cons p ps ih =>
    simp only [List.cons_append, copyArrays]
    cases done i with
    | false => rfl
    | true =>
      simp only [if_true]
      rw [ih, List.length_cons, List.map_cons, List.sum_cons, UInt32.add_assoc,
        Nat.add_right_comm i 1, Nat.add_assoc i]
      rfl

/-! ## The sizes -/

/-- The bytes of a plane, in an image of `n` pixels. -/
def planeBytes (format : NVFormat) (n : Nat) (p : NVFormatPlane) : Nat :=
  (n >>> (p.ssX + p.ssY)) * format.bppc.toNat * p.channelCount.toNat

def imageBytes (format : NVFormat) (n : Nat) : Nat := ((plane format).map (planeBytes format n)).sum

section Sizes

variable {format : NVFormat} {p : NVFormatPlane} {n : Nat} {width height : UInt32}

theorem mem_plane (hp : p ∈ plane format) : p = ⟨1, 0, 0⟩ ∨ p = ⟨2, 1, 1⟩ := by
  cases format <;> simp [plane] at hp <;> tauto

theorem luma_mem (format : NVFormat) : ⟨1, 0, 0⟩ ∈ plane format := by cases format <;> decide

theorem two_le_planes (format : NVFormat) : 2 ≤ (plane format).length := by cases format <;> decide

theorem planeBytes_le (hp : p ∈ plane format) : planeBytes format n p ≤ imageBytes format n :=
  List.le_sum_of_mem (List.mem_map_of_mem hp)

/-- A row of luma is not more than the image. -/
theorem width_le_imageBytes (format : NVFormat) (w : Nat) {h : Nat} (hh : 0 < h) :
    w * format.bppc.toNat ≤ imageBytes format (w * h) := by
  refine Nat.le_trans ?_ (planeBytes_le (luma_mem format))
  unfold planeBytes
  simp only [Nat.add_zero, Nat.shiftRight_zero, UInt32.reduceToNat, Nat.mul_one]
  exact Nat.mul_le_mul_right _ (Nat.le_mul_of_pos_right w hh)

/-- The last row of chroma: with the columns rounded down there is room for it in a quarter of the
pixels, rounded down likewise. -/
theorem half_rows_le {w h k : Nat} (hk : 2 * (k + 1) ≤ h) : k * w + w / 2 * 2 ≤ w * h / 4 * 2 := by
  have hpixels : w * (2 * (k + 1)) ≤ w * h := Nat.mul_le_mul_left w hk
  have hexpand : w * (2 * (k + 1)) = 2 * (k * w + w) := by ring
  -- a product with an even factor is even
  have hparity (hw : w % 2 = 0) : k * w % 2 = 0 := by
    rw [Nat.mul_mod, hw, Nat.mul_zero, Nat.zero_mod]
  omega

/-- The rows of a plane, each a row of luma behind the one before it, end where the plane does. -/
theorem rows_le_planeBytes (hp : p ∈ plane format) (w h : Nat) (hrows : 0 < h >>> p.ssY) :
    (h >>> p.ssY - 1) * (w * format.bppc.toNat) +
        (w >>> p.ssX) * format.bppc.toNat * p.channelCount.toNat ≤ planeBytes format (w * h) p := by
  unfold planeBytes
  generalize format.bppc.toNat = bppc
  obtain rfl | rfl := mem_plane hp
  · obtain ⟨k, rfl⟩ : ∃ k, h = k + 1 := Nat.exists_eq_succ_of_ne_zero (Nat.ne_of_gt hrows)
    apply Nat.le_of_eq
    simp only [Nat.add_zero, Nat.shiftRight_zero, Nat.add_sub_cancel, UInt32.reduceToNat]
    ring
  · simp only [Nat.shiftRight_eq_div_pow, Nat.reduceAdd, Nat.reducePow,
      UInt32.reduceToNat] at hrows ⊢
    obtain ⟨k, hk⟩ : ∃ k, h / 2 = k + 1 := Nat.exists_eq_succ_of_ne_zero (Nat.ne_of_gt hrows)
    calc (h / 2 - 1) * (w * bppc) + w / 2 * bppc * 2
        = (k * w + w / 2 * 2) * bppc := by rw [hk, Nat.add_sub_cancel]; ring
      _ ≤ (w * h / 4 * 2) * bppc := Nat.mul_le_mul_right bppc (half_rows_le (by omega))
      _ = w * h / 4 * bppc * 2 := by ring

/-- A size that 32 bits hold is computed without an overflow. -/
theorem toNat_size {x : UInt32} (hx : x.toNat = n >>> (p.ssX + p.ssY))
    (hfit : planeBytes format n p < 2 ^ 32) :
    (x * format.bppc * p.channelCount).toNat = planeBytes format n p := by
  rw [UInt32.toNat_mul, UInt32.toNat_mul, Nat.mod_mul_mod, hx]
  exact Nat.mod_eq_of_lt hfit

theorem toNat_shiftRight {x : UInt32} {s : Nat} (hs : s < 32) :
    (x >>> UInt32.ofNat s).toNat = x.toNat >>> s := by
  rw [UInt32.toNat_shiftRight, UInt32.toNat_ofNat']
  congr 1
  omega

/-- The size by which `nvGetImage` moves on. -/
theorem toNat_deviceSize (hp : p ∈ plane format) (hn : width.toNat * height.toNat < 2 ^ 32)
    (hfit : planeBytes format (width.toNat * height.toNat) p < 2 ^ 32) :
    (((width * height) >>> UInt32.ofNat (p.ssX + p.ssY)) * format.bppc * p.channelCount).toNat =
      planeBytes format (width.toNat * height.toNat) p := by
  have hs : p.ssX + p.ssY < 32 := by obtain rfl | rfl := mem_plane hp <;> decide
  refine toNat_size ?_ hfit
  rw [toNat_shiftRight hs, UInt32.toNat_mul, Nat.mod_eq_of_lt hn]

/-- The size by which `nvCreateImage` moves on. -/
theorem toNat_planeSize (hn : n < 2 ^ 31) (hfit : planeBytes format n p < 2 ^ 32) :
    (planeSize format n p).toNat = planeBytes format n p := by
  refine toNat_size ?_ hfit
  have hle : n >>> (p.ssX + p.ssY) ≤ n := Nat.shiftRight_le n _
  have hshift : (n : Int) >>> (p.ssX + p.ssY) = (n >>> (p.ssX + p.ssY) : Nat) := rfl
  rw [toNat_ofInt, hshift]
  generalize n >>> (p.ssX + p.ssY) = k at hle ⊢
  omega

end Sizes

/-! ## The blocks of the loop -/

section Device

variable {format : NVFormat} {width height : UInt32}

theorem deviceBlocks_length (ps : List NVFormatPlane) (offset : UInt32) :
    (deviceBlocks format width height ps offset).length = ps.length := by
  induction ps generalizing offset with
  | nil => rfl
  | cons p ps ih => exact congrArg (· + 1) (ih _)

/-- The bound on the rows, in the numbers that the loop computes with. -/
theorem lastRow_le (width height : UInt32) {p : NVFormatPlane} (hp : p ∈ plane format)
    (hrows : 0 < (height >>> UInt32.ofNat p.ssY).toNat) :
    ((height >>> UInt32.ofNat p.ssY).toNat - 1) * (width * format.bppc).toNat +
        ((width >>> UInt32.ofNat p.ssX) * format.bppc * p.channelCount).toNat ≤
      planeBytes format (width.toNat * height.toNat) p := by
  have hs : p.ssX < 32 ∧ p.ssY < 32 := by obtain rfl | rfl := mem_plane hp <;> decide
  rw [toNat_shiftRight hs.2] at hrows ⊢
  refine Nat.le_trans (Nat.add_le_add ?_ ?_) (rows_le_planeBytes hp width.toNat height.toNat hrows)
  · rw [UInt32.toNat_mul]
    exact Nat.mul_le_mul_left _ (Nat.mod_le _ _)
  · rw [UInt32.toNat_mul, UInt32.toNat_mul, Nat.mod_mul_mod, toNat_shiftRight hs.1]
    exact Nat.mod_le _ _

/-- The blocks lie one behind another, each as long as its plane. -/
theorem deviceBlocks_inside {ps : List NVFormatPlane} {offset : UInt32}
    (hps : ∀ p ∈ ps, p ∈ plane format) (hn : width.toNat * height.toNat < 2 ^ 32)
    (hfit : offset.toNat + (ps.map (planeBytes format (width.toNat * height.toNat))).sum < 2 ^ 32)
    {i : Nat} {b : Block} (hb : (deviceBlocks format width height ps offset)[i]? = some b) :
    b.offset = offset.toNat +
      ((ps.take i).map (planeBytes format (width.toNat * height.toNat))).sum ∧
      b.Inside b.offset
        (offset.toNat +
          ((ps.take (i + 1)).map (planeBytes format (width.toNat * height.toNat))).sum) := by
  induction ps generalizing offset i with
  | nil => simp [deviceBlocks] at hb
  | cons p ps ih =>
    have hp := hps p List.mem_cons_self
    rw [List.map_cons, List.sum_cons] at hfit
    have hsize := toNat_deviceSize hp hn (by omega)
    cases i with
    | zero =>
      obtain rfl := Option.some_inj.mp hb
      refine ⟨rfl, Block.inside_of_last (Nat.le_refl _) fun hrows => ?_⟩
      have hlast := lastRow_le width height hp hrows
      simp only [List.take_succ_cons, List.take_zero, List.map_cons, List.map_nil,
        List.sum_singleton]
      exact Nat.add_le_add_left hlast _
    | succ i =>
      have hoffset := UInt32.toNat_add offset
        (((width * height) >>> UInt32.ofNat (p.ssX + p.ssY)) * format.bppc * p.channelCount)
      rw [hsize, Nat.mod_eq_of_lt (by omega)] at hoffset
      have hnext := ih (fun q hq => hps q (List.mem_cons_of_mem _ hq)) (by omega) hb
      rw [hoffset] at hnext
      simp only [List.take_succ_cons, List.map_cons, List.sum_cons, ← Nat.add_assoc] at hnext ⊢
      exact hnext

/-- The planes of three rows of three pixels: of chroma there is one row with one pixel. -/
example : deviceBlocks .nv12 3 3 (plane .nv12) 0 = [⟨0, 3, 3, 3⟩, ⟨9, 3, 2, 1⟩] := by decide

end Device

/-! ## Created images -/

section Created

variable {format : NVFormat} {width height : Int32} {memory : Option Memory} {img : NVImage}

theorem toNat_toUInt32 {x : Int32} (h : 0 < x) : (x.toUInt32.toNat : Int) = x.toInt := by
  have hpos : 0 < x.toInt := Int32.lt_iff_toInt_lt.mp h
  have hlt := x.toInt_lt
  rw [← ofInt_toInt, toNat_ofInt]
  omega

/-- The number of pixels of an image is the product of its sizes. -/
theorem created_eq (hw : 0 < width) (hh : 0 < height)
    (hc : nvCreateImage (vaFormat format) width height memory = some (.ok img)) :
    img.width.toNat * img.height.toNat < 2 ^ 31 ∧
      img = createdImage format width height (img.width.toNat * img.height.toNat : Nat) memory := by
  obtain ⟨n, hn, rfl⟩ := nvCreateImage_ok format hc
  have hprod : ((width.toUInt32.toNat * height.toUInt32.toNat : Nat) : Int) = n := by
    rw [Nat.cast_mul, toNat_toUInt32 hw, toNat_toUInt32 hh, pixels_eq_some hn]
  have hlt : n < 2 ^ 31 := by
    simp only [pixels, Option.ite_none_right_eq_some, Option.some_inj] at hn
    omega
  refine ⟨?_, ?_⟩
  · show width.toUInt32.toNat * height.toUInt32.toNat < 2 ^ 31
    omega
  · show _ = createdImage format width height
        (width.toUInt32.toNat * height.toUInt32.toNat : Nat) memory
    rw [hprod]

theorem toNat_sum {f : NVFormatPlane → UInt32} {g : NVFormatPlane → Nat} {ps : List NVFormatPlane}
    (hfg : ∀ p ∈ ps, (f p).toNat = g p) (hfit : (ps.map g).sum < 2 ^ 32) :
    (ps.map f).sum.toNat = (ps.map g).sum := by
  induction ps with
  | nil => rfl
  | cons p ps ih =>
    simp only [List.map_cons, List.sum_cons] at hfit ⊢
    rw [UInt32.toNat_add, hfg p List.mem_cons_self,
      ih (fun q hq => hfg q (List.mem_cons_of_mem _ hq))
      (by omega), Nat.mod_eq_of_lt hfit]

theorem take_le_imageBytes (n i : Nat) :
    (((plane format).take i).map (planeBytes format n)).sum ≤ imageBytes format n := by
  rw [List.map_take]
  exact (List.take_sublist _ _).sum_le_sum fun _ _ => Nat.zero_le _

theorem toNat_planeOffset {n : Nat} (hn : n < 2 ^ 31)
    (hfit : imageBytes format n < 2 ^ 32) (i : Nat) :
    (planeOffset format n i).toNat = (((plane format).take i).map (planeBytes format n)).sum := by
  refine toNat_sum (fun p hp => toNat_planeSize hn ?_) ((take_le_imageBytes n i).trans_lt hfit)
  exact (planeBytes_le (List.mem_of_mem_take hp)).trans_lt hfit

theorem createdImage_size {n : Nat} (hn : n < 2 ^ 31) (hfit : imageBytes format n < 2 ^ 32) :
    (createdImage format width height n memory).size = imageBytes format n := by
  refine congrArg List.sum (List.map_congr_left fun p hp => ?_)
  exact toNat_planeSize hn ((planeBytes_le hp).trans_lt hfit)

theorem createdImage_planeEnd {n : Nat} (hn : n < 2 ^ 31)
    (hfit : imageBytes format n < 2 ^ 32) {i : Fin 3} (hi : i.val < (plane format).length) :
    (createdImage format width height n memory).planeEnd i =
      (((plane format).take (i.val + 1)).map (planeBytes format n)).sum := by
  have hlen : (plane format).length ≤ 3 := by cases format <;> decide
  unfold NVImage.planeEnd
  split
  · next hnext =>
    change i.val + 1 < (plane format).length at hnext
    have hsucc : (i + 1).val = i.val + 1 := by
      rw [Fin.val_add]
      exact Nat.mod_eq_of_lt (by change i.val + 1 < 3; omega)
    rw [← hsucc]
    exact toNat_planeOffset hn hfit _
  · next hlast =>
    change ¬i.val + 1 < (plane format).length at hlast
    rw [NVImage.dataSize, createdImage_size hn hfit, UInt32.toNat_ofNat', Nat.mod_eq_of_lt hfit,
      List.take_of_length_le (by omega)]
    rfl

/-- The loop over the planes has the room of the image. -/
theorem deviceBlocks_hasRoom {n : Nat} (hn : n < 2 ^ 31) (hfit : imageBytes format n < 2 ^ 32)
    (himg : img = createdImage format width height n memory)
    (hpixels : img.width.toNat * img.height.toNat = n) :
    img.HasRoom (deviceBlocks format img.width img.height (plane format) 0) := by
  have hformat : img.format = format := by rw [himg]; rfl
  have hoffset (i : Fin 3) :
      (img.offsets i).toNat = (((plane format).take i).map (planeBytes format n)).sum := by
    rw [himg]
    exact toNat_planeOffset hn hfit i
  have hend {i : Fin 3} (hi : i.val < (plane format).length) :
      img.planeEnd i = (((plane format).take (i.val + 1)).map (planeBytes format n)).sum := by
    rw [himg]
    exact createdImage_planeEnd hn hfit hi
  have hsize : img.size = imageBytes format n := by
    rw [himg]
    exact createdImage_size hn hfit
  have hblock {i : Fin 3} {b : Block}
      (hb : (deviceBlocks format img.width img.height (plane format) 0)[i.val]? = some b) :
      b.offset = (img.offsets i).toNat ∧ b.Inside (img.offsets i).toNat (img.planeEnd i) := by
    have hi : i.val < (plane format).length :=
      deviceBlocks_length (plane format) 0 ▸ (List.getElem?_eq_some_iff.mp hb).1
    obtain ⟨hstart, hin⟩ := deviceBlocks_inside (fun _ h => h) (by omega)
      (by rw [hpixels, UInt32.toNat_zero, Nat.zero_add]; exact hfit) hb
    rw [hpixels, UInt32.toNat_zero, Nat.zero_add] at hstart hin
    rw [hoffset, hend hi]
    exact ⟨hstart, hstart ▸ hin⟩
  refine ⟨?_, fun i b hb => (hblock hb).1, fun i b hb => (hblock hb).2, fun i => ?_⟩
  · rw [deviceBlocks_length, hformat]
  · by_cases hi : i.val < (plane format).length
    · rw [hend hi, hsize]
      exact take_le_imageBytes n _
    · rw [NVImage.planeEnd, hformat, if_neg (by omega), NVImage.dataSize, UInt32.toNat_ofNat']
      exact Nat.mod_le _ _

/-- The loop over the planes comes to each plane with its offset in the image. -/
theorem created_comesWith {n : Nat} (hn : n < 2 ^ 31) (hfit : imageBytes format n < 2 ^ 32)
    (himg : img = createdImage format width height n memory)
    (hpixels : img.width.toNat * img.height.toNat = n) {i : Fin 3}
    (hi : i.val < (plane format).length) :
    ComesWith format img.width img.height i (img.offsets i) := by
  intro arrays done dst
  have hsize (p : NVFormatPlane) (hp : p ∈ (plane format).take i) :
      deviceSize format img.width img.height p = planeSize format n p := by
    have hmem : p ∈ plane format := List.mem_of_mem_take hp
    have hplane := (planeBytes_le hmem).trans_lt hfit
    rw [← UInt32.toNat_inj, toNat_planeSize hn hplane, ← hpixels]
    exact toNat_deviceSize hmem (by omega) (by rw [hpixels]; exact hplane)
  have hoffset : (0 : UInt32) + (((plane format).take i).map
      (deviceSize format img.width img.height)).sum = img.offsets i := by
    rw [UInt32.zero_add, List.map_congr_left hsize, himg]
    rfl
  have happend := @copyArrays_append format img.width img.height arrays done
    ((plane format).take i) ((plane format).drop i) 0 0 dst
  rw [List.take_append_drop, hoffset, List.length_take_of_le (Nat.le_of_lt hi), Nat.zero_add]
    at happend
  exact happend

end Created

/-! ## The host buffer -/

/-- Blocks that are parts of such with room have room. -/
theorem NVImage.HasRoom.part {img : NVImage} {bs cs : List Block} (h : img.HasRoom cs)
    (hlen : bs.length ≤ cs.length)
    (hpart : ∀ (i : Fin 3) (b : Block), bs[i.val]? = some b → ∃ c, cs[i.val]? = some c ∧ b.Part c) :
    img.HasRoom bs where
  length_le := hlen.trans h.length_le
  offset i b hb :=
    have ⟨c, hc, hp⟩ := hpart i b hb
    hp.offset.trans (h.offset i c hc)
  inside i b hb :=
    have ⟨c, hc, hp⟩ := hpart i b hb
    (h.inside i c hc).part hp
  end_le := h.end_le

section Host

variable {format : NVFormat} {img : NVImage} {p : NVFormatPlane}

/-- A row of a plane has at least the bytes of the columns, rounded down to an even number for
chroma. -/
theorem even_le_width (hp : p ∈ plane format) (w h : Nat) :
    w / 2 * 2 ≤ (w >>> p.ssX) * format.bppc.toNat * p.channelCount.toNat ∧ h / 2 ≤ h >>> p.ssY := by
  have hbppc : 1 ≤ format.bppc.toNat := by cases format <;> decide
  have hle := Nat.mul_le_mul_left (w >>> p.ssX) hbppc
  obtain rfl | rfl := mem_plane hp
  · simp only [Nat.shiftRight_zero, UInt32.reduceToNat] at hle ⊢
    omega
  · simp only [Nat.shiftRight_eq_div_pow, Nat.reducePow, UInt32.reduceToNat] at hle ⊢
    omega

theorem toNat_widthInBytes {width : UInt32} (hp : p ∈ plane format)
    (hpitch : width.toNat * format.bppc.toNat < 2 ^ 32) :
    ((width >>> UInt32.ofNat p.ssX) * format.bppc * p.channelCount).toNat =
      (width.toNat >>> p.ssX) * format.bppc.toNat * p.channelCount.toNat := by
  have hs : p.ssX < 32 := by obtain rfl | rfl := mem_plane hp <;> decide
  have hle : (width.toNat >>> p.ssX) * p.channelCount.toNat ≤ width.toNat := by
    obtain rfl | rfl := mem_plane hp
    · exact Nat.le_of_eq (Nat.mul_one _)
    · exact Nat.div_mul_le_self _ 2
  rw [UInt32.toNat_mul, UInt32.toNat_mul, Nat.mod_mul_mod, toNat_shiftRight hs]
  refine Nat.mod_eq_of_lt (Nat.lt_of_le_of_lt ?_ hpitch)
  rw [Nat.mul_right_comm]
  exact Nat.mul_le_mul_right _ hle

/-- A pitch of an image that has columns is not 0. -/
theorem layout_eq (hpitches : ∀ i, img.pitches i = img.width * format.bppc)
    (hw : 0 < img.width.toNat) (hpitch : img.width.toNat * format.bppc.toNat < 2 ^ 32) :
    img.layout = ⟨(img.offsets 0).toNat, (img.width * format.bppc).toNat, (img.offsets 1).toNat,
      (img.width * format.bppc).toNat⟩ := by
  have hbppc : 0 < format.bppc.toNat := by cases format <;> decide
  have hne : img.width * format.bppc ≠ 0 := by
    rw [← UInt32.toNat_inj.ne, UInt32.toNat_mul, Nat.mod_eq_of_lt hpitch]
    exact Nat.ne_of_gt (Nat.mul_pos hw hbppc)
  simp only [NVImage.layout, hpitches, if_pos hne]

/-- What is copied from the host buffer goes to the first columns of the first rows that the loop
over the planes copies to. -/
theorem hostBlocks_part (sf : EncodeSurface)
    (hpitches : ∀ i, img.pitches i = img.width * format.bppc) (hw : 0 < img.width.toNat)
    (hpitch : img.width.toNat * format.bppc.toNat < 2 ^ 32)
    (hdevice : img.HasRoom (deviceBlocks format img.width img.height (plane format) 0)) {i : Fin 3}
    {b : Block} (hb : (hostBlocks sf img 0 0 img.width img.height)[i.val]? = some b) :
    ∃ c, (deviceBlocks format img.width img.height (plane format) 0)[i.val]? = some c ∧
      b.Part c := by
  obtain ⟨q, ps, hplane⟩ : ∃ q ps, plane format = ⟨1, 0, 0⟩ :: q :: ps := by
    cases format <;> exact ⟨_, _, rfl⟩
  have hq : q ∈ plane format := hplane ▸ List.mem_cons_of_mem _ List.mem_cons_self
  have hoffset := hdevice.offset
  rw [hplane] at hoffset ⊢
  rw [hostBlocks, layout_eq hpitches hw hpitch] at hb
  -- what is copied is clipped to the image
  have hcopyW (n : UInt32) : (lesser img.width n).toNat ≤ img.width.toNat := by
    rw [toNat_lesser]
    exact Nat.min_le_left _ _
  have hcopyH (n : UInt32) : (lesser img.height n).toNat ≤ img.height.toNat := by
    rw [toNat_lesser]
    exact Nat.min_le_left _ _
  match i with
  | 0 =>
    obtain rfl := Option.some_inj.mp hb
    refine ⟨_, rfl, ?_, rfl, ?_, ?_⟩
    · show (img.offsets 0).toNat + (0 * _ + 0) = _
      rw [Nat.zero_mul]
      exact (hoffset 0 _ rfl).symm
    · have hbppc : 0 < format.bppc.toNat := by cases format <;> decide
      refine (hcopyW _).trans (Nat.le_trans ?_ (toNat_widthInBytes (luma_mem format) hpitch).ge)
      exact (Nat.le_mul_of_pos_right _ hbppc).trans (Nat.le_of_eq (Nat.mul_one _).symm)
    · exact (hcopyH _).trans (toNat_shiftRight (Nat.zero_lt_succ 31)).ge
  | 1 =>
    obtain rfl := Option.some_inj.mp hb
    have hs : q.ssY < 32 := by obtain rfl | rfl := mem_plane hq <;> decide
    obtain ⟨hwidth, hrows⟩ := even_le_width hq img.width.toNat img.height.toNat
    refine ⟨_, rfl, ?_, rfl, ?_, ?_⟩
    · show (img.offsets 1).toNat + (0 * _ + 0) = _
      rw [Nat.zero_mul]
      exact (hoffset 1 _ rfl).symm
    · refine Nat.le_trans ?_ (hwidth.trans (toNat_widthInBytes hq hpitch).ge)
      have hle := hcopyW (clip 0 img.width sf.width)
      apply (toNat_evenDown _).le.trans
      exact Nat.mul_le_mul_right 2 (Nat.div_le_div_right hle)
    · refine Nat.le_trans ?_ (hrows.trans (toNat_shiftRight hs).ge)
      have hle := hcopyH (clip 0 img.height sf.height)
      apply (UInt32.toNat_div _ _).le.trans
      exact Nat.div_le_div_right hle
  | 2 => simp at hb

end Host

/-! ## The readback of a created image -/

theorem NVImage.HasRoom.inside_size {img : NVImage} {blocks : List Block}
    (h : img.HasRoom blocks) {b : Block} (hb : b ∈ blocks) : b.Inside 0 img.size := by
  obtain ⟨i, hi⟩ := List.mem_iff_getElem?.mp hb
  have hlt : i < 3 := by
    have hlen := (List.getElem?_eq_some_iff.mp hi).1
    have hplanes : (plane img.format).length ≤ 3 := by cases img.format <;> decide
    have := h.length_le
    omega
  exact (h.inside ⟨i, hlt⟩ b hi).mono (Nat.zero_le _) (h.end_le ⟨i, hlt⟩)

/-- A created image whose sizes 32 bits hold has room for every readback of its size. -/
theorem readback_hasRoom (format : NVFormat) {width height : Int32} {memory : Option Memory}
    {img : NVImage} (hw : 0 < width) (hh : 0 < height)
    (hc : nvCreateImage (vaFormat format) width height memory = some (.ok img))
    (hfit : imageBytes format (img.width.toNat * img.height.toNat) < 2 ^ 32)
    (mode : Option NVContextMode) (sf : NVSurface) : img.HasRoom (readBlocks mode sf img) := by
  obtain ⟨hn, himg⟩ := created_eq hw hh hc
  have hformat : img.format = format := by rw [himg]; rfl
  have hdevice := deviceBlocks_hasRoom hn hfit himg rfl
  have hpos : 0 < img.width.toNat ∧ 0 < img.height.toNat := by
    obtain ⟨n, -, rfl⟩ := nvCreateImage_ok format hc
    have hwidth := toNat_toUInt32 hw
    have hheight := toNat_toUInt32 hh
    rw [Int32.lt_iff_toInt_lt, ← hwidth] at hw
    rw [Int32.lt_iff_toInt_lt, ← hheight] at hh
    exact ⟨Int.natCast_pos.mp hw, Int.natCast_pos.mp hh⟩
  rw [readBlocks_eq]
  split
  · have hpitches (i : Fin 3) : img.pitches i = img.width * format.bppc := by
      rw [himg]
      rfl
    have hpitch := (width_le_imageBytes format img.width.toNat hpos.2).trans_lt hfit
    refine hdevice.part ?_ fun i b hb =>
      hostBlocks_part sf.toEncodeSurface hpitches hpos.1 hpitch hdevice hb
    rw [deviceBlocks_length]
    exact two_le_planes format
  · rw [hformat]
    exact hdevice

/-- A readback of the size of a created image fills the place of each plane with the surface, and
nothing behind it: odd sizes have room as well. In the loop over the planes the running offset is
the offset of the plane. -/
theorem nvGetImage_inside (format : NVFormat) {width height : Int32} {memory : Option Memory}
    {img : NVImage} (hw : 0 < width) (hh : 0 < height)
    (hc : nvCreateImage (vaFormat format) width height memory = some (.ok img))
    (hfit : imageBytes format (img.width.toNat * img.height.toNat) < 2 ^ 32)
    (mode : Option NVContextMode) (sf : NVSurface) :
    img.HasRoom (readBlocks mode sf img) ∧
      (mode = some .decode → (readBlocks mode sf img).length = (plane format).length ∧
        ∀ i : Fin 3, i.val < (plane format).length →
          ComesWith format img.width img.height i (img.offsets i)) ∧
      ∀ (r : GetResults) (t : Transfer NVImage) (dst : Memory), img.ptr = some dst →
        nvGetImage mode sf img 0 0 img.width img.height r = some t →
        CopiedTo (readParts mode sf img) dst t ∧
          ∀ dst', t.after.ptr = some dst' → ∀ a, dst' a ≠ dst a → a < img.size := by
  have hroom := readback_hasRoom format hw hh hc hfit mode sf
  obtain ⟨hn, himg⟩ := created_eq hw hh hc
  have hformat : img.format = format := by rw [himg]; rfl
  refine ⟨hroom, ?_, fun r t dst hptr hget => ?_⟩
  · rintro rfl
    refine ⟨?_, fun i hi => created_comesWith hn hfit himg rfl hi⟩
    rw [readBlocks_eq, if_neg (by decide), deviceBlocks_length, hformat]
  · have hcopied := nvGetImage_copiedTo hptr hget
    refine ⟨hcopied, fun dst' hdst' a ha => ?_⟩
    obtain ⟨made, hpre, -, hmade⟩ := hcopied
    obtain rfl : Block.fillAll made dst = dst' := Option.some_inj.mp (hmade.symm.trans hdst')
    refine (Block.fillAll_inside (fun part hpart => hroom.inside_size ?_) ha).2
    exact List.mem_map_of_mem (hpre.subset hpart)

/-- Three rows of three pixels of 16 bits, which are read back from a surface with a host buffer and
from one with arrays: the chroma row is behind the 18 bytes of luma. -/
theorem nvGetImage_inside_odd :
    let img := createdImage .p010 3 3 9 (some fun _ => 0)
    let decoded : NVSurface :=
      { plainSurface 3 3 fun _ => 0 with backingImage := some fun i _ _ => if i = 0 then 1 else 2 }
    ComesWith .p010 3 3 1 18 ∧
      (∃ t dst, nvGetImage (some .decode) decoded img 0 0 3 3 ⟨true, true, fun _ => true⟩ = some t ∧
        t.after.ptr = some dst ∧ dst 17 = 1 ∧ dst 18 = 2 ∧ dst 26 = 0) ∧
      ∃ t, nvGetImage none (plainSurface 3 3 fun _ => 0) img 0 0 3 3 ⟨true, true, fun _ => true⟩ =
          some t ∧
        ∀ dst', t.after.ptr = some dst' → ∀ a, dst' a ≠ 0 → a < 26 := by
  intro img decoded
  have hc : nvCreateImage (vaFormat .p010) 3 3 (some fun _ => 0) = some (.ok img) := rfl
  have hpos : (0 : Int32) < 3 := by decide
  have hfit : imageBytes .p010 9 < 2 ^ 32 := by decide
  have hdevice := nvGetImage_inside .p010 hpos hpos hc hfit (some .decode) decoded
  have hhost := nvGetImage_inside .p010 hpos hpos hc hfit none (plainSurface 3 3 fun _ => 0)
  refine ⟨(hdevice.2.1 rfl).2 1 (by decide), ?_, _, rfl,
    (hhost.2.2 ⟨true, true, fun _ => true⟩ _ _ rfl rfl).2⟩
  obtain ⟨⟨made, -, hall, hmade⟩, -⟩ :=
    hdevice.2.2 ⟨true, true, fun _ => true⟩ _ (fun _ => 0) rfl rfl
  obtain rfl := hall rfl
  exact ⟨_, _, rfl, hmade, by decide, by decide, by decide⟩

end NvVaapi.Image
