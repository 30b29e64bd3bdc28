import NvVaapi.Image.RoundTrip

/-!
# The two paths of nvGetImage

* `SamePixels`: the host buffer and the arrays of a surface hold the same picture.
* `PathsAgree`: with the same picture in both, both paths leave the same bytes in an image.
* `getImageDevice_ptr`: the path for decoded surfaces writes the picture from its origin on, with
  the pitch and the planes of an image of the size of the rectangle.
* `pathsAgree_iff`: the rectangles for which that is the same.
-/

namespace NvVaapi.Image

open Objects (GetResults)

/-- The host buffer `host` and the arrays hold the same picture. -/
def SamePixels (sf : EncodeSurface) (host : Memory) (arrays : Nat → CUarray) : Prop :=
  (∀ r < sf.height.toNat, ∀ x < sf.width.toNat,
    ((hostLayout sf).picture host).luma r x = arrays 0 r x) ∧
  ∀ r < sf.height.toNat / 2, ∀ x < sf.width.toNat,
    ((hostLayout sf).picture host).chroma r x = arrays 1 r x

/-- The CUDA calls that succeed. -/
def cudaSucceeds : GetResults := ⟨true, true, fun _ => true⟩

/-- Whatever the picture of the surface and the bytes of the image are, both paths leave the
same. -/
def PathsAgree (sf : NVSurface) (img : NVImage) (x y : Int32) (width height : UInt32) : Prop :=
  ∀ (host dst : Memory) (arrays : Nat → CUarray), SamePixels sf.toEncodeSurface host arrays →
    (getImageDevice
      { sf with backingImage := some arrays } { img with ptr := some dst } width height
        cudaSucceeds).map (fun t => t.after.ptr) =
      some (getImageHost { sf with hostData := some host } { img with ptr := some dst } x y width
        height).after.ptr

/-- What the path for decoded surfaces leaves. -/
def deviceBytes (arrays : Nat → CUarray) (width height : UInt32) (dst : Memory) : Memory :=
  Plane.copyRows width.toNat (width * height).toNat (arrays 1) width.toNat (height.toNat / 2)
    (Plane.copyRows width.toNat 0 (arrays 0) width.toNat height.toNat dst)

theorem getImageDevice_ptr {sf : NVSurface} {img : NVImage} {arrays : Nat → CUarray} {dst : Memory}
    {width height : UInt32} (hf : img.format = .nv12) (hw : width.toNat % 2 = 0) :
    (getImageDevice
      { sf with backingImage := some arrays } { img with ptr := some dst } width height
      cudaSucceeds).map (fun t =>
        t.after.ptr) = some (some (deviceBytes arrays width height dst)) := by
  have hlt := width.toNat_lt
  have hchroma : width.toNat / 2 * 2 % 4294967296 = width.toNat := by omega
  simp [getImageDevice, cudaSucceeds, hf, plane, copyArrays, memcpy2D, Transfer.plain, deviceBytes,
    Objects.NVFormat.bppc, Nat.shiftRight_eq_div_pow, hchroma]

/-- An even rectangle that is inside the surface and not larger than the image. -/
abbrev EvenGet (img : NVImage) (sf : EncodeSurface) (x y : Int32) (width height : UInt32) : Prop :=
  EvenCopy img img sf 0 0 x y width height

/-- What the path for the host buffer leaves, with the picture that the arrays hold. -/
def hostBytes (img : NVImage) (arrays : Nat → CUarray) (x y : Int32) (width height : UInt32)
    (dst : Memory) : Memory :=
  Plane.copyRows img.width.toNat (img.width * img.height).toNat
    (fun r i => arrays 1 (y.toUInt32.toNat / 2 + r) (x.toUInt32.toNat + i)) width.toNat
    (height.toNat / 2)
    (Plane.copyRows img.width.toNat 0
      (fun r i => arrays 0 (y.toUInt32.toNat + r) (x.toUInt32.toNat + i)) width.toNat
        height.toNat dst)

section Paths

variable {sf : NVSurface} {img : NVImage} {x y : Int32} {width height : UInt32} {w h : Int32}
variable {memory : Option Memory} {host dst : Memory} {arrays : Nat → CUarray}

theorem EvenGet.withStores (host dst : Memory)
    (hr : EvenGet img sf.toEncodeSurface x y width height) :
    EvenGet { img with ptr := some dst }
      ({ sf with hostData := some host } : NVSurface).toEncodeSurface x y width height :=
  ⟨hr.nonneg, hr.even_src, hr.even_dest, hr.even_size, hr.in_src, hr.in_surface, hr.in_dst⟩

theorem getImageHost_ptr (hc : nvCreateImage .nv12 w h memory = some (.ok img))
    (hr : EvenGet img sf.toEncodeSurface x y width height)
    (hs : SamePixels sf.toEncodeSurface host arrays) (hw : 0 < width.toNat)
    (hh : 0 < height.toNat) :
    (getImageHost { sf with hostData := some host } { img with ptr := some dst } x y width
      height).after.ptr = some (hostBytes img arrays x y width height dst) := by
  have hl : ({ img with ptr := some dst } : NVImage).layout = img.layout := rfl
  have hsize := hr.in_surface
  rw [getImage_even (EvenGet.withStores host dst hr) rfl rfl hw hh, hl, layout_created hc]
  refine congrArg some ?_
  unfold TwoPlane.copy hostBytes
  rw [PlaneCopy.run_eq, PlaneCopy.run_eq]
  simp only [TwoPlane.rect, Nat.zero_mul, Nat.zero_div, Nat.add_zero]
  refine (Plane.copyRows_congr fun r hrow i hi => ?_).trans (congrArg _ ?_)
  · exact hs.2 _ (by omega) _ (by omega)
  · exact Plane.copyRows_congr fun r hrow i hi => hs.1 _ (by omega) _ (by omega)

/-- An empty rectangle leaves the image as it is, on both paths. -/
theorem pathsAgree_empty (hf : img.format = .nv12)
    (hr : EvenGet img sf.toEncodeSurface x y width height)
    (h0 : width.toNat = 0 ∨ height.toNat = 0) : PathsAgree sf img x y width height := by
  intro host dst arrays _
  have hempty (pix : Nat → Nat → UInt8) (p base : Nat) (m : Memory) :
      Plane.copyRows p base pix width.toNat height.toNat m = m ∧
        Plane.copyRows p base pix width.toNat (height.toNat / 2) m = m := by
    obtain h0 | h0 := h0 <;> rw [h0]
    · exact ⟨Plane.copyRows_zero_width, Plane.copyRows_zero_width⟩
    · exact ⟨Plane.copyRows_zero_rows, Plane.copyRows_zero_rows⟩
  have hdevice : deviceBytes arrays width height dst = dst := by
    rw [deviceBytes, (hempty _ _ _ _).1, (hempty _ _ _ _).2]
  have hhost :
      (getImageHost { sf with hostData := some host } { img with ptr := some dst } x y width
      height).after.ptr = some dst := by
    unfold getImageHost
    simp only
    split
    · rfl
    · rw [EvenCopy.getCopies_eq (EvenGet.withStores host dst hr)]
      refine congrArg some ?_
      unfold TwoPlane.copy
      rw [PlaneCopy.run_eq, PlaneCopy.run_eq]
      exact (hempty _ _ _ _).2.trans (hempty _ _ _ _).1
  rw [getImageDevice_ptr hf hr.even_size.1, hdevice, hhost]

/-- The path for decoded surfaces does what the other one does with a rectangle at the origin that
fills the image. -/
theorem pathsAgree_full (hc : nvCreateImage .nv12 w h memory = some (.ok img))
    (hr : EvenGet img sf.toEncodeSurface x y width height) (hw : 0 < width.toNat)
    (hh : 0 < height.toNat) (hx : x.toUInt32.toNat = 0) (hy : y.toUInt32.toNat = 0)
    (hwidth : width = img.width) (harea : width * height = img.width * img.height) :
    PathsAgree sf img x y width height := by
  intro host dst arrays hs
  rw [getImageDevice_ptr (created_format hc) hr.even_size.1,
    getImageHost_ptr hc hr hs hw hh, deviceBytes, hostBytes, harea, ← hwidth]
  simp only [hx, hy, Nat.zero_div, Nat.zero_add]

end Paths

/-! ## A picture that tells the paths apart

Luma is 1, chroma is 2 and its first byte 3, and the image is 0 before. -/

def probe (r i : Nat) : UInt8 := if r = 0 ∧ i = 0 then 3 else 2

/-- The luma that a path with the pitch `p` writes. -/
def probeLuma (p w h : Nat) : Memory := Plane.copyRows p 0 (fun _ _ => 1) w h fun _ => 0

/-- And then the chroma at `o`, from the picture's place `(x, y)` on. -/
def probeBytes (p o x y w h : Nat) : Memory :=
  Plane.copyRows p o (fun r i => probe (y + r) (x + i)) w (h / 2) (probeLuma p w h)

section Probe

variable {p o x y w h a : Nat}

theorem probeLuma_cases (a : Nat) : probeLuma p w h a = 0 ∨
    probeLuma p w h a = 1 ∧ ∃ r < h, ∃ i < w, a = r * p + i := by
  obtain heq | ⟨r, hr, i, hi, ha, heq⟩ : probeLuma p w h a = 0 ∨ _ := Plane.copyRows_cases a
  · exact .inl heq
  · exact .inr ⟨heq, r, hr, i, hi, by omega⟩

theorem probeBytes_cases (a : Nat) : probeBytes p o x y w h a = probeLuma p w h a ∨
    ∃ r < h / 2, ∃ i < w, a = o + r * p + i ∧ probeBytes p o x y w h a = probe (y + r) (x + i) :=
  Plane.copyRows_cases a

/-- Only chroma writes more than 1. -/
theorem chroma_of_probeBytes (h1 : probeBytes p o x y w h a ≠ 0)
    (h2 : probeBytes p o x y w h a ≠ 1) :
    ∃ r < h / 2, ∃ i < w, a = o + r * p + i ∧ probeBytes p o x y w h a = probe (y + r) (x + i) := by
  obtain heq | hex := probeBytes_cases a
  · obtain h0 | ⟨h0, -⟩ := probeLuma_cases a <;> rw [heq, h0] at h1 h2
    · exact absurd rfl h1
    · exact absurd rfl h2
  · exact hex

theorem probeBytes_chroma (hw : w ≤ p) {r i : Nat} (hr : r < h / 2) (hi : i < w) :
    probeBytes p o x y w h (o + (r * p + i)) = probe (y + r) (x + i) := by
  have hbase : o = o + (0 * p + 0) := by omega
  refine (Plane.copyRows_at hbase (by omega) (by omega)).trans ?_
  rw [if_pos (by omega)]
  rfl

/-- Where there is no chroma, luma stays. -/
theorem probeBytes_luma (hw : w ≤ p) {r i : Nat} (hr : r < h) (hi : i < w) :
    probeBytes p o x y w h (r * p + i) ≠ 0 := by
  have hluma : probeLuma p w h (r * p + i) = 1 := by
    have hbase : 0 = 0 + (0 * p + 0) := by omega
    have hrow : 0 + w ≤ p := by omega
    have hat : probeLuma p w h (0 + (r * p + i)) = _ := Plane.copyRows_at hbase hrow (by omega)
    rw [Nat.zero_add, if_pos (by omega)] at hat
    exact hat
  obtain heq | ⟨_, _, _, _, _, heq⟩ := probeBytes_cases (o := o) (x := x) (y := y) (r * p + i)
  · rw [heq, hluma]
    decide
  · rw [heq, probe]
    split <;> decide

/-- The paths agree on the probe at the origin only, with the same chroma and the same pitch. -/
theorem full_of_probe {W o₁ : Nat} (hw : 0 < w) (hle : w ≤ W) (hlt : w < 2 ^ 32) (hh : 2 ≤ h)
    (heven : h % 2 = 0) (ho : o = w * h % 2 ^ 32)
    (hag : probeBytes w o 0 0 w h = probeBytes W o₁ x y w h) : x = 0 ∧ y = 0 ∧ o = o₁ ∧ w = W := by
  -- the first byte of chroma
  have hfirst : probeBytes w o 0 0 w h (o + (0 * w + 0)) = 3 :=
    probeBytes_chroma (Nat.le_refl w) (by omega) hw
  have hplace : o + (0 * w + 0) = o := by omega
  rw [hplace] at hfirst
  have hother : probeBytes W o₁ x y w h o = 3 := hag ▸ hfirst
  obtain ⟨r, -, i, -, ho₁, hprobe⟩ := chroma_of_probeBytes (by rw [hother]; decide)
    (by rw [hother]; decide)
  have hzero : y + r = 0 ∧ x + i = 0 := by
    rw [hother, probe] at hprobe
    split at hprobe
    · assumption
    · exact absurd hprobe (by decide)
  obtain ⟨rfl, rfl⟩ : r = 0 ∧ i = 0 := by omega
  have hsame : o = o₁ := by omega
  refine ⟨by omega, by omega, hsame, ?_⟩
  subst hsame
  by_contra hne
  have hW : w < W := by omega
  have hbehind {r : Nat} (hr : 0 < r) : W ≤ r * W := Nat.le_mul_of_pos_left W hr
  by_cases h4 : 2 ≤ h / 2
  · -- the second row of chroma starts at another place
    have hsecond : probeBytes w o 0 0 w h (o + (1 * w + 0)) = 2 :=
      probeBytes_chroma (Nat.le_refl w) (by omega) hw
    rw [hag] at hsecond
    obtain ⟨r, -, i, hi, ha, -⟩ := chroma_of_probeBytes (by rw [hsecond]; decide)
      (by rw [hsecond]; decide)
    obtain rfl | hr := Nat.eq_zero_or_pos r
    · omega
    · have := hbehind hr
      omega
  · obtain rfl : h = 2 := by omega
    by_cases hwrap : w * 2 < 2 ^ 32
    · -- the second row of luma, before chroma
      have hluma :=
        probeBytes_luma (p := w) (o := o) (x := 0) (y := 0) (w := w) (h := 2) (r := 1) (i := 0)
        (Nat.le_refl w) (by omega) hw
      rw [hag] at hluma
      obtain heq | ⟨_, _, _, _, ha, -⟩ :=
        probeBytes_cases (p := W) (o := o) (x := x) (y := y) (w := w)
        (h := 2) (1 * w + 0)
      · obtain h0 | ⟨-, r, -, i, hi, ha⟩ := probeLuma_cases (p := W) (w := w) (h := 2) (1 * w + 0)
        · exact hluma (heq.trans h0)
        · obtain rfl | hr := Nat.eq_zero_or_pos r
          · omega
          · have := hbehind hr
            omega
      · omega
    · -- the last byte of luma, behind everything that the other path writes
      have hluma := probeBytes_luma (p := W) (o := o) (x := x) (y := y) (w := w) (h := 2) (r := 1)
        (i := w - 1) hle (by omega) (by omega)
      rw [← hag] at hluma
      obtain heq | ⟨r, hr, i, hi, ha, -⟩ :=
        probeBytes_cases (p := w) (o := o) (x := 0) (y := 0) (w := w)
        (h := 2) (1 * W + (w - 1))
      · obtain h0 | ⟨-, r, hr, i, hi, ha⟩ :=
          probeLuma_cases (p := w) (w := w) (h := 2) (1 * W + (w - 1))
        · exact hluma (heq.trans h0)
        · have hle := Nat.mul_le_mul_right w (show r ≤ 1 by omega)
          omega
      · obtain rfl : r = 0 := by omega
        omega

end Probe

/-! ## Where the paths agree -/

section Agree

variable {sf : NVSurface} {img : NVImage} {x y : Int32} {width height : UInt32} {w h : Int32}
variable {memory : Option Memory}

/-- The arrays of the probe. -/
def probeArrays (i : Nat) : CUarray := if i = 0 then fun _ _ => 1 else probe

theorem full_of_pathsAgree (hc : nvCreateImage .nv12 w h memory = some (.ok img))
    (hsf : sf.SizesFit) (hr : EvenGet img sf.toEncodeSurface x y width height)
    (hw : 0 < width.toNat) (hh : 0 < height.toNat) (hag : PathsAgree sf img x y width height) :
    x.toUInt32.toNat = 0 ∧ y.toUInt32.toNat = 0 ∧ width = img.width ∧
      width * height = img.width * img.height := by
  obtain ⟨host, hluma, hchroma⟩ := (room_host hsf).exists_picture ⟨probeArrays 0, probeArrays 1⟩
  have hs : SamePixels sf.toEncodeSurface host probeArrays := ⟨hluma, hchroma⟩
  have hboth := hag host (fun _ => 0) probeArrays hs
  rw [getImageDevice_ptr (created_format hc) hr.even_size.1,
    getImageHost_ptr hc hr hs hw hh] at hboth
  have hbytes := Option.some_inj.mp (Option.some_inj.mp hboth)
  have hdevice : deviceBytes probeArrays width height (fun _ => 0) =
      probeBytes width.toNat (width * height).toNat 0 0 width.toNat height.toNat := by
    unfold deviceBytes probeBytes
    simp only [Nat.zero_add]
    rfl
  have heven := hr.even_size
  have hdest := hr.even_dest
  obtain ⟨hx, hy, harea, hwidth⟩ := full_of_probe hw hr.in_dst.1 width.toNat_lt (by omega) heven.2
    (UInt32.toNat_mul _ _) (hdevice.symm.trans hbytes)
  exact ⟨hx, by omega, UInt32.toNat_inj.mp hwidth, UInt32.toNat_inj.mp harea⟩

/-- The paths agree on the empty rectangles and on those at the origin that fill the image. -/
theorem pathsAgree_iff (hc : nvCreateImage .nv12 w h memory = some (.ok img)) (hsf : sf.SizesFit)
    (hr : EvenGet img sf.toEncodeSurface x y width height) :
    PathsAgree sf img x y width height ↔ (width = 0 ∨ height = 0) ∨
      x = 0 ∧ y = 0 ∧ width = img.width ∧ width * height = img.width * img.height := by
  have hzero {n : UInt32} : n = 0 ↔ n.toNat = 0 := by
    rw [← UInt32.toNat_inj, UInt32.toNat_zero]
  have horigin {n : Int32} : n = 0 ↔ n.toUInt32.toNat = 0 := by
    rw [← UInt32.toNat_zero, UInt32.toNat_inj]
    refine ⟨fun h => h ▸ rfl, fun h => ?_⟩
    rw [← Int32.toInt32_toUInt32 n, h]
    rfl
  rw [hzero, hzero, horigin, horigin]
  by_cases h0 : width.toNat = 0 ∨ height.toNat = 0
  · exact iff_of_true (pathsAgree_empty (created_format hc) hr h0) (.inl h0)
  · have hw : 0 < width.toNat := by omega
    have hh : 0 < height.toNat := by omega
    rw [or_iff_right h0]
    constructor
    · exact full_of_pathsAgree hc hsf hr hw hh
    · rintro ⟨hx, hy, hwidth, harea⟩
      exact pathsAgree_full hc hr hw hh hx hy hwidth harea

end Agree

/-- The whole of a surface, to an image of its size. -/
theorem pathsAgree_iff_whole : ∃ img, nvCreateImage .nv12 16 16 none = some (.ok img) ∧
    PathsAgree (plainSurface 16 16 fun _ => 0) img 0 0 16 16 := by
  have hc : nvCreateImage .nv12 16 16 none = some (.ok (createdImage .nv12 16 16 256 none)) := rfl
  have hr : EvenGet (createdImage .nv12 16 16 256 none) (.created 16 16) 0 0 16 16 :=
    ⟨by decide, by decide, by decide, by decide, by decide, by decide, by decide⟩
  have hsf : (plainSurface 16 16 fun _ => 0).SizesFit := by decide
  exact ⟨_, hc, (pathsAgree_iff hc hsf hr).mpr (by decide)⟩

/-- The upper left quarter of it. -/
theorem pathsAgree_quarter : ∃ img, nvCreateImage .nv12 16 16 none = some (.ok img) ∧
    ¬PathsAgree (plainSurface 16 16 fun _ => 0) img 0 0 8 8 := by
  have hc : nvCreateImage .nv12 16 16 none = some (.ok (createdImage .nv12 16 16 256 none)) := rfl
  have hr : EvenGet (createdImage .nv12 16 16 256 none) (.created 16 16) 0 0 8 8 :=
    ⟨by decide, by decide, by decide, by decide, by decide, by decide, by decide⟩
  refine ⟨_, hc, fun hag => ?_⟩
  obtain ⟨-, -, hwidth, -⟩ := full_of_pathsAgree hc (by decide) hr (by decide) (by decide) hag
  exact absurd hwidth (by decide)

end NvVaapi.Image
