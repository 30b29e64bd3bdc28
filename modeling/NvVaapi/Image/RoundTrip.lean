import NvVaapi.Image.Clamp

/-!
# Writing to a surface and reading it back

* `EvenCopy`: an even rectangle of two images and a surface.
* `put_picture`, `get_picture`: what `nvPutImage` and `nvGetImage` do with it to the pictures.
* `getImage_putImage`: what was put comes back, and the rest of the surface stays as it was.
-/

namespace NvVaapi.Image

open Objects (NVContextMode PutArgs GetResults)

/-- A rectangle with even sides, at an even place of the image `src` and of the surface `sf`, that
is inside both and not larger than the image `dst`. -/
structure EvenCopy (src dst : NVImage) (sf : EncodeSurface) (srcX srcY destX destY : Int32)
    (width height : UInt32) : Prop where
  nonneg : 0 ≤ srcX ∧ 0 ≤ srcY ∧ 0 ≤ destX ∧ 0 ≤ destY
  even_src : srcX.toUInt32.toNat % 2 = 0 ∧ srcY.toUInt32.toNat % 2 = 0
  even_dest : destX.toUInt32.toNat % 2 = 0 ∧ destY.toUInt32.toNat % 2 = 0
  even_size : width.toNat % 2 = 0 ∧ height.toNat % 2 = 0
  in_src : srcX.toUInt32.toNat + width.toNat ≤ src.width.toNat ∧
    srcY.toUInt32.toNat + height.toNat ≤ src.height.toNat
  in_surface : destX.toUInt32.toNat + width.toNat ≤ sf.width.toNat ∧
    destY.toUInt32.toNat + height.toNat ≤ sf.height.toNat
  in_dst : width.toNat ≤ dst.width.toNat ∧ height.toNat ≤ dst.height.toNat

theorem planeCopies_even {srcX srcY dstX dstY w h : UInt32} (hs : srcX.toNat % 2 = 0)
    (hd : dstX.toNat % 2 = 0) (hw : w.toNat % 2 = 0) : planeCopies srcX srcY dstX dstY w h =
      TwoPlane.rect srcX.toNat srcY.toNat dstX.toNat dstY.toNat w.toNat h.toNat := by
  have heven {n : UInt32} (hn : n.toNat % 2 = 0) : (evenDown n).toNat = n.toNat := by
    rw [toNat_evenDown]
    omega
  simp only [planeCopies, TwoPlane.rect, heven hs, heven hd, heven hw, UInt32.toNat_div,
    UInt32.reduceToNat]

/-- A clip does nothing to what is inside. -/
theorem clip_inside {src n limit : UInt32} (h : src.toNat + n.toNat ≤ limit.toNat) :
    clip src n limit = n := by
  have hlt := limit.toNat_lt
  refine if_neg ?_
  rw [gt_iff_lt, UInt32.lt_iff_toNat_lt, UInt32.toNat_add]
  omega

theorem lesser_self (n : UInt32) : lesser n n = n := by
  unfold lesser
  split <;> rfl

theorem lesser_eq_right {limit n : UInt32} (h : n.toNat ≤ limit.toNat) : lesser limit n = n := by
  rw [← UInt32.toNat_inj, toNat_lesser]
  omega

namespace EvenCopy

variable {src dst : NVImage} {sf : EncodeSurface} {srcX srcY destX destY : Int32}
  {width height : UInt32}

/-- The arguments that put the rectangle. -/
def args (srcX srcY destX destY : Int32) (width height : UInt32) : PutArgs :=
  ⟨srcX, srcY, width, height, destX, destY, width, height⟩

theorem putCopies_eq (h : EvenCopy src dst sf srcX srcY destX destY width height) :
    putCopies sf src (args srcX srcY destX destY width height) =
      TwoPlane.rect srcX.toUInt32.toNat srcY.toUInt32.toNat destX.toUInt32.toNat
        destY.toUInt32.toNat
        width.toNat height.toNat := by
  have hw : putWidth sf src (args srcX srcY destX destY width height) = width := by
    simp only [putWidth, args, lesser_self, clip_inside h.in_src.1, clip_inside h.in_surface.1]
  have hh : putHeight sf src (args srcX srcY destX destY width height) = height := by
    simp only [putHeight, args, lesser_self, clip_inside h.in_src.2, clip_inside h.in_surface.2]
  rw [putCopies, hw, hh]
  exact planeCopies_even h.even_src.1 h.even_dest.1 h.even_size.1

theorem getCopies_eq (h : EvenCopy src dst sf srcX srcY destX destY width height) :
    getCopies sf dst destX destY width height =
      TwoPlane.rect destX.toUInt32.toNat destY.toUInt32.toNat 0 0 width.toNat height.toNat := by
  rw [getCopies, clip_inside h.in_surface.1, clip_inside h.in_surface.2, lesser_eq_right h.in_dst.1,
    lesser_eq_right h.in_dst.2]
  exact planeCopies_even h.even_dest.1 rfl h.even_size.1

theorem putStarts (h : EvenCopy src dst sf srcX srcY destX destY width height)
    (hw : 0 < width.toNat) (hh : 0 < height.toNat) :
    PutStarts sf src (args srcX srcY destX destY width height) := by
  obtain ⟨hsx, hsy, hdx, hdy⟩ := h.nonneg
  have hsrc := h.in_src
  have hsf := h.in_surface
  refine ⟨?_, ?_, ?_⟩
  · simp only [args, not_or, Int32.not_lt]
    exact ⟨hsx, hsy, hdx, hdy⟩
  · simp only [args, ge_iff_le, UInt32.le_iff_toNat_le]
    omega
  · simp only [args, ge_iff_le, UInt32.le_iff_toNat_le]
    omega

end EvenCopy

/-! ## The size of a surface stays as it is -/

theorem addContent_size (sf : EncodeSurface) (x y w h : UInt32) :
    (sf.addContent x y w h).width = sf.width ∧ (sf.addContent x y w h).height = sf.height := by
  unfold EncodeSurface.addContent
  dsimp only
  split <;> exact ⟨rfl, rfl⟩

theorem copyToSurface_size (sf : NVSurface) (host : Memory) (img : NVImage) (src : Memory)
    (p : PutArgs) :
    (copyToSurface sf host img src p).width = sf.width ∧
      (copyToSurface sf host img src p).height = sf.height := by
  unfold copyToSurface
  dsimp only
  split
  · exact addContent_size _ _ _ _ _
  · exact ⟨rfl, rfl⟩

theorem nvPutImage_size (calloc : Bool) (sf : NVSurface) (img : NVImage) (p : PutArgs) :
    (nvPutImage calloc sf img p).after.width = sf.width ∧
      (nvPutImage calloc sf img p).after.height = sf.height := by
  unfold nvPutImage
  cases img.ptr with
  | none => exact ⟨rfl, rfl⟩
  | some src =>
    cases he : ensureSurfaceHostBuffer calloc sf with
    | none => exact ⟨rfl, rfl⟩
    | some r =>
      have hsize := ensureSurfaceHostBuffer_size he
      have hr : r.1.width = sf.width ∧ r.1.height = sf.height := by rw [hsize]; exact ⟨rfl, rfl⟩
      dsimp only
      split_ifs
      · exact hr
      · have hc := copyToSurface_size r.1 r.2 img src p
        exact ⟨hc.1.trans hr.1, hc.2.trans hr.2⟩
      · exact hr

/-- The layout of the host buffer depends on the size only. -/
theorem hostLayout_congr {sf sf' : EncodeSurface}
    (h : sf.width = sf'.width ∧ sf.height = sf'.height) : hostLayout sf = hostLayout sf' := by
  unfold hostLayout EncodeSurface.hostYSize EncodeSurface.hostRows EncodeSurface.hostPitch
  rw [h.1, h.2]

theorem EvenCopy.of_size {src dst : NVImage} {sf sf' : EncodeSurface}
    {srcX srcY destX destY : Int32} {width height : UInt32}
    (h : EvenCopy src dst sf srcX srcY destX destY width height)
    (hs : sf'.width = sf.width ∧ sf'.height = sf.height) :
    EvenCopy src dst sf' srcX srcY destX destY width height :=
  { h with in_surface := by rw [hs.1, hs.2]; exact h.in_surface }

/-! ## The round trip -/

section RoundTrip

variable {calloc : Bool} {sf : NVSurface} {img src dst : NVImage} {srcX srcY destX destY : Int32}
variable {width height : UInt32} {r : NVSurface × Memory} {m : Memory}

/-- What putting an even rectangle returns and leaves. -/
theorem putImage_even (h : EvenCopy src dst sf.toEncodeSurface srcX srcY destX destY width height)
    (he : ensureSurfaceHostBuffer calloc sf = some r) (hm : src.ptr = some m) (hw : 0 < width.toNat)
    (hh : 0 < height.toNat) :
    nvPutImage calloc sf src (EvenCopy.args srcX srcY destX destY width height) =
      ⟨.success,
        { copyToSurface r.1 r.2 src m (EvenCopy.args srcX srcY destX destY width height) with
          status := .ready },
        some (TwoPlane.rect srcX.toUInt32.toNat srcY.toUInt32.toNat destX.toUInt32.toNat
          destY.toUInt32.toNat width.toNat height.toNat)⟩ := by
  have hne : ¬PutEmpty (EvenCopy.args srcX srcY destX destY width height) := by
    have hpos {n : UInt32} (hn : 0 < n.toNat) : n ≠ 0 := fun h0 => by simp [h0] at hn
    simp [PutEmpty, EvenCopy.args, hpos hw, hpos hh]
  have hsize := ensureSurfaceHostBuffer_size he
  have hstart :
      PutStarts r.1.toEncodeSurface src (EvenCopy.args srcX srcY destX destY width height) := by
    rw [hsize]
    exact h.putStarts hw hh
  rw [← h.putCopies_eq, ← hsize]
  unfold nvPutImage
  simp only [hm, he, if_neg hne, hstart, not_true_eq_false, if_false]

/-- What getting it returns and leaves. -/
theorem getImage_even (h : EvenCopy src dst sf.toEncodeSurface srcX srcY destX destY width height)
    {host : Memory} (hhost : sf.hostData = some host) (hm : dst.ptr = some m) (hw : 0 < width.toNat)
    (hh : 0 < height.toNat) :
    getImageHost sf dst destX destY width height =
      ⟨.success, { dst with ptr := some (dst.layout.copy (hostLayout sf.toEncodeSurface)
        (TwoPlane.rect destX.toUInt32.toNat destY.toUInt32.toNat 0 0 width.toNat height.toNat)
        host m) },
        some (TwoPlane.rect destX.toUInt32.toNat destY.toUInt32.toNat 0 0 width.toNat
          height.toNat)⟩ := by
  have hstart : GetStarts sf.toEncodeSurface destX destY := by
    obtain ⟨-, -, hdx, hdy⟩ := h.nonneg
    have hsf := h.in_surface
    refine ⟨?_, ?_⟩
    · rw [not_or, Int32.not_lt, Int32.not_lt]
      exact ⟨hdx, hdy⟩
    · rw [ge_iff_le, ge_iff_le, UInt32.le_iff_toNat_le, UInt32.le_iff_toNat_le]
      omega
  unfold getImageHost
  simp only [hhost, hm, hstart, not_true_eq_false, if_false, h.getCopies_eq]

theorem created_format {w h : Int32} {memory : Option Memory}
    (hc : nvCreateImage .nv12 w h memory = some (.ok img)) : img.format = .nv12 := by
  obtain ⟨n, -, rfl⟩ := nvCreateImage_ok .nv12 hc
  rfl

theorem created_ptr {w h : Int32} (hc : nvCreateImage .nv12 w h (some m) = some (.ok img)) :
    img.ptr = some m := by
  obtain ⟨n, -, rfl⟩ := nvCreateImage_ok .nv12 hc
  rfl

/-- What it leaves in the host buffer. -/
theorem putImage_hostData
    (h : EvenCopy src dst sf.toEncodeSurface srcX srcY destX destY width height)
    (he : ensureSurfaceHostBuffer calloc sf = some r) (hm : src.ptr = some m) (hw : 0 < width.toNat)
    (hh : 0 < height.toNat) :
    (nvPutImage calloc sf src (EvenCopy.args srcX srcY destX destY width height)).after.hostData =
      some ((hostLayout sf.toEncodeSurface).copy src.layout
        (TwoPlane.rect srcX.toUInt32.toNat srcY.toUInt32.toNat destX.toUInt32.toNat
          destY.toUInt32.toNat width.toNat height.toNat) m r.2) := by
  rw [putImage_even h he hm hw hh, ← h.putCopies_eq, ← ensureSurfaceHostBuffer_size he]
  rfl

theorem putImage_empty (he : ensureSurfaceHostBuffer calloc sf = some r) (hm : src.ptr = some m)
    (h0 : ¬(0 < width.toNat ∧ 0 < height.toNat)) :
    nvPutImage calloc sf src (EvenCopy.args srcX srcY destX destY width height) =
      .plain .success { r.1 with status := .ready } := by
  have hz : PutEmpty (EvenCopy.args srcX srcY destX destY width height) := by
    simp only [PutEmpty, EvenCopy.args, ← UInt32.toNat_inj, UInt32.toNat_zero]
    omega
  unfold nvPutImage
  simp only [hm, he, if_pos hz]

theorem nvGetImage_host {mode : Option NVContextMode} (hmode : mode ≠ some .decode) (x y : Int32)
    (replies : GetResults) : nvGetImage mode sf img x y width height replies =
      some (getImageHost sf img x y width height) := by
  refine if_pos ?_
  match mode with
  | none => exact .inl rfl
  | some .encode => exact .inr rfl
  | some .decode => exact absurd rfl hmode

/-- What is put comes back, and the surface stays as it was outside of it. -/
theorem getImage_putImage {mode : Option NVContextMode} {w₁ h₁ w₂ h₂ : Int32} {m₁ m₂ : Memory}
    (replies : GetResults) (hmode : mode ≠ some .decode)
    (he : ensureSurfaceHostBuffer calloc sf = some r) (hsf : sf.SizesFit)
    (hsrc : nvCreateImage .nv12 w₁ h₁ (some m₁) = some (.ok src))
    (hdst : nvCreateImage .nv12 w₂ h₂ (some m₂) = some (.ok dst))
    (hfit : dst.width.toNat * dst.height.toNat < 2 ^ 32)
    (h : EvenCopy src dst sf.toEncodeSurface srcX srcY destX destY width height) :
    let put := nvPutImage calloc sf src (EvenCopy.args srcX srcY destX destY width height)
    let layout := hostLayout sf.toEncodeSurface
    put.status = .success ∧ ∃ host, put.after.hostData = some host ∧
      (layout.picture host).SameOutside (layout.picture r.2)
        (TwoPlane.rect srcX.toUInt32.toNat srcY.toUInt32.toNat destX.toUInt32.toNat
          destY.toUInt32.toNat
          width.toNat height.toNat) sf.width.toNat sf.height.toNat ∧
      (0 < width.toNat → 0 < height.toNat →
        ∃ get m, nvGetImage mode put.after dst destX destY width height replies = some get ∧
          get.status = .success ∧ get.after.ptr = some m ∧
          (get.after.layout.picture m).SameRect (src.layout.picture m₁) 0 0 srcX.toUInt32.toNat
            srcY.toUInt32.toNat width.toNat height.toNat) := by
  intro put layout
  have hm : src.ptr = some m₁ := created_ptr hsrc
  by_cases hpos : 0 < width.toNat ∧ 0 < height.toNat
  · obtain ⟨hw, hh⟩ := hpos
    have hput := putImage_even h he hm hw hh
    have hhost := putImage_hostData h he hm hw hh
    have hafter := nvPutImage_size calloc sf src (EvenCopy.args srcX srcY destX destY width height)
    refine ⟨congrArg Transfer.status hput, _, hhost, ?_, fun _ _ => ?_⟩
    · exact TwoPlane.sameOutside_copy (room_host hsf) h.in_surface.1 h.in_surface.2
    · have hget := getImage_even (h.of_size hafter) hhost (created_ptr hdst) hw hh
      refine ⟨_, _, nvGetImage_host hmode _ _ _, congrArg Transfer.status hget,
        congrArg (fun t => t.after.ptr) hget, ?_⟩
      rw [hget, hostLayout_congr hafter]
      have hw₀ : 0 + width.toNat ≤ dst.width.toNat := Nat.le_trans (by omega) h.in_dst.1
      have hh₀ : 0 + height.toNat ≤ dst.height.toNat := Nat.le_trans (by omega) h.in_dst.2
      refine (TwoPlane.sameRect_copy (room_created hdst hfit) hw₀ hh₀).trans ?_
      exact TwoPlane.sameRect_copy (room_host hsf) h.in_surface.1 h.in_surface.2
  · have hput : put = _ := putImage_empty he hm hpos
    rw [hput]
    refine ⟨rfl, r.2, ensureSurfaceHostBuffer_host he, ⟨?_, ?_⟩, fun hw hh => absurd ⟨hw, hh⟩ hpos⟩
    · exact fun _ _ _ _ _ => rfl
    · exact fun _ _ _ _ _ => rfl

end RoundTrip

/-- The 4x4 samples at (2, 2) of an image, put to (4, 6) and read back: one of them. -/
theorem getImage_putImage_patch : ∃ src dst,
    nvCreateImage .nv12 8 8 (some fun i => UInt8.ofNat i) = some (.ok src) ∧
    nvCreateImage .nv12 8 8 (some fun _ => 0) = some (.ok dst) ∧
    ∃ get m, nvGetImage none (nvPutImage true (plainSurface 16 16 fun _ => 0) src
        (EvenCopy.args 2 2 4 6 4 4)).after dst 4 6 4 4 ⟨true, true, fun _ => true⟩ = some get ∧
      get.after.ptr = some m ∧ m (get.after.layout.luma 1 3) = 29 := by
  have hmode : (none : Option NVContextMode) ≠ some .decode := by decide
  have he : ensureSurfaceHostBuffer true (plainSurface 16 16 fun _ => 0) =
      some (plainSurface 16 16 fun _ => 0, fun _ => 0) := rfl
  have hsrc : nvCreateImage .nv12 8 8 (some fun i => UInt8.ofNat i) =
      some (.ok (createdImage .nv12 8 8 64 (some fun i => UInt8.ofNat i))) := rfl
  have hdst : nvCreateImage .nv12 8 8 (some fun _ => 0) =
      some (.ok (createdImage .nv12 8 8 64 (some fun _ => 0))) := rfl
  have hrect : EvenCopy (createdImage .nv12 8 8 64 (some fun i => UInt8.ofNat i))
      (createdImage .nv12 8 8 64 (some fun _ => 0)) (.created 16 16) 2 2 4 6 4 4 :=
    ⟨by decide, by decide, by decide, by decide, by decide, by decide, by decide⟩
  obtain ⟨-, host, -, -, hback⟩ :=
    getImage_putImage ⟨true, true, fun _ => true⟩ hmode he (by decide)
    hsrc hdst (by decide) hrect
  obtain ⟨get, m, hget, -, hm, hsame⟩ := hback (by decide) (by decide)
  exact ⟨_, _, hsrc, hdst, get, m, hget, hm, hsame.1 1 (by decide) 3 (by decide)⟩

end NvVaapi.Image
