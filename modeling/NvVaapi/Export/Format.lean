import NvVaapi.Encode.Reads
import NvVaapi.Export.Effects

/-!
# The format of a reused image

* `copyFrameToSurface`: the copies of a frame to the arrays of a surface's image.
* `Fits`: the image has the size and the sample size of the surface, so that the copies stay in the
  arrays.
* `ReusesFormat`: the free image that a surface takes has its sample size. `findFreeBackingImage`
  compares the sizes alone.
* `formatted_iff`: every image fits its surface throughout a run exactly when every call meets
  `ReusesFormat`.
-/

namespace NvVaapi.Export

/-- The bytes of a sample. -/
def CUarrayFormat.bytes : CUarrayFormat → Nat
  | .unset => 0
  | .unsignedInt8 => 1
  | .unsignedInt16 => 2

namespace BackingImage

variable (img : BackingImage)

/-- The bytes in a row of an array. The second one has half the width and two channels. -/
def rowBytes (i : Nat) : Nat :=
  if i = 0 then img.width.toNat * img.arrayFormat.bytes
  else img.width.toNat / 2 * 2 * img.arrayFormat.bytes

def rows (i : Nat) : Nat := if i = 0 then img.height.toNat else img.height.toNat / 2

end BackingImage

/-- `CUDA_MEMCPY2D` with the index of its array. -/
structure Memcpy2D where
  srcY : UInt32
  dstArray : Nat
  height : UInt32
  widthInBytes : UInt32

namespace NVSurface

variable (sf : NVSurface)

/-- The sample size, with which `copyFrameToSurface` copies. -/
def bpp : UInt32 := if sf.format = .nv12 then 1 else 2

/-- The copies, when all of them succeed. -/
def copyFrameToSurface : List Memcpy2D :=
  [⟨0, 0, sf.height, sf.width * sf.bpp⟩, ⟨sf.height, 1, sf.height >>> 1, sf.width * sf.bpp⟩]

/-- The copies stay in the arrays of the image. -/
def CopiesFit (img : BackingImage) : Prop :=
  ∀ cpy ∈ sf.copyFrameToSurface, cpy.widthInBytes.toNat ≤ img.rowBytes cpy.dstArray ∧
    cpy.height.toNat ≤ img.rows cpy.dstArray

/-- The image has the size and the sample size of the surface. -/
structure Fits (img : BackingImage) : Prop where
  width : img.width = sf.width
  height : img.height = sf.height
  sampleSize : img.arrayFormat.bytes = sf.bpp.toNat
  copies : sf.CopiesFit img

variable {sf} {img : BackingImage}

/-- With an even width the size and the sample size are enough. -/
theorem fits_of_even (he : img.width.toNat % 2 = 0) (hw : img.width = sf.width)
    (hh : img.height = sf.height)
    (hb : img.arrayFormat.bytes = sf.bpp.toNat) : sf.Fits img := by
  refine ⟨hw, hh, hb, ?_⟩
  have hwidth : (sf.width * sf.bpp).toNat ≤ img.width.toNat * img.arrayFormat.bytes := by
    rw [hb, hw, UInt32.toNat_mul]
    exact Nat.mod_le _ _
  have heven : img.width.toNat / 2 * 2 = img.width.toNat :=
    Nat.div_mul_cancel (Nat.dvd_of_mod_eq_zero he)
  have hrows : (sf.height >>> 1).toNat = sf.height.toNat / 2 := by
    rw [UInt32.toNat_shiftRight, Nat.shiftRight_eq_div_pow]
    rfl
  intro cpy hc
  obtain rfl | hc := List.mem_cons.mp hc
  · exact ⟨hwidth, hh ▸ le_rfl⟩
  · obtain rfl := List.mem_singleton.mp hc
    refine ⟨?_, ?_⟩
    · show _ ≤ img.width.toNat / 2 * 2 * img.arrayFormat.bytes
      rw [heven]
      exact hwidth
    · show (sf.height >>> 1).toNat ≤ img.height.toNat / 2
      rw [hrows, hh]

/-- Whether an image fits depends on sizes and formats. -/
theorem Fits.congr {sf₀ : NVSurface} {img₀ : BackingImage} (h : sf₀.Fits img₀)
    (hs : sf₀.toNVSurface = sf.toNVSurface) (hw : img.width = img₀.width)
    (hh : img.height = img₀.height) (hf : img.arrayFormat = img₀.arrayFormat) : sf.Fits img := by
  obtain ⟨info, backing⟩ := sf
  obtain ⟨info₀, backing₀⟩ := sf₀
  obtain ⟨surface, width, height, fourcc, format⟩ := img
  obtain rfl : info₀ = info := hs
  obtain rfl : width = img₀.width := hw
  obtain rfl : height = img₀.height := hh
  obtain rfl : format = img₀.arrayFormat := hf
  exact ⟨h.width, h.height, h.sampleSize, h.copies⟩

end NVSurface

namespace ImagePool

variable {p q : ImagePool} {s a : Nat} {sf : NVSurface} {arraysDestroyed : Bool}

/-- The image of every surface fits it. -/
def Formatted (p : ImagePool) : Prop :=
  ∀ s sf a, p.surfaces s = some sf → sf.backingImage = some a → sf.Fits (p.memory a)

/-- A surface that takes a free image takes one with its sample size. -/
def ReusesFormat (p : ImagePool) : PoolCall → Prop
  | .realiseSurface s _ => ∀ sf ∈ p.surfaces s, sf.backingImage = none → ∀ a ∈ p.freeImage sf,
    (p.memory a).arrayFormat.bytes = sf.bpp.toNat
  | _ => True

instance (p : ImagePool) : DecidablePred p.ReusesFormat
  | .realiseSurface s _ => inferInstanceAs (Decidable (∀ sf ∈ p.surfaces s, sf.backingImage = none →
    ∀ a ∈ p.freeImage sf, (p.memory a).arrayFormat.bytes = sf.bpp.toNat))
  | .createSurface .. | .detachBackingImage .. | .destroySurface .. | .destroyAllBackingImage _ =>
    inferInstanceAs (Decidable True)

/-- The images and the surfaces that can get one have an even width. -/
structure Even (p : ImagePool) : Prop where
  surfaces : ∀ s sf, p.surfaces s = some sf → sf.format = .nv12 ∨ sf.format = .p016 →
    sf.width.toNat % 2 = 0
  images : ∀ a < p.nextImage, (p.memory a).width.toNat % 2 = 0

/-- The surfaces and the images keep their sizes and formats. -/
structure SameShapes (p q : ImagePool) : Prop extends SameSurfaces p q where
  nextImage : q.nextImage = p.nextImage
  width : ∀ a, (q.memory a).width = (p.memory a).width
  height : ∀ a, (q.memory a).height = (p.memory a).height
  arrayFormat : ∀ a, (q.memory a).arrayFormat = (p.memory a).arrayFormat

theorem SameShapes.refl (p : ImagePool) : SameShapes p p :=
  ⟨⟨rfl, fun _ => rfl⟩, rfl, fun _ => rfl, fun _ => rfl, fun _ => rfl⟩

theorem SameShapes.trans {r : ImagePool} (h : SameShapes p q) (h' : SameShapes q r) :
    SameShapes p r where
  toSameSurfaces := h.toSameSurfaces.trans h'.toSameSurfaces
  nextImage := h'.nextImage.trans h.nextImage
  width a := (h'.width a).trans (h.width a)
  height a := (h'.height a).trans (h.height a)
  arrayFormat a := (h'.arrayFormat a).trans (h.arrayFormat a)

theorem sameShapes_setBackingImage (s : Nat) (b : Option Nat) :
    SameShapes p (p.setBackingImage s b) :=
  { SameShapes.refl p with surfaces := surfaces_setBackingImage b }

theorem sameShapes_setSurface (a : Nat) (s : Option Nat) : SameShapes p (p.setSurface a s) := by
  have h (b : Nat) : (p.setSurface a s).memory b = { p.memory b with
      surface := if b = a then s else (p.memory b).surface } := by
    show Function.update p.memory a { p.memory a with surface := s } b = _
    by_cases hb : b = a
    · subst hb
      rw [Function.update_self, if_pos rfl]
    · rw [Function.update_of_ne hb, if_neg hb]
  refine ⟨⟨rfl, fun _ => rfl⟩, rfl, fun b => ?_, fun b => ?_, fun b => ?_⟩
  · rw [h]
  · rw [h]
  · rw [h]

theorem Destroyed.sameShapes {arraysDestroyed : Nat → Bool} {l : List Nat}
    (h : Destroyed arraysDestroyed l p q) :
    SameShapes p q := by
  refine ⟨h.same, h.nextImage, ?_, ?_, ?_⟩ <;> simp [h.memory]

theorem sameShapes_detach (s : Nat) :
    SameShapes p (p.eglDetachBackingImageFromSurface s arraysDestroyed) := by
  cases hs : p.backingOf s with
  | none =>
    unfold eglDetachBackingImageFromSurface
    rw [hs]
    exact .refl p
  | some a =>
    rw [eglDetachBackingImageFromSurface_some hs]
    split
    · have hd := eglDestroyBackingImage_spec (p := p) a fun _ => arraysDestroyed
      exact hd.sameShapes.trans (sameShapes_setBackingImage s none)
    · refine SameShapes.trans ?_ (sameShapes_setBackingImage s none)
      unfold unlinkImage
      split
      · exact sameShapes_setSurface _ none
      · exact .refl p

theorem Even.sameShapes (h : Even p) (hq : SameShapes p q) : Even q where
  surfaces s sf hs hf := by
    obtain ⟨sf₀, hs₀, heq⟩ := hq.of_some hs
    have heven := h.surfaces s sf₀ hs₀
    rw [heq] at heven
    exact heven hf
  images a ha := by
    rw [hq.nextImage] at ha
    rw [hq.width]
    exact h.images a ha

/-- The images are those of before, or fewer surfaces have one. -/
theorem Formatted.sameShapes (h : Formatted p) (hq : SameShapes p q)
    (hb : ∀ s a, q.backingOf s = some a → p.backingOf s = some a) : Formatted q := by
  intro s sf a hs hsf
  obtain ⟨sf₀, hs₀, heq⟩ := hq.of_some hs
  have hback : p.backingOf s = some a := hb s a (by rw [backingOf, hs]; exact hsf)
  rw [backingOf, hs₀] at hback
  exact (h s sf₀ a hs₀ hback).congr heq (hq.width a) (hq.height a) (hq.arrayFormat a)

/-- No surface gets an image from another one. -/
theorem backingOf_detach_le {t : Nat}
    (h : (p.eglDetachBackingImageFromSurface s arraysDestroyed).backingOf t = some a) :
    p.backingOf t = some a := by
  have hback (q : ImagePool) (hq : (q.setBackingImage s none).backingOf t = some a) :
      q.backingOf t = some a := by
    rw [backingOf_setBackingImage_none, update_none_eq_some] at hq
    exact hq.2
  cases hs : p.backingOf s with
  | none =>
    unfold eglDetachBackingImageFromSurface at h
    rwa [hs] at h
  | some b =>
    rw [eglDetachBackingImageFromSurface_some hs] at h
    split at h
    · have hd := (eglDestroyBackingImage_spec (p := p) b fun _ => arraysDestroyed).backingOf t
      rw [hback _ h] at hd
      split at hd
      · cases hd
      · exact hd.symm
    · have hunlinked := hback _ h
      unfold unlinkImage at hunlinked
      split at hunlinked
      · exact hunlinked
      · exact hunlinked

theorem Formatted.detach (h : Formatted p) (s : Nat) :
    Formatted (p.eglDetachBackingImageFromSurface s arraysDestroyed) :=
  h.sameShapes (sameShapes_detach s) fun _ _ ht => backingOf_detach_le ht

/-- A surface is gone. -/
theorem Formatted.deleteSurface (h : Formatted p) (s : Nat) : Formatted (p.deleteSurface s) := by
  intro t sf a ht hb
  exact h t sf a (update_none_eq_some.mp ht).2 hb

theorem Even.deleteSurface (h : Even p) (s : Nat) : Even (p.deleteSurface s) := by
  refine ⟨fun t sf ht hf => ?_, h.images⟩
  exact h.surfaces t sf (update_none_eq_some.mp ht).2 hf

/-! ## Allocations -/

theorem ShapedFor.format_eq {img : BackingImage} (h : ShapedFor sf img) :
    sf.format = .nv12 ∨ sf.format = .p016 := by
  have hf := h.format true
  have hne := h.ne_unset
  unfold eglFrame at hf
  cases hsf : sf.format with
  | nv12 => exact .inl rfl
  | p016 => exact .inr rfl
  | yuv444 => exact absurd (by simpa [hsf] using hf) hne
  | yuv444_16Bit => exact absurd (by simpa [hsf] using hf) hne

/-- An image fits the surface that it was allocated for. -/
theorem ShapedFor.fits {img : BackingImage} (h : ShapedFor sf img) (he : sf.width.toNat % 2 = 0) :
    sf.Fits img := by
  refine NVSurface.fits_of_even (by rwa [h.width]) h.width h.height ?_
  rw [h.format true]
  obtain hf | hf := h.format_eq
  · simp [eglFrame, NVSurface.bpp, hf, CUarrayFormat.bytes]
  · simp [eglFrame, NVSurface.bpp, hf, CUarrayFormat.bytes]

theorem Even.allocates (h : Even p) (hs : p.surfaces s = some sf) {ret : Option Nat}
    (hq : Allocates sf p ret q) :
    Even q where
  surfaces t sf' ht hf := by
    rw [hq.surfaces] at ht
    exact h.surfaces t sf' ht hf
  images a ha := by
    by_cases hold : a < p.nextImage
    · rw [hq.memory a hold]
      exact h.images a hold
    · have hnew := (hq.created a (Nat.le_of_not_lt hold) ha).toShapedFor
      rw [hnew.width]
      exact h.surfaces s sf hs hnew.format_eq

theorem Formatted.allocates (hp : Sound p) (h : Formatted p) {ret : Option Nat}
    (hq : Allocates sf p ret q) :
    Formatted q := by
  intro s sf a hs hsf
  rw [hq.surfaces] at hs
  have hback : p.backingOf s = some a := by
    rw [backingOf, hs]
    exact hsf
  rw [hq.memory a (hp.images a (hp.attached s a hback).1)]
  exact h s sf a hs hsf

/-! ## Calls -/

theorem sameShapes_attach (s a : Nat) : SameShapes p (p.eglAttachBackingImageToSurface s a) :=
  (sameShapes_setBackingImage s (some a)).trans (sameShapes_setSurface a (some s))

/-- A surface gets an image: the others keep theirs. -/
theorem attach_formatted_iff (h : Formatted p) (hs : p.surfaces s = some sf) :
    Formatted (p.eglAttachBackingImageToSurface s a) ↔ sf.Fits (p.memory a) := by
  have hshape := sameShapes_attach (p := p) s a
  have hback :
      (p.eglAttachBackingImageToSurface s a).backingOf = Function.update p.backingOf s (some a) :=
    backingOf_setBackingImage hs (some a)
  refine ⟨fun hall => ?_, fun hfit t sf' b ht hb => ?_⟩
  · have hat : (p.eglAttachBackingImageToSurface s a).surfaces s = some
        { sf with backingImage := some a } := by
      show Function.update p.surfaces s _ s = _
      rw [Function.update_self, hs]
      rfl
    exact (hall s _ a hat rfl).congr rfl (hshape.width a).symm (hshape.height a).symm
      (hshape.arrayFormat a).symm
  · obtain ⟨sf₀, hs₀, heq⟩ := hshape.of_some ht
    have hbt : (p.eglAttachBackingImageToSurface s a).backingOf t = some b := by
      rw [backingOf, ht]
      exact hb
    rw [hback] at hbt
    by_cases hts : t = s
    · rw [hts, Function.update_self] at hbt
      obtain rfl := Option.some.inj hbt
      rw [hts, hs] at hs₀
      obtain rfl := Option.some.inj hs₀
      exact hfit.congr heq (hshape.width a) (hshape.height a) (hshape.arrayFormat a)
    · rw [Function.update_of_ne hts, backingOf, hs₀] at hbt
      exact (h t sf₀ b hs₀ hbt).congr heq (hshape.width b) (hshape.height b) (hshape.arrayFormat b)

/-- `findFreeBackingImage` compares the sizes. -/
theorem freeImage_size (h : p.freeImage sf = some a) :
    (p.memory a).width = sf.width ∧ (p.memory a).height = sf.height := by
  have hfree := List.find?_some h
  exact (of_decide_eq_true hfree).2

theorem Even.realise (he : Even p) (hs : p.surfaces s = some sf) {r : RealiseReplies} {ok : Bool}
    (hr : p.eglRealiseSurface s sf r = some (ok, q)) : Even q := by
  obtain ⟨-, rfl⟩ | ⟨-, a, -, rfl⟩ | ⟨-, -, ret, q', hq, rfl⟩ := eglRealiseSurface_cases hr
  · exact he
  · exact he.sameShapes (sameShapes_attach s a)
  · have heven := he.allocates hs hq
    cases ret with
    | none => exact heven
    | some a =>
      have hin : ({ q' with images := q'.images ++ [a] } : ImagePool).Even :=
        ⟨heven.surfaces, heven.images⟩
      exact hin.sameShapes (sameShapes_attach s a)

/-- The new image of a surface fits it, and a reused one fits it when it has its sample size. -/
theorem realise_formatted_iff (hp : Sound p) (he : Even p) (h : Formatted p)
    (hs : p.surfaces s = some sf) {r : RealiseReplies} {ok : Bool}
    (hr : p.eglRealiseSurface s sf r = some (ok, q)) : Formatted q ↔
      (sf.backingImage = none → ∀ a ∈ p.freeImage sf,
        (p.memory a).arrayFormat.bytes = sf.bpp.toNat) := by
  obtain ⟨hsf, rfl⟩ | ⟨hsf, a, ha, rfl⟩ | ⟨hsf, hnone, ret, q', hq, rfl⟩ :=
    eglRealiseSurface_cases hr
  · exact iff_of_true h fun hn => absurd hn hsf
  · refine (attach_formatted_iff h hs).trans ?_
    obtain ⟨hw, hh⟩ := freeImage_size ha
    have heven := he.images a (hp.images a (List.mem_of_find?_eq_some ha))
    rw [ha]
    refine ⟨fun hfit _ b hb => ?_, fun hall => ?_⟩
    · obtain rfl := Option.some.inj hb
      exact hfit.sampleSize
    · exact NVSurface.fits_of_even heven hw hh (hall hsf a rfl)
  · have hformatted := h.allocates hp hq
    rw [hnone]
    refine iff_of_true ?_ nofun
    cases ret with
    | none => exact hformatted
    | some a =>
      obtain ⟨hge, hlt⟩ := hq.returned a rfl
      have hnew := (hq.created a hge hlt).toShapedFor
      have hin : ({ q' with images := q'.images ++ [a] } : ImagePool).Formatted := hformatted
      have hat : ({ q' with images := q'.images ++ [a] } : ImagePool).surfaces s = some sf :=
        hq.surfaces ▸ hs
      exact (attach_formatted_iff hin hat).mpr (hnew.fits (he.surfaces s sf hs hnew.format_eq))

theorem even_created {format width height : UInt32}
    {f : Objects.SurfaceFormat × Objects.ChromaFormat × Nat}
    (hf : Objects.surfaceFormats format = some f) (h : f.1 = .nv12 ∨ f.1 = .p016) :
    (Objects.NVSurface.created width height f).width.toNat % 2 = 0 := by
  have hchroma : f.2.1 = .yuv420 := by
    unfold Objects.surfaceFormats at hf
    split_ifs at hf <;> cases hf <;> simp_all
  unfold Objects.NVSurface.created
  rw [hchroma, if_pos rfl]
  exact even_roundUp width

/-- A surface is the new one, or one of before. -/
theorem addSurface_cases {new : NVSurface} (h : (p.addSurface new).surfaces s = some sf) :
    new = sf ∨ p.surfaces s = some sf := by
  change Function.update p.surfaces p.nextSurface (some new) s = some sf at h
  by_cases hs : s = p.nextSurface
  · rw [hs, Function.update_self] at h
    exact .inl (Option.some.inj h)
  · rw [Function.update_of_ne hs] at h
    exact .inr h

theorem Even.step (he : Even p) {c : PoolCall} (hs : imagePool.step p c = some q) : Even q := by
  cases c with
  | createSurface format width height =>
    obtain ⟨f, hf, ⟨⟩⟩ := Option.bind_eq_some_iff.mp hs
    refine ⟨fun s sf hsf hformat => ?_, he.images⟩
    obtain rfl | hsf := addSurface_cases hsf
    · exact even_created hf hformat
    · exact he.surfaces s sf hsf hformat
  | realiseSurface s r =>
    obtain ⟨sf, hsf, hs⟩ := Option.bind_eq_some_iff.mp hs
    obtain ⟨⟨ok, q'⟩, hr, ⟨⟩⟩ := Option.bind_eq_some_iff.mp hs
    exact he.realise hsf hr
  | detachBackingImage s arraysDestroyed =>
    obtain ⟨sf, -, ⟨⟩⟩ := Option.bind_eq_some_iff.mp hs
    exact he.sameShapes (sameShapes_detach s)
  | destroySurface s arraysDestroyed =>
    obtain ⟨-, rfl⟩ | rfl := destroySurface_cases hs
    · exact he
    · exact (he.sameShapes (sameShapes_detach s)).deleteSurface s
  | destroyAllBackingImage arraysDestroyed =>
    obtain rfl := Option.some.inj hs
    exact he.sameShapes (eglDestroyAllBackingImage_spec arraysDestroyed).1.sameShapes

/-- From a pool whose images fit, a call leads to such a pool exactly when it meets
`ReusesFormat`. -/
theorem step_formatted_iff {c : PoolCall} (hp : Sound p) (he : Even p) (h : Formatted p)
    (hs : imagePool.step p c = some q) : Formatted q ↔ p.ReusesFormat c := by
  cases c with
  | createSurface format width height =>
    obtain ⟨f, -, ⟨⟩⟩ := Option.bind_eq_some_iff.mp hs
    refine iff_of_true (fun s sf a hsf hb => ?_) trivial
    obtain rfl | hsf := addSurface_cases hsf
    · cases hb
    · exact h s sf a hsf hb
  | realiseSurface s r =>
    obtain ⟨sf, hsf, hs⟩ := Option.bind_eq_some_iff.mp hs
    obtain ⟨⟨ok, q'⟩, hr, ⟨⟩⟩ := Option.bind_eq_some_iff.mp hs
    refine (realise_formatted_iff hp he h hsf hr).trans ⟨fun hall sf' hsf' => ?_,
      fun hall => hall sf hsf⟩
    obtain rfl := Option.some.inj (hsf.symm.trans hsf')
    exact hall
  | detachBackingImage s arraysDestroyed =>
    obtain ⟨sf, -, ⟨⟩⟩ := Option.bind_eq_some_iff.mp hs
    exact iff_of_true (h.detach s) trivial
  | destroySurface s arraysDestroyed =>
    refine iff_of_true ?_ trivial
    obtain ⟨-, rfl⟩ | rfl := destroySurface_cases hs
    · exact h
    · exact (h.detach s).deleteSurface s
  | destroyAllBackingImage arraysDestroyed =>
    obtain rfl := Option.some.inj hs
    have hd := (eglDestroyAllBackingImage_spec (p := p) arraysDestroyed).1
    refine iff_of_true (h.sameShapes hd.sameShapes fun s a ha => ?_) trivial
    rw [hp.backingOf_destroyAll] at ha
    cases ha

end ImagePool

/-- A surface of 64x48 in NV12 leaves its image to one in another format. -/
def reusedBy (format : UInt32) : List PoolCall :=
  [.createSurface Objects.rtFormatYuv420 64 48,
    .realiseSurface 0 ⟨.exportedAs 0, true, .exportedAs 0⟩,
    .destroySurface 0 true, .createSurface format 64 48,
      .realiseSurface 1 ⟨.exportedAs 0, true, .exportedAs 0⟩]

end NvVaapi.Export
