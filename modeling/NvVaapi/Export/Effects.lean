import NvVaapi.Export.Pool
import NvVaapi.Lib.Link

/-!
# What the calls do to the images

* `Destroyed`, `Allocates`: what the destruction of images and an allocation make of a pool.
* `eglRealiseSurface_cases`: `egl_realiseSurface` does nothing, takes a free image, or allocates.
* `Sound`: the image of a surface is in the list and points back. `Sound.step`: every call keeps
  this.
-/

namespace NvVaapi.Export.ImagePool

variable {p q : ImagePool} {s a : Nat} {sf : NVSurface}

/-! ## Destruction -/

theorem surfaces_setBackingImage (b : Option Nat) (t : Nat) :
    ((p.setBackingImage s b).surfaces t).map (·.toNVSurface) =
      (p.surfaces t).map (·.toNVSurface) := by
  unfold setBackingImage
  by_cases ht : t = s
  · subst ht
    dsimp only
    rw [Function.update_self, Option.map_map]
    rfl
  · dsimp only
    rw [Function.update_of_ne ht]

theorem backingOf_setBackingImage (h : p.surfaces s = some sf) (b : Option Nat) :
    (p.setBackingImage s b).backingOf = Function.update p.backingOf s b := by
  funext t
  unfold backingOf setBackingImage
  by_cases ht : t = s
  · subst ht
    simp [h]
  · dsimp only
    rw [Function.update_of_ne ht, Function.update_of_ne ht]

theorem backingOf_setBackingImage_none :
    (p.setBackingImage s none).backingOf = Function.update p.backingOf s none := by
  cases h : p.surfaces s with
  | some sf => exact backingOf_setBackingImage h none
  | none =>
    have hs : p.backingOf s = none := by simp [backingOf, h]
    rw [← hs, Function.update_eq_self]
    funext t
    unfold backingOf setBackingImage
    by_cases ht : t = s
    · subst ht
      simp [h]
    · dsimp only
      rw [Function.update_of_ne ht]

/-- The surfaces that are there are the same, up to their images. -/
structure SameSurfaces (p q : ImagePool) : Prop where
  nextSurface : q.nextSurface = p.nextSurface
  surfaces : ∀ s, (q.surfaces s).map (·.toNVSurface) = (p.surfaces s).map (·.toNVSurface)

theorem SameSurfaces.trans {r : ImagePool} (h : SameSurfaces p q) (h' : SameSurfaces q r) :
    SameSurfaces p r :=
  ⟨h'.1.trans h.1, fun s => (h'.2 s).trans (h.2 s)⟩

theorem SameSurfaces.of_some (h : SameSurfaces p q) (hs : q.surfaces s = some sf) :
    ∃ sf₀, p.surfaces s = some sf₀ ∧ sf₀.toNVSurface = sf.toNVSurface := by
  have hmap := h.surfaces s
  rw [hs, Option.map_some] at hmap
  exact Option.map_eq_some_iff.mp hmap.symm

theorem SameSurfaces.eq_none (h : SameSurfaces p q) (hs : p.surfaces s = none) :
    q.surfaces s = none := by
  have := h.surfaces s
  rw [hs] at this
  exact Option.map_eq_none_iff.mp this

/-- What the destruction of the images `l` makes of `p`. -/
structure Destroyed (arraysDestroyed : Nat → Bool) (l : List Nat) (p q : ImagePool) : Prop where
  same : SameSurfaces p q
  memory : q.memory = p.memory
  nextImage : q.nextImage = p.nextImage
  freed : q.freed = l.filter arraysDestroyed ++ p.freed
  backingOf : ∀ s, q.backingOf s =
    if ∃ a ∈ l, (p.memory a).surface = some s then none else p.backingOf s

theorem Destroyed.refl (arraysDestroyed : Nat → Bool) : Destroyed arraysDestroyed [] p p :=
  ⟨⟨rfl, fun _ => rfl⟩, rfl, rfl, rfl, fun s => by simp⟩

theorem Destroyed.trans {arraysDestroyed : Nat → Bool} {l l' : List Nat} {r : ImagePool}
    (h : Destroyed arraysDestroyed l p q) (h' : Destroyed arraysDestroyed l' q r) :
    Destroyed arraysDestroyed (l' ++ l) p r where
  same := h.same.trans h'.same
  memory := h'.memory.trans h.memory
  nextImage := h'.nextImage.trans h.nextImage
  freed := by rw [h'.freed, h.freed, List.filter_append, List.append_assoc]
  backingOf s := by
    rw [h'.backingOf, h.backingOf, h.memory]
    simp only [List.mem_append, or_and_right, exists_or, ite_or]

theorem eglDestroyBackingImage_spec (a : Nat) (arraysDestroyed : Nat → Bool) :
    Destroyed arraysDestroyed [a] p (p.eglDestroyBackingImage a (arraysDestroyed a)).2 := by
  unfold eglDestroyBackingImage
  cases hs : (p.memory a).surface with
  | none =>
    cases ha : arraysDestroyed a with
    | true =>
      exact ⟨⟨rfl, fun _ => rfl⟩, rfl, rfl, by simp [free, ha],
        fun s => by simp [hs, free, backingOf]⟩
    | false => exact ⟨⟨rfl, fun _ => rfl⟩, rfl, rfl, by simp [ha], fun s => by simp [hs]⟩
  | some t =>
    have hback (s : Nat) : (p.setBackingImage t none).backingOf s =
        if ∃ b ∈ [a], (p.memory b).surface = some s then none else p.backingOf s := by
      rw [backingOf_setBackingImage_none, Function.update_apply]
      simp only [List.mem_singleton, exists_eq_left, hs, Option.some.injEq, @eq_comm _ s t]
    cases ha : arraysDestroyed a with
    | true =>
      exact ⟨⟨rfl, surfaces_setBackingImage none⟩, rfl, rfl, by simp [free, ha, setBackingImage],
        hback⟩
    | false =>
      exact ⟨⟨rfl, surfaces_setBackingImage none⟩, rfl, rfl, by simp [ha, setBackingImage], hback⟩

theorem images_eglDestroyBackingImage (a : Nat) (arraysDestroyed : Bool) :
    (p.eglDestroyBackingImage a arraysDestroyed).2.images = p.images := by
  unfold eglDestroyBackingImage
  cases (p.memory a).surface <;> cases arraysDestroyed <;> rfl

/-- A list of images is destroyed from its end. -/
theorem destroyLast_spec (arraysDestroyed : Nat → Bool) {k l : List Nat} (h : p.images = k ++ l) :
    Destroyed arraysDestroyed l p (l.foldr (destroyLast arraysDestroyed) p) ∧
      (l.foldr (destroyLast arraysDestroyed) p).images = k := by
  induction l generalizing k with
  | nil => exact ⟨.refl _, by simpa using h⟩
  | cons a l ih =>
    obtain ⟨hd, hi⟩ := ih (k := k ++ [a]) (by simpa using h)
    rw [List.foldr_cons]
    generalize l.foldr (destroyLast arraysDestroyed) p = q at hd hi
    have hone := eglDestroyBackingImage_spec (p := q) a arraysDestroyed
    refine ⟨?_, ?_⟩
    · obtain ⟨same, memory, nextImage, freed, backingOf⟩ := hd.trans hone
      exact ⟨⟨same.1, same.2⟩, memory, nextImage, freed, backingOf⟩
    · show (q.eglDestroyBackingImage a (arraysDestroyed a)).2.images.dropLast = k
      rw [images_eglDestroyBackingImage, hi, List.dropLast_concat]

/-- Every image of the list is destroyed, and the list is empty. -/
theorem eglDestroyAllBackingImage_spec (arraysDestroyed : Nat → Bool) :
    Destroyed arraysDestroyed p.images p (p.eglDestroyAllBackingImage arraysDestroyed) ∧
      (p.eglDestroyAllBackingImage arraysDestroyed).images = [] :=
  destroyLast_spec arraysDestroyed (List.nil_append _).symm

/-! ## Allocations -/

/-- The size and the format that an image gets when it is created for a surface. -/
structure ShapedFor (sf : NVSurface) (img : BackingImage) : Prop where
  width : img.width = sf.width
  height : img.height = sf.height
  format : ∀ useCorrectNV12Format, img.arrayFormat = (eglFrame useCorrectNV12Format sf).cuFormat
  ne_unset : img.arrayFormat ≠ .unset

structure CreatedFor (sf : NVSurface) (img : BackingImage) : Prop extends ShapedFor sf img where
  surface : img.surface = none

/-- New images were created for `sf`. `ret` is none or one that was not freed. -/
structure Allocates (sf : NVSurface) (p : ImagePool) (ret : Option Nat) (q : ImagePool) : Prop where
  surfaces : q.surfaces = p.surfaces
  nextSurface : q.nextSurface = p.nextSurface
  images : q.images = p.images
  nextImage : p.nextImage ≤ q.nextImage
  memory : ∀ a < p.nextImage, q.memory a = p.memory a
  created : ∀ a, p.nextImage ≤ a → a < q.nextImage → CreatedFor sf (q.memory a)
  returned : ∀ a, ret = some a → p.nextImage ≤ a ∧ a < q.nextImage
  freed : ∃ new, q.freed = new ++ p.freed ∧ new.Nodup ∧
    ∀ a ∈ new, p.nextImage ≤ a ∧ a < q.nextImage ∧ ret ≠ some a

theorem Allocates.refl (sf : NVSurface) (p : ImagePool) : Allocates sf p none p :=
  ⟨rfl, rfl, rfl, le_rfl, fun _ _ => rfl, fun a h h' => absurd h' (by omega), nofun, [], rfl,
    .nil, by simp⟩

variable {ret : Option Nat} {useCorrectNV12Format : Bool}

theorem Allocates.create (h : Allocates sf p ret q)
    (hf : (eglFrame useCorrectNV12Format sf).cuFormat ≠ .unset) (exported : Option UInt32) :
    let created := q.createBackingImage (eglFrame useCorrectNV12Format sf) exported
    Allocates sf p created.1 created.2 := by
  obtain ⟨surfaces, nextSurface, images, nextImage, memory, created, returned, new, freed,
      nodup, bound⟩ := h
  have hold : ∀ a < p.nextImage, Function.update q.memory q.nextImage
      ⟨none, sf.width, sf.height, exported.getD 0, (eglFrame useCorrectNV12Format sf).cuFormat⟩ a =
        p.memory a := by
    intro a ha
    rw [Function.update_of_ne (by omega)]
    exact memory a ha
  have hnew : ∀ a, p.nextImage ≤ a → a < q.nextImage + 1 →
      CreatedFor sf (Function.update q.memory q.nextImage
      ⟨none, sf.width, sf.height, exported.getD 0,
        (eglFrame useCorrectNV12Format sf).cuFormat⟩ a) := by
    intro a ha hlt
    by_cases hq : a = q.nextImage
    · rw [hq, Function.update_self]
      exact ⟨⟨rfl, rfl, fun _ => rfl, hf⟩, rfl⟩
    · rw [Function.update_of_ne hq]
      exact created a ha (by omega)
  cases exported with
  | some fourcc =>
    refine ⟨surfaces, nextSurface, images, by exact Nat.le_succ_of_le nextImage, hold, hnew, ?_,
      new, freed, nodup, ?_⟩
    · rintro a ⟨⟩
      exact ⟨nextImage, Nat.lt_succ_self _⟩
    · intro a ha
      obtain ⟨hge, hlt, -⟩ := bound a ha
      exact ⟨hge, Nat.lt_succ_of_lt hlt, fun hc => hlt.ne (Option.some.inj hc).symm⟩
  | none =>
    refine ⟨surfaces, nextSurface, images, by exact Nat.le_succ_of_le nextImage, hold, hnew, nofun,
      q.nextImage :: new, ?_, ?_, ?_⟩
    · exact congrArg (q.nextImage :: ·) freed
    · exact List.nodup_cons.mpr ⟨fun hc => (bound _ hc).2.1.ne rfl, nodup⟩
    · intro a ha
      obtain rfl | ha := List.mem_cons.mp ha
      · exact ⟨nextImage, Nat.lt_succ_self _, nofun⟩
      · obtain ⟨hge, hlt, -⟩ := bound a ha
        exact ⟨hge, Nat.lt_succ_of_lt hlt, nofun⟩

theorem Allocates.poll (hf : (eglFrame useCorrectNV12Format sf).cuFormat ≠ .unset)
    (events : List StreamEvent)
    (h : Allocates sf p ret q) :
    Allocates sf p (pollEvents (eglFrame useCorrectNV12Format sf) q ret events).1
      (pollEvents (eglFrame useCorrectNV12Format sf) q ret events).2 := by
  induction events generalizing q ret with
  | nil => exact h
  | cons event events ih =>
    cases event with
    | other => exact ih h
    | imageAvailable acquired exported =>
      cases acquired with
      | false => exact h
      | true => exact ih (h.create hf exported)

/-- An allocation creates images for its surface. -/
theorem Allocates.allocate (h : Allocates sf p none q) (egl : EglReplies) :
    Allocates sf p (q.eglAllocateBackingImage sf egl).1 (q.eglAllocateBackingImage sf egl).2 := by
  unfold eglAllocateBackingImage
  dsimp only
  split
  · next hr =>
    refine Allocates.poll (fun hc => ?_) _ h
    simp [egl.refuses _ hc] at hr
  · exact h

/-- The new image is destroyed. -/
theorem Allocates.destroy (h : Allocates sf p (some a) q) (arraysDestroyed : Bool) :
    Allocates sf p none (q.eglDestroyBackingImage a arraysDestroyed).2 := by
  obtain ⟨hge, hlt⟩ := h.returned a rfl
  obtain ⟨new, hfreed, hn, hb⟩ := h.freed
  have hnone := (h.created a hge hlt).surface
  unfold eglDestroyBackingImage
  rw [hnone]
  cases arraysDestroyed with
  | false =>
    exact { h with
      returned := nofun
      freed := ⟨new, hfreed, hn, fun b hm => ⟨(hb b hm).1, (hb b hm).2.1, nofun⟩⟩ }
  | true =>
    refine { h with returned := nofun, freed := ⟨a :: new, congrArg (a :: ·) hfreed, ?_, ?_⟩ }
    · exact List.nodup_cons.mpr ⟨fun hm => (hb a hm).2.2 rfl, hn⟩
    · intro b hm
      obtain rfl | hm := List.mem_cons.mp hm
      · exact ⟨hge, hlt, nofun⟩
      · exact ⟨(hb b hm).1, (hb b hm).2.1, nofun⟩

/-- What `egl_realiseSurface` does: nothing, or it takes a free image, or it allocates one. -/
theorem eglRealiseSurface_cases {r : RealiseReplies} {ok : Bool}
    (h : p.eglRealiseSurface s sf r = some (ok, q)) :
    (sf.backingImage ≠ none ∧ q = p) ∨
    (sf.backingImage = none ∧ ∃ a,
      p.freeImage sf = some a ∧ q = p.eglAttachBackingImageToSurface s a) ∨
    (sf.backingImage = none ∧ p.freeImage sf = none ∧ ∃ ret q', Allocates sf p ret q' ∧
      q = match ret with
        | none => q'
        | some a => q'.addBackingImage s a) := by
  unfold eglRealiseSurface findFreeBackingImage at h
  cases hb : sf.backingImage with
  | some b =>
    rw [hb] at h
    cases h
    exact .inl ⟨nofun, rfl⟩
  | none =>
    rw [hb] at h
    refine .inr ?_
    cases hf : p.freeImage sf with
    | some a =>
      rw [hf] at h
      cases h
      exact .inl ⟨rfl, a, rfl, rfl⟩
    | none =>
      rw [hf] at h
      dsimp only at h
      refine .inr ⟨rfl, rfl, ?_⟩
      have hfirst := (Allocates.refl sf p).allocate r.first
      generalize p.eglAllocateBackingImage sf r.first = first at h hfirst
      obtain ⟨ret, q₁⟩ := first
      cases ret with
      | none =>
        cases h
        exact ⟨none, _, hfirst, rfl⟩
      | some a =>
        dsimp only at h
        split at h
        · -- The work-around: the image is destroyed, and another one is allocated.
          have hagain : Allocates sf p none { (q₁.eglDestroyBackingImage a r.arraysDestroyed).2 with
              useCorrectNV12Format :=
                !(q₁.eglDestroyBackingImage a r.arraysDestroyed).2.useCorrectNV12Format } :=
            { hfirst.destroy r.arraysDestroyed with }
          have hsecond := hagain.allocate r.second
          generalize eglAllocateBackingImage _ sf r.second = second at h hsecond
          obtain ⟨ret, q₂⟩ := second
          cases ret with
          | none => cases h
          | some b =>
            cases h
            exact ⟨some b, q₂, hsecond, rfl⟩
        · cases h
          exact ⟨some a, q₁, hfirst, rfl⟩

/-- What `egl_detachBackingImageFromSurface` does to a surface with an image. -/
theorem eglDetachBackingImageFromSurface_some (h : p.backingOf s = some a)
    (arraysDestroyed : Bool) :
    p.eglDetachBackingImageFromSurface s arraysDestroyed =
      if (p.memory a).fourcc = drmFormatNV21 then
        (p.eglDestroyBackingImage a arraysDestroyed).2.setBackingImage s none
      else (p.unlinkImage s).setBackingImage s none := by
  unfold eglDetachBackingImageFromSurface
  simp only [h]

/-! ## Every run -/

theorem backingOf_deleteSurface :
    (p.deleteSurface s).backingOf = Function.update p.backingOf s none := by
  funext t
  unfold backingOf deleteSurface
  by_cases ht : t = s
  · subst ht
    simp
  · dsimp only
    rw [Function.update_of_ne ht, Function.update_of_ne ht]

/-- `nvDestroySurfaces` does nothing to a surface that is not there. -/
theorem destroySurface_cases {arraysDestroyed : Bool}
    (hs : imagePool.step p (.destroySurface s arraysDestroyed) = some q) :
    (p.surfaces s = none ∧ q = p) ∨
      q = (p.eglDetachBackingImageFromSurface s arraysDestroyed).deleteSurface s := by
  simp only [imagePool] at hs
  split at hs
  · next hnone => exact .inl ⟨hnone, (Option.some.inj hs).symm⟩
  · exact .inr (Option.some.inj hs).symm

/-- The numbers are those of images and surfaces that were created, and the image of a surface is in
the list and points back. -/
structure Sound (p : ImagePool) : Prop where
  images : ∀ a ∈ p.images, a < p.nextImage
  freed : ∀ a ∈ p.freed, a < p.nextImage
  attached : ∀ s a, p.backingOf s = some a → a ∈ p.images ∧ (p.memory a).surface = some s
  surfaces : ∀ s, p.nextSurface ≤ s → p.surfaces s = none

theorem sound_empty (useCorrectNV12Format : Bool) : Sound (empty useCorrectNV12Format) :=
  ⟨nofun, nofun, nofun, fun _ _ => rfl⟩

namespace Sound

theorem setBackingImage (h : Sound p) : Sound (p.setBackingImage s none) where
  images := h.images
  freed := h.freed
  attached t a ht := by
    rw [backingOf_setBackingImage_none, update_none_eq_some] at ht
    exact h.attached t a ht.2
  surfaces t ht := by
    have hsame : SameSurfaces p (p.setBackingImage s none) := ⟨rfl, surfaces_setBackingImage none⟩
    exact hsame.eq_none (h.surfaces t ht)

theorem deleteSurface (h : Sound p) : Sound (p.deleteSurface s) where
  images := h.images
  freed := h.freed
  attached t a ht := by
    rw [backingOf_deleteSurface, update_none_eq_some] at ht
    exact h.attached t a ht.2
  surfaces t ht := by
    show Function.update p.surfaces s none t = none
    by_cases hts : t = s
    · rw [hts, Function.update_self]
    · rw [Function.update_of_ne hts]
      exact h.surfaces t ht

theorem backingOf_addSurface (h : Sound p) (hs : sf.backingImage = none) :
    (p.addSurface sf).backingOf = p.backingOf := by
  funext t
  unfold backingOf addSurface
  by_cases ht : t = p.nextSurface
  · subst ht
    simp [h.surfaces _ le_rfl, hs]
  · dsimp only
    rw [Function.update_of_ne ht]

theorem addSurface (h : Sound p) (hs : sf.backingImage = none) : Sound (p.addSurface sf) where
  images := h.images
  freed := h.freed
  attached t a ht := by
    rw [h.backingOf_addSurface hs] at ht
    exact h.attached t a ht
  surfaces t ht := by
    show Function.update p.surfaces p.nextSurface (some sf) t = none
    have hlt : p.nextSurface + 1 ≤ t := ht
    rw [Function.update_of_ne (by omega)]
    exact h.surfaces t (by omega)

/-- A free image of the list is given to a surface. -/
theorem attach (h : Sound p) (hs : p.surfaces s = some sf) (ha : a ∈ p.images)
    (hf : (p.memory a).surface = none) :
    Sound (p.eglAttachBackingImageToSurface s a) where
  images := h.images
  freed := h.freed
  attached t b ht := by
    change (p.setBackingImage s (some a)).backingOf t = some b at ht
    show b ∈ p.images ∧
        (Function.update p.memory a { p.memory a with surface := some s } b).surface = some t
    rw [backingOf_setBackingImage hs] at ht
    by_cases hts : t = s
    · rw [hts, Function.update_self] at ht
      obtain rfl := Option.some.inj ht
      rw [Function.update_self, hts]
      exact ⟨ha, rfl⟩
    · rw [Function.update_of_ne hts] at ht
      obtain ⟨hb, hback⟩ := h.attached t b ht
      have hne : b ≠ a := by
        rintro rfl
        rw [hf] at hback
        cases hback
      rw [Function.update_of_ne hne]
      exact ⟨hb, hback⟩
  surfaces t ht := by
    have hsame : SameSurfaces p (p.setBackingImage s (some a)) := ⟨rfl, surfaces_setBackingImage _⟩
    exact hsame.eq_none (h.surfaces t ht)

/-- An image is added to the list. -/
theorem append (h : Sound p) (ha : a < p.nextImage) :
    Sound { p with images := p.images ++ [a] } where
  images := List.forall_mem_append.mpr ⟨h.images, List.forall_mem_singleton.mpr ha⟩
  freed := h.freed
  attached t b ht := by
    obtain ⟨hb, hback⟩ := h.attached t b ht
    exact ⟨List.mem_append_left _ hb, hback⟩
  surfaces := h.surfaces

/-- An image is taken from its surface. -/
theorem release (h : Sound p) (hb : (p.memory a).surface = some s) :
    Sound ((p.setSurface a none).setBackingImage s none) where
  images := h.images
  freed := h.freed
  attached t b ht := by
    rw [backingOf_setBackingImage_none, update_none_eq_some] at ht
    show b ∈ p.images ∧
        (Function.update p.memory a { p.memory a with surface := none } b).surface = some t
    obtain ⟨hmem, hback⟩ := h.attached t b ht.2
    have hne : b ≠ a := by
      rintro rfl
      exact ht.1 (Option.some.inj (hback.symm.trans hb))
    rw [Function.update_of_ne hne]
    exact ⟨hmem, hback⟩
  surfaces := h.setBackingImage.surfaces

theorem allocates (h : Sound p) {ret : Option Nat} (hq : Allocates sf p ret q) : Sound q where
  images a ha := by
    rw [hq.images] at ha
    exact (h.images a ha).trans_le hq.nextImage
  freed a ha := by
    obtain ⟨new, hf, -, hb⟩ := hq.freed
    rw [hf] at ha
    obtain ha | ha := List.mem_append.mp ha
    · exact (hb a ha).2.1
    · exact (h.freed a ha).trans_le hq.nextImage
  attached t a ht := by
    unfold backingOf at ht
    rw [hq.surfaces] at ht
    obtain ⟨ha, hback⟩ := h.attached t a ht
    rw [hq.images, hq.memory a (h.images a ha)]
    exact ⟨ha, hback⟩
  surfaces t ht := by
    rw [hq.nextSurface] at ht
    rw [hq.surfaces]
    exact h.surfaces t ht

/-- Images are destroyed, and perhaps taken from the list. -/
theorem destroy (h : Sound p) {arraysDestroyed : Nat → Bool} {l : List Nat}
    (hq : Destroyed arraysDestroyed l p q)
    (hl : ∀ a ∈ l, a < p.nextImage) (hsub : q.images ⊆ p.images)
    (hkeep : ∀ s a, q.backingOf s = some a → a ∈ p.images → a ∈ q.images) : Sound q where
  images a ha := by
    rw [hq.nextImage]
    exact h.images a (hsub ha)
  freed a ha := by
    rw [hq.freed] at ha
    rw [hq.nextImage]
    obtain ha | ha := List.mem_append.mp ha
    · exact hl a (List.mem_filter.mp ha).1
    · exact h.freed a ha
  attached t a ht := by
    have hback := ht
    rw [hq.backingOf] at hback
    split at hback
    · cases hback
    · obtain ⟨ha, hs⟩ := h.attached t a hback
      rw [hq.memory]
      exact ⟨hkeep t a ht ha, hs⟩
  surfaces t ht := by
    rw [hq.same.nextSurface] at ht
    exact hq.same.eq_none (h.surfaces t ht)

theorem add (h : Sound p) (hs : p.surfaces s = some sf) (ha : a < p.nextImage)
    (hf : (p.memory a).surface = none) :
    Sound (p.addBackingImage s a) :=
  (h.append ha).attach hs (List.mem_append_right _ (List.mem_singleton_self a)) hf

theorem realise (h : Sound p) (hs : p.surfaces s = some sf) {r : RealiseReplies} {ok : Bool}
    (hr : p.eglRealiseSurface s sf r = some (ok, q)) : Sound q := by
  obtain ⟨-, rfl⟩ | ⟨-, a, ha, rfl⟩ | ⟨-, -, ret, q', hq, rfl⟩ := eglRealiseSurface_cases hr
  · exact h
  · have hfree := List.find?_some ha
    exact h.attach hs (List.mem_of_find?_eq_some ha) (of_decide_eq_true hfree).1
  · cases ret with
    | none => exact h.allocates hq
    | some a =>
      obtain ⟨hge, hlt⟩ := hq.returned a rfl
      exact (h.allocates hq).add (hq.surfaces ▸ hs) hlt (hq.created a hge hlt).surface

theorem detach (h : Sound p) (s : Nat) (arraysDestroyed : Bool) :
    Sound (p.eglDetachBackingImageFromSurface s arraysDestroyed) := by
  cases hs : p.backingOf s with
  | none =>
    unfold eglDetachBackingImageFromSurface
    rw [hs]
    exact h
  | some a =>
    rw [eglDetachBackingImageFromSurface_some hs]
    obtain ⟨ha, -⟩ := h.attached s a hs
    split
    · refine setBackingImage
        (h.destroy (eglDestroyBackingImage_spec a fun _ => arraysDestroyed) ?_ ?_ ?_)
      · exact List.forall_mem_singleton.mpr (h.images a ha)
      · rw [images_eglDestroyBackingImage]
        exact fun _ hb => hb
      · intro t b _ hb
        rwa [images_eglDestroyBackingImage]
    · unfold unlinkImage
      split
      · next b hb =>
        have hback := List.find?_some hb
        exact h.release (of_decide_eq_true hback)
      · exact h.setBackingImage

theorem backingOf_destroyAll (h : Sound p) (arraysDestroyed : Nat → Bool) :
    (p.eglDestroyAllBackingImage arraysDestroyed).backingOf = fun _ => none := by
  funext s
  rw [(eglDestroyAllBackingImage_spec arraysDestroyed).1.backingOf]
  split
  · rfl
  · next hn =>
    refine Option.eq_none_iff_forall_not_mem.mpr fun a ha => hn ⟨a, ?_⟩
    exact h.attached s a ha

theorem destroyAll (h : Sound p) (arraysDestroyed : Nat → Bool) :
    Sound (p.eglDestroyAllBackingImage arraysDestroyed) := by
  obtain ⟨hd, hi⟩ := eglDestroyAllBackingImage_spec (p := p) arraysDestroyed
  refine h.destroy hd h.images ?_ ?_
  · rw [hi]
    exact List.nil_subset _
  · intro s a hs
    rw [h.backingOf_destroyAll] at hs
    cases hs

/-- Every call keeps the pool sound. -/
theorem step (h : Sound p) {c : PoolCall} (hs : imagePool.step p c = some q) : Sound q := by
  cases c with
  | createSurface format width height =>
    obtain ⟨f, -, ⟨⟩⟩ := Option.bind_eq_some_iff.mp hs
    exact h.addSurface rfl
  | realiseSurface s r =>
    obtain ⟨sf, hsf, hs⟩ := Option.bind_eq_some_iff.mp hs
    obtain ⟨⟨ok, q'⟩, hr, ⟨⟩⟩ := Option.bind_eq_some_iff.mp hs
    exact h.realise hsf hr
  | detachBackingImage s arraysDestroyed =>
    obtain ⟨sf, -, ⟨⟩⟩ := Option.bind_eq_some_iff.mp hs
    exact h.detach s arraysDestroyed
  | destroySurface s arraysDestroyed =>
    obtain ⟨-, rfl⟩ | rfl := destroySurface_cases hs
    · exact h
    · exact (h.detach s arraysDestroyed).deleteSurface
  | destroyAllBackingImage arraysDestroyed =>
    obtain rfl := Option.some.inj hs
    exact h.destroyAll arraysDestroyed

end Sound

end NvVaapi.Export.ImagePool
