import NvVaapi.Export.Effects

/-!
# Who owns an image

* `Owned`: the list holds different images that are there, no image was freed twice, and an image
  and its surface point to each other.
* `KeepsOwned`: a call does not destroy an image that is still used.
* `owned_iff`: the images are owned throughout a run exactly when every call meets `KeepsOwned`.
-/

namespace NvVaapi.Export

namespace ImagePool

variable {p q : ImagePool} {s a : Nat} {sf : NVSurface} {arraysDestroyed : Bool}

/-- The image was created, and it was not freed. -/
def Live (p : ImagePool) (a : Nat) : Prop := a < p.nextImage ∧ a ∉ p.freed

instance (p : ImagePool) (a : Nat) : Decidable (p.Live a) := inferInstanceAs (Decidable (_ ∧ _))

/-- The `surface` of an image that is there. -/
def surfaceOf (p : ImagePool) (a : Nat) : Option Nat :=
  if p.Live a then (p.memory a).surface else none

structure Owned (p : ImagePool) : Prop where
  distinct : p.images.Nodup
  live : ∀ a ∈ p.images, p.Live a
  freedOnce : p.freed.Nodup
  linked : Linked p.surfaceOf p.backingOf

/-- The call destroys no image that is used afterwards: no image in NV21 is taken from its surface,
and of the images with a surface `egl_destroyAllBackingImage` can destroy the arrays. -/
def KeepsOwned (p : ImagePool) : PoolCall → Prop
  | .detachBackingImage s _ | .destroySurface s _ =>
    ∀ a ∈ p.backingOf s, (p.memory a).fourcc ≠ drmFormatNV21
  | .destroyAllBackingImage arraysDestroyed =>
    ∀ a ∈ p.images, (p.memory a).surface ≠ none → arraysDestroyed a
  | .createSurface .. | .realiseSurface .. => True

instance (p : ImagePool) : DecidablePred p.KeepsOwned
  | .detachBackingImage s _ | .destroySurface s _ =>
    inferInstanceAs (Decidable (∀ a ∈ p.backingOf s, (p.memory a).fourcc ≠ drmFormatNV21))
  | .destroyAllBackingImage arraysDestroyed =>
    inferInstanceAs (Decidable (∀ a ∈ p.images, (p.memory a).surface ≠ none → arraysDestroyed a))
  | .createSurface .. | .realiseSurface .. => inferInstanceAs (Decidable True)

theorem owned_empty (useCorrectNV12Format : Bool) : Owned (empty useCorrectNV12Format) := by
  refine ⟨.nil, nofun, .nil, ?_⟩
  exact linked_none.mpr fun a => if_neg fun h => Nat.not_lt_zero a h.1

theorem surfaceOf_setSurface (ha : p.Live a) (s : Option Nat) :
    (p.setSurface a s).surfaceOf = Function.update p.surfaceOf a s := by
  funext b
  show (if p.Live b then (Function.update p.memory a { p.memory a with surface := s } b).surface
      else none) = _
  by_cases hb : b = a
  · subst hb
    rw [Function.update_self, Function.update_self, if_pos ha]
  · rw [Function.update_of_ne hb, Function.update_of_ne hb]
    rfl

namespace Owned

/-- An image that is in the list, or a new one, and its surface get to know each other. -/
theorem attach (h : Owned p) (hs : p.surfaces s = some sf) (hsf : sf.backingImage = none)
    (ha : p.Live a) (hf : (p.memory a).surface = none) :
    Owned (p.eglAttachBackingImageToSurface s a) := by
  refine ⟨h.distinct, h.live, h.freedOnce, ?_⟩
  have hsurface : (p.eglAttachBackingImageToSurface s a).surfaceOf =
      Function.update p.surfaceOf a (some s) := by
    have hlive : (p.setBackingImage s (some a)).Live a := ha
    exact surfaceOf_setSurface hlive (some s)
  have hbacking :
      (p.eglAttachBackingImageToSurface s a).backingOf = Function.update p.backingOf s (some a) :=
    backingOf_setBackingImage hs (some a)
  rw [hsurface, hbacking]
  refine h.linked.attach ?_ ?_
  · rw [surfaceOf, if_pos ha, hf]
  · rw [backingOf, hs]
    exact hsf

theorem append (h : Owned p) (ha : p.Live a) (hn : a ∉ p.images) :
    Owned { p with images := p.images ++ [a] } := by
  refine ⟨?_, List.forall_mem_append.mpr ⟨h.live, List.forall_mem_singleton.mpr ha⟩,
    h.freedOnce, h.linked⟩
  refine List.nodup_append'.mpr ⟨h.distinct, List.nodup_singleton a, ?_⟩
  exact List.disjoint_singleton.mpr hn

theorem allocates (hp : Sound p) (h : Owned p) {ret : Option Nat} (hq : Allocates sf p ret q) :
    Owned q := by
  obtain ⟨new, hf, hn, hb⟩ := hq.freed
  have hlive (a : Nat) (ha : a < p.nextImage) : q.Live a ↔ p.Live a := by
    have hle := hq.nextImage
    unfold Live
    rw [hf, List.mem_append]
    grind
  have hsurface : q.surfaceOf = p.surfaceOf := by
    funext a
    unfold surfaceOf
    by_cases ha : a < p.nextImage
    · simp only [hlive a ha, hq.memory a ha]
    · rw [if_neg fun hl : p.Live a => ha hl.1]
      split
      · next hl => exact (hq.created a (Nat.le_of_not_lt ha) hl.1).surface
      · rfl
  have hbacking : q.backingOf = p.backingOf := by
    unfold backingOf
    rw [hq.surfaces]
  refine ⟨hq.images ▸ h.distinct, ?_, ?_, ?_⟩
  · intro a ha
    rw [hq.images] at ha
    exact (hlive a (hp.images a ha)).mpr (h.live a ha)
  · rw [hf]
    refine List.nodup_append'.mpr ⟨hn, h.freedOnce, fun a ha hold => ?_⟩
    exact absurd (hp.freed a hold) (Nat.not_lt.mpr (hb a ha).1)
  · rw [hsurface, hbacking]
    exact h.linked

theorem realise (hp : Sound p) (h : Owned p) (hs : p.surfaces s = some sf)
    {r : RealiseReplies} {ok : Bool} (hr : p.eglRealiseSurface s sf r = some (ok, q)) :
    Owned q := by
  obtain ⟨-, rfl⟩ | ⟨hsf, a, ha, rfl⟩ | ⟨hsf, -, ret, q', hq, rfl⟩ := eglRealiseSurface_cases hr
  · exact h
  · have hfree := List.find?_some ha
    exact h.attach hs hsf (h.live a (List.mem_of_find?_eq_some ha)) (of_decide_eq_true hfree).1
  · have hq' := allocates hp h hq
    cases ret with
    | none => exact hq'
    | some a =>
      obtain ⟨hge, hlt⟩ := hq.returned a rfl
      have hlive : q'.Live a := by
        obtain ⟨new, hf, -, hb⟩ := hq.freed
        refine ⟨hlt, fun hm => ?_⟩
        rw [hf] at hm
        obtain hm | hm := List.mem_append.mp hm
        · exact (hb a hm).2.2 rfl
        · exact absurd (hp.freed a hm) (Nat.not_lt.mpr hge)
      have hnew : a ∉ q'.images := by
        rw [hq.images]
        exact fun hm => absurd (hp.images a hm) (Nat.not_lt.mpr hge)
      have hadd := hq'.append hlive hnew
      exact hadd.attach (hq.surfaces ▸ hs) hsf hlive (hq.created a hge hlt).surface

/-- The image of a surface is the only one of the list that points to it. -/
theorem find_surface (hp : Sound p) (h : Owned p) (hs : p.backingOf s = some a) :
    p.images.find? (fun b => (p.memory b).surface = some s) = some a := by
  obtain ⟨ha, hback⟩ := hp.attached s a hs
  obtain ⟨b, hb⟩ : ∃ b, p.images.find? (fun b => (p.memory b).surface = some s) = some b := by
    refine Option.isSome_iff_exists.mp (List.find?_isSome.mpr ⟨a, ha, ?_⟩)
    exact decide_eq_true hback
  have hbs := List.find?_some hb
  have hsurface : p.surfaceOf b = some s := by
    rw [surfaceOf, if_pos (h.live b (List.mem_of_find?_eq_some hb))]
    exact of_decide_eq_true hbs
  rwa [h.linked.inj hsurface ((h.linked a s).mpr hs)] at hb

theorem release (h : Owned p) (hs : p.backingOf s = some a) :
    Owned ((p.setSurface a none).setBackingImage s none) := by
  have ha : p.surfaceOf a = some s := (h.linked a s).mpr hs
  have hlive : p.Live a := by
    by_contra hn
    rw [surfaceOf, if_neg hn] at ha
    cases ha
  refine ⟨h.distinct, h.live, h.freedOnce, ?_⟩
  rw [backingOf_setBackingImage_none]
  show Linked (p.setSurface a none).surfaceOf (Function.update p.backingOf s none)
  rw [surfaceOf_setSurface hlive]
  exact h.linked.detach ha

end Owned

/-- An image that is destroyed stays in the list, and one that is not destroyed still points to its
surface. -/
theorem not_owned (hp : Sound p) (hs : p.backingOf s = some a) (hm : q.memory = p.memory)
    (hi : a ∈ q.images)
    (hb : q.backingOf s = none) : ¬Owned q := by
  intro h
  have hback : q.surfaceOf a = some s := by
    rw [surfaceOf, if_pos (h.live a hi), hm]
    exact (hp.attached s a hs).2
  exact h.linked.ne_of_none hb hback

theorem backingOf_detach (s : Nat) :
    (p.eglDetachBackingImageFromSurface s arraysDestroyed).backingOf s = none := by
  have hnone (q : ImagePool) : (q.setBackingImage s none).backingOf s = none := by
    rw [backingOf_setBackingImage_none, Function.update_self]
  cases hs : p.backingOf s with
  | none =>
    unfold eglDetachBackingImageFromSurface
    rw [hs]
    exact hs
  | some a =>
    rw [eglDetachBackingImageFromSurface_some hs]
    split
    · exact hnone _
    · exact hnone _

theorem detach_owned_iff (hp : Sound p) (h : Owned p) (s : Nat) :
    Owned (p.eglDetachBackingImageFromSurface s arraysDestroyed) ↔
      ∀ a ∈ p.backingOf s, (p.memory a).fourcc ≠ drmFormatNV21 := by
  cases hs : p.backingOf s with
  | none =>
    unfold eglDetachBackingImageFromSurface
    rw [hs]
    exact iff_of_true h nofun
  | some a =>
    have hnone : (p.eglDetachBackingImageFromSurface s arraysDestroyed).backingOf s = none :=
      backingOf_detach s
    rw [eglDetachBackingImageFromSurface_some hs] at hnone ⊢
    by_cases hf : (p.memory a).fourcc = drmFormatNV21
    · rw [if_pos hf] at hnone ⊢
      have hd := eglDestroyBackingImage_spec (p := p) a fun _ => arraysDestroyed
      refine iff_of_false (not_owned hp hs hd.memory ?_ hnone) fun hn => hn a rfl hf
      show a ∈ (p.eglDestroyBackingImage a arraysDestroyed).2.images
      rw [images_eglDestroyBackingImage]
      exact (hp.attached s a hs).1
    · rw [if_neg hf, unlinkImage, h.find_surface hp hs]
      refine iff_of_true (h.release hs) ?_
      rintro b ⟨⟩
      exact hf

theorem deleteSurface_owned_iff (hs : p.backingOf s = none) :
    Owned (p.deleteSurface s) ↔ Owned p := by
  have hbacking : (p.deleteSurface s).backingOf = p.backingOf := by
    rw [backingOf_deleteSurface, ← hs, Function.update_eq_self]
  refine ⟨fun h => ⟨h.distinct, h.live, h.freedOnce, ?_⟩,
    fun h => ⟨h.distinct, h.live, h.freedOnce, ?_⟩⟩
  · rw [← hbacking]
    exact h.linked
  · rw [hbacking]
    exact h.linked

theorem destroyAll_owned_iff (hp : Sound p) (h : Owned p) (arraysDestroyed : Nat → Bool) :
    Owned (p.eglDestroyAllBackingImage arraysDestroyed) ↔
      ∀ a ∈ p.images, (p.memory a).surface ≠ none → arraysDestroyed a := by
  obtain ⟨hd, hi⟩ := eglDestroyAllBackingImage_spec (p := p) arraysDestroyed
  have hb := hp.backingOf_destroyAll arraysDestroyed
  generalize p.eglDestroyAllBackingImage arraysDestroyed = q at hd hi hb
  have hfreed : q.freed.Nodup := by
    rw [hd.freed]
    refine List.nodup_append'.mpr ⟨h.distinct.filter _, h.freedOnce, fun a ha => ?_⟩
    exact (h.live a (List.mem_filter.mp ha).1).2
  have hlive (a : Nat) : q.Live a ↔ p.Live a ∧ ¬(a ∈ p.images ∧ arraysDestroyed a) := by
    unfold Live
    rw [hd.nextImage, hd.freed, List.mem_append, List.mem_filter]
    tauto
  have hlinked : Linked q.surfaceOf q.backingOf ↔ ∀ a, q.surfaceOf a = none := by
    rw [hb]
    exact linked_none
  refine ⟨fun hown a ha hs => ?_, fun hall => ⟨?_, ?_, hfreed, hlinked.mpr fun a => ?_⟩⟩
  · by_contra hn
    have hnone := hlinked.mp hown.linked a
    rw [surfaceOf, if_pos ((hlive a).mpr ⟨h.live a ha, fun hc => hn hc.2⟩), hd.memory] at hnone
    exact hs hnone
  · rw [hi]
    exact .nil
  · rw [hi]
    exact nofun
  · by_contra hs
    unfold surfaceOf at hs
    split at hs
    · next hl =>
      obtain ⟨hpl, hkept⟩ := (hlive a).mp hl
      rw [hd.memory] at hs
      -- An image with a surface is in the list.
      obtain ⟨s, hsurface⟩ := Option.ne_none_iff_exists'.mp hs
      have hback : p.backingOf s = some a := by
        rw [← h.linked, surfaceOf, if_pos hpl, hsurface]
      have ha := (hp.attached s a hback).1
      exact hkept ⟨ha, hall a ha hs⟩
    · exact hs rfl

/-- From a pool whose images are owned, a call leads to such a pool exactly when it meets
`KeepsOwned`. -/
theorem step_owned_iff {c : PoolCall} (hp : Sound p) (h : Owned p)
    (hs : imagePool.step p c = some q) : Owned q ↔ p.KeepsOwned c := by
  cases c with
  | createSurface format width height =>
    obtain ⟨f, -, ⟨⟩⟩ := Option.bind_eq_some_iff.mp hs
    refine iff_of_true ⟨h.distinct, h.live, h.freedOnce, ?_⟩ trivial
    rw [hp.backingOf_addSurface rfl]
    exact h.linked
  | realiseSurface s r =>
    obtain ⟨sf, hsf, hs⟩ := Option.bind_eq_some_iff.mp hs
    obtain ⟨⟨ok, q'⟩, hr, ⟨⟩⟩ := Option.bind_eq_some_iff.mp hs
    exact iff_of_true (h.realise hp hsf hr) trivial
  | detachBackingImage s arraysDestroyed =>
    obtain ⟨sf, -, ⟨⟩⟩ := Option.bind_eq_some_iff.mp hs
    exact detach_owned_iff hp h s
  | destroySurface s arraysDestroyed =>
    obtain ⟨hnone, rfl⟩ | rfl := destroySurface_cases hs
    · refine iff_of_true h fun a ha => ?_
      rw [backingOf, hnone] at ha
      cases ha
    · rw [deleteSurface_owned_iff (backingOf_detach s)]
      exact detach_owned_iff hp h s
  | destroyAllBackingImage arraysDestroyed =>
    obtain rfl := Option.some.inj hs
    exact destroyAll_owned_iff hp h arraysDestroyed

end ImagePool

/-- In a run, the images are owned always exactly when every call meets the condition. -/
theorem images_owned_iff {p₀ p : ImagePool} {calls : List PoolCall} (h0 : imagePool.init p₀)
    (hr : imagePool.run p₀ calls = some p) :
    imagePool.Always ImagePool.Owned p₀ calls ↔ imagePool.Meets ImagePool.KeepsOwned p₀ calls := by
  obtain ⟨useCorrectNV12Format, rfl⟩ := h0
  exact Lts.always_iff_meets (I := ImagePool.Sound) (fun _ _ _ hp _ hs => hp.step hs)
    (fun _ _ _ hp _ h hs => ImagePool.step_owned_iff hp h hs) (ImagePool.sound_empty _)
      (ImagePool.owned_empty _)
    (Lts.meets_true _ _) hr

/-- A surface of 64x48 in NV12 gets an image in this format, also at the second attempt. -/
def realised (fourcc : UInt32) : List PoolCall :=
  [.createSurface Objects.rtFormatYuv420 64 48,
    .realiseSurface 0 ⟨.exportedAs fourcc, true, .exportedAs fourcc⟩]

/-- An image in another format than NV21 goes back to the pool, and the next surface gets it. -/
theorem images_owned_iff_reused :
    ∃ p : ImagePool, p.images = [0] ∧ p.surfaceOf 0 = some 1 ∧ p.Owned := by
  let calls :=
    realised 0x3231564e ++ [.destroySurface 0 true, .createSurface Objects.rtFormatYuv420 64 48,
    .realiseSurface 1 ⟨.exportedAs 0, true, .exportedAs 0⟩]
  obtain ⟨hm, hr⟩ : imagePool.Meets ImagePool.KeepsOwned (.empty false) calls ∧
      (imagePool.run (.empty false) calls).any fun p => p.images = [0] ∧ p.surfaceOf 0 = some 1 :=
    ⟨by decide, by decide⟩
  obtain ⟨p, hs, hp⟩ := (Option.any_eq_true _ _).mp hr
  obtain ⟨hi, hf⟩ := of_decide_eq_true hp
  exact ⟨p, hi, hf, ((images_owned_iff ⟨false, rfl⟩ hs).mpr hm).last hs⟩

/-- The second attempt gives an image in NV21, too. When it is taken from its surface it is freed
and stays in the list, and `egl_destroyAllBackingImage` frees it again. -/
theorem images_not_owned :
    (∃ p, imagePool.run (.empty false) (realised drmFormatNV21 ++ [.detachBackingImage 0 true]) =
      some p ∧
      p.images = [1] ∧ 1 ∈ p.freed ∧ ¬p.Owned) ∧
    ∃ p, imagePool.run (.empty false)
      (realised drmFormatNV21 ++ [.detachBackingImage 0 true,
        .destroyAllBackingImage fun _ => true]) = some p ∧
        p.freed = [1, 1, 0] ∧ ¬p.Owned := by
  refine ⟨⟨_, rfl, by decide, by decide, fun h => ?_⟩, ⟨_, rfl, by decide, fun h => ?_⟩⟩
  · have hlive := h.live 1 (by decide)
    exact absurd hlive.2 (by decide)
  · exact absurd h.freedOnce (by decide)

end NvVaapi.Export
