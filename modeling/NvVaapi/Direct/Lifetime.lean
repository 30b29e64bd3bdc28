import NvVaapi.Direct.Pool

/-!
# How long an image of the direct backend lives

* `Wired`: an image and its surface point to each other, an image that is there has a surface that
  is there, and the driver lists none. It holds in every state (`wired_of_reach`).
* `Settled`: the driver has open what its images record, and no more.
* `settled_iff`: it does throughout a run exactly when every allocation of it meets `Clean`.
* `terminate_iff`: then `nvTerminate` has left nothing exactly when no surface has an image any
  more.
-/

namespace NvVaapi.Direct

namespace AllocReplies

variable (r : AllocReplies) (format : Objects.NVFormat)

/-- Nothing fails, and all that the image records can be told from 0. -/
structure Lasts : Prop where
  succeeds : r.Succeeds format
  drmFd : ∀ i ∈ planeIndices format, (r.image i).drmFd ≠ some 0
  objects : ∀ i ∈ planeIndices format, ∀ object ∈ (r.cuda i).objects, object.handle ≠ 0

/-- The image lasts, or there is none and nothing is left of it. -/
def Clean : Prop := r.Lasts format ∨ r.FailsFirst format

end AllocReplies

namespace DirectPool

variable {d d' : DirectPool} {s s' a : Addr} {sf : Objects.NVSurface} {r : AllocReplies}
  {c : DirectCall}

/-! ## Surfaces and images -/

structure Wired (d : DirectPool) : Prop where
  linked : Linked d.backingImage d.surface
  heap : ∀ a, d.surface a ≠ none ↔ a ∈ d.heap
  alive : ∀ s, d.backingImage s ≠ none → d.surfaces s ≠ none
  /-- `direct_destroyAllBackingImage` finds no image. -/
  images : d.images = []
  distinct : d.descriptors.held.Nodup

theorem wired_empty : Wired empty :=
  ⟨linked_none.mpr fun _ => rfl, fun _ => by simp [empty], fun _ h => absurd rfl h, rfl,
    Multiset.nodup_zero⟩

namespace Wired

theorem surface_eq_none (h : Wired d) (ha : a ∉ d.heap) : d.surface a = none := by
  by_contra hs
  exact ha ((h.heap a).mp hs)

theorem backingImage_eq_none (h : Wired d) (hs : d.surfaces s = none) :
    d.backingImage s = none := by
  by_contra hb
  exact h.alive s hb hs

theorem detach (h : Wired d) : Wired (d.directDetachBackingImageFromSurface s) ∧
    (d.directDetachBackingImageFromSurface s).backingImage s = none := by
  cases hs : d.backingImage s with
  | none =>
    rw [detach_of_none hs]
    exact ⟨h, hs⟩
  | some a =>
    rw [detach_eq h.linked hs]
    refine ⟨⟨h.linked.detach hs, fun b => ?_, fun t ht => h.alive t ?_, h.images, ?_⟩,
      Function.update_self ..⟩
    · show Function.update d.surface a none b ≠ none ↔ b ∈ d.heap.erase a
      by_cases hb : b = a
      · simp [hb]
      · rw [Function.update_of_ne hb, Finset.mem_erase, h.heap b, and_iff_right hb]
    · intro hn
      apply ht
      show Function.update d.backingImage s none t = none
      by_cases hts : t = s
      · rw [hts, Function.update_self]
      · rw [Function.update_of_ne hts, hn]
    · exact Multiset.nodup_of_le (Ledger.held_releaseAll_le _ _) h.distinct

theorem leave (h : Wired d) {st : DirectState} (hst : st.Distinct) : Wired (d.leave st) :=
  ⟨h.linked, h.heap, h.alive, h.images, hst⟩

/-- A surface without an image gets a new one. -/
theorem attach (h : Wired d) (hs : d.surfaces s = some sf) (hb : d.backingImage s = none)
    (ha : a ∉ d.heap) (img : BackingImage) :
    Wired ((d.allocate a img).directAttachBackingImageToSurface s a) := by
  have hnone := h.surface_eq_none ha
  have hsurface : ((d.allocate a img).directAttachBackingImageToSurface s a).surface =
      Function.update d.surface a (some s) := Function.update_idem ..
  refine ⟨?_, fun b => ?_, fun t ht => ?_, h.images, h.distinct⟩
  · rw [hsurface]
    exact h.linked.attach hb hnone
  · rw [hsurface]
    show _ ↔ b ∈ insert a d.heap
    by_cases hba : b = a
    · simp [hba]
    · rw [Function.update_of_ne hba, Finset.mem_insert, or_iff_right hba]
      exact h.heap b
  · show d.surfaces t ≠ none
    by_cases hts : t = s
    · rw [hts, hs]
      exact Option.some_ne_none sf
    · apply h.alive t
      intro hn
      apply ht
      show Function.update d.backingImage s (some a) t = none
      rw [Function.update_of_ne hts, hn]

theorem realise (h : Wired d) (hs : d.surfaces s = some sf) (ha : a ∉ d.heap) {ok : Bool}
    (hr : d.directRealiseSurface s sf r a = some (ok, d')) : Wired d' := by
  obtain ⟨-, rfl⟩ | ⟨hb, ret, st, he, rfl⟩ := realise_cases hr
  · exact h
  · have hkeep : (directAllocateBackingImage sf r).Returns _ fun _ => DirectState.Distinct :=
      allocation_keeps sf r (.enter d.descriptors d.objects.held (directFormat sf)) h.distinct
    have hleave := h.leave (hkeep.eval he)
    cases ret with
    | none => exact hleave
    | some img => exact hleave.attach hs hb ha img

theorem destroyAll (h : Wired d) : d.directDestroyAllBackingImage = d := by
  rw [directDestroyAllBackingImage, h.images]
  rfl

theorem step (h : Wired d) (hst : directPool.step d c = some d') : Wired d' := by
  have hc := directPool_step_cases hst
  cases c with
  | createSurface s sf =>
    obtain ⟨hs, rfl⟩ := hc
    have hsame : Function.update d.backingImage s none = d.backingImage := by
      rw [← h.backingImage_eq_none hs, Function.update_eq_self]
    refine ⟨?_, h.heap, fun t ht => ?_, h.images, h.distinct⟩
    · show Linked (Function.update d.backingImage s none) d.surface
      rw [hsame]
      exact h.linked
    · show Function.update d.surfaces s (some sf) t ≠ none
      by_cases hts : t = s
      · simp [hts]
      · rw [Function.update_of_ne hts]
        exact h.alive t fun hn => ht (by simp [setBackingImage, hsame, hn])
  | realiseSurface s r a =>
    obtain ⟨sf, ok, hs, ha, hr⟩ := hc
    exact h.realise hs ha hr
  | detachBackingImage s =>
    obtain ⟨-, rfl⟩ := hc
    exact h.detach.1
  | destroySurface s =>
    obtain ⟨-, d₁, rfl, rfl⟩ := hc
    obtain ⟨hw, hnone⟩ := h.detach (s := s)
    refine ⟨hw.linked, hw.heap, fun t ht => ?_, hw.images, hw.distinct⟩
    have hts : t ≠ s := by
      rintro rfl
      exact ht hnone
    show Function.update (d.directDetachBackingImageFromSurface s).surfaces s none t ≠ none
    rw [Function.update_of_ne hts]
    exact hw.alive t ht
  | destroyAllBackingImage =>
    rw [hc, h.destroyAll]
    exact h

/-- The surfaces have no image exactly when no image is there. -/
theorem backingImage_eq_none_iff (h : Wired d) : (∀ s, d.backingImage s = none) ↔ d.heap = ∅ := by
  constructor
  · intro hnone
    refine Finset.eq_empty_of_forall_notMem fun a ha => ?_
    obtain ⟨s, hs⟩ := Option.ne_none_iff_exists'.mp ((h.heap a).mpr ha)
    have hb := (h.linked s a).mpr hs
    rw [hnone s] at hb
    cases hb
  · intro hempty s
    by_contra hb
    obtain ⟨a, ha⟩ := Option.ne_none_iff_exists'.mp hb
    have hheap : a ∈ d.heap := (h.heap a).mp (by simp [(h.linked s a).mp ha])
    rw [hempty] at hheap
    exact absurd hheap (Finset.notMem_empty a)

end Wired

/-- In every state that the calls of a client lead to, an image and its surface point to each other,
and no image is there without a surface. -/
theorem wired_of_reach (h : directPool.Reach d) : Wired d :=
  h.invariant (fun _ hi => hi ▸ wired_empty) fun _ _ _ hw => hw.step

/-- A surface that gets an image and is destroyed. -/
def oneImage : List DirectCall :=
  [.createSurface 1 nv12Surface, .realiseSurface 1 (allocatedReplies cudaOk) 2, .destroySurface 1]

theorem wired_of_reach_oneImage : ∃ d, directPool.run empty oneImage = some d ∧ Wired d := by
  obtain ⟨d, hr⟩ : ∃ d, directPool.run empty oneImage = some d := ⟨_, rfl⟩
  exact ⟨d, hr, wired_of_reach ((Lts.Reach.init rfl).run hr)⟩

/-! ## What is open -/

/-- The driver has open what its images record, and has released nothing else. -/
structure Settled (d : DirectPool) : Prop where
  descriptors : d.descriptors.OwnedBy d.heap fun a => (d.memory a).closes
  objects : d.objects.OwnedBy d.heap fun a => (d.memory a).destroys

/-- The allocation that the call makes, if it makes one, is clean. -/
def KeepsSettled (d : DirectPool) : DirectCall → Prop
  | .realiseSurface s r _ =>
    d.backingImage s = none → ∀ sf, d.surfaces s = some sf → r.Clean (directFormat sf)
  | _ => True

theorem settled_empty : Settled empty := ⟨rfl, rfl⟩

namespace Settled

theorem detach (h : Settled d) (hw : Wired d) :
    Settled (d.directDetachBackingImageFromSurface s) := by
  cases hs : d.backingImage s with
  | none => rwa [detach_of_none hs]
  | some a =>
    have ha : a ∈ d.heap := (hw.heap a).mp (by simp [(hw.linked s a).mp hs])
    have hsame : ∀ b ∈ d.heap.erase a, d.memory b = Function.update d.memory a (.zero .nv12) b :=
      fun b hb => (Function.update_of_ne (Finset.ne_of_mem_erase hb) _ _).symm
    rw [detach_eq hw.linked hs]
    constructor
    · refine (Ledger.OwnedBy.congr fun b hb => ?_).mp (h.descriptors.releaseAll ha rfl)
      rw [hsame b hb]
    · refine (Ledger.OwnedBy.congr fun b hb => ?_).mp (h.objects.releaseAll ha rfl)
      rw [hsame b hb]

/-- Where no image is made, the driver has open what it had before exactly when nothing else has
changed. -/
theorem leave_iff (h : Settled d) (st : DirectState) :
    Settled (d.leave st) ↔ st.descriptors = d.descriptors ∧ st.objects = d.objects.held := by
  constructor
  · intro h'
    exact ⟨h'.descriptors.trans h.descriptors.symm,
      congrArg Ledger.held (h'.objects.trans h.objects.symm)⟩
  · rintro ⟨hd, ho⟩
    constructor
    · show st.descriptors.OwnedBy d.heap _
      rw [hd]
      exact h.descriptors
    · show Ledger.OwnedBy ⟨st.objects, d.objects.stray⟩ d.heap _
      rw [ho]
      exact h.objects

end Settled

/-! ### A new image -/

/-- Where only the planes have descriptors, those are closed. -/
theorem closes_eq {format : Objects.NVFormat} {img : BackingImage}
    (h : ∀ i ∉ planeIndices format, img.fds i = 0) :
    img.closes = ((planeIndices format).map img.fds).filter (0 < ·) := by
  have h3 : img.fds 3 = 0 := h 3 (by cases format <;> decide)
  have hrange : List.range 4 = [0, 1, 2, 3] := rfl
  cases format with
  | nv12 | p010 | p012 | p016 =>
    have h2 : img.fds 2 = 0 := h 2 (by decide)
    simp [BackingImage.closes, hrange, planeIndices, planes, Image.plane, List.filter_cons, h2, h3]
  | yuv444p | q416 =>
    simp [BackingImage.closes, hrange, planeIndices, planes, Image.plane, List.filter_cons, h3]

/-- Nothing is left out exactly when all of it is kept. -/
theorem coe_filter_eq_iff {κ : Type} (p : κ → Bool) (ks : List κ) :
    ((ks.filter p : List κ) : Multiset κ) = ks ↔ ∀ k ∈ ks, p k := by
  rw [Multiset.coe_eq_coe, ← List.filter_eq_self]
  exact ⟨fun h => List.filter_sublist.eq_of_length h.length_eq, fun h => .of_eq h⟩

section Attach

variable {format : Objects.NVFormat} {img : BackingImage} {st : DirectState}

theorem attach_descriptors_iff (h : Settled d) (ha : a ∉ d.heap)
    (hm : Made format r d.descriptors d.objects.held img st) :
    st.descriptors.OwnedBy (insert a d.heap) (fun b => (Function.update d.memory a img b).closes) ↔
      (∀ i ∈ planeIndices format, (r.image i).Allocates) ∧
        ∀ i ∈ planeIndices format, (r.image i).drmFd ≠ some 0 := by
  have hold : d.descriptors.OwnedBy d.heap fun b => (Function.update d.memory a img b).closes := by
    refine (Ledger.OwnedBy.congr fun b hb => ?_).mp h.descriptors
    rw [Function.update_of_ne (ne_of_mem_of_not_mem hb ha)]
  have hiff (hall : ∀ i ∈ planeIndices format, (r.image i).Allocates) :
      st.descriptors.OwnedBy (insert a d.heap) (fun b =>
        (Function.update d.memory a img b).closes) ↔
        ∀ i ∈ planeIndices format, (r.image i).drmFd ≠ some 0 := by
    rw [hm.held hall, hold.insert_iff ha, Function.update_self, closes_eq hm.others,
      coe_filter_eq_iff, List.forall_mem_map]
    refine forall₂_congr fun i hi => ?_
    rw [hm.drmFd i hi (hall i hi), ne_eq, Option.some_inj, decide_eq_true_iff]
    exact Nat.pos_iff_ne_zero
  constructor
  · intro hown
    have hall : ∀ i ∈ planeIndices format, (r.image i).Allocates := by
      rw [← hm.stray_iff, hown, h.descriptors]
    exact ⟨hall, (hiff hall).mp hown⟩
  · rintro ⟨hall, hdrm⟩
    exact (hiff hall).mpr hdrm

theorem attach_objects_iff (h : Settled d) (ha : a ∉ d.heap)
    (hm : Made format r d.descriptors d.objects.held img st) :
    Ledger.OwnedBy ⟨st.objects, d.objects.stray⟩ (insert a d.heap)
      (fun b => (Function.update d.memory a img b).destroys) ↔
        ∀ i ∈ planeIndices format, ∀ object ∈ (r.cuda i).objects, object.handle ≠ 0 := by
  have hold : d.objects.OwnedBy d.heap fun b => (Function.update d.memory a img b).destroys := by
    refine (Ledger.OwnedBy.congr fun b hb => ?_).mp h.objects
    rw [Function.update_of_ne (ne_of_mem_of_not_mem hb ha)]
  have hst : (⟨st.objects, d.objects.stray⟩ : Ledger CudaObject) =
      d.objects.hold ((planeIndices format).flatMap img.objects : List CudaObject) := by
    rw [hm.held_objects]
    rfl
  rw [hst, hold.insert_iff ha, Function.update_self, BackingImage.destroys, hm.format_eq,
    coe_filter_eq_iff]
  simp only [List.mem_flatMap, decide_eq_true_iff]
  constructor
  · intro hall i hi object ho
    exact hall object ⟨i, hi, hm.image_objects i hi ▸ ho⟩
  · rintro hall object ⟨i, hi, ho⟩
    exact hall i hi object (hm.image_objects i hi ▸ ho)

/-- The new image is accounted for exactly when it lasts. -/
theorem attach_iff (h : Settled d) (ha : a ∉ d.heap)
    (hm : Made format r d.descriptors d.objects.held img st) :
    Settled (((d.leave st).allocate a img).directAttachBackingImageToSurface s a) ↔
      r.Lasts format := by
  have hd := attach_descriptors_iff h ha hm
  have ho := attach_objects_iff h ha hm
  constructor
  · intro h'
    obtain ⟨hall, hdrm⟩ := hd.mp h'.descriptors
    exact ⟨fun i hi => ⟨hall i hi, hm.creates i hi⟩, hdrm, ho.mp h'.objects⟩
  · intro hl
    exact ⟨hd.mpr ⟨fun i hi => (hl.succeeds i hi).1, hl.drmFd⟩, ho.mpr hl.objects⟩

end Attach

/-! ### Runs -/

theorem Settled.realise_iff (h : Settled d) (hw : Wired d) (hs : d.surfaces s = some sf)
    (ha : a ∉ d.heap) {ok : Bool} (hr : d.directRealiseSurface s sf r a = some (ok, d')) :
    Settled d' ↔ d.KeepsSettled (.realiseSurface s r a) := by
  have hkeep : d.KeepsSettled (.realiseSurface s r a) ↔
      (d.backingImage s = none → r.Clean (directFormat sf)) :=
    ⟨fun hk hb => hk hb sf hs, fun hk hb sf' hs' => Option.some.inj (hs.symm.trans hs') ▸ hk hb⟩
  rw [hkeep]
  obtain ⟨hb, rfl⟩ | ⟨hb, ret, st, he, rfl⟩ := realise_cases hr
  · exact iff_of_true h fun hn => absurd hn hb
  · rw [forall_prop_of_true hb]
    have hmade := (allocation_made sf r d.objects.held hw.distinct).eval he
    cases ret with
    | none =>
      have hlasts : ¬r.Lasts (directFormat sf) :=
        fun hl => hmade.fails fun i hi => (hl.succeeds i hi).2
      rw [h.leave_iff st, hmade.restored_iff, AllocReplies.Clean, or_iff_right hlasts]
    | some img =>
      rw [attach_iff h ha hmade, AllocReplies.Clean, or_iff_left (Made.not_failsFirst hmade)]

theorem Settled.step_iff (h : Settled d) (hw : Wired d) (hst : directPool.step d c = some d') :
    Settled d' ↔ d.KeepsSettled c := by
  have hc := directPool_step_cases hst
  cases c with
  | createSurface s sf =>
    obtain ⟨-, rfl⟩ := hc
    exact iff_of_true ⟨h.descriptors, h.objects⟩ trivial
  | realiseSurface s r a =>
    obtain ⟨sf, ok, hs, ha, hr⟩ := hc
    exact h.realise_iff hw hs ha hr
  | detachBackingImage s =>
    obtain ⟨-, rfl⟩ := hc
    exact iff_of_true (h.detach hw) trivial
  | destroySurface s =>
    obtain ⟨-, d₁, rfl, rfl⟩ := hc
    exact iff_of_true ⟨(h.detach hw).descriptors, (h.detach hw).objects⟩ trivial
  | destroyAllBackingImage =>
    rw [hc, hw.destroyAll]
    exact iff_of_true h trivial

/-- In a run of calls in any order, with any results of what they call to open or to create
something, the driver has open exactly what the images of its surfaces record, throughout, exactly
when every allocation leaves an image that lasts or nothing. The calls that close a descriptor or
destroy a CUDA object do so. -/
theorem settled_iff {calls : List DirectCall} (hr : directPool.run empty calls = some d) :
    directPool.Always Settled empty calls ↔ directPool.Meets KeepsSettled empty calls :=
  Lts.always_iff_meets (fun _ _ _ hw _ hst => Wired.step hw hst)
    (fun _ _ _ hw _ h hst => Settled.step_iff h hw hst) wired_empty settled_empty
      (Lts.meets_true _ _) hr

theorem lasts_allocatedReplies : (allocatedReplies cudaOk).Lasts .nv12 :=
  ⟨succeeds_allocatedReplies, by decide, by decide⟩

theorem oneImage_keepsSettled : directPool.Meets KeepsSettled empty oneImage := by
  refine ⟨trivial, fun d₁ hs => ⟨fun _ sf hsf => .inl ?_, fun _ _ => ⟨trivial, fun _ _ => trivial⟩⟩⟩
  obtain rfl := Option.some.inj hs
  obtain rfl : nv12Surface = sf := Option.some.inj hsf
  exact lasts_allocatedReplies

theorem settled_iff_oneImage : directPool.Always Settled empty oneImage := by
  obtain ⟨d, hr⟩ : ∃ d, directPool.run empty oneImage = some d := ⟨_, rfl⟩
  exact (settled_iff hr).mpr oneImage_keepsSettled

/-! ## The end of the driver -/

/-- Every image has a CUDA object that is to be destroyed. -/
def Full (d : DirectPool) : Prop := ∀ a ∈ d.heap, (d.memory a).destroys ≠ []

theorem destroys_ne_nil {format : Objects.NVFormat} {img : BackingImage} {st : DirectState}
    (hm : Made format r d.descriptors d.objects.held img st) (hl : r.Lasts format) :
    img.destroys ≠ [] := by
  have hzero := zero_mem_planeIndices format
  obtain ⟨array, harray⟩ := Option.isSome_iff_exists.mp (hm.creates 0 hzero).2.2
  have hmem : CudaObject.array array ∈ (r.cuda 0).objects := by simp [CudaReplies.objects, harray]
  refine List.ne_nil_of_mem (List.mem_filter.mpr ⟨?_, decide_eq_true (hl.objects 0 hzero _ hmem)⟩)
  rw [hm.format_eq]
  exact List.mem_flatMap.mpr ⟨0, hzero, hm.image_objects 0 hzero ▸ hmem⟩

theorem Full.step (h : Full d) (hw : Wired d) (hok : d.KeepsSettled c)
    (hst : directPool.step d c = some d') : Full d' := by
  have hdetach (s : Addr) : Full (d.directDetachBackingImageFromSurface s) := by
    cases hs : d.backingImage s with
    | none => rwa [detach_of_none hs]
    | some a =>
      rw [detach_eq hw.linked hs]
      intro b hb
      obtain ⟨hne, hb⟩ := Finset.mem_erase.mp hb
      show (Function.update d.memory a _ b).destroys ≠ []
      rw [Function.update_of_ne hne]
      exact h b hb
  have hc := directPool_step_cases hst
  cases c with
  | createSurface s sf =>
    obtain ⟨-, rfl⟩ := hc
    exact h
  | realiseSurface s r a =>
    obtain ⟨sf, ok, hs, ha, hr⟩ := hc
    obtain ⟨-, rfl⟩ | ⟨hb, ret, st, he, rfl⟩ := realise_cases hr
    · exact h
    · have hmade := (allocation_made sf r d.objects.held hw.distinct).eval he
      cases ret with
      | none => exact h
      | some img =>
        have hl : r.Lasts (directFormat sf) :=
          (hok hb sf hs).resolve_right (Made.not_failsFirst hmade)
        intro b hb'
        show (Function.update d.memory a img b).destroys ≠ []
        by_cases hba : b = a
        · rw [hba, Function.update_self]
          exact destroys_ne_nil hmade hl
        · rw [Function.update_of_ne hba]
          exact h b ((Finset.mem_insert.mp hb').resolve_left hba)
  | detachBackingImage s =>
    obtain ⟨-, rfl⟩ := hc
    exact hdetach s
  | destroySurface s =>
    obtain ⟨-, d₁, rfl, rfl⟩ := hc
    exact hdetach s
  | destroyAllBackingImage =>
    rw [hc, hw.destroyAll]
    exact h

/-- When the allocations were clean, what `nvTerminate` destroys leaves nothing open exactly when no
surface has an image. The calls that close a descriptor or destroy a CUDA object do so. -/
theorem terminate_iff (h : directPool.ReachWhen KeepsSettled d) :
    (d.directDestroyAllBackingImage.descriptors = .empty ∧
      d.directDestroyAllBackingImage.objects = .empty) ↔
      ∀ s, d.backingImage s = none := by
  obtain ⟨hw, hset, hfull⟩ : Wired d ∧ Settled d ∧ Full d := by
    refine Lts.ReachWhen.invariant (I := fun d => Wired d ∧ Settled d ∧ Full d) ?_ ?_ h
    · rintro d rfl
      exact ⟨wired_empty, settled_empty, fun a ha => absurd ha (Finset.notMem_empty a)⟩
    · rintro d c d' ⟨hw, hset, hfull⟩ hok hst
      exact ⟨hw.step hst, (hset.step_iff hw hst).mpr hok, hfull.step hw hok hst⟩
  rw [hw.destroyAll, hset.objects.eq_empty_iff, hset.descriptors.eq_empty_iff,
    hw.backingImage_eq_none_iff]
  constructor
  · rintro ⟨-, hobj⟩
    exact Finset.eq_empty_of_forall_notMem fun a ha =>
      hfull a ha (Multiset.coe_eq_zero _ |>.mp (hobj a ha))
  · intro hempty
    have hheap : ∀ a, a ∉ d.heap := fun a => hempty ▸ Finset.notMem_empty a
    exact ⟨fun a ha => absurd ha (hheap a), fun a ha => absurd ha (hheap a)⟩

/-- Before the surface is destroyed its image stays open, and nothing does behind it. -/
theorem terminate_iff_oneImage :
    (∃ d, directPool.run empty (oneImage.take 2) = some d ∧
      ¬(d.directDestroyAllBackingImage.descriptors = .empty ∧
        d.directDestroyAllBackingImage.objects = .empty)) ∧
    ∃ d, directPool.run empty oneImage = some d ∧
      d.directDestroyAllBackingImage.descriptors = .empty ∧
        d.directDestroyAllBackingImage.objects = .empty := by
  constructor
  · obtain ⟨d, hr, himage⟩ : ∃ d, directPool.run empty (oneImage.take 2) = some d ∧
        d.backingImage 1 = some 2 := ⟨_, rfl, rfl⟩
    have hreach := (Lts.ReachWhen.init rfl).run (oneImage_keepsSettled.take 2) hr
    refine ⟨d, hr, fun h => ?_⟩
    have hnone := (terminate_iff hreach).mp h 1
    rw [himage] at hnone
    cases hnone
  · obtain ⟨d, hr, hheap⟩ : ∃ d, directPool.run empty oneImage = some d ∧ d.heap = ∅ :=
      ⟨_, rfl, by decide⟩
    have hw : Wired d := ((Lts.Reach.init rfl).run hr).invariant (fun _ hi => hi ▸ wired_empty)
      fun _ _ _ hw => hw.step
    have hreach := (Lts.ReachWhen.init rfl).run oneImage_keepsSettled hr
    exact ⟨d, hr, (terminate_iff hreach).mpr (hw.backingImage_eq_none_iff.mpr hheap)⟩

end DirectPool

end NvVaapi.Direct
