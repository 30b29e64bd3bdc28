import NvVaapi.Direct.Released
import NvVaapi.Lib.Owners

/-!
# An allocation beside other images

* `DirectState.enter`: the state of `direct_allocateBackingImage` where the driver holds something
  already.
* `Made`, `Unmade`: what the call makes of it with an image and without one. Without one the driver
  holds what it held before exactly when the first import fails and all that was allocated can be
  closed.
* `allocation_made`: the call makes one of them of any such state.
* `Accounted`: where nothing was held before, nothing is left without an image, and with one exactly
  what it records.
* `allocation_accounted_iff`: an allocation is accounted for exactly when nothing fails, or the
  first import fails and all that was allocated can be closed.
-/

namespace NvVaapi.Direct

/-- The start of the call, where the driver holds `descriptors` and `objects`. -/
def DirectState.enter (descriptors : Ledger Fd) (objects : Multiset CudaObject)
    (format : Objects.NVFormat) : DirectState :=
  ⟨descriptors, objects, fun _ => .zero, .zero format⟩

/-- The numbers of the planes. -/
def planeIndices (format : Objects.NVFormat) : List Nat := (planes format).map Prod.snd

theorem zero_mem_planeIndices (format : Objects.NVFormat) : 0 ∈ planeIndices format := by
  cases format <;> decide

/-- The objects that are created, in the order in which `destroyBackingImage` destroys them. -/
def CudaReplies.objects (r : CudaReplies) : List CudaObject :=
  r.array.toList.map .array ++ r.mipmapArray.toList.map .mipmapArray ++ r.extMem.toList.map .extMem

section Records

variable {st : DirectState} {E : Option BackingImage → DirectState → Prop}

/-- What the import of a plane leaves in the image. -/
theorem importToCuda_records (i : Nat) (r : CudaReplies) :
    (importToCuda i r : Prog DirectState (Option BackingImage) Bool).Ensures st (fun _ st' =>
      (r.Creates → st'.backingImage.objects i = r.objects) ∧
        st'.backingImage.fds = st.backingImage.fds) E := by
  unfold importToCuda createObject closeFd
  rw [Prog.ensures_bind, Prog.ensures_read]
  cases he : r.extMem with
  | none => simp [CudaReplies.Creates, he]
  | some extMem =>
    simp only [Prog.ensures_bind, Prog.ensures_update]
    cases hm : r.mipmapArray with
    | none => simp [CudaReplies.Creates, he, hm]
    | some mipmapArray =>
      simp only [Prog.ensures_bind, Prog.ensures_update]
      cases ha : r.array with
      | none => simp [CudaReplies.Creates, he, hm, ha]
      | some array => simp [CudaReplies.objects, BackingImage.objects, he, hm, ha]

/-- The loop records the objects that the calls create. -/
theorem importPlanes_records (surface : Objects.NVSurface) (r : AllocReplies)
    {ps : List (Image.NVFormatPlane × Nat)} (hn : (ps.map Prod.snd).Nodup) :
    (Prog.forEach ps (importPlane surface r)).Ensures st (fun _ st' =>
      (∀ i ∈ ps.map Prod.snd, st'.backingImage.objects i = (r.cuda i).objects) ∧
      (∀ i ∉ ps.map Prod.snd, st'.backingImage.objects i = st.backingImage.objects i) ∧
      st'.backingImage.fds = st.backingImage.fds) fun _ _ => True := by
  induction ps generalizing st with
  | nil => exact ⟨by simp, fun _ _ => rfl, rfl⟩
  | cons p ps ih =>
    obtain ⟨hp, hn⟩ := List.nodup_cons.mp hn
    rw [Prog.ensures_forEach_cons, importPlane, Prog.ensures_bind]
    refine ((importToCuda_ensures (E := fun _ _ => True) p.2 (r.cuda p.2)).and
      (importToCuda_records (E := fun _ _ => True) p.2 (r.cuda p.2))).mono ?_ fun _ _ _ => trivial
    rintro ok st₁ ⟨⟨hok, himp, -, -⟩, hobj, hfds⟩
    cases ok with
    | false => exact (bail_ensures _).mono (fun _ _ h => h) fun _ _ _ => trivial
    | true =>
      have hcre := hok.mp rfl
      refine (ih hn).mono ?_ fun _ _ _ => trivial
      rintro - st₂ ⟨hps, hothers, hfds₂⟩
      refine ⟨fun i hi => ?_, fun i hi => ?_, hfds₂.trans hfds⟩
      · rcases List.mem_cons.mp hi with rfl | hi
        · exact (hothers _ hp).trans (hobj hcre)
        · exact hps i hi
      · rw [List.map_cons, List.mem_cons, not_or] at hi
        exact (hothers i hi.2).trans ((himp hcre).others_objects i hi.1)

end Records

section Main

variable {r : AllocReplies} {ps : List Nat} {st st₁ st₂ : DirectState} {format : Objects.NVFormat}
  {descriptors : Ledger Fd} {objects : Multiset CudaObject}

theorem AllocatedAll.descriptors_enter
    (h : AllocatedAll r ps (.enter descriptors objects format) st₁) :
    st₁.descriptors = descriptors.hold (ps.flatMap fun i => (r.image i).left : List Fd) :=
      h.descriptors

/-- A plane that was not allocated leaves its variables. -/
theorem AllocatedAll.fds_of_failed (h : AllocatedAll r ps (.enter descriptors objects format) st₁)
    {i : Nat} (hi : i ∈ ps) (hf : ¬(r.image i).Allocates) :
    (st₁.driverImages i).fds = [0, 0, 0] := by
  rw [h.failed i hi hf]
  rfl

/-- What the import of a plane takes and what the image records of it are what was opened. -/
theorem AllocatedAll.left_perm (h : AllocatedAll r ps (.enter descriptors objects format) st₁)
    (ha : ∀ i ∈ ps, (r.image i).Allocates) :
    (ps.flatMap fun i => (r.image i).left).Perm
      ((ps.flatMap fun i => [(st₁.driverImages i).nvFd, (st₁.driverImages i).nvFd2]) ++
        ps.map fun i => (st₁.driverImages i).drmFd) := by
  have hleft : (ps.flatMap fun i => (r.image i).left) = ps.flatMap fun i =>
      [(st₁.driverImages i).nvFd, (st₁.driverImages i).nvFd2] ++ [(st₁.driverImages i).drmFd] := by
    apply List.flatMap_congr
    intro i hi
    rw [ImageReplies.left, if_pos (ha i hi), ← h.fds i hi (ha i hi)]
    rfl
  rw [hleft, List.map_eq_flatMap]
  exact (List.flatMap_append_perm _ _ _).symm

theorem AllocatedAll.left_perm_closes
    (h : AllocatedAll r ps (.enter descriptors objects format) st₁) :
    (ps.flatMap fun i => (r.image i).left).Perm
      ((ps.flatMap fun i => (st₁.driverImages i).closes) ++ ps.flatMap fun i =>
        (r.image i).unclosed) := by
  refine (List.Perm.flatMap_left _ fun i hi => ?_).trans (List.flatMap_append_perm _ _ _).symm
  by_cases ha : (r.image i).Allocates
  · rw [ImageReplies.left, if_pos ha, ImageReplies.unclosed, if_pos ha, NVDriverImage.closes,
      h.fds i hi ha]
    refine (List.filter_append_perm (fun fd => decide (fd ≠ 0)) _).symm.trans (.of_eq ?_)
    simp
  · rw [ImageReplies.unclosed, if_neg ha, NVDriverImage.closes, h.fds_of_failed hi ha]
    exact .refl _

/-- The import of a plane that was not allocated closes the descriptor 0 twice. -/
theorem imported_stray_iff (hA : AllocatedAll r ps (.enter descriptors objects format) st₁)
    (hn : st₁.descriptors.held.Nodup) (hI : ImportedAll ps st₁ st₂) :
    st₂.descriptors.stray = descriptors.stray ↔ ∀ i ∈ ps, (r.image i).Allocates := by
  have hstray : descriptors.stray = st₁.descriptors.stray := by
    rw [hA.descriptors_enter, Ledger.hold_stray]
  rw [hstray, hI.descriptors, Ledger.releaseAll_stray_iff]
  refine ⟨fun hle i hi => ?_, fun ha => ?_⟩
  · by_contra hf
    have hpair :=
      (List.nodup_flatMap.mp (Multiset.coe_nodup.mp (Multiset.nodup_of_le hle hn))).1 i hi
    have hzero : (st₁.driverImages i).fds = [0, 0, 0] := hA.fds_of_failed hi hf
    have h1 : (st₁.driverImages i).nvFd = 0 := (List.cons.inj hzero).1
    have h2 : (st₁.driverImages i).nvFd2 = 0 := (List.cons.inj (List.cons.inj hzero).2).1
    simp [h1, h2] at hpair
  · rw [hA.descriptors_enter, Ledger.hold_held, Multiset.coe_eq_coe.mpr (hA.left_perm ha),
      ← Multiset.coe_add, add_assoc]
    exact Multiset.le_add_right _ _

/-- The descriptors that stay open are those of the buffers. -/
theorem imported_descriptors (hA : AllocatedAll r ps (.enter descriptors objects format) st₁)
    (ha : ∀ i ∈ ps, (r.image i).Allocates) (hI : ImportedAll ps st₁ st₂) :
    st₂.descriptors = descriptors.hold (ps.map fun i => (st₁.driverImages i).drmFd : List Fd) := by
  rw [hI.descriptors, hA.descriptors_enter]
  apply Ledger.releaseAll_hold
  rw [Multiset.coe_eq_coe.mpr (hA.left_perm ha), ← Multiset.coe_add]

/-- After the first import failed, what was held before is held exactly when all could be closed. -/
theorem restored_iff (hA : AllocatedAll r ps (.enter descriptors objects format) st₁)
    (hd : st.descriptors = st₁.descriptors.releaseAll (ps.flatMap fun i =>
      (st₁.driverImages i).closes)) :
    st.descriptors = descriptors ↔ ∀ i ∈ ps, (r.image i).Closable := by
  have hrest :
      st.descriptors = descriptors.hold (ps.flatMap fun i => (r.image i).unclosed : List Fd) := by
    rw [hd, hA.descriptors_enter]
    apply Ledger.releaseAll_hold
    rw [Multiset.coe_eq_coe.mpr hA.left_perm_closes, ← Multiset.coe_add]
  have hnil : (ps.flatMap fun i => (r.image i).unclosed) = [] ↔ ∀ i ∈ ps, (r.image i).Closable := by
    rw [List.flatMap_eq_nil_iff]
    exact forall₂_congr fun i _ => (r.image i).unclosed_eq_nil_iff
  rw [← hnil, ← Multiset.coe_eq_zero, hrest]
  refine ⟨fun h => ?_, fun h => by rw [h, Ledger.hold_zero]⟩
  have hheld := congrArg Ledger.held h
  rwa [Ledger.hold_held, add_eq_right] at hheld

/-- What the call makes of a driver when it returns the image `img`. -/
structure Made (format : Objects.NVFormat) (r : AllocReplies) (descriptors : Ledger Fd)
    (objects : Multiset CudaObject) (img : BackingImage) (st : DirectState) : Prop where
  format_eq : img.format = format
  creates : ∀ i ∈ planeIndices format, (r.cuda i).Creates
  image_objects : ∀ i ∈ planeIndices format, img.objects i = (r.cuda i).objects
  held_objects : st.objects = (planeIndices format).flatMap img.objects + objects
  /-- Behind the planes the image records nothing. -/
  others : ∀ i ∉ planeIndices format, img.fds i = 0
  drmFd : ∀ i ∈ planeIndices format, (r.image i).Allocates → (r.image i).drmFd = some (img.fds i)
  stray_iff : st.descriptors.stray = descriptors.stray ↔
    ∀ i ∈ planeIndices format, (r.image i).Allocates
  held : (∀ i ∈ planeIndices format, (r.image i).Allocates) →
    st.descriptors = descriptors.hold ((planeIndices format).map img.fds : List Fd)

theorem Made.not_failsFirst {img : BackingImage} (h : Made format r descriptors objects img st) :
    ¬r.FailsFirst format := by
  intro hf
  have hext := (h.creates 0 (zero_mem_planeIndices format)).1
  rw [hf.extMem] at hext
  cases hext

/-- What the call makes of a driver when it returns no image. -/
structure Unmade (format : Objects.NVFormat) (r : AllocReplies) (descriptors : Ledger Fd)
    (objects : Multiset CudaObject) (st : DirectState) : Prop where
  fails : ¬∀ i ∈ planeIndices format, (r.cuda i).Creates
  restored_iff : st.descriptors = descriptors ∧ st.objects = objects ↔ r.FailsFirst format

theorem AllocatedAll.drmFd (h : AllocatedAll r ps st st₁) {i : Nat} (hi : i ∈ ps)
    (ha : (r.image i).Allocates) : (r.image i).drmFd = some (st₁.driverImages i).drmFd := by
  obtain ⟨drmFd, hdrm⟩ := Option.isSome_iff_exists.mp ha.1
  have hfds := h.fds i hi ha
  have hlast := congrArg List.getLast? hfds
  rw [ImageReplies.opens, hdrm, Option.toList_some, List.getLast?_concat] at hlast
  rw [hdrm, ← hlast]
  rfl

/-- The planes of the image that is returned. -/
theorem made_of_imported
    (hA : AllocatedAll r (planeIndices format) (.enter descriptors objects format) st₁)
    (hn : st₁.descriptors.held.Nodup) (hcre : ∀ i ∈ planeIndices format, (r.cuda i).Creates)
    (hI : ImportedAll (planeIndices format) st₁ st₂) (hd : st.descriptors = st₂.descriptors)
    (ho : st.objects = st₂.objects) {img : BackingImage} (hf : img.format = format)
    (hobj : img.objects = st₂.backingImage.objects)
    (hrec : ∀ i ∈ planeIndices format, st₂.backingImage.objects i = (r.cuda i).objects)
    (hfds : ∀ i, img.fds i = if i ∈ planeIndices format then (st₂.driverImages i).drmFd else 0) :
    Made format r descriptors objects img st := by
  have hdrm {i : Nat} (hi : i ∈ planeIndices format) : img.fds i = (st₁.driverImages i).drmFd := by
    rw [hfds, if_pos hi, hI.drmFd]
  refine ⟨hf, hcre, fun i hi => ?_, ?_, fun i hi => ?_, fun i hi ha => ?_, ?_, fun ha => ?_⟩
  · rw [hobj, hrec i hi]
  · rw [ho, hI.objects, hA.objects, hobj]
    rfl
  · rw [hfds, if_neg hi]
  · rw [hA.drmFd hi ha, hdrm hi]
  · rw [hd]
    exact imported_stray_iff hA hn hI
  · rw [hd, imported_descriptors hA ha hI, List.map_congr_left fun i hi => hdrm hi]

/-! No descriptor gets open twice. -/

theorem closeFd_keeps {ρ : Type} (fd : Fd) :
    (closeFd fd : Prog DirectState ρ Unit).Keeps DirectState.Distinct := by
  intro st h
  show (st.descriptors.release fd).held.Nodup
  unfold Ledger.release
  split
  · exact Multiset.nodup_of_le (Multiset.erase_le fd _) h
  · exact h

theorem importToCuda_keeps {ρ : Type} (i : Nat) (r : CudaReplies) :
    (importToCuda i r : Prog DirectState ρ Bool).Keeps DirectState.Distinct := by
  have hcreate (object : CudaObject) (record : BackingImage → BackingImage) :
      (createObject object record : Prog DirectState ρ Unit).Keeps DirectState.Distinct :=
        .update fun _ h => h
  refine Prog.Keeps.read.bind fun st => ?_
  cases r.extMem with
  | none => exact .pure false
  | some extMem =>
    refine (hcreate _ _).bind fun _ => (closeFd_keeps _).bind fun _ =>
      (closeFd_keeps _).bind fun _ => ?_
    refine Prog.Keeps.bind (.update fun _ h => h) fun _ => ?_
    cases r.mipmapArray with
    | none => exact .pure false
    | some mipmapArray =>
      refine (hcreate _ _).bind fun _ => ?_
      cases r.array with
      | none => exact .pure false
      | some array => exact (hcreate _ _).bind fun _ => .pure true

theorem bail_keeps (format : Objects.NVFormat) : (bail format).Keeps DirectState.Distinct := by
  have hclose (i : Nat) :
      (closePlane i : Prog DirectState (Option BackingImage) Unit).Keeps DirectState.Distinct :=
    Prog.Keeps.read.bind fun _ => (closeSome_keeps _).bind fun _ =>
      (closeSome_keeps _).bind fun _ =>
      closeSome_keeps _
  exact Prog.Keeps.bind (.forEach fun p _ => hclose p.2) fun _ => .leave none

theorem allocation_keeps (surface : Objects.NVSurface) (r : AllocReplies) :
    (directAllocateBackingImage surface r).Keeps DirectState.Distinct := by
  refine Prog.Keeps.bind (.forEach fun p _ => allocPlane_keeps surface r p) fun _ => ?_
  refine Prog.Keeps.bind (.forEach fun p _ => ?_) fun _ => ?_
  · refine (importToCuda_keeps p.2 (r.cuda p.2)).bind fun ok => ?_
    exact .ite (bail_keeps _) (.pure ())
  · refine Prog.Keeps.bind (.update fun _ h => h) fun _ => ?_
    refine Prog.Keeps.bind (.forEach fun p _ => .update fun _ h => h) fun _ => ?_
    exact Prog.Keeps.read.bind fun st => .pure _

end Main

/-- The allocation of an image, where the driver holds something already. -/
theorem allocation_made (surface : Objects.NVSurface) (r : AllocReplies) {descriptors : Ledger Fd}
    (objects : Multiset CudaObject) (hn : descriptors.held.Nodup) :
    (directAllocateBackingImage surface r).Returns
      (.enter descriptors objects (directFormat surface))
      fun ret st => match ret with
        | some img => Made (directFormat surface) r descriptors objects img st
        | none => Unmade (directFormat surface) r descriptors objects st := by
  have hnodup := planes_nodup (directFormat surface)
  obtain ⟨p, ps, hps⟩ := planes_eq_cons (directFormat surface)
  have hdistinct : (DirectState.enter descriptors objects (directFormat surface)).Distinct := hn
  have hkeep : (Prog.forEach (planes (directFormat surface)) (allocPlane surface r) :
      Prog DirectState (Option BackingImage) Unit).Keeps DirectState.Distinct :=
    .forEach fun p _ => allocPlane_keeps surface r p
  unfold Prog.Returns directAllocateBackingImage
  rw [Prog.ensures_bind]
  refine ((allocPlanes_ensures (E := fun _ _ => False) surface r hnodup).and
    (hkeep _ hdistinct)).mono ?_
    fun _ _ h => h.1.elim
  rintro - st₁ ⟨hA, hn₁⟩
  rw [Prog.ensures_bind]
  by_cases hext : (r.cuda 0).extMem = none
  · refine (importPlanes_first (Q := fun _ _ => False) surface r hps hext).mono
      (fun _ _ h => h.elim) ?_
    rintro ret st ⟨rfl, ho, hd⟩
    have hobj : st.objects = objects := ho.trans hA.objects
    refine ⟨fun hcre => ?_, ?_⟩
    · have hzero := (hcre 0 (zero_mem_planeIndices _)).1
      rw [hext] at hzero
      cases hzero
    · rw [and_iff_left hobj, restored_iff hA hd]
      exact ⟨fun h => ⟨hext, h⟩, fun h => h.closable⟩
  · refine ((importPlanes_ensures surface r hnodup).and
      ((importPlanes_records surface r hnodup).and
        (importPlanes_grows surface r hps hnodup hext))).mono ?_ ?_
    · rintro - st₂ ⟨⟨hcre, hI⟩, ⟨hrec, -, hzero⟩, -⟩
      simp only [Prog.ensures_bind, Prog.ensures_update]
      refine (recordPlanes_ensures (E := fun _ _ => False)).mono ?_ fun _ _ h => h.elim
      rintro - st ⟨hd, ho, hi, hf, hobj, hfds⟩
      simp only [Prog.ensures_read, Prog.ensures_pure]
      refine made_of_imported hA hn₁ hcre hI hd ho ?_ hobj hrec fun i => ?_
      · exact hf.trans (hI.format.trans (congrArg BackingImage.format hA.backingImage))
      · rw [hfds, hzero, hA.backingImage]
        rfl
    · rintro ret st ⟨⟨rfl, hcre, -⟩, -, hlt⟩
      refine ⟨hcre, iff_of_false (fun h => ?_) fun h => hext h.extMem⟩
      rw [h.2, hA.objects] at hlt
      exact lt_irrefl objects hlt

/-! ## An allocation on its own -/

/-- Nothing was closed that was not open. Without an image nothing is left; with one, the
descriptors and the CUDA objects that it records. -/
structure Accounted (ret : Option BackingImage) (st : DirectState) : Prop where
  stray : st.descriptors.stray = 0
  held : st.descriptors.held =
    ret.elim [] fun img => ((planes img.format).map Prod.snd).map img.fds
  objects : st.objects =
    ret.elim [] fun img => ((planes img.format).map Prod.snd).flatMap img.objects

section Alone

variable {r : AllocReplies} {format : Objects.NVFormat} {st : DirectState}

theorem Made.accounted_iff {img : BackingImage} (h : Made format r .empty 0 img st) :
    Accounted (some img) st ↔ r.Succeeds format ∨ r.FailsFirst format := by
  rw [or_iff_left h.not_failsFirst]
  constructor
  · intro hacc
    have ha := h.stray_iff.mp hacc.stray
    exact fun i hi => ⟨ha i hi, h.creates i hi⟩
  · intro hs
    have ha : ∀ i ∈ planeIndices format, (r.image i).Allocates := fun i hi => (hs i hi).1
    refine ⟨h.stray_iff.mpr ha, ?_, ?_⟩
    · rw [h.held ha, Ledger.hold_held, ← h.format_eq]
      exact Multiset.add_zero _
    · rw [h.held_objects, ← h.format_eq]
      exact Multiset.add_zero _

theorem Unmade.accounted_iff (h : Unmade format r .empty 0 st) :
    Accounted none st ↔ r.Succeeds format ∨ r.FailsFirst format := by
  have hfails : ¬r.Succeeds format := fun hs => h.fails fun i hi => (hs i hi).2
  rw [or_iff_right hfails, ← h.restored_iff]
  constructor
  · intro hacc
    exact ⟨Ledger.ext hacc.held hacc.stray, hacc.objects⟩
  · rintro ⟨hd, ho⟩
    exact ⟨by rw [hd]; rfl, by rw [hd]; rfl, ho⟩

end Alone

/-- Every allocation, with any results of the calls that it makes, is accounted for exactly when
nothing fails, or the first import fails and all that was allocated can be closed. -/
theorem allocation_accounted_iff (surface : Objects.NVSurface) (r : AllocReplies)
    {ret : Option BackingImage} {st : DirectState}
    (h : (directAllocateBackingImage surface r).eval (.init (directFormat surface)) =
      some (ret, st)) :
    Accounted ret st ↔ r.Succeeds (directFormat surface) ∨ r.FailsFirst (directFormat surface) := by
  have hnodup : (Ledger.empty : Ledger Fd).held.Nodup := Multiset.nodup_zero
  have hmade := (allocation_made surface r 0 hnodup).eval h
  cases ret with
  | none => exact Unmade.accounted_iff hmade
  | some img => exact Made.accounted_iff hmade

/-- Two planes that are allocated, with the results of the CUDA calls. -/
def allocatedReplies (cuda : Nat → CudaReplies) : AllocReplies where
  image i :=
    ⟨⟨true, some (3 * i + 3), true, true, true⟩, some (3 * i + 4), true, some (3 * i + 5), true⟩
  cuda

def cudaOk (i : Nat) : CudaReplies := ⟨some (3 * i + 1), some (3 * i + 2), some (3 * i + 3)⟩

def nv12Surface : Objects.NVSurface := .created 64 64 (.nv12, .yuv420, 8)

theorem succeeds_allocatedReplies : (allocatedReplies cudaOk).Succeeds .nv12 := by
  unfold AllocReplies.Succeeds
  decide

theorem allocation_accounted_iff_nv12 : ∃ img st,
    (directAllocateBackingImage nv12Surface (allocatedReplies cudaOk)).eval (.init .nv12) =
      some (some img, st) ∧
    Accounted (some img) st := by
  obtain ⟨img, st, h⟩ : ∃ img st,
      (directAllocateBackingImage nv12Surface (allocatedReplies cudaOk)).eval (.init .nv12) =
        some (some img, st) :=
    ⟨_, _, rfl⟩
  exact ⟨img, st, h,
    (allocation_accounted_iff nv12Surface _ h).mpr (.inl succeeds_allocatedReplies)⟩

/-- The import of the second plane fails, and the objects of the first one stay. -/
theorem not_accounted :
    ¬∀ (surface : Objects.NVSurface) (r : AllocReplies) (ret : Option BackingImage)
    (st : DirectState),
    (directAllocateBackingImage surface r).eval (.init (directFormat surface)) = some (ret, st) →
      Accounted ret st := by
  intro h
  obtain ⟨st, hrun, hobj⟩ : ∃ st,
      (directAllocateBackingImage nv12Surface
        (allocatedReplies fun i => if i = 0 then cudaOk 0 else ⟨none, none, none⟩)).eval
          (.init .nv12) =
          some (none, st) ∧ st.objects ≠ 0 := ⟨_, rfl, by decide⟩
  exact hobj (h _ _ _ _ hrun).objects

end NvVaapi.Direct
