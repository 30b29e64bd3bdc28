import NvVaapi.Direct.Images
import NvVaapi.Objects.Create
import Mathlib.Algebra.Order.Group.Multiset

/-!
# What an allocation of the direct backend leaves open

* `ImageReplies.opens`, `ImageReplies.left`: the descriptors that `alloc_image` opens, and those
  that it leaves open.
* `AllocatedAll`: what the first loop makes of the planes.
* `ImportedAll`: what the second loop makes of them when all of it succeeds.
* `AllocReplies.Succeeds`, `AllocReplies.FailsFirst`: nothing fails, and the first import fails with
  all that was allocated closed.
-/

namespace NvVaapi.Direct

/-! ## What `alloc_image` opens -/

namespace MemoryReplies

variable (r : MemoryReplies)

def opens : List Fd := if r.allocated then r.opened.toList else []

/-- The descriptor of the memory, if there is one. -/
def memFd : Option Fd :=
  if r.allocated ∧ r.attached ∧ r.exported ∧ r.freed then r.opened else none

end MemoryReplies

namespace ImageReplies

variable (r : ImageReplies)

def memFd2 : Option Fd := r.memFd.bind fun _ => r.duplicated

def drmFd : Option Fd := r.memFd2.bind fun _ => if r.imported then r.prime else none

def Allocates : Prop := r.drmFd.isSome ∧ r.gemClosed

instance : Decidable r.Allocates := inferInstanceAs (Decidable (_ ∧ _))

/-- The descriptors that are opened. -/
def opens : List Fd := r.toMemoryReplies.opens ++ r.memFd2.toList ++ r.drmFd.toList

/-- The descriptors that are open after `alloc_image`. Where it fails it closes all but the
duplicate and 0. -/
def left : List Fd :=
  if r.Allocates then r.opens
  else r.memFd2.toList ++ (r.toMemoryReplies.opens ++ r.drmFd.toList).filter (· = 0)

end ImageReplies

/-! ## Descriptors -/

section Descriptors

variable {ρ : Type} {st : DirectState} {fd : Fd} {fds fds' : List Fd}

/-- The state with the descriptors `fds` open in addition. -/
def DirectState.hold (st : DirectState) (fds : List Fd) : DirectState :=
  { st with descriptors := ⟨fds + st.descriptors.held, st.descriptors.stray⟩ }

@[simp] theorem hold_nil (st : DirectState) : st.hold [] = st := by
  simp [DirectState.hold]

theorem hold_hold (st : DirectState) (fds fds' : List Fd) :
    (st.hold fds).hold fds' = st.hold (fds ++ fds') := by
  simp [DirectState.hold, ← Multiset.coe_add, add_assoc, add_left_comm]

theorem hold_congr (h : fds.Perm fds') : st.hold fds = st.hold fds' := by
  unfold DirectState.hold
  rw [Multiset.coe_eq_coe.mpr h]

theorem openFd_ensures {E : ρ → DirectState → Prop} :
    (openFd fd : Prog DirectState ρ Unit).Ensures st (fun _ st' => st' = st.hold [fd]) E := by
  simp [openFd, Ledger.acquire, DirectState.hold]

/-- A descriptor that the call has opened. -/
theorem closeSome_ensures {E : ρ → DirectState → Prop} (h : fds.Perm (fd :: fds')) :
    (closeSome fd : Prog DirectState ρ Unit).Ensures (st.hold fds)
      (fun _ st' => st' = st.hold ([fd].filter (· = 0) ++ fds')) E := by
  rw [hold_congr h]
  unfold closeSome
  by_cases h0 : fd = 0
  · simp [h0]
  · have hheld : fd ∈ (st.hold (fd :: fds')).descriptors.held := by simp [DirectState.hold]
    simp only [h0, ne_eq, not_false_eq_true, if_true, closeFd, Prog.ensures_update,
      Ledger.release_of_mem hheld]
    simp [DirectState.hold, h0, ← Multiset.cons_coe]

theorem allocMemory_ensures (r : MemoryReplies) {E : ρ → DirectState → Prop} :
    (allocMemory r : Prog DirectState ρ (Option Fd)).Ensures st (fun ret st' => ret = r.memFd ∧
      st' = st.hold (if r.memFd.isSome then r.opens else r.opens.filter (· = 0))) E := by
  unfold allocMemory MemoryReplies.memFd MemoryReplies.opens
  by_cases ha : r.allocated
  · rw [if_pos ha]
    cases ho : r.opened with
    | none => simp [ha]
    | some fd =>
      simp only [ha, Prog.ensures_bind, Prog.ensures_ite, Prog.ensures_pure]
      refine openFd_ensures.mono ?_ fun _ _ h => h
      rintro - st' rfl
      refine ⟨fun hall => ⟨by simp [hall], by simp [hall]⟩, fun hnot => ?_⟩
      refine (closeSome_ensures (.refl [fd])).mono ?_ fun _ _ h => h
      rintro - st' rfl
      by_cases h0 : fd = 0 <;> simp [hnot, h0]
  · simp [ha]

theorem MemoryReplies.opens_of_memFd {r : MemoryReplies} (h : r.memFd = some fd) :
    r.opens = [fd] := by
  unfold memFd at h
  split at h
  · next hall => rw [opens, if_pos hall.1, h, Option.toList_some]
  · cases h

end Descriptors

/-! ## The loop of `alloc_image` -/

section Alloc

variable {ρ : Type} {st st' : DirectState}

/-- The descriptors of an image. -/
def NVDriverImage.fds (img : NVDriverImage) : List Fd := [img.nvFd, img.nvFd2, img.drmFd]

/-- What `alloc_image` makes of a plane. -/
structure Allocated (i : Nat) (r : ImageReplies) (st st' : DirectState) : Prop where
  descriptors : st'.descriptors = (st.hold r.left).descriptors
  objects : st'.objects = st.objects
  backingImage : st'.backingImage = st.backingImage
  others : ∀ j, j ≠ i → st'.driverImages j = st.driverImages j
  fds : r.Allocates → (st'.driverImages i).fds = r.opens
  failed : ¬r.Allocates → st'.driverImages i = st.driverImages i

/-- It failed with the descriptors `fds` left open. -/
theorem Allocated.of_fails {i : Nat} {r : ImageReplies} (h : ¬r.Allocates) {fds : List Fd}
    (hp : fds.Perm (r.memFd2.toList ++
      (r.toMemoryReplies.opens ++ r.drmFd.toList).filter (· = 0))) :
    Allocated i r st (st.hold fds) := by
  refine ⟨?_, rfl, rfl, fun _ _ => rfl, fun ha => absurd ha h, fun _ => rfl⟩
  rw [ImageReplies.left, if_neg h]
  simp only [DirectState.hold, Multiset.coe_eq_coe.mpr hp]

/-- It succeeded, with the descriptors in the image. -/
theorem Allocated.of_allocates {i : Nat} {r : ImageReplies} (h : r.Allocates) {img : NVDriverImage}
    (hfds : img.fds = r.opens) :
    Allocated i r st
      { st.hold r.opens with driverImages := Function.update st.driverImages i img } := by
  refine ⟨?_, rfl, rfl, fun j hj => Function.update_of_ne hj _ _, fun _ => ?_,
    fun hn => absurd h hn⟩
  · rw [ImageReplies.left, if_pos h]
  · simp only [Function.update_self, hfds]

section Exits

variable {i : Nat} {r : ImageReplies} {memFd memFd2 : Fd} {E : ρ → DirectState → Prop}

theorem ImageReplies.memFd2_eq (hm : r.memFd = some memFd) : r.memFd2 = r.duplicated := by
  simp [ImageReplies.memFd2, hm]

/-- An exit behind the duplicate closes the first descriptor, and leaves the duplicate. -/
theorem exit_ensures (hm : r.memFd = some memFd) (hd : r.duplicated = some memFd2)
    (hfail : ¬r.Allocates) {fds rest : List Fd} (hp : fds.Perm (memFd :: rest))
    (hleft : ([memFd].filter (· = 0) ++ rest).Perm
      (memFd2 :: ([memFd] ++ r.drmFd.toList).filter (· = 0))) :
    (closeSome memFd : Prog DirectState ρ Unit).Ensures (st.hold fds)
      (fun _ st' => Allocated i r st st') E := by
  refine (closeSome_ensures hp).mono ?_ fun _ _ h => h
  rintro - st₁ rfl
  apply Allocated.of_fails hfail
  rw [ImageReplies.memFd2_eq hm, hd, MemoryReplies.opens_of_memFd hm]
  exact hleft

/-- The exits that are taken before there is a third descriptor. -/
theorem exit_ensures_of_drmFd (hm : r.memFd = some memFd) (hd : r.duplicated = some memFd2)
    (hnone : r.drmFd = none) :
    (closeSome memFd : Prog DirectState ρ Unit).Ensures (st.hold ([memFd] ++ [memFd2]))
      (fun _ st' => Allocated i r st st') E := by
  apply exit_ensures hm hd (by simp [ImageReplies.Allocates, hnone]) (.refl _)
  rw [hnone]
  exact List.perm_append_comm

end Exits

theorem allocImage_ensures (i : Nat) (width height channels bitsPerChannel : UInt32)
    (r : ImageReplies) {E : ρ → DirectState → Prop} :
    (allocImage i width height channels bitsPerChannel r : Prog DirectState ρ Bool).Ensures st
      (fun _ st' => Allocated i r st st') E := by
  have hdrm : r.drmFd = r.memFd2.bind fun _ => if r.imported then r.prime else none := rfl
  unfold allocImage
  rw [Prog.ensures_bind]
  refine (allocMemory_ensures r.toMemoryReplies).mono ?_ fun _ _ h => h
  rintro - st₁ ⟨rfl, rfl⟩
  cases hm : r.memFd with
  | none =>
    have hmem2 : r.memFd2 = none := by simp [ImageReplies.memFd2, hm]
    have hfail : ¬r.Allocates := by simp [ImageReplies.Allocates, hdrm, hmem2]
    exact Allocated.of_fails hfail (.of_eq (by simp [hdrm, hmem2]))
  | some memFd =>
    have hopens := MemoryReplies.opens_of_memFd hm
    have hmem2 := ImageReplies.memFd2_eq hm
    rw [Option.isSome_some, if_pos rfl, hopens]
    cases hd : r.duplicated with
    | none =>
      rw [hd] at hmem2
      have hfail : ¬r.Allocates := by simp [ImageReplies.Allocates, hdrm, hmem2]
      simp only [Prog.ensures_bind, Prog.ensures_pure]
      refine (closeSome_ensures (.refl [memFd])).mono ?_ fun _ _ h => h
      rintro - st₁ rfl
      exact Allocated.of_fails hfail (.of_eq (by simp [hdrm, hmem2, hopens]))
    | some memFd2 =>
      rw [hd] at hmem2
      rw [Prog.ensures_bind]
      refine openFd_ensures.mono ?_ fun _ _ h => h
      rintro - st₁ rfl
      rw [hold_hold, Prog.ensures_ite]
      refine ⟨fun hi => ?_, fun hi => ?_⟩
      · cases hp : r.prime with
        | none =>
          simp only [Prog.ensures_bind, Prog.ensures_pure]
          exact exit_ensures_of_drmFd hm hd (by simp [hdrm, hmem2, hp])
        | some drmFd =>
          have hsome : r.drmFd = some drmFd := by simp [hdrm, hmem2, hi, hp]
          simp only [Prog.ensures_bind]
          refine openFd_ensures.mono ?_ fun _ _ h => h
          rintro - st₁ rfl
          rw [hold_hold, Prog.ensures_ite]
          refine ⟨fun hg => ?_, fun hg => ?_⟩
          · have hall : r.opens = [memFd, memFd2, drmFd] := by
              simp [ImageReplies.opens, hopens, hmem2, hsome]
            simp only [Prog.ensures_bind, Prog.ensures_update, Prog.ensures_pure]
            have halloc : r.Allocates := ⟨by rw [hsome]; rfl, hg⟩
            have hdone := @Allocated.of_allocates st i r halloc
              (.allocated width height channels bitsPerChannel memFd memFd2 drmFd) hall.symm
            rwa [hall] at hdone
          · simp only [Prog.ensures_bind, Prog.ensures_pure]
            refine (closeSome_ensures (@List.perm_append_comm _ [memFd, memFd2] [drmFd])).mono ?_
              fun _ _ h => h
            rintro - st₁ rfl
            apply exit_ensures hm hd (fun ha => hg ha.2) List.perm_middle
            rw [hsome, List.filter_append, ← List.append_assoc]
            exact List.perm_append_comm
      · simp only [Prog.ensures_bind, Prog.ensures_pure]
        exact exit_ensures_of_drmFd hm hd (by simp [hdrm, hmem2, hi])

/-! No descriptor is open twice. -/

def DirectState.Distinct (st : DirectState) : Prop := st.descriptors.held.Nodup

theorem openFd_keeps (fd : Fd) :
    (openFd fd : Prog DirectState ρ Unit).Keeps DirectState.Distinct := by
  intro st h
  simp only [openFd, Prog.ensures_bind, Prog.ensures_wait, Prog.ensures_update]
  exact fun hfd => Multiset.nodup_cons.mpr ⟨hfd, h⟩

theorem closeSome_keeps (fd : Fd) :
    (closeSome fd : Prog DirectState ρ Unit).Keeps DirectState.Distinct := by
  refine .ite (.update fun st h => ?_) (.pure ())
  show (st.descriptors.release fd).held.Nodup
  unfold Ledger.release
  split
  · exact Multiset.nodup_of_le (Multiset.erase_le fd _) h
  · exact h

/-- An exit that closes a descriptor. -/
theorem closeSome_fail_keeps {α : Type} (fd : Fd) {p : Prog DirectState ρ α}
    (hp : p.Keeps DirectState.Distinct) :
    (closeSome fd >>= fun _ => p).Keeps DirectState.Distinct :=
  (closeSome_keeps fd).bind fun _ => hp

theorem allocMemory_keeps (r : MemoryReplies) :
    (allocMemory r : Prog DirectState ρ (Option Fd)).Keeps DirectState.Distinct := by
  unfold allocMemory
  refine .ite ?_ (.pure none)
  cases r.opened with
  | none => exact .pure none
  | some fd =>
    exact (openFd_keeps fd).bind fun _ => .ite (.pure _) (closeSome_fail_keeps fd (.pure none))

theorem allocImage_keeps (i : Nat) (width height channels bitsPerChannel : UInt32)
    (r : ImageReplies) :
    (allocImage i width height channels bitsPerChannel r : Prog DirectState ρ Bool).Keeps
      DirectState.Distinct := by
  refine (allocMemory_keeps _).bind fun memFd => ?_
  cases memFd with
  | none => exact .pure false
  | some memFd =>
    cases r.duplicated with
    | none => exact closeSome_fail_keeps memFd (.pure false)
    | some memFd2 =>
      refine (openFd_keeps memFd2).bind fun _ => .ite ?_ (closeSome_fail_keeps memFd (.pure false))
      cases r.prime with
      | none => exact closeSome_fail_keeps memFd (.pure false)
      | some drmFd =>
        refine (openFd_keeps drmFd).bind fun _ => .ite ?_ ?_
        · exact Prog.Keeps.bind (.update fun _ h => h) fun _ => .pure true
        · exact closeSome_fail_keeps drmFd (closeSome_fail_keeps memFd (.pure false))

/-- What the first loop makes of the planes `ps`. -/
structure AllocatedAll (r : AllocReplies) (ps : List Nat) (st st' : DirectState) : Prop where
  descriptors : st'.descriptors = (st.hold (ps.flatMap fun i => (r.image i).left)).descriptors
  objects : st'.objects = st.objects
  backingImage : st'.backingImage = st.backingImage
  others : ∀ i, i ∉ ps → st'.driverImages i = st.driverImages i
  fds : ∀ i ∈ ps, (r.image i).Allocates → (st'.driverImages i).fds = (r.image i).opens
  failed : ∀ i ∈ ps, ¬(r.image i).Allocates → st'.driverImages i = st.driverImages i

theorem allocPlanes_ensures (surface : Objects.NVSurface) (r : AllocReplies)
    {E : ρ → DirectState → Prop} {ps : List (Image.NVFormatPlane × Nat)}
    (hn : (ps.map Prod.snd).Nodup) :
    (Prog.forEach ps (allocPlane surface r) : Prog DirectState ρ Unit).Ensures st
      (fun _ st' => AllocatedAll r (ps.map Prod.snd) st st') E := by
  induction ps generalizing st with
  | nil => exact ⟨by simp, rfl, rfl, fun _ _ => rfl, nofun, nofun⟩
  | cons p ps ih =>
    obtain ⟨hp, hn⟩ := List.nodup_cons.mp hn
    rw [Prog.ensures_forEach_cons, allocPlane, Prog.ensures_bind]
    refine (allocImage_ensures p.2 _ _ _ _ _).mono (fun _ st₁ h₁ => ?_) fun _ _ h => h
    rw [Prog.ensures_pure]
    refine (ih hn).mono (fun _ st₂ h₂ => ?_) fun _ _ h => h
    have hkeep (i : Nat) (hi : i ∈ ps.map Prod.snd) : st₁.driverImages i = st.driverImages i :=
      h₁.others i fun he => hp (he ▸ hi)
    constructor
    · have h := h₁.descriptors
      rw [h₂.descriptors, List.map_cons, List.flatMap_cons, ← hold_hold]
      simp only [DirectState.hold] at h ⊢
      rw [h]
    · exact h₂.objects.trans h₁.objects
    · exact h₂.backingImage.trans h₁.backingImage
    · intro i hi
      rw [List.map_cons, List.mem_cons, not_or] at hi
      exact (h₂.others i hi.2).trans (h₁.others i hi.1)
    · intro i hi ha
      rcases List.mem_cons.mp hi with rfl | hi
      · rw [h₂.others _ hp]
        exact h₁.fds ha
      · exact h₂.fds i hi ha
    · intro i hi ha
      rcases List.mem_cons.mp hi with rfl | hi
      · rw [h₂.others _ hp]
        exact h₁.failed ha
      · exact (h₂.failed i hi ha).trans (hkeep i hi)

end Alloc

/-! ## The loop of `import_to_cuda` -/

section Import

variable {ρ : Type} {st st' : DirectState} {i : Nat}

/-- All CUDA calls succeed. -/
def CudaReplies.Creates (r : CudaReplies) : Prop :=
  r.extMem.isSome ∧ r.mipmapArray.isSome ∧ r.array.isSome

instance (r : CudaReplies) : Decidable r.Creates := inferInstanceAs (Decidable (_ ∧ _ ∧ _))

/-- The CUDA objects of a plane, in the order in which `destroyBackingImage` destroys them. -/
def BackingImage.objects (img : BackingImage) (i : Nat) : List CudaObject :=
  [.array (img.arrays i), .mipmapArray (img.cudaImages i).mipmapArray,
    .extMem (img.cudaImages i).extMem]

/-- What `import_to_cuda` makes of a plane when it succeeds. -/
structure Imported (i : Nat) (st st' : DirectState) : Prop where
  descriptors : st'.descriptors = st.descriptors.releaseAll [(st.driverImages i).nvFd,
    (st.driverImages i).nvFd2]
  objects : st'.objects = st'.backingImage.objects i + st.objects
  drmFd : (st'.driverImages i).drmFd = (st.driverImages i).drmFd
  others : ∀ j, j ≠ i → st'.driverImages j = st.driverImages j
  format : st'.backingImage.format = st.backingImage.format
  others_objects : ∀ j, j ≠ i → st'.backingImage.objects j = st.backingImage.objects j

theorem importToCuda_ensures (i : Nat) (r : CudaReplies) {E : ρ → DirectState → Prop} :
    (importToCuda i r : Prog DirectState ρ Bool).Ensures st (fun ok st' =>
      (ok = true ↔ r.Creates) ∧ (r.Creates → Imported i st st') ∧ (r.extMem = none → st' = st) ∧
        (r.extMem ≠ none → st.objects < st'.objects)) E := by
  unfold importToCuda createObject closeFd
  rw [Prog.ensures_bind, Prog.ensures_read]
  cases he : r.extMem with
  | none => simp [CudaReplies.Creates, he]
  | some extMem =>
    simp only [Prog.ensures_bind, Prog.ensures_update]
    have hext := Multiset.lt_cons_self st.objects (.extMem extMem)
    cases hm : r.mipmapArray with
    | none => simpa [CudaReplies.Creates, he, hm] using hext
    | some mipmapArray =>
      simp only [Prog.ensures_bind, Prog.ensures_update]
      have hmip := hext.trans (Multiset.lt_cons_self _ (.mipmapArray mipmapArray))
      cases ha : r.array with
      | none => simpa [CudaReplies.Creates, he, hm, ha] using hmip
      | some array =>
        simp only [Prog.ensures_bind, Prog.ensures_update, Prog.ensures_pure]
        have harr := hmip.trans (Multiset.lt_cons_self _ (.array array))
        have hcre : r.Creates := by simp [CudaReplies.Creates, he, hm, ha]
        refine ⟨iff_of_true trivial hcre, fun _ => ⟨rfl, ?_, ?_, ?_, rfl, ?_⟩, by simp,
          fun _ => harr⟩
        · simp [BackingImage.objects, ← Multiset.cons_coe]
        · simp
        · intro j hj
          exact Function.update_of_ne hj _ _
        · intro j hj
          simp [BackingImage.objects, hj]

/-- What the second loop makes of the planes `ps` when all of it succeeds. -/
structure ImportedAll (ps : List Nat) (st st' : DirectState) : Prop where
  descriptors : st'.descriptors = st.descriptors.releaseAll
    (ps.flatMap fun i => [(st.driverImages i).nvFd, (st.driverImages i).nvFd2])
  objects : st'.objects = ps.flatMap st'.backingImage.objects + st.objects
  drmFd : ∀ i, (st'.driverImages i).drmFd = (st.driverImages i).drmFd
  format : st'.backingImage.format = st.backingImage.format
  others_objects : ∀ i, i ∉ ps → st'.backingImage.objects i = st.backingImage.objects i

theorem closeSome_eq (fd : Fd) : (closeSome fd : Prog DirectState ρ Unit) = Prog.update fun st =>
    { st with descriptors := st.descriptors.releaseAll ([fd].filter (· ≠ 0)) } := by
  unfold closeSome
  by_cases h0 : fd = 0
  · simp [h0]
    rfl
  · simp [h0, closeFd]

/-- The descriptors that `bail` closes for a plane. -/
def NVDriverImage.closes (img : NVDriverImage) : List Fd := img.fds.filter (· ≠ 0)

theorem NVDriverImage.closes_eq (img : NVDriverImage) : img.closes =
    [img.nvFd].filter (· ≠ 0) ++ ([img.nvFd2].filter (· ≠ 0) ++ [img.drmFd].filter (· ≠ 0)) := by
  rw [← List.filter_append, ← List.filter_append]
  rfl

theorem closePlanes_ensures {E : ρ → DirectState → Prop} {ps : List (Image.NVFormatPlane × Nat)} :
    (Prog.forEach ps (fun p => closePlane p.2) : Prog DirectState ρ Unit).Ensures st
      (fun _ st' => st' = { st with
        descriptors :=
          st.descriptors.releaseAll ((ps.map Prod.snd).flatMap fun i =>
            (st.driverImages i).closes) })
      E := by
  induction ps generalizing st with
  | nil => rfl
  | cons p ps ih =>
    rw [Prog.ensures_forEach_cons, closePlane]
    simp only [closeSome_eq, Prog.ensures_bind, Prog.ensures_read, Prog.ensures_update]
    refine ih.mono ?_ fun _ _ h => h
    rintro - st' rfl
    simp only [List.map_cons, List.flatMap_cons, Ledger.releaseAll_append, NVDriverImage.closes_eq]

theorem bail_ensures (format : Objects.NVFormat) {Q : Unit → DirectState → Prop} :
    (bail format).Ensures st Q fun ret st' => ret = none ∧ st'.objects = st.objects ∧
      st'.descriptors = st.descriptors.releaseAll
        (((planes format).map Prod.snd).flatMap fun i => (st.driverImages i).closes) := by
  rw [bail, Prog.ensures_bind]
  refine closePlanes_ensures.mono ?_ fun _ _ h => h
  rintro - st' rfl
  exact ⟨rfl, rfl, rfl⟩

theorem importPlanes_ensures (surface : Objects.NVSurface) (r : AllocReplies)
    {ps : List (Image.NVFormatPlane × Nat)} (hn : (ps.map Prod.snd).Nodup) :
    (Prog.forEach ps (importPlane surface r)).Ensures st
      (fun _ st' => (∀ i ∈ ps.map Prod.snd, (r.cuda i).Creates) ∧
        ImportedAll (ps.map Prod.snd) st st')
      fun ret st' => ret = none ∧ (¬∀ i ∈ ps.map Prod.snd, (r.cuda i).Creates) ∧
        st.objects ≤ st'.objects := by
  induction ps generalizing st with
  | nil => exact ⟨nofun, rfl, by simp, fun _ => rfl, rfl, fun _ _ => rfl⟩
  | cons p ps ih =>
    obtain ⟨hp, hn⟩ := List.nodup_cons.mp hn
    rw [Prog.ensures_forEach_cons, importPlane, Prog.ensures_bind]
    refine (importToCuda_ensures p.2 (r.cuda p.2)).mono ?_ fun _ _ h => h
    rintro ok st₁ ⟨hok, himp, hsame, hgrow⟩
    have hle : st.objects ≤ st₁.objects := by
      by_cases he : (r.cuda p.2).extMem = none
      · rw [hsame he]
      · exact (hgrow he).le
    cases ok with
    | false =>
      refine (bail_ensures _).mono (fun _ _ h => h) ?_
      rintro ret st' ⟨rfl, ho, -⟩
      have hnot : ¬(r.cuda p.2).Creates := fun hc => Bool.false_ne_true (hok.mpr hc)
      exact ⟨rfl, fun hall => hnot (hall p.2 List.mem_cons_self), ho ▸ hle⟩
    | true =>
      have hcre := hok.mp rfl
      have h₁ := himp hcre
      refine (ih hn).mono ?_ ?_
      · rintro - st₂ ⟨hall, h₂⟩
        refine ⟨List.forall_mem_cons.mpr ⟨hcre, hall⟩, ?_, ?_, ?_, h₂.format.trans h₁.format, ?_⟩
        · have hsame : (ps.map Prod.snd).flatMap
                (fun i => [(st₁.driverImages i).nvFd, (st₁.driverImages i).nvFd2]) =
              (ps.map Prod.snd).flatMap fun i =>
                [(st.driverImages i).nvFd, (st.driverImages i).nvFd2] := by
            apply List.flatMap_congr
            intro i hi
            rw [h₁.others i fun he => hp (he ▸ hi)]
          rw [h₂.descriptors, hsame, h₁.descriptors, List.map_cons, List.flatMap_cons,
            Ledger.releaseAll_append]
        · rw [h₂.objects, h₁.objects, List.map_cons, List.flatMap_cons, h₂.others_objects _ hp,
            ← Multiset.coe_add, add_assoc, add_left_comm]
        · intro i
          rw [h₂.drmFd]
          by_cases hi : i = p.2
          · rw [hi, h₁.drmFd]
          · rw [h₁.others i hi]
        · intro i hi
          rw [List.map_cons, List.mem_cons, not_or] at hi
          exact (h₂.others_objects i hi.2).trans (h₁.others_objects i hi.1)
      · rintro ret st' ⟨rfl, hnot, hle'⟩
        exact ⟨rfl, fun hall => hnot (List.forall_mem_cons.mp hall).2, hle.trans hle'⟩

/-- The first import fails, before it creates anything. -/
theorem importPlanes_first (surface : Objects.NVSurface) (r : AllocReplies)
    {p : Image.NVFormatPlane × Nat} {ps rest : List (Image.NVFormatPlane × Nat)}
    {Q : Unit → DirectState → Prop} (hps : ps = p :: rest) (h : (r.cuda p.2).extMem = none) :
    (Prog.forEach ps (importPlane surface r)).Ensures st Q fun ret st' =>
      ret = none ∧ st'.objects = st.objects ∧ st'.descriptors = st.descriptors.releaseAll
        (((planes (directFormat surface)).map Prod.snd).flatMap fun i =>
          (st.driverImages i).closes) := by
  subst hps
  rw [Prog.ensures_forEach_cons, importPlane, Prog.ensures_bind]
  refine (importToCuda_ensures p.2 (r.cuda p.2)).mono ?_ fun _ _ h => h
  rintro ok st₁ ⟨hok, -, hsame, -⟩
  obtain rfl := hsame h
  cases ok with
  | false => exact bail_ensures _
  | true =>
    have hext := (hok.mp rfl).1
    rw [h] at hext
    cases hext

/-- Where the first import creates something and a later one fails, it is still there. -/
theorem importPlanes_grows (surface : Objects.NVSurface) (r : AllocReplies)
    {p : Image.NVFormatPlane × Nat} {ps rest : List (Image.NVFormatPlane × Nat)}
    (hps : ps = p :: rest) (hn : (ps.map Prod.snd).Nodup) (h : (r.cuda p.2).extMem ≠ none) :
    (Prog.forEach ps (importPlane surface r)).Ensures st (fun _ _ => True) fun _ st' =>
      st.objects < st'.objects := by
  subst hps
  rw [Prog.ensures_forEach_cons, importPlane, Prog.ensures_bind]
  refine (importToCuda_ensures p.2 (r.cuda p.2)).mono ?_ fun _ _ h => h
  rintro ok st₁ ⟨-, -, -, hgrow⟩
  cases ok with
  | false =>
    refine (bail_ensures _).mono (fun _ _ h => h) ?_
    rintro ret st' ⟨-, ho, -⟩
    rw [ho]
    exact hgrow h
  | true =>
    refine (importPlanes_ensures surface r (List.nodup_cons.mp hn).2).mono (fun _ _ _ => trivial) ?_
    rintro ret st' ⟨-, -, hle⟩
    exact (hgrow h).trans_le hle

end Import

/-! ## The loop that fills in the image -/

theorem recordPlanes_ensures {ρ : Type} {st : DirectState} {E : ρ → DirectState → Prop}
    {ps : List (Image.NVFormatPlane × Nat)} :
    (Prog.forEach ps recordPlane : Prog DirectState ρ Unit).Ensures st (fun _ st' =>
      st'.descriptors = st.descriptors ∧ st'.objects = st.objects ∧
        st'.driverImages = st.driverImages ∧
      st'.backingImage.format = st.backingImage.format ∧
        st'.backingImage.objects = st.backingImage.objects ∧
      ∀ i, st'.backingImage.fds i =
        if i ∈ ps.map Prod.snd then (st.driverImages i).drmFd else st.backingImage.fds i) E := by
  induction ps generalizing st with
  | nil => exact ⟨rfl, rfl, rfl, rfl, rfl, fun i => by simp⟩
  | cons p ps ih =>
    rw [Prog.ensures_forEach_cons, recordPlane, Prog.ensures_update]
    refine ih.mono ?_ fun _ _ h => h
    rintro - st' ⟨hd, ho, hi, hf, hobj, hfds⟩
    refine ⟨hd, ho, hi, hf, hobj, fun i => ?_⟩
    rw [hfds]
    by_cases hip : i = p.2
    · subst hip
      simp
    · have hmem : i ∈ (p :: ps).map Prod.snd ↔ i ∈ ps.map Prod.snd := by simp [hip]
      simp only [Function.update_of_ne hip, hmem]

/-! ## When an allocation succeeds, and when it fails without a trace -/

/-- All that `alloc_image` opens can be closed: it is not 0, and nothing fails after the
duplicate. -/
structure ImageReplies.Closable (r : ImageReplies) : Prop where
  ne_zero : ∀ fd ∈ r.opens, fd ≠ 0
  duplicate : r.memFd2.isSome → r.Allocates

/-- Nothing fails. -/
def AllocReplies.Succeeds (r : AllocReplies) (format : Objects.NVFormat) : Prop :=
  ∀ i ∈ (planes format).map Prod.snd, (r.image i).Allocates ∧ (r.cuda i).Creates

/-- The first import fails, and all that was allocated can be closed. -/
structure AllocReplies.FailsFirst (r : AllocReplies) (format : Objects.NVFormat) : Prop where
  extMem : (r.cuda 0).extMem = none
  closable : ∀ i ∈ (planes format).map Prod.snd, (r.image i).Closable

/-- The descriptors of a plane that `bail` leaves open. -/
def ImageReplies.unclosed (r : ImageReplies) : List Fd :=
  if r.Allocates then r.opens.filter (· = 0) else r.left

theorem ImageReplies.unclosed_eq_nil_iff (r : ImageReplies) : r.unclosed = [] ↔ r.Closable := by
  unfold unclosed
  by_cases ha : r.Allocates
  · rw [if_pos ha, List.filter_eq_nil_iff]
    exact ⟨fun h => ⟨fun fd hm h0 => h fd hm (decide_eq_true h0), fun _ => ha⟩,
      fun h fd hm h0 => h.ne_zero fd hm (of_decide_eq_true h0)⟩
  · rw [if_neg ha, left, if_neg ha, List.append_eq_nil_iff, List.filter_eq_nil_iff]
    constructor
    · rintro ⟨hdup, hzero⟩
      have hnone : r.memFd2 = none := Option.toList_eq_nil_iff.mp hdup
      refine ⟨fun fd hm h0 => ?_, fun hs => ?_⟩
      · rw [opens, hdup, List.append_nil] at hm
        exact hzero fd hm (decide_eq_true h0)
      · rw [hnone] at hs
        cases hs
    · intro h
      have hnone : r.memFd2 = none := Option.not_isSome_iff_eq_none.mp fun hs => ha (h.duplicate hs)
      refine ⟨by rw [hnone]; rfl, fun fd hm h0 => h.ne_zero fd ?_ (of_decide_eq_true h0)⟩
      rw [opens, hnone, Option.toList_none, List.append_nil]
      exact hm

theorem planes_eq_cons (format : Objects.NVFormat) : ∃ p ps, planes format = (p, 0) :: ps := by
  cases format <;> exact ⟨_, _, rfl⟩

theorem planes_nodup (format : Objects.NVFormat) : ((planes format).map Prod.snd).Nodup := by
  cases format <;> decide

theorem allocPlane_keeps (surface : Objects.NVSurface) (r : AllocReplies) {ρ : Type}
    (p : Image.NVFormatPlane × Nat) :
    (allocPlane surface r p : Prog DirectState ρ Unit).Keeps DirectState.Distinct :=
  (allocImage_keeps _ _ _ _ _ _).bind fun _ => .pure ()

end NvVaapi.Direct
