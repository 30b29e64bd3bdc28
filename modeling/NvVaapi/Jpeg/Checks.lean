import NvVaapi.Jpeg.Reconstruct

/-!
# The checks of `reconstructJPEG`

The checking loops only read, so each is replaced by the plain condition that it tests.

* `maskOf`: the mask of a list of table numbers.
* `SliceOk`, `FrameOk`: what a slice and the whole input have to satisfy.
* `checkFrame_reads`: the checks accept exactly the inputs that are `FrameOk`, and then give the
  total size of the slices and the masks of the tables that they select. The overflow test on the
  total never fires.
* `groupSlices_reads`: the two booleans that decide how scans are written.
-/

namespace NvVaapi

open Emit (Prog emit touch require Does Reads Writes)

/-- How far each region may be read. -/
def readBounds (sliceDataSize : UInt32) : Region → Nat
  | .frameComponents => 4
  | .scanComponents => 4
  | .dcValues => 12
  | .acValues => 162
  | .sliceData => sliceDataSize.toNat

/-! ## Masks -/

/-- The mask of the tables in a list. -/
def maskOf (ts : List Nat) : BitVec 8 := ts.foldl (fun m t => m ||| tableBit t) 0

theorem getLsbD_foldl_tableBit (ts : List Nat) (m : BitVec 8) {j : Nat} (hj : j < 8) :
    (ts.foldl (fun m t => m ||| tableBit t) m).getLsbD j = true ↔ m.getLsbD j = true ∨ j ∈ ts := by
  induction ts generalizing m with
  | nil => simp
  | cons t ts ih =>
    rw [List.foldl_cons, ih, BitVec.getLsbD_or, tableBit, BitVec.getLsbD_twoPow, List.mem_cons,
      Bool.or_eq_true, Bool.and_eq_true, decide_eq_true_eq, decide_eq_true_eq, or_assoc]
    grind

theorem getLsbD_maskOf (ts : List Nat) {j : Nat} (hj : j < 8) :
    (maskOf ts).getLsbD j = true ↔ j ∈ ts := by
  rw [maskOf, getLsbD_foldl_tableBit ts 0 hj]
  simp

/-- The test of one bit of a mask. -/
theorem and_tableBit_ne_zero (m : BitVec 8) {j : Nat} (hj : j < 8) :
    m &&& tableBit j ≠ 0 ↔ m.getLsbD j = true := by
  rw [tableBit, BitVec.and_twoPow]
  cases h : m.getLsbD j
  · simp
  · have : BitVec.twoPow 8 j ≠ 0 := fun h0 => by
      have := congrArg (·.getLsbD j) h0
      simp [hj] at this
    simpa using this

/-- The test that a mask has all bits of another one. -/
theorem and_maskOf_eq (m : BitVec 8) {ts : List Nat} (ht : ∀ t ∈ ts, t < 8) :
    m &&& maskOf ts = maskOf ts ↔ ∀ t ∈ ts, m.getLsbD t = true := by
  constructor
  · intro h t hm
    have := congrArg (·.getLsbD t) h
    simpa [(getLsbD_maskOf ts (ht t hm)).mpr hm] using this
  · intro h
    refine BitVec.eq_of_getLsbD_eq fun j hj => ?_
    rw [BitVec.getLsbD_and]
    cases hm : (maskOf ts).getLsbD j
    · simp
    · simp [h j ((getLsbD_maskOf ts hj).mp hm)]

/-! ## Loops with a test -/

/-- A loop whose turns fail a test that does not depend on the state. -/
theorem foldlM_guard {α σ : Type} (p : α → Prop) [DecidablePred p] (f : σ → α → σ) (xs : List α)
    (s : σ) : xs.foldlM (fun s x => if p x then some (f s x) else none) s =
      if ∀ x ∈ xs, p x then some (xs.foldl f s) else none := by
  induction xs generalizing s with
  | nil => simp
  | cons x xs ih =>
    simp only [List.foldlM_cons, List.foldl_cons, List.forall_mem_cons]
    by_cases hx : p x
    · simp [hx, ih]
    · simp [hx]

/-! ## The frame's components -/

namespace VAPictureParameterBufferJPEGBaseline

/-- The components that the count covers. -/
def comps (pic : VAPictureParameterBufferJPEGBaseline) : List JPEGFrameComponent :=
  (List.range pic.numComponents.toNat).map pic.components

/-- The quantiser tables that the components select. -/
def quantSelectors (pic : VAPictureParameterBufferJPEGBaseline) : List Nat :=
  pic.comps.map (·.quantiserTableSelector.toNat)

/-- The component is one of the frame. -/
def HasComponent (pic : VAPictureParameterBufferJPEGBaseline) (id : UInt8) : Prop :=
  ∃ c ∈ pic.comps, c.componentId = id

instance (pic : VAPictureParameterBufferJPEGBaseline) (id : UInt8) :
    Decidable (pic.HasComponent id) :=
  inferInstanceAs (Decidable (∃ c ∈ pic.comps, c.componentId = id))

@[simp] theorem length_comps (pic : VAPictureParameterBufferJPEGBaseline) :
    pic.comps.length = pic.numComponents.toNat := by
  simp [comps]

end VAPictureParameterBufferJPEGBaseline

variable {pic : VAPictureParameterBufferJPEGBaseline} {sliceDataSize : UInt32}

/-- The frame's components are within the bound of their region. -/
theorem lt_readBounds (hn : pic.numComponents ≤ 4) {i : Nat}
    (hi : i ∈ List.range pic.numComponents.toNat) :
    i + 1 ≤ readBounds sliceDataSize .frameComponents :=
  Nat.le_trans (List.mem_range.mp hi) (UInt8.le_iff_toNat_le.mp hn)

theorem componentInFrame_reads (hn : pic.numComponents ≤ 4) (id : UInt8) :
    Reads (readBounds sliceDataSize) (componentInFrame pic id)
      (some (decide (pic.HasComponent id))) := by
  refine (Reads.anyM (g := fun i => (pic.components i).componentId == id) fun i hi =>
    Reads.touch_bind (lt_readBounds hn hi) (Reads.pure _)).of_eq ?_
  rw [Option.some_inj, Bool.eq_iff_iff]
  simp [VAPictureParameterBufferJPEGBaseline.HasComponent,
    VAPictureParameterBufferJPEGBaseline.comps]

/-- The quantiser tables in use, when every selector is in range. -/
theorem getUsedQuantTablesMask_reads (hn : pic.numComponents ≤ 4) :
    Reads (readBounds sliceDataSize) (getUsedQuantTablesMask pic)
      (if ∀ t ∈ pic.quantSelectors, t < 4 then some (maskOf pic.quantSelectors) else none) := by
  refine (Reads.foldlM (g := fun m i => if (pic.components i).quantiserTableSelector < 4
    then some (m ||| tableBit (pic.components i).quantiserTableSelector.toNat) else none) _
    fun m i hi => ?_).of_eq ?_
  · refine Reads.touch_bind (lt_readBounds hn hi) ?_
    refine Reads.require_bind (fun h => ?_) fun h => if_neg h
    rw [if_pos h]
    exact Reads.pure _
  · rw [foldlM_guard]
    simp [maskOf, VAPictureParameterBufferJPEGBaseline.quantSelectors,
      VAPictureParameterBufferJPEGBaseline.comps, List.foldl_map, UInt8.lt_iff_toNat_lt]

/-! ## The slices -/

namespace VASliceParameterBufferJPEGBaseline

/-- The components that the count covers. -/
def comps (slice : VASliceParameterBufferJPEGBaseline) : List JPEGScanComponent :=
  (List.range slice.numComponents.toNat).map slice.components

/-- The entropy-coded data of a slice. -/
def ecs (slice : VASliceParameterBufferJPEGBaseline) (sliceData : Nat → UInt8) : List UInt8 :=
  Bytes.read sliceData slice.sliceDataOffset.toNat slice.sliceDataSize.toNat

@[simp] theorem length_comps (slice : VASliceParameterBufferJPEGBaseline) :
    slice.comps.length = slice.numComponents.toNat := by
  simp [comps]

@[simp] theorem length_ecs (slice : VASliceParameterBufferJPEGBaseline) (d : Nat → UInt8) :
    (slice.ecs d).length = slice.sliceDataSize.toNat := by
  simp [ecs]

end VASliceParameterBufferJPEGBaseline

/-- A component of a scan is one of the frame and selects baseline tables. -/
def ScanComponentOk (pic : VAPictureParameterBufferJPEGBaseline) (c : JPEGScanComponent) : Prop :=
  pic.HasComponent c.componentSelector ∧ c.dcTableSelector ≤ 1 ∧ c.acTableSelector ≤ 1

/-- What the first loop asks of a slice. -/
structure SliceOk (pic : VAPictureParameterBufferJPEGBaseline) (sliceDataSize : UInt32)
    (slice : VASliceParameterBufferJPEGBaseline) : Prop where
  flag : slice.sliceDataFlag = sliceDataFlagAll
  count : slice.numComponents ≠ 0 ∧ slice.numComponents ≤ JPEG_MAX_COMPONENTS
  comps : ∀ c ∈ slice.comps, ScanComponentOk pic c
  offset : slice.sliceDataOffset ≤ sliceDataSize
  size : slice.sliceDataSize ≤ sliceDataSize - slice.sliceDataOffset

instance (pic : VAPictureParameterBufferJPEGBaseline) :
    DecidablePred (ScanComponentOk pic) := fun _ =>
  inferInstanceAs (Decidable (_ ∧ _ ∧ _))

instance (pic : VAPictureParameterBufferJPEGBaseline) (sliceDataSize : UInt32) :
    DecidablePred (SliceOk pic sliceDataSize) := fun slice =>
  decidable_of_iff
    (slice.sliceDataFlag = sliceDataFlagAll ∧
      (slice.numComponents ≠ 0 ∧ slice.numComponents ≤ JPEG_MAX_COMPONENTS) ∧
      (∀ c ∈ slice.comps, ScanComponentOk pic c) ∧ slice.sliceDataOffset ≤ sliceDataSize ∧
      slice.sliceDataSize ≤ sliceDataSize - slice.sliceDataOffset)
    ⟨fun ⟨h₁, h₂, h₃, h₄, h₅⟩ => ⟨h₁, h₂, h₃, h₄, h₅⟩,
      fun ⟨h₁, h₂, h₃, h₄, h₅⟩ => ⟨h₁, h₂, h₃, h₄, h₅⟩⟩

/-- The masks after the components of a slice. -/
def addMasks (masks : BitVec 8 × BitVec 8) (c : JPEGScanComponent) : BitVec 8 × BitVec 8 :=
  (masks.1 ||| tableBit c.dcTableSelector.toNat, masks.2 ||| tableBit c.acTableSelector.toNat)

theorem validateSlice_reads (hn : pic.numComponents ≤ 4)
    (slice : VASliceParameterBufferJPEGBaseline) (dc ac : BitVec 8) :
    Reads (readBounds sliceDataSize) (validateSliceAndCollectHuffmanUsage pic slice dc ac)
      (if slice.numComponents ≠ 0 ∧ slice.numComponents ≤ JPEG_MAX_COMPONENTS then
        if ∀ c ∈ slice.comps, ScanComponentOk pic c then
          some (slice.comps.foldl addMasks (dc, ac)) else none
      else none) := by
  refine Reads.require_bind (fun hc => ?_) fun hc => if_neg hc
  rw [if_pos hc]
  refine (Reads.foldlM (g := fun m i => if ScanComponentOk pic (slice.components i)
    then some (addMasks m (slice.components i)) else none) _ fun m i hi => ?_).of_eq ?_
  · have hi : i + 1 ≤ 4 := Nat.le_trans (List.mem_range.mp hi) (UInt8.le_iff_toNat_le.mp hc.2)
    refine Reads.touch_bind hi (Reads.bind_some (componentInFrame_reads hn _) ?_)
    refine Reads.require_bind (fun h₁ => ?_) fun h₁ => if_neg fun h => h₁ (decide_eq_true h.1)
    refine Reads.require_bind (fun h₂ => ?_) fun h₂ => if_neg fun h => h₂ h.2
    rw [if_pos ⟨of_decide_eq_true h₁, h₂⟩]
    exact Reads.pure _
  · rw [foldlM_guard]
    simp [VASliceParameterBufferJPEGBaseline.comps, List.foldl_map]

/-- The slice usage after one more slice. -/
def SliceUsage.add (u : SliceUsage) (slice : VASliceParameterBufferJPEGBaseline) : SliceUsage :=
  let masks := slice.comps.foldl addMasks (u.requiredDcMask, u.requiredAcMask)
  ⟨u.totalEcsSize + slice.sliceDataSize.toNat, masks.1, masks.2⟩

theorem checkSlice_reads (hn : pic.numComponents ≤ 4) (u : SliceUsage)
    (slice : VASliceParameterBufferJPEGBaseline) :
    Reads (readBounds sliceDataSize) (checkSlice pic sliceDataSize u slice)
      (if SliceOk pic sliceDataSize slice ∧
        slice.sliceDataSize.toNat ≤ 2 ^ 64 - 1 - u.totalEcsSize then some (u.add slice)
      else none) := by
  refine Reads.require_bind (fun h₁ => ?_) fun h₁ => if_neg fun h => h₁ h.1.flag
  by_cases h₂ : slice.numComponents ≠ 0 ∧ slice.numComponents ≤ JPEG_MAX_COMPONENTS
  · by_cases h₃ : ∀ c ∈ slice.comps, ScanComponentOk pic c
    · have hv : Reads (readBounds sliceDataSize) _ _ :=
        validateSlice_reads hn slice u.requiredDcMask u.requiredAcMask
      rw [if_pos h₂, if_pos h₃] at hv
      refine Reads.bind_some hv ?_
      refine Reads.require_bind (fun h₄ => ?_) fun h₄ => if_neg fun h => h₄ h.1.offset
      refine Reads.require_bind (fun h₅ => ?_) fun h₅ => if_neg fun h => h₅ h.1.size
      refine Reads.require_bind (fun h₆ => ?_) fun h₆ => if_neg fun h => h₆ h.2
      rw [if_pos ⟨⟨h₁, h₂, h₃, h₄, h₅⟩, h₆⟩]
      exact Reads.pure _
    · rw [if_neg fun h => h₃ h.1.comps]
      have hv : Reads (readBounds sliceDataSize) _ _ :=
        validateSlice_reads hn slice u.requiredDcMask u.requiredAcMask
      rw [if_pos h₂, if_neg h₃] at hv
      exact Does.bind_none hv
  · rw [if_neg fun h => h₂ h.1.count]
    have hv : Reads (readBounds sliceDataSize) _ _ :=
      validateSlice_reads hn slice u.requiredDcMask u.requiredAcMask
    rw [if_neg h₂] at hv
    exact Does.bind_none hv

/-- The overflow test on the total size never fires: fewer than 2^32 slices of less than 2^32
bytes each stay below 2^64. -/
theorem foldlM_checkSlice (sl : List VASliceParameterBufferJPEGBaseline) (u : SliceUsage)
    (hu : u.totalEcsSize + sl.length * (2 ^ 32 - 1) ≤ 2 ^ 64 - 1) :
    sl.foldlM (fun u slice =>
        if SliceOk pic sliceDataSize slice ∧
          slice.sliceDataSize.toNat ≤ 2 ^ 64 - 1 - u.totalEcsSize then some (u.add slice)
        else none) u =
      if ∀ slice ∈ sl, SliceOk pic sliceDataSize slice then some (sl.foldl SliceUsage.add u)
      else none := by
  induction sl generalizing u with
  | nil => simp
  | cons slice sl ih =>
    have hlt := slice.sliceDataSize.toNat_lt
    simp only [List.length_cons, Nat.add_mul] at hu
    have hsize : slice.sliceDataSize.toNat ≤ 2 ^ 64 - 1 - u.totalEcsSize := by omega
    have hadd : (u.add slice).totalEcsSize + sl.length * (2 ^ 32 - 1) ≤ 2 ^ 64 - 1 := by
      simp only [SliceUsage.add]
      omega
    simp only [List.foldlM_cons, List.foldl_cons, List.forall_mem_cons, hsize, and_true]
    by_cases hok : SliceOk pic sliceDataSize slice
    · simp only [hok, if_true, true_and, Option.bind_eq_bind, Option.bind_some]
      exact ih _ hadd
    · simp [hok]

/-! ## What the loop over the slices collects -/

/-- The total size of the slices' data. -/
def totalEcs (sl : List VASliceParameterBufferJPEGBaseline) : Nat :=
  (sl.map (·.sliceDataSize.toNat)).sum

/-- The DC tables that the slices select. -/
def dcSelectors (sl : List VASliceParameterBufferJPEGBaseline) : List Nat :=
  sl.flatMap fun slice => slice.comps.map (·.dcTableSelector.toNat)

/-- The AC tables that the slices select. -/
def acSelectors (sl : List VASliceParameterBufferJPEGBaseline) : List Nat :=
  sl.flatMap fun slice => slice.comps.map (·.acTableSelector.toNat)

/-- The usage of a list of slices. -/
def usageOf (sl : List VASliceParameterBufferJPEGBaseline) : SliceUsage :=
  ⟨totalEcs sl, maskOf (dcSelectors sl), maskOf (acSelectors sl)⟩

theorem foldl_addMasks (cs : List JPEGScanComponent) (dc ac : BitVec 8) :
    cs.foldl addMasks (dc, ac) =
      ((cs.map (·.dcTableSelector.toNat)).foldl (fun m t => m ||| tableBit t) dc,
        (cs.map (·.acTableSelector.toNat)).foldl (fun m t => m ||| tableBit t) ac) := by
  induction cs generalizing dc ac with
  | nil => rfl
  | cons c cs ih => exact ih _ _

theorem foldl_sliceUsage (sl : List VASliceParameterBufferJPEGBaseline) (n : Nat)
    (dc ac : BitVec 8) :
    sl.foldl SliceUsage.add ⟨n, dc, ac⟩ =
      ⟨n + totalEcs sl, (dcSelectors sl).foldl (fun m t => m ||| tableBit t) dc,
        (acSelectors sl).foldl (fun m t => m ||| tableBit t) ac⟩ := by
  induction sl generalizing n dc ac with
  | nil => rfl
  | cons slice sl ih =>
    rw [List.foldl_cons, SliceUsage.add, foldl_addMasks, ih]
    simp [totalEcs, dcSelectors, acSelectors, Nat.add_assoc]

theorem foldl_sliceUsage_zero (sl : List VASliceParameterBufferJPEGBaseline) :
    sl.foldl SliceUsage.add ⟨0, 0, 0⟩ = usageOf sl := by
  rw [foldl_sliceUsage, Nat.zero_add]
  rfl

/-! ## The whole input -/

/-- The slices that the count covers. -/
def sliceList (slices : Nat → VASliceParameterBufferJPEGBaseline) (sliceCount : UInt32) :
    List VASliceParameterBufferJPEGBaseline :=
  (List.range sliceCount.toNat).map slices

@[simp] theorem length_sliceList (slices : Nat → VASliceParameterBufferJPEGBaseline)
    (sliceCount : UInt32) : (sliceList slices sliceCount).length = sliceCount.toNat := by
  simp [sliceList]

/-- The first slice and the others. -/
theorem sliceList_eq_cons {slices : Nat → VASliceParameterBufferJPEGBaseline} {sliceCount : UInt32}
    (h : sliceList slices sliceCount ≠ []) :
    ∃ tl, sliceList slices sliceCount = slices 0 :: tl := by
  unfold sliceList at h ⊢
  cases hn : sliceCount.toNat with
  | zero => simp [hn] at h
  | succ n => exact ⟨_, by rw [List.range_succ_eq_map, List.map_cons]⟩

theorem mem_sliceList {slices : Nat → VASliceParameterBufferJPEGBaseline} {sliceCount : UInt32}
    (h : sliceList slices sliceCount ≠ []) : slices 0 ∈ sliceList slices sliceCount := by
  obtain ⟨tl, htl⟩ := sliceList_eq_cons h
  rw [htl]
  exact List.mem_cons_self ..

/-- What the checks in front of the allocation ask. -/
structure FrameOk (jpegCtx : JPEGContext) (sl : List VASliceParameterBufferJPEGBaseline)
    (sliceDataSize : UInt32) : Prop where
  loaded : jpegCtx.hasPicParams ∧ jpegCtx.hasIQMatrix
  dimensions : jpegCtx.picParams.pictureWidth ≠ 0 ∧ jpegCtx.picParams.pictureHeight ≠ 0
  count : jpegCtx.picParams.numComponents ≠ 0 ∧
    jpegCtx.picParams.numComponents ≤ JPEG_MAX_COMPONENTS
  selectors : ∀ t ∈ jpegCtx.picParams.quantSelectors, t < 4
  tables : ∀ t ∈ jpegCtx.picParams.quantSelectors, jpegCtx.validQuantTablesMask.getLsbD t = true
  slices : sl ≠ []
  slice : ∀ slice ∈ sl, SliceOk jpegCtx.picParams sliceDataSize slice

instance (jpegCtx : JPEGContext) (sl : List VASliceParameterBufferJPEGBaseline)
    (sliceDataSize : UInt32) : Decidable (FrameOk jpegCtx sl sliceDataSize) :=
  decidable_of_iff
    ((jpegCtx.hasPicParams ∧ jpegCtx.hasIQMatrix) ∧
      (jpegCtx.picParams.pictureWidth ≠ 0 ∧ jpegCtx.picParams.pictureHeight ≠ 0) ∧
      (jpegCtx.picParams.numComponents ≠ 0 ∧
        jpegCtx.picParams.numComponents ≤ JPEG_MAX_COMPONENTS) ∧
      (∀ t ∈ jpegCtx.picParams.quantSelectors, t < 4) ∧
      (∀ t ∈ jpegCtx.picParams.quantSelectors, jpegCtx.validQuantTablesMask.getLsbD t = true) ∧
      sl ≠ [] ∧ ∀ slice ∈ sl, SliceOk jpegCtx.picParams sliceDataSize slice)
    ⟨fun ⟨h₁, h₂, h₃, h₄, h₅, h₆, h₇⟩ => ⟨h₁, h₂, h₃, h₄, h₅, h₆, h₇⟩,
      fun ⟨h₁, h₂, h₃, h₄, h₅, h₆, h₇⟩ => ⟨h₁, h₂, h₃, h₄, h₅, h₆, h₇⟩⟩

/-- The checks accept exactly the inputs that are `FrameOk`. -/
theorem checkFrame_reads (jpegCtx : JPEGContext)
    (slices : Nat → VASliceParameterBufferJPEGBaseline) (sliceCount sliceDataSize : UInt32) :
    Reads (readBounds sliceDataSize) (checkFrame jpegCtx slices sliceCount sliceDataSize)
      (if FrameOk jpegCtx (sliceList slices sliceCount) sliceDataSize then
        some (usageOf (sliceList slices sliceCount)) else none) := by
  refine Reads.require_bind (fun h₁ => ?_) fun h₁ => if_neg fun h => h₁ h.loaded
  refine Reads.require_bind (fun h₂ => ?_) fun h₂ => if_neg fun h => h₂ h.dimensions
  refine Reads.require_bind (fun h₃ => ?_) fun h₃ => if_neg fun h => h₃ h.count
  have hq : Reads (readBounds sliceDataSize) _ _ := getUsedQuantTablesMask_reads h₃.2
  by_cases h₄ : ∀ t ∈ jpegCtx.picParams.quantSelectors, t < 4
  · rw [if_pos h₄] at hq
    refine Reads.bind_some hq ?_
    have hmask := and_maskOf_eq jpegCtx.validQuantTablesMask
      (fun t ht => Nat.lt_trans (h₄ t ht) (by decide : 4 < 8))
    refine Reads.require_bind (fun h₅ => ?_) fun h₅ => if_neg fun h => h₅ (hmask.mpr h.tables)
    have hne : sliceCount ≠ 0 ↔ sliceList slices sliceCount ≠ [] := by
      rw [ne_eq, ne_eq, ← UInt32.toNat_inj, ← List.length_eq_zero_iff, length_sliceList]
      rfl
    refine Reads.require_bind (fun h₆ => ?_) fun h₆ => if_neg fun h => h₆ (hne.mpr h.slices)
    refine (Reads.foldlM (g := fun u i => if SliceOk jpegCtx.picParams sliceDataSize (slices i) ∧
      (slices i).sliceDataSize.toNat ≤ 2 ^ 64 - 1 - u.totalEcsSize then some (u.add (slices i))
      else none) _ fun u i _ => checkSlice_reads h₃.2 u (slices i)).of_eq ?_
    have hlt := sliceCount.toNat_lt
    have hfold := @foldlM_checkSlice jpegCtx.picParams sliceDataSize
      (sliceList slices sliceCount) ⟨0, 0, 0⟩ (by simp only [length_sliceList]; omega)
    rw [foldl_sliceUsage_zero, sliceList, List.foldlM_map] at hfold
    rw [hfold, ← sliceList]
    by_cases h₇ : ∀ slice ∈ sliceList slices sliceCount,
        SliceOk jpegCtx.picParams sliceDataSize slice
    · rw [if_pos h₇, if_pos ⟨h₁, h₂, h₃, h₄, hmask.mp h₅, hne.mp h₆, h₇⟩]
    · rw [if_neg h₇, if_neg fun h => h₇ h.slice]
  · rw [if_neg h₄] at hq
    rw [if_neg fun h => h₄ h.selectors]
    exact Does.bind_none hq

/-! ## Grouping -/

theorem comps_eq_iff {s s0 : VASliceParameterBufferJPEGBaseline} :
    s.comps = s0.comps ↔ s.numComponents = s0.numComponents ∧
      ∀ i < s.numComponents.toNat, s.components i = s0.components i := by
  constructor
  · intro h
    have hn : s.numComponents = s0.numComponents := by
      rw [← UInt8.toNat_inj, ← s.length_comps, ← s0.length_comps, h]
    refine ⟨hn, fun i hi => ?_⟩
    have := congrArg (·[i]?) h
    simpa [VASliceParameterBufferJPEGBaseline.comps, ← hn, hi] using this
  · rintro ⟨hn, h⟩
    rw [VASliceParameterBufferJPEGBaseline.comps, VASliceParameterBufferJPEGBaseline.comps, ← hn]
    exact List.map_congr_left fun i hi => h i (List.mem_range.mp hi)

theorem sameSOSHeader_reads {s s0 : VASliceParameterBufferJPEGBaseline}
    (hs : s.numComponents ≤ JPEG_MAX_COMPONENTS) :
    Reads (readBounds sliceDataSize) (sameSOSHeader s s0)
      (some (decide (s.comps = s0.comps))) := by
  unfold sameSOSHeader
  by_cases hn : s.numComponents = s0.numComponents
  · rw [if_neg (not_not.mpr hn)]
    refine Reads.bind_some (Reads.anyM (g := fun c => s.components c != s0.components c)
      fun c hc => ?_) ((Reads.pure _).of_eq ?_)
    · have hc : c + 1 ≤ 4 := Nat.le_trans (List.mem_range.mp hc) (UInt8.le_iff_toNat_le.mp hs)
      exact Reads.touch_bind hc (Reads.pure _)
    · rw [Option.some_inj, Bool.eq_iff_iff]
      simp [comps_eq_iff, hn]
  · rw [if_pos hn]
    refine (Reads.pure _).of_eq ?_
    rw [Option.some_inj, eq_comm, decide_eq_false_iff_not]
    exact fun h => hn (comps_eq_iff.mp h).1

/-- All slices have the scan header of `s0`. -/
def AllSameSOS (s0 : VASliceParameterBufferJPEGBaseline)
    (sl : List VASliceParameterBufferJPEGBaseline) : Prop := ∀ s ∈ sl, s.comps = s0.comps

/-- All slices have the restart interval of `s0`. -/
def AllSameRestart (s0 : VASliceParameterBufferJPEGBaseline)
    (sl : List VASliceParameterBufferJPEGBaseline) : Prop :=
  ∀ s ∈ sl, s.restartInterval = s0.restartInterval

instance (s0 : VASliceParameterBufferJPEGBaseline) (sl : List VASliceParameterBufferJPEGBaseline) :
    Decidable (AllSameSOS s0 sl) :=
  inferInstanceAs (Decidable (∀ s ∈ sl, s.comps = s0.comps))

instance (s0 : VASliceParameterBufferJPEGBaseline) (sl : List VASliceParameterBufferJPEGBaseline) :
    Decidable (AllSameRestart s0 sl) :=
  inferInstanceAs (Decidable (∀ s ∈ sl, s.restartInterval = s0.restartInterval))

/-- The loop that groups slices, over any list. -/
theorem foldlM_group (s0 : VASliceParameterBufferJPEGBaseline) (sl : List Nat)
    (slices : Nat → VASliceParameterBufferJPEGBaseline) (a b : Bool) :
    sl.foldlM (fun same i => some (same.1 && decide ((slices i).comps = s0.comps),
        if (slices i).restartInterval ≠ s0.restartInterval then false else same.2)) (a, b) =
      some (a && decide (AllSameSOS s0 (sl.map slices)),
        b && decide (AllSameRestart s0 (sl.map slices))) := by
  induction sl generalizing a b with
  | nil => simp [AllSameSOS, AllSameRestart]
  | cons i sl ih =>
    rw [List.foldlM_cons, Option.bind_eq_bind, Option.bind_some, ih]
    simp only [AllSameSOS, AllSameRestart, List.map_cons, List.forall_mem_cons, Bool.and_assoc,
      Bool.decide_and]
    by_cases h : (slices i).restartInterval = s0.restartInterval <;> simp [h]

/-- The slices after the first, and the first, are all slices. -/
theorem forall_sliceList_iff {slices : Nat → VASliceParameterBufferJPEGBaseline} {n : Nat}
    {p : VASliceParameterBufferJPEGBaseline → Prop} (h0 : p (slices 0)) :
    (∀ s ∈ (List.range' 1 (n - 1)).map slices, p s) ↔ ∀ s ∈ (List.range n).map slices, p s := by
  simp only [List.forall_mem_map, List.mem_range'_1, List.mem_range]
  constructor
  · intro h i hi
    rcases Nat.eq_zero_or_pos i with rfl | hp
    · exact h0
    · exact h i ⟨hp, by omega⟩
  · intro h i hi
    exact h i (by omega)

theorem groupSlices_reads (slices : Nat → VASliceParameterBufferJPEGBaseline)
    (sliceCount : UInt32)
    (hs : ∀ s ∈ sliceList slices sliceCount, s.numComponents ≤ JPEG_MAX_COMPONENTS) :
    Reads (readBounds sliceDataSize) (groupSlices slices sliceCount.toNat)
      (some (decide (AllSameSOS (slices 0) (sliceList slices sliceCount)),
        decide (AllSameRestart (slices 0) (sliceList slices sliceCount)))) := by
  refine (Reads.foldlM (g := fun same i => some (same.1 && decide ((slices i).comps =
    (slices 0).comps), if (slices i).restartInterval ≠ (slices 0).restartInterval then false
    else same.2)) _ fun same i hi => ?_).of_eq ?_
  · have hi : i < sliceCount.toNat := by
      have := List.mem_range'_1.mp hi
      omega
    exact Reads.bind_some (sameSOSHeader_reads
      (hs _ (List.mem_map_of_mem (List.mem_range.mpr hi)))) (Reads.pure _)
  · rw [foldlM_group, Bool.true_and, Bool.true_and]
    exact congrArg some (Prod.ext (decide_eq_decide.mpr (forall_sliceList_iff rfl))
      (decide_eq_decide.mpr (forall_sliceList_iff rfl)))

end NvVaapi
