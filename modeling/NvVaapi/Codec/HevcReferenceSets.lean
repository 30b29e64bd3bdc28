import NvVaapi.Codec.HevcParams

/-!
# The reference picture sets of HEVC

* `InBefore`, `InAfter`, `InLongTerm`: the set that an entry's flags put it in, at most one of the
  three.
* `addPicture_counts`: what the loop counts for an entry.
* `numPocTotalCurr_eq`: the total is that of the references with a picture index, so that it exceeds
  the sizes of the sets by the references that are kept for later pictures.
-/

namespace NvVaapi.Hevc

open References

/-- The entry goes to `RefPicSetStCurrBefore`. -/
def InBefore (pic : VAPictureHEVC) : Prop := pic.flags &&& vaPictureHEVCRpsStCurrBefore ≠ 0

def InAfter (pic : VAPictureHEVC) : Prop :=
  ¬InBefore pic ∧ pic.flags &&& vaPictureHEVCRpsStCurrAfter ≠ 0

def InLongTerm (pic : VAPictureHEVC) : Prop :=
  ¬InBefore pic ∧ pic.flags &&& vaPictureHEVCRpsStCurrAfter = 0 ∧
    pic.flags &&& vaPictureHEVCRpsLtCurr ≠ 0

/-- The entry carries one of the three flags for the current picture. -/
def CarriesCurr (pic : VAPictureHEVC) : Prop :=
  pic.flags &&& vaPictureHEVCRpsStCurrBefore ≠ 0 ∨ pic.flags &&& vaPictureHEVCRpsStCurrAfter ≠ 0 ∨
    pic.flags &&& vaPictureHEVCRpsLtCurr ≠ 0

/-- The entry refers to a live surface with a picture index. -/
def HasIndex (drv : Surfaces) (pic : VAPictureHEVC) : Prop :=
  pictureIdxFromSurfaceId drv pic.pictureId ≠ -1

instance : DecidablePred InBefore := fun _ => inferInstanceAs (Decidable (_ ≠ _))

instance : DecidablePred InAfter := fun _ => inferInstanceAs (Decidable (_ ∧ _))

instance : DecidablePred InLongTerm := fun _ => inferInstanceAs (Decidable (_ ∧ _))

instance : DecidablePred CarriesCurr := fun _ => inferInstanceAs (Decidable (_ ∨ _))

instance {drv : Surfaces} : DecidablePred (HasIndex drv) :=
  fun _ => inferInstanceAs (Decidable (_ ≠ _))

section Counts

variable {drv : Surfaces} {buf : VAPictureParameterBufferHEVC} {ppc : CUVIDHEVCPICPARAMS}

/-- What the loop counts for the entry `i`. -/
structure Counts (drv : Surfaces) (buf : VAPictureParameterBufferHEVC) (i : Nat)
    (ppc ppc' : CUVIDHEVCPICPARAMS) : Prop where
  total : ppc'.numPocTotalCurr = ppc.numPocTotalCurr +
    if i ≠ 0 ∧ HasIndex drv (buf.pic i) then 1 else 0
  before : ppc'.numPocStCurrBefore = ppc.numPocStCurrBefore + if InBefore (buf.pic i) then 1 else 0
  after : ppc'.numPocStCurrAfter = ppc.numPocStCurrAfter + if InAfter (buf.pic i) then 1 else 0
  longTerm : ppc'.numPocLtCurr = ppc.numPocLtCurr + if InLongTerm (buf.pic i) then 1 else 0

theorem addPicture_counts (i : Nat) : Counts drv buf i ppc (addPicture drv buf ppc i).val := by
  have htotal :
      (if i ≠ 0 ∧ pictureIdxFromSurfaceId drv (buf.pic i).pictureId ≠
        -1 then ppc.numPocTotalCurr + 1
      else ppc.numPocTotalCurr) = ppc.numPocTotalCurr +
        if i ≠ 0 ∧ HasIndex drv (buf.pic i) then 1 else 0 := by
    unfold HasIndex
    split <;> rfl
  by_cases hb : (buf.pic i).flags &&& vaPictureHEVCRpsStCurrBefore = 0
  · by_cases ha : (buf.pic i).flags &&& vaPictureHEVCRpsStCurrAfter = 0
    · by_cases hl : (buf.pic i).flags &&& vaPictureHEVCRpsLtCurr = 0
      · constructor <;> simp [addPicture, htotal, InBefore, InAfter, InLongTerm, hb, ha, hl]
      · constructor <;> simp [addPicture, htotal, InBefore, InAfter, InLongTerm, hb, ha, hl]
    · constructor <;> simp [addPicture, htotal, InBefore, InAfter, InLongTerm, hb, ha]
  · constructor <;> simp [addPicture, htotal, InBefore, InAfter, InLongTerm, hb]

/-- The counters that the handler leaves. -/
structure FinalCounts (drv : Surfaces) (buf : VAPictureParameterBufferHEVC)
    (ppc : CUVIDHEVCPICPARAMS) : Prop where
  total : ppc.numPocTotalCurr = (List.range 16).countP fun i => i ≠ 0 ∧ HasIndex drv (buf.pic i)
  before : ppc.numPocStCurrBefore = (List.range 16).countP fun i => InBefore (buf.pic i)
  after : ppc.numPocStCurrAfter = (List.range 16).countP fun i => InAfter (buf.pic i)
  longTerm : ppc.numPocLtCurr = (List.range 16).countP fun i => InLongTerm (buf.pic i)

/-- The loop over the entries, from counters that are zero. -/
theorem addPictures_counts
    (h : ppc.numPocTotalCurr = 0 ∧ ppc.numPocStCurrBefore = 0 ∧ ppc.numPocStCurrAfter = 0 ∧
    ppc.numPocLtCurr = 0) : FinalCounts drv buf ((List.range 16).foldlM
    (addPicture drv buf) ppc).val := by
  obtain ⟨ht, hb, ha, hl⟩ := h
  rw [Indexed.val_foldlM]
  constructor
  · rw [Indexed.foldl_counter (fun s i => (@addPicture_counts drv buf s i).total), ht, Nat.zero_add]
  · rw [Indexed.foldl_counter (fun s i => (@addPicture_counts drv buf s i).before),
      hb, Nat.zero_add]
  · rw [Indexed.foldl_counter (fun s i => (@addPicture_counts drv buf s i).after), ha, Nat.zero_add]
  · rw [Indexed.foldl_counter (fun s i => (@addPicture_counts drv buf s i).longTerm),
      hl, Nat.zero_add]

theorem copyHEVCPicParam_counts : FinalCounts drv buf (copyHEVCPicParam drv buf ppc).val := by
  obtain ⟨ht, hb, ha, hl⟩ := @addPictures_counts drv buf { ppc with
    tilesEnabledFlag := buf.tilesEnabledFlag
    uniformSpacingFlag := (uniformSpacing buf).val
    numTileColumnsMinus1 := buf.numTileColumnsMinus1
    numTileRowsMinus1 := buf.numTileRowsMinus1
    numPocTotalCurr := 0
    numPocStCurrBefore := 0
    numPocStCurrAfter := 0
    numPocLtCurr := 0
    currPicOrderCntVal := (buf.pic 0).picOrderCnt
    columnWidthMinus1 :=
      (copyTileSizes .vaColumnWidthMinus1 .columnWidthMinus1 buf.numTileColumnsMinus1
      buf.columnWidthMinus1 ppc.columnWidthMinus1).val
    rowHeightMinus1 := (copyTileSizes .vaRowHeightMinus1 .rowHeightMinus1 buf.numTileRowsMinus1
      buf.rowHeightMinus1 ppc.rowHeightMinus1).val } ⟨rfl, rfl, rfl, rfl⟩
  exact ⟨ht, hb, ha, hl⟩

/-! ## The total -/

/-- An entry is in one set at most, and in one when it carries a flag. -/
theorem sets_carriesCurr (pic : VAPictureHEVC) :
    (if InBefore pic then 1 else 0) + (if InAfter pic then 1
      else 0) + (if InLongTerm pic then 1 else 0) =
      if CarriesCurr pic then 1 else 0 := by
  by_cases hb : pic.flags &&& vaPictureHEVCRpsStCurrBefore = 0
  · by_cases ha : pic.flags &&& vaPictureHEVCRpsStCurrAfter = 0
    · simp [InBefore, InAfter, InLongTerm, CarriesCurr, hb, ha]
    · simp [InBefore, InAfter, InLongTerm, CarriesCurr, hb, ha]
  · simp [InBefore, InAfter, InLongTerm, CarriesCurr, hb]

theorem countP_sets (is : List Nat) :
    (is.countP fun i => InBefore (buf.pic i)) + (is.countP fun i => InAfter (buf.pic i)) +
      (is.countP fun i => InLongTerm (buf.pic i)) = is.countP fun i => CarriesCurr (buf.pic i) := by
  induction is with
  | nil => rfl
  | cons i is ih =>
    have h := sets_carriesCurr (buf.pic i)
    simp only [List.countP_cons, decide_eq_true_eq]
    omega

/-- A reference with a picture index that no set of this picture holds. -/
def Kept (drv : Surfaces) (buf : VAPictureParameterBufferHEVC) (i : Nat) : Prop :=
  i ≠ 0 ∧ HasIndex drv (buf.pic i) ∧ ¬CarriesCurr (buf.pic i)

instance : DecidablePred (Kept drv buf) := fun _ => inferInstanceAs (Decidable (_ ∧ _))

theorem kept_indicator {i : Nat} (h : i ≠ 0 → CarriesCurr (buf.pic i) → HasIndex drv (buf.pic i)) :
    (if i ≠ 0 ∧ HasIndex drv (buf.pic i) then 1 else 0) + (if i = 0 ∧
      CarriesCurr (buf.pic i) then 1 else 0) =
      (if CarriesCurr (buf.pic i) then 1 else 0) + if Kept drv buf i then 1 else 0 := by
  unfold Kept
  by_cases h0 : i = 0
  · simp [h0]
  · by_cases hc : CarriesCurr (buf.pic i)
    · have hi := h h0 hc
      simp [h0, hc, hi]
    · simp [h0, hc]

theorem countP_references {is : List Nat}
    (h : ∀ i ∈ is, i ≠ 0 → CarriesCurr (buf.pic i) → HasIndex drv (buf.pic i)) :
    (is.countP fun i => i ≠ 0 ∧ HasIndex drv (buf.pic i)) + (is.countP fun i =>
      i = 0 ∧ CarriesCurr (buf.pic i)) =
      (is.countP fun i => CarriesCurr (buf.pic i)) + is.countP (Kept drv buf) := by
  induction is with
  | nil => rfl
  | cons i is ih =>
    rw [List.forall_mem_cons] at h
    have hi := kept_indicator h.1
    have ih := ih h.2
    simp only [List.countP_cons, decide_eq_true_eq]
    omega

end Counts

/-- Where the entries with a flag have a picture index, the total is the sum of the three sizes, and
one for each reference with an index and without a flag, less one if the current picture itself
carries a flag. -/
theorem numPocTotalCurr_eq (drv : Surfaces) (buf : VAPictureParameterBufferHEVC)
    (ppc : CUVIDHEVCPICPARAMS)
    (hrefs : ∀ i < 16, i ≠ 0 → CarriesCurr (buf.pic i) → HasIndex drv (buf.pic i)) :
    let ppc' := (copyHEVCPicParam drv buf ppc).val
    ppc'.numPocTotalCurr + (if CarriesCurr (buf.pic 0) then 1 else 0) =
      ppc'.numPocStCurrBefore + ppc'.numPocStCurrAfter + ppc'.numPocLtCurr +
        (List.range 16).countP (Kept drv buf) := by
  obtain ⟨ht, hb, ha, hl⟩ := @copyHEVCPicParam_counts drv buf ppc
  have hcurr : ((List.range 16).countP fun i => i = 0 ∧ CarriesCurr (buf.pic i)) =
      if CarriesCurr (buf.pic 0) then 1 else 0 := by
    rw [List.range_succ_eq_map, List.countP_cons, List.countP_map]
    simp [Function.comp_def]
  have hall := @countP_references drv buf (List.range 16) fun i hi => hrefs i (List.mem_range.mp hi)
  dsimp only
  rw [ht, hb, ha, hl, countP_sets, ← hcurr, hall]

/-! ## References kept for later pictures -/

/-- A surface with a picture index behind every id. -/
def oneSurface : Surfaces := fun _ => some ⟨64, 64, 1, 0⟩

/-- A picture whose first `n` references are in the short-term set before it, and whose others are
kept. -/
def keptReferences (n : Nat) : VAPictureParameterBufferHEVC where
  pic := fun i => ⟨1, 0, if 0 < i ∧ i ≤ n then vaPictureHEVCRpsStCurrBefore else 0⟩
  tilesEnabledFlag := false
  numTileColumnsMinus1 := 0
  numTileRowsMinus1 := 0
  columnWidthMinus1 := fun _ => 0
  rowHeightMinus1 := fun _ => 0

theorem numPocTotalCurr_eq_kept :
    let ppc' := (copyHEVCPicParam oneSurface (keptReferences 3) .zero).val
    ppc'.numPocTotalCurr = ppc'.numPocStCurrBefore + ppc'.numPocStCurrAfter +
      ppc'.numPocLtCurr + 12 :=
  numPocTotalCurr_eq oneSurface (keptReferences 3) .zero fun _ _ _ _ =>
    show (1 : Int) ≠ -1 by decide

/-- References that no set holds are counted in the total. -/
theorem numPocTotalCurr_ne : ¬∀ drv buf ppc, (∀ i < 16, i ≠ 0 → HasIndex drv (buf.pic i)) →
    let ppc' := (copyHEVCPicParam drv buf ppc).val
    ppc'.numPocTotalCurr = ppc'.numPocStCurrBefore + ppc'.numPocStCurrAfter +
      ppc'.numPocLtCurr := by
  intro h
  have h := h oneSurface (keptReferences 3) .zero fun _ _ _ => show (1 : Int) ≠ -1 by decide
  obtain ⟨ht, hb, ha, hl⟩ := @copyHEVCPicParam_counts oneSurface (keptReferences 3) .zero
  dsimp only at h
  rw [ht, hb, ha, hl] at h
  revert h
  decide

end NvVaapi.Hevc
