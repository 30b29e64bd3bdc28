import NvVaapi.Codec.AV1Params
import NvVaapi.Codec.HevcReferenceSets
import NvVaapi.Codec.HevcTiles

/-!
# Where the picture parameters index arrays

* `Hevc.TilesFit`, `Hevc.SetsFit`, `AV1.TilesFit`: what has to hold of the client's buffer.
* `Hevc.inRange_iff`, `AV1.inRange_iff`: the handlers stay inside the arrays exactly then.
-/

namespace NvVaapi

open References

/-! ## HEVC -/

namespace Hevc

/-- The tiles are as many as the client's arrays hold, and the loop over the columns finds two that
differ before it gets to the last one. -/
def TilesFit (buf : VAPictureParameterBufferHEVC) : Prop :=
  buf.numTileColumnsMinus1.toNat < 19 ∧ buf.numTileRowsMinus1.toNat < 21 ∧
    (buf.tilesEnabledFlag = true →
      ∃ i < 18, buf.columnWidthMinus1 i ≠ buf.columnWidthMinus1 (i + 1))

/-- No set gets more than eight entries. -/
def SetsFit (buf : VAPictureParameterBufferHEVC) : Prop :=
  ((List.range 16).countP fun i => InBefore (buf.pic i)) ≤ 8 ∧
    ((List.range 16).countP fun i => InAfter (buf.pic i)) ≤ 8 ∧
    ((List.range 16).countP fun i => InLongTerm (buf.pic i)) ≤ 8

instance {buf : VAPictureParameterBufferHEVC} : Decidable (TilesFit buf) :=
  inferInstanceAs (Decidable (_ ∧ _ ∧ (_ → ∃ i < 18, _)))

instance {buf : VAPictureParameterBufferHEVC} : Decidable (SetsFit buf) :=
  inferInstanceAs (Decidable (_ ∧ _ ∧ _))

section Ranges

variable {drv : Surfaces} {buf : VAPictureParameterBufferHEVC} {ppc : CUVIDHEVCPICPARAMS}

/-- The rows are looked at only after the columns, behind whose end the loop then has read. -/
theorem uniformSpacing_inRange_iff : (uniformSpacing buf).InRange HevcArray.size ↔
    (buf.tilesEnabledFlag = true →
      ∃ i < 18, buf.columnWidthMinus1 i ≠ buf.columnWidthMinus1 (i + 1)) := by
  unfold uniformSpacing
  by_cases hen : buf.tilesEnabledFlag = true
  · rw [if_pos hen, Indexed.inRange_bind_iff, equalNeighbours_inRange_iff 19 0 rfl]
    constructor
    · rintro ⟨h0 | ⟨j, hj, hne⟩, -⟩ -
      · cases h0
      · exact ⟨j, by omega, by rwa [Nat.zero_add] at hne⟩
    · intro h
      obtain ⟨j, hj, hne⟩ := h hen
      have hne' : buf.columnWidthMinus1 (0 + j) ≠ buf.columnWidthMinus1 (0 + j + 1) := by
        rwa [Nat.zero_add]
      refine ⟨.inr ⟨j, by omega, hne'⟩, ?_⟩
      have hval : ¬(equalNeighbours .vaColumnWidthMinus1 buf.columnWidthMinus1 19 0).val = true :=
        fun h => hne' ((equalNeighbours_val 19 0).mp h j (by omega))
      rw [if_neg hval]
      exact Indexed.inRange_pure _
  · rw [if_neg hen]
    exact ⟨fun _ h => absurd h hen, fun _ => Indexed.inRange_pure _⟩

theorem copyTileSizes_inRange_iff {src dst : HevcArray} {last : UInt8} {xs ys : Nat → UInt16} :
    (copyTileSizes src dst last xs ys).InRange HevcArray.size ↔
      last.toNat < src.size ∧ last.toNat < dst.size := by
  rw [copyTileSizes, Indexed.inRange_foldlM_iff (fun i => i < src.size ∧ i < dst.size) (by simp)]
  constructor
  · exact fun h => h last.toNat (List.mem_range.mpr (by omega))
  · intro ⟨h₁, h₂⟩ i hi
    have := List.mem_range.mp hi
    omega

/-- A picture is added inside the arrays when its set has room. -/
theorem addPicture_inRange_iff {i : Nat} : (addPicture drv buf ppc i).InRange HevcArray.size ↔
    (InBefore (buf.pic i) → ppc.numPocStCurrBefore < 8) ∧
      (InAfter (buf.pic i) → ppc.numPocStCurrAfter < 8) ∧
      (InLongTerm (buf.pic i) → ppc.numPocLtCurr < 8) := by
  by_cases hb : (buf.pic i).flags &&& vaPictureHEVCRpsStCurrBefore = 0
  · by_cases ha : (buf.pic i).flags &&& vaPictureHEVCRpsStCurrAfter = 0
    · by_cases hl : (buf.pic i).flags &&& vaPictureHEVCRpsLtCurr = 0
      · simp [addPicture, InBefore, InAfter, InLongTerm, hb, ha, hl]
      · simp [addPicture, InBefore, InAfter, InLongTerm, hb, ha, hl, HevcArray.size]
    · simp [addPicture, InBefore, InAfter, InLongTerm, hb, ha, HevcArray.size]
  · simp [addPicture, InBefore, InAfter, InLongTerm, hb, HevcArray.size]

/-- A counter of `x` entries that gets one more under `p` and `n` more after it. -/
theorem room_iff {x n : Nat} {p : Prop} [Decidable p] :
    (p → x < 8) ∧ (x + if p then 1 else 0) + n ≤ 8 ↔ x + (n + if p then 1 else 0) ≤ 8 := by
  by_cases hp : p
  · simp only [hp, if_true, true_implies]
    omega
  · simp [hp]

theorem room_succ {x : Nat} {p : Prop} [Decidable p] (h : x ≤ 8) (hp : p → x < 8) :
    (x + if p then 1 else 0) ≤ 8 := by
  split
  case isTrue h' => exact hp h'
  case isFalse => exact h

theorem addPictures_inRange_iff (is : List Nat)
    (h : ppc.numPocStCurrBefore ≤ 8 ∧ ppc.numPocStCurrAfter ≤ 8 ∧
    ppc.numPocLtCurr ≤ 8) : (is.foldlM (addPicture drv buf) ppc).InRange HevcArray.size ↔
      (ppc.numPocStCurrBefore + is.countP fun i => InBefore (buf.pic i)) ≤ 8 ∧
      (ppc.numPocStCurrAfter + is.countP fun i => InAfter (buf.pic i)) ≤ 8 ∧
      (ppc.numPocLtCurr + is.countP fun i => InLongTerm (buf.pic i)) ≤ 8 := by
  induction is generalizing ppc with
  | nil => simpa using h
  | cons i is ih =>
    obtain ⟨-, hb, ha, hl⟩ := @addPicture_counts drv buf ppc i
    simp only [List.countP_cons, decide_eq_true_eq, ← room_iff, ← hb, ← ha, ← hl]
    rw [List.foldlM_cons, Indexed.inRange_bind_iff, addPicture_inRange_iff]
    constructor
    · rintro ⟨⟨hb', ha', hl'⟩, hrest⟩
      rw [ih] at hrest
      · exact ⟨⟨hb', hrest.1⟩, ⟨ha', hrest.2.1⟩, hl', hrest.2.2⟩
      · rw [hb, ha, hl]
        exact ⟨room_succ h.1 hb', room_succ h.2.1 ha', room_succ h.2.2 hl'⟩
    · rintro ⟨⟨hb', hbr⟩, ⟨ha', har⟩, hl', hlr⟩
      exact ⟨⟨hb', ha', hl'⟩, (ih ⟨by omega, by omega, by omega⟩).mpr ⟨hbr, har, hlr⟩⟩

theorem qsort_inRange_iff {a : HevcArray} {before : UInt8 → UInt8 → Bool} {n : Nat}
    {xs : Nat → UInt8} : (qsort a before n xs).InRange HevcArray.size ↔ n ≤ a.size := by
  rw [qsort, Indexed.inRange_bind_iff, Indexed.inRange_forM_iff,
    and_iff_left (Indexed.inRange_pure _)]
  simp only [Indexed.inRange_access_iff, List.mem_range]
  constructor
  · intro h
    by_contra hlt
    exact absurd (h a.size (by omega)) (Nat.lt_irrefl _)
  · exact fun h i hi => Nat.lt_of_lt_of_le hi h

theorem inRange_iff (drv : Surfaces) (buf : VAPictureParameterBufferHEVC)
    (ppc : CUVIDHEVCPICPARAMS) :
    (copyHEVCPicParam drv buf ppc).InRange HevcArray.size ↔ TilesFit buf ∧ SetsFit buf := by
  simp only [copyHEVCPicParam, Indexed.inRange_bind_iff, uniformSpacing_inRange_iff,
    copyTileSizes_inRange_iff, qsort_inRange_iff, Indexed.inRange_pure, and_true]
  rw [addPictures_inRange_iff _ ⟨Nat.zero_le 8, Nat.zero_le 8, Nat.zero_le 8⟩,
    (addPictures_counts ⟨rfl, rfl, rfl, rfl⟩).before,
      (addPictures_counts ⟨rfl, rfl, rfl, rfl⟩).after]
  simp only [HevcArray.size, Nat.zero_add]
  constructor
  · rintro ⟨htiles, ⟨hcolumns, -⟩, ⟨hrows, -⟩, hsets, -, -⟩
    exact ⟨⟨hcolumns, hrows, htiles⟩, hsets⟩
  · rintro ⟨⟨hcolumns, hrows, htiles⟩, hsets⟩
    exact ⟨htiles, ⟨hcolumns, by omega⟩, ⟨hrows, hrows⟩, hsets, hsets.1, hsets.2.1⟩

end Ranges

end Hevc

/-! ## AV1 -/

namespace AV1

/-- The tiles are as many as the client's arrays hold. -/
def TilesFit (buf : VADecPictureParameterBufferAV1) : Prop :=
  buf.tileCols.toNat ≤ 63 ∧ buf.tileRows.toNat ≤ 63

theorem copyTileSizes_inRange_iff {src dst : TileArray} {n : UInt8}
    {sbsMinus1 sizes : Nat → UInt16} :
    (copyTileSizes src dst n sbsMinus1 sizes).InRange TileArray.size ↔
      n.toNat ≤ src.size ∧ n.toNat ≤ dst.size := by
  rw [copyTileSizes, Indexed.inRange_foldlM_iff (fun i => i < src.size ∧ i < dst.size) (by simp)]
  constructor
  · intro h
    by_contra hlt
    have := h (min src.size dst.size) (List.mem_range.mpr (by omega))
    omega
  · intro ⟨h₁, h₂⟩ i hi
    have := List.mem_range.mp hi
    omega

theorem inRange_iff (drv : Surfaces) (renderTarget : VASurfaceID) (stack : Nat → Int32)
    (buf : VADecPictureParameterBufferAV1) (pps : CUVIDAV1PICPARAMS) :
    (copyAV1PicParam drv renderTarget stack buf pps).InRange TileArray.size ↔ TilesFit buf := by
  simp only [copyAV1PicParam, Indexed.inRange_bind_iff, copyTileSizes_inRange_iff,
    Indexed.inRange_pure, and_true,
    apply_ite CUVIDAV1PICPARAMS.numTileCols, apply_ite CUVIDAV1PICPARAMS.numTileRows,
      setSkipMode_numTileCols,
    setSkipMode_numTileRows, ite_self, TileArray.size]
  constructor
  · rintro ⟨⟨hcols, -⟩, hrows, -⟩
    exact ⟨hcols, hrows⟩
  · rintro ⟨hcols, hrows⟩
    exact ⟨⟨hcols, Nat.le_succ_of_le hcols⟩, hrows, Nat.le_succ_of_le hrows⟩

end AV1

/-! ## Both -/

/-- The handlers for the picture parameters of HEVC and of AV1 index their arrays inside exactly
when the client's tiles and reference sets fit. -/
theorem params_inRange_iff (drv : Surfaces) (hevc : Hevc.VAPictureParameterBufferHEVC)
    (ppc : Hevc.CUVIDHEVCPICPARAMS) (renderTarget : VASurfaceID) (stack : Nat → Int32)
    (av1 : AV1.VADecPictureParameterBufferAV1) (pps : AV1.CUVIDAV1PICPARAMS) :
    (Hevc.copyHEVCPicParam drv hevc ppc).InRange Hevc.HevcArray.size ∧
        (AV1.copyAV1PicParam drv renderTarget stack av1 pps).InRange AV1.TileArray.size ↔
      (Hevc.TilesFit hevc ∧ Hevc.SetsFit hevc) ∧ AV1.TilesFit av1 :=
  and_congr (Hevc.inRange_iff drv hevc ppc) (AV1.inRange_iff drv renderTarget stack av1 pps)

/-- With tiles that are all equally wide the loop over the columns reads behind the client's
array. -/
theorem params_out_of_range : ¬∀ drv hevc ppc renderTarget stack av1 pps,
    (Hevc.copyHEVCPicParam drv hevc ppc).InRange Hevc.HevcArray.size ∧
      (AV1.copyAV1PicParam drv renderTarget stack av1 pps).InRange AV1.TileArray.size := by
  intro h
  let equalColumns : Hevc.VAPictureParameterBufferHEVC :=
    { Hevc.twoColumns with columnWidthMinus1 := fun _ => 7 }
  have h := (h (fun _ => none) equalColumns .zero 0 (fun _ => 0) AV1.swappedReferences .zero).1
  rw [Hevc.inRange_iff] at h
  exact absurd h (by decide)

end NvVaapi
