import NvVaapi.Codec.HevcParams

/-!
# The tiles of HEVC

* `equalNeighbours_val`, `equalNeighbours_inRange_iff`: what the loops over neighbours find, and
  where they stay in their array.
* `UsedEqual`, `WholeEqual`: the sizes of the tiles are equal, and so is all that the code looks at.
* `uniformSpacing_iff`: the flag is right exactly when one of these says as much as the other.
-/

namespace NvVaapi.Hevc

/-! ## The loops over neighbours -/

section Neighbours

variable {a : HevcArray} {xs : Nat → UInt16}

theorem equalNeighbours_succ_val (n i : Nat) : (equalNeighbours a xs (n + 1) i).val =
    if xs i = xs (i + 1) then (equalNeighbours a xs n (i + 1)).val else false := by
  show (if xs i ≠ xs (i + 1) then pure false
      else equalNeighbours a xs n (i + 1) : Indexed HevcArray Bool).val = _
  by_cases h : xs i = xs (i + 1)
  · rw [if_pos h, if_neg (not_not.mpr h)]
  · rw [if_neg h, if_pos h]
    rfl

theorem equalNeighbours_val (n i : Nat) :
    (equalNeighbours a xs n i).val = true ↔ ∀ j < n, xs (i + j) = xs (i + j + 1) := by
  induction n generalizing i with
  | zero => simp [equalNeighbours]
  | succ n ih =>
    rw [equalNeighbours_succ_val]
    by_cases hne : xs i = xs (i + 1)
    · rw [if_pos hne, ih]
      constructor
      · intro h j hj
        cases j with
        | zero => exact hne
        | succ j =>
          have := h j (by omega)
          rwa [Nat.add_right_comm i 1 j] at this
      · intro h j hj
        rw [Nat.add_right_comm i 1 j]
        exact h (j + 1) (by omega)
    · rw [if_neg hne]
      constructor
      · exact fun h => absurd h Bool.false_ne_true
      · exact fun h => absurd (h 0 (by omega)) hne

/-- A loop over `n` indices up to the end of the array reads behind it, unless two elements
differ. -/
theorem equalNeighbours_inRange_iff (n i : Nat) (h : i + n = a.size) :
    (equalNeighbours a xs n i).InRange HevcArray.size ↔
      n = 0 ∨ ∃ j, j + 1 < n ∧ xs (i + j) ≠ xs (i + j + 1) := by
  induction n generalizing i with
  | zero => simp [equalNeighbours]
  | succ n ih =>
    rw [equalNeighbours, Indexed.inRange_bind_iff, Indexed.inRange_bind_iff,
      Indexed.inRange_read_iff, Indexed.inRange_read_iff, Indexed.val_read, Indexed.val_read]
    by_cases hne : xs i = xs (i + 1)
    · rw [if_neg (not_not.mpr hne), ih (i + 1) (by omega)]
      constructor
      · rintro ⟨-, h1, h0 | ⟨j, hj, hxs⟩⟩
        · omega
        · refine .inr ⟨j + 1, by omega, ?_⟩
          rwa [Nat.add_right_comm i 1 j] at hxs
      · rintro (h0 | ⟨j, hj, hxs⟩)
        · cases h0
        · cases j with
          | zero => exact absurd hne hxs
          | succ j =>
            refine ⟨by omega, by omega, .inr ⟨j, by omega, ?_⟩⟩
            rwa [Nat.add_right_comm i 1 j]
    · rw [if_pos hne]
      constructor
      · rintro ⟨-, h1, -⟩
        exact .inr ⟨0, by omega, hne⟩
      · rintro (h0 | ⟨j, hj, -⟩)
        · cases h0
        · exact ⟨by omega, by omega, Indexed.inRange_pure _⟩

end Neighbours

/-! ## The flag -/

/-- The columns are equally wide and the rows are equally high. -/
def UsedEqual (buf : VAPictureParameterBufferHEVC) : Prop :=
  (∀ i ≤ buf.numTileColumnsMinus1.toNat, buf.columnWidthMinus1 i = buf.columnWidthMinus1 0) ∧
    ∀ i ≤ buf.numTileRowsMinus1.toNat, buf.rowHeightMinus1 i = buf.rowHeightMinus1 0

/-- All elements of the two arrays are equal, and what stands behind each of them too. -/
def WholeEqual (buf : VAPictureParameterBufferHEVC) : Prop :=
  (∀ i ≤ 19, buf.columnWidthMinus1 i = buf.columnWidthMinus1 0) ∧
    ∀ i ≤ 21, buf.rowHeightMinus1 i = buf.rowHeightMinus1 0

instance {buf : VAPictureParameterBufferHEVC} : Decidable (UsedEqual buf) :=
  inferInstanceAs (Decidable ((∀ i ≤ buf.numTileColumnsMinus1.toNat, _) ∧
    ∀ i ≤ buf.numTileRowsMinus1.toNat, _))

instance {buf : VAPictureParameterBufferHEVC} : Decidable (WholeEqual buf) :=
  inferInstanceAs (Decidable ((∀ i ≤ 19, _) ∧ ∀ i ≤ 21, _))

section Uniform

variable {buf : VAPictureParameterBufferHEVC}

/-- Equal neighbours are equal to the first. -/
theorem neighbours_iff {xs : Nat → UInt16} {n : Nat} :
    (∀ i < n, xs (0 + i) = xs (0 + i + 1)) ↔ ∀ i ≤ n, xs i = xs 0 := by
  simp only [Nat.zero_add]
  constructor
  · intro h i hi
    induction i with
    | zero => rfl
    | succ i ih => rw [← h i (by omega), ih (by omega)]
  · intro h i hi
    rw [h i (by omega), h (i + 1) (by omega)]

theorem uniformSpacing_val (hen : buf.tilesEnabledFlag = true) :
    (uniformSpacing buf).val = true ↔ WholeEqual buf := by
  rw [uniformSpacing, if_pos hen, Indexed.val_bind, Indexed.val_ite, WholeEqual, ← neighbours_iff,
    ← neighbours_iff,
    ← @equalNeighbours_val .vaColumnWidthMinus1, ← @equalNeighbours_val .vaRowHeightMinus1]
  cases (equalNeighbours .vaColumnWidthMinus1 buf.columnWidthMinus1 19 0).val <;> simp

/-- The loop over the entries does not touch the flag. -/
theorem addPicture_uniformSpacingFlag (drv : References.Surfaces)
    (ppc : CUVIDHEVCPICPARAMS) (i : Nat) :
    (addPicture drv buf ppc i).val.uniformSpacingFlag = ppc.uniformSpacingFlag := by
  simp only [addPicture, Indexed.val_ite]
  split
  · rfl
  · split
    · rfl
    · split <;> rfl

theorem copyHEVCPicParam_uniformSpacingFlag (drv : References.Surfaces) (ppc : CUVIDHEVCPICPARAMS) :
    (copyHEVCPicParam drv buf ppc).val.uniformSpacingFlag = (uniformSpacing buf).val := by
  simp only [copyHEVCPicParam, Indexed.val_bind, Indexed.val_pure, Indexed.val_foldlM]
  exact Indexed.foldl_keeps (addPicture_uniformSpacingFlag drv) _ _

/-- With tiles inside the arrays, the flag says that their sizes are equal exactly when the sizes
differ or when all that stands in the arrays and behind them is equal. -/
theorem uniformSpacing_iff (drv : References.Surfaces) (buf : VAPictureParameterBufferHEVC)
    (ppc : CUVIDHEVCPICPARAMS) (hen : buf.tilesEnabledFlag = true)
    (hcolumns : buf.numTileColumnsMinus1.toNat < 19) (hrows : buf.numTileRowsMinus1.toNat < 21) :
    ((copyHEVCPicParam drv buf ppc).val.uniformSpacingFlag = true ↔ UsedEqual buf) ↔
      ¬UsedEqual buf ∨ WholeEqual buf := by
  have hused : WholeEqual buf → UsedEqual buf := fun ⟨hc, hr⟩ =>
    ⟨fun i hi => hc i (by omega), fun i hi => hr i (by omega)⟩
  rw [copyHEVCPicParam_uniformSpacingFlag, uniformSpacing_val hen]
  constructor
  · intro h
    by_cases hu : UsedEqual buf
    · exact .inr (h.mpr hu)
    · exact .inl hu
  · rintro (hu | hw)
    · exact ⟨fun hw => hused hw, fun h => absurd h hu⟩
    · exact ⟨hused, fun _ => hw⟩

end Uniform

/-- A picture with two columns and one row, all of the same size, whose arrays hold zeroes behind
them. -/
def twoColumns : VAPictureParameterBufferHEVC where
  pic := fun _ => ⟨0, 0, 0⟩
  tilesEnabledFlag := true
  numTileColumnsMinus1 := 1
  numTileRowsMinus1 := 0
  columnWidthMinus1 := fun i => if i < 2 then 7 else 0
  rowHeightMinus1 := fun i => if i < 1 then 3 else 0

/-- Columns of different widths are told apart. -/
theorem uniformSpacing_iff_different :
    let buf := { twoColumns with columnWidthMinus1 := UInt16.ofNat }
    (copyHEVCPicParam (fun _ => none) buf .zero).val.uniformSpacingFlag = true ↔ UsedEqual buf :=
  (uniformSpacing_iff (fun _ => none)
    { twoColumns with columnWidthMinus1 := UInt16.ofNat } .zero rfl (by decide)
    (by decide)).mpr (.inl (by decide))

/-- Two equal columns do not make the flag, since nothing stands behind them. -/
theorem uniformSpacing_unused :
    ¬∀ drv buf ppc, buf.tilesEnabledFlag = true → buf.numTileColumnsMinus1.toNat < 19 →
    buf.numTileRowsMinus1.toNat < 21 →
    ((copyHEVCPicParam drv buf ppc).val.uniformSpacingFlag = true ↔ UsedEqual buf) := by
  intro h
  have h := h (fun _ => none) twoColumns .zero rfl (by decide) (by decide)
  rw [copyHEVCPicParam_uniformSpacingFlag, uniformSpacing_val rfl] at h
  revert h
  decide

end NvVaapi.Hevc
