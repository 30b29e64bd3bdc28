import NvVaapi.Jpeg.Frame

/-!
# Memory safety of `reconstructJPEG`

* `MemorySafe`: all writes are inside the allocation and all reads inside their regions.
* `frameBytes_length_le`, `totalEcs_le_length`: a frame is at most as long as the worst case that is
  computed for the allocation, and at least as long as the slices' data.
* `reconstructJPEG_safe_iff`: a run is memory safe exactly when that worst case fits the 64-bit
  size, or the frame is refused at an empty quantiser table before the wrapped size is exceeded.
* `worstSize_lt`: fewer than 2^31 slices always meet the condition.
* `reconstructJPEG_memorySafe`: so slices that lie in a buffer of the driver do.
-/

namespace NvVaapi

open Emit (Buf)
open Jfif (Segment)

/-- What a run has written and read is inside the allocation and inside the regions. -/
structure MemorySafe (sliceDataSize : UInt32) (b : Buf Region) : Prop where
  writes : b.written ≤ b.cap
  sliceData : b.marks .sliceData ≤ sliceDataSize.toNat
  dcValues : b.marks .dcValues ≤ 12
  acValues : b.marks .acValues ≤ 162
  frameComponents : b.marks .frameComponents ≤ 4
  scanComponents : b.marks .scanComponents ≤ 4

theorem memorySafe_iff {sliceDataSize : UInt32} {b : Buf Region}
    (h : ∀ i, b.marks i ≤ readBounds sliceDataSize i) :
    MemorySafe sliceDataSize b ↔ b.written ≤ b.cap :=
  ⟨fun hs => hs.writes, fun hw => ⟨hw, h .sliceData, h .dcValues, h .acValues,
    h .frameComponents, h .scanComponents⟩⟩

/-! ## Lengths -/

theorem encode_length (s : Segment) : s.encode.length = s.payload.length + 4 := by
  simp [Segment.encode]
  omega

theorem dqtSegments_length (iq : VAIQMatrixBufferJPEGBaseline)
    (pic : VAPictureParameterBufferJPEGBaseline) (ts : List (Fin 4)) :
    ((dqtSegments iq pic ts).flatMap Segment.encode).length =
      (ts.filter (QuantUsed pic)).length * 69 := by
  rw [dqtSegments, List.flatMap_map,
    length_flatMap_const _ _ 69 fun t _ => dqtSegment_length iq t]

theorem sof0Segment_length (pic : VAPictureParameterBufferJPEGBaseline) :
    (sof0Segment pic).encode.length = 10 + pic.numComponents.toNat * 3 := by
  rw [encode_length]
  simp only [sof0Segment, List.length_cons, List.length_append, Jfif.length_be16, List.length_nil,
    length_flatMap_const _ JPEGFrameComponent.bytes 3 fun _ _ => rfl,
    VAPictureParameterBufferJPEGBaseline.length_comps]
  omega

theorem sosSegment_length_le {s : VASliceParameterBufferJPEGBaseline}
    (h : s.numComponents ≤ JPEG_MAX_COMPONENTS) : (sosSegment s).encode.length ≤ 16 := by
  have := UInt8.le_iff_toNat_le.mp h
  rw [encode_length]
  simp only [sosSegment, List.length_cons, List.length_append, List.length_nil,
    length_flatMap_const _ JPEGScanComponent.bytes 2 fun _ _ => rfl,
    VASliceParameterBufferJPEGBaseline.length_comps]
  simp only [JPEG_MAX_COMPONENTS, UInt8.reduceToNat] at this
  omega

theorem driSegment_length (ri : UInt16) : (driSegment ri).encode.length = 6 := rfl

theorem requiredSegment_length_le (tableClass : UInt8) (bits : Vector UInt8 16)
    (vals : List UInt8) (required : List Nat) (t : Nat) :
    ((requiredSegment tableClass bits vals required t).flatMap Segment.encode).length ≤
      21 + vals.length := by
  unfold requiredSegment
  split
  · simp only [List.flatMap_cons, List.flatMap_nil, List.append_nil, encode_length, clientSegment,
      dhtSegment, List.length_cons, List.length_append, Vector.length_toList, List.length_take]
    omega
  · simp

theorem huffmanSegments_length_le (jpegCtx : JPEGContext) (dc ac : List Nat) :
    ((huffmanSegments jpegCtx dc ac).flatMap Segment.encode).length ≤ 432 := by
  unfold huffmanSegments
  split
  · have h : ∀ t : Fin 2, _ := fun t => And.intro
      (requiredSegment_length_le 0 (jpegCtx.huffmanTable.huffmanTable t).numDcCodes
        (jpegCtx.huffmanTable.huffmanTable t).dcValues.toList dc t)
      (requiredSegment_length_le 1 (jpegCtx.huffmanTable.huffmanTable t).numAcCodes
        (jpegCtx.huffmanTable.huffmanTable t).acValues.toList ac t)
    have h₀ := h 0
    have h₁ := h 1
    simp only [Vector.length_toList] at h₀ h₁
    simp only [clientHuffmanSegments, List.finRange_succ, List.finRange_zero, List.map_nil,
      List.map_cons, List.flatMap_cons, List.flatMap_nil, List.append_nil, List.flatMap_append,
      List.length_append]
    simp only [Fin.succ_zero_eq_one]
    omega
  · exact Nat.le_of_eq standardHuffmanSegments_length

section Frame

variable {jpegCtx : JPEGContext} {s0 : VASliceParameterBufferJPEGBaseline}
  {sl : List VASliceParameterBufferJPEGBaseline} {d : Nat → UInt8} {sliceDataSize : UInt32}

/-- The scans of slices with a header each, without a DRI segment or with one each. -/
theorem flatMap_scan_length_le (a : Bool)
    (hs : ∀ s ∈ sl, s.numComponents ≤ JPEG_MAX_COMPONENTS) :
    (sl.flatMap fun s => (scanDri a s).flatMap Segment.encode ++
      ((sosSegment s).encode ++ s.ecs d)).length ≤
        sl.length * ((if a then 0 else 6) + 16) + totalEcs sl := by
  induction sl with
  | nil => simp
  | cons s sl ih =>
    have ih := ih fun t ht => hs t (List.mem_cons_of_mem _ ht)
    have hsos := sosSegment_length_le (hs s (List.mem_cons_self ..))
    have hdri : ((scanDri a s).flatMap Segment.encode).length ≤ if a then 0 else 6 := by
      unfold scanDri
      cases a
      · split
        · simp [driSegment_length]
        · simp
      · simp
    simp only [List.flatMap_cons, List.length_append, List.length_cons, Nat.add_mul, Nat.one_mul,
      VASliceParameterBufferJPEGBaseline.length_ecs, totalEcs, List.map_cons, List.sum_cons] at ih ⊢
    omega

theorem scanBytes_length_le (h0 : s0 ∈ sl)
    (hs : ∀ s ∈ sl, s.numComponents ≤ JPEG_MAX_COMPONENTS) :
    ((headDri s0 sl).flatMap Segment.encode).length + (scanBytes s0 sl d).length ≤
      sl.length * 22 + totalEcs sl := by
  have hpos : 0 < sl.length := List.length_pos_of_mem h0
  have hdri : ((headDri s0 sl).flatMap Segment.encode).length ≤
      if AllSameRestart s0 sl then 6 else 0 := by
    unfold headDri
    by_cases h : AllSameRestart s0 sl
    · simp only [h, decide_true, Bool.true_and, if_true]
      split
      · simp [driSegment_length]
      · simp
    · simp [h]
  have hscan : (scanBytes s0 sl d).length ≤
      sl.length * ((if AllSameRestart s0 sl then 0 else 6) + 16) + totalEcs sl := by
    unfold scanBytes
    split
    · rw [List.length_append, ecs_flatMap_length]
      have := sosSegment_length_le (hs s0 h0)
      split <;> omega
    · have := flatMap_scan_length_le (d := d) (decide (AllSameRestart s0 sl)) hs
      simpa only [decide_eq_true_eq] using this
  by_cases h : AllSameRestart s0 sl
  · rw [if_pos h] at hdri hscan
    omega
  · rw [if_neg h] at hdri hscan
    omega

theorem totalEcs_le_flatMap_scan (a : Bool) (sl : List VASliceParameterBufferJPEGBaseline) :
    totalEcs sl ≤ (sl.flatMap fun s => (scanDri a s).flatMap Segment.encode ++
      ((sosSegment s).encode ++ s.ecs d)).length := by
  induction sl with
  | nil => simp [totalEcs]
  | cons s sl ih =>
    simp only [List.flatMap_cons, List.length_append, totalEcs, List.map_cons, List.sum_cons,
      VASliceParameterBufferJPEGBaseline.length_ecs] at ih ⊢
    omega

theorem totalEcs_le_scanBytes : totalEcs sl ≤ (scanBytes s0 sl d).length := by
  unfold scanBytes
  split
  · rw [List.length_append, ecs_flatMap_length]
    omega
  · exact totalEcs_le_flatMap_scan _ _

/-- A frame is at most as long as the worst case. -/
theorem frameBytes_length_le (h : FrameOk jpegCtx sl sliceDataSize) (h0 : s0 ∈ sl) :
    (frameBytes jpegCtx s0 sl d).length ≤
      worstSize jpegCtx.picParams sl.length (totalEcs sl) := by
  have hdqt := dqtSegments_length jpegCtx.iqMatrix jpegCtx.picParams (List.finRange 4)
  have hused : ((List.finRange 4).filter (QuantUsed jpegCtx.picParams)).length ≤ 4 :=
    Nat.le_trans (List.length_filter_le _ _) (by simp)
  have hsof := sof0Segment_length jpegCtx.picParams
  have hhuff := huffmanSegments_length_le jpegCtx (dcSelectors sl) (acSelectors sl)
  have hscan := scanBytes_length_le (d := d) h0 fun s hs => (h.slice s hs).count.2
  have heoi : (eoiBytes (bodyBytes jpegCtx s0 sl d)).length ≤ 2 := by
    unfold eoiBytes
    split <;> simp
  have hjfif : jfifHeader.length = 20 := rfl
  have happ : app0Segment.encode.length = 18 := rfl
  have hbody : (bodyBytes jpegCtx s0 sl d).length ≤ 2 + 18 + 276 +
      (10 + jpegCtx.picParams.numComponents.toNat * 3) + 432 + (sl.length * 22 + totalEcs sl) := by
    simp only [bodyBytes, headSegments, List.length_append, List.flatMap_cons, List.flatMap_append,
      List.length_cons, List.length_nil, hsof, happ, hdqt]
    omega
  rw [frameBytes, List.length_append]
  simp only [worstSize, hjfif]
  omega

/-- A frame is at least as long as the slices' data. -/
theorem totalEcs_le_length : totalEcs sl ≤ (frameBytes jpegCtx s0 sl d).length := by
  have : totalEcs sl ≤ (scanBytes s0 sl d).length := totalEcs_le_scanBytes
  simp only [frameBytes, bodyBytes, List.length_append]
  omega

/-- The used quantiser tables in front of the first one that is empty. -/
def tablesBeforeEmpty (jpegCtx : JPEGContext) : Nat :=
  (((List.finRange 4).takeWhile (QuantOk jpegCtx.iqMatrix jpegCtx.picParams)).filter
    (QuantUsed jpegCtx.picParams)).length

theorem refusedBytes_length :
    (refusedBytes jpegCtx).length = 20 + tablesBeforeEmpty jpegCtx * 69 := by
  rw [refusedBytes, List.length_append, dqtSegments_length]
  rfl

theorem tablesBeforeEmpty_le : tablesBeforeEmpty jpegCtx ≤ 4 :=
  Nat.le_trans (List.length_filter_le _ _)
    (Nat.le_trans (List.takeWhile_sublist _).length_le (by simp))

theorem totalEcs_le (sl : List VASliceParameterBufferJPEGBaseline) :
    totalEcs sl ≤ sl.length * (2 ^ 32 - 1) := by
  induction sl with
  | nil => simp [totalEcs]
  | cons s sl ih =>
    have := s.sliceDataSize.toNat_lt
    simp only [totalEcs, List.map_cons, List.sum_cons, List.length_cons] at ih ⊢
    omega

/-- Fewer than 2^31 slices never reach the limit of the 64-bit size. -/
theorem worstSize_lt (pic : VAPictureParameterBufferJPEGBaseline) (h : sl.length < 2 ^ 31) :
    worstSize pic sl.length (totalEcs sl) < 2 ^ 64 := by
  have h₁ := totalEcs_le sl
  have h₂ := pic.numComponents.toNat_lt
  have h₃ : jfifHeader.length = 20 := rfl
  simp only [worstSize, h₃]
  omega

theorem worstSize_lt_two_mul (sl : List VASliceParameterBufferJPEGBaseline)
    (pic : VAPictureParameterBufferJPEGBaseline)
    (h : sl.length < 2 ^ 32) : worstSize pic sl.length (totalEcs sl) < 2 ^ 64 + 2 ^ 63 := by
  have h₁ := totalEcs_le sl
  have h₂ := pic.numComponents.toNat_lt
  have h₃ : jfifHeader.length = 20 := rfl
  simp only [worstSize, h₃]
  omega

end Frame

/-! ## Safety -/

section Safety

variable {jpegCtx : JPEGContext} {slices : Nat → VASliceParameterBufferJPEGBaseline}
  {sliceCount sliceDataSize : UInt32} {d : Nat → UInt8}

/-- The worst case of an input, in exact arithmetic. -/
def exactSize (jpegCtx : JPEGContext) (sl : List VASliceParameterBufferJPEGBaseline) : Nat :=
  worstSize jpegCtx.picParams sl.length (totalEcs sl)

theorem maxSize64_eq : maxSize64 jpegCtx.picParams sliceCount.toNat
    (totalEcs (sliceList slices sliceCount)) =
      exactSize jpegCtx (sliceList slices sliceCount) % 2 ^ 64 := by
  rw [exactSize, length_sliceList, maxSize64]

/-- A run that writes the whole frame is safe exactly when the worst case does not wrap. -/
theorem memorySafe_of_written (h : FrameOk jpegCtx (sliceList slices sliceCount) sliceDataSize)
    (hq : ∀ t, QuantOk jpegCtx.iqMatrix jpegCtx.picParams t) :
    MemorySafe sliceDataSize
        (reconstructJPEG true jpegCtx slices sliceCount d sliceDataSize Buf.start).2 ↔
      exactSize jpegCtx (sliceList slices sliceCount) < 2 ^ 64 := by
  obtain ⟨b, hrun, hcap, hw, hmarks⟩ := reconstructJPEG_written (d := d) h hq
  have hle := frameBytes_length_le (d := d) h (mem_sliceList h.slices)
  have hge : totalEcs (sliceList slices sliceCount) ≤
      (frameBytes jpegCtx (slices 0) (sliceList slices sliceCount) d).length := totalEcs_le_length
  have hlt := worstSize_lt_two_mul (sliceList slices sliceCount) jpegCtx.picParams
    (by rw [length_sliceList]; exact sliceCount.toNat_lt)
  have hcount := sliceCount.toNat_lt
  have hnum := jpegCtx.picParams.numComponents.toNat_lt
  have h₃ : jfifHeader.length = 20 := rfl
  rw [hrun, memorySafe_iff hmarks, hcap, hw, maxSize64_eq, exactSize]
  constructor
  · intro hs
    by_contra hbig
    rw [Nat.mod_eq_sub_mod (by omega), Nat.mod_eq_of_lt (by omega)] at hs
    simp only [worstSize, h₃, length_sliceList] at hs hbig
    omega
  · intro hs
    rw [Nat.mod_eq_of_lt hs]
    exact hle

/-- A run is memory safe exactly when its input is refused before the allocation, the worst case
fits 64 bits, or an empty quantiser table stops it before it leaves the wrapped allocation. -/
theorem reconstructJPEG_safe_iff (mallocOk : Bool) (jpegCtx : JPEGContext)
    (slices : Nat → VASliceParameterBufferJPEGBaseline) (sliceCount : UInt32)
    (d : Nat → UInt8) (sliceDataSize : UInt32) :
    MemorySafe sliceDataSize
        (reconstructJPEG mallocOk jpegCtx slices sliceCount d sliceDataSize Buf.start).2 ↔
      ¬ (FrameOk jpegCtx (sliceList slices sliceCount) sliceDataSize ∧ mallocOk = true) ∨
      exactSize jpegCtx (sliceList slices sliceCount) < 2 ^ 64 ∨
      (¬ ∀ t, QuantOk jpegCtx.iqMatrix jpegCtx.picParams t) ∧
        20 + tablesBeforeEmpty jpegCtx * 69 ≤
          exactSize jpegCtx (sliceList slices sliceCount) - 2 ^ 64 := by
  by_cases hok : FrameOk jpegCtx (sliceList slices sliceCount) sliceDataSize ∧ mallocOk = true
  · obtain ⟨h, rfl⟩ := hok
    by_cases hq : ∀ t, QuantOk jpegCtx.iqMatrix jpegCtx.picParams t
    · rw [memorySafe_of_written h hq]
      simp [h, hq]
    · obtain ⟨b, hrun, hcap, hw, hmarks⟩ := reconstructJPEG_emptyTable (d := d) h hq
      have hn : tablesBeforeEmpty jpegCtx ≤ 4 := tablesBeforeEmpty_le
      have hlt := worstSize_lt_two_mul (sliceList slices sliceCount) jpegCtx.picParams
        (by rw [length_sliceList]; exact sliceCount.toNat_lt)
      have hbig : 300 ≤ exactSize jpegCtx (sliceList slices sliceCount) := by
        have h₃ : jfifHeader.length = 20 := rfl
        simp only [exactSize, worstSize, h₃]
        omega
      rw [hrun, memorySafe_iff hmarks, hcap, hw, maxSize64_eq, refusedBytes_length]
      simp only [h, hq, not_false_eq_true, and_self, not_true_eq_false, false_or, true_and]
      rcases Nat.lt_or_ge (exactSize jpegCtx (sliceList slices sliceCount)) (2 ^ 64) with hs | hs
      · rw [Nat.mod_eq_of_lt hs]
        simp only [hs, true_or, iff_true]
        omega
      · rw [Nat.mod_eq_sub_mod hs, Nat.mod_eq_of_lt (by rw [exactSize]; omega)]
        omega
  · obtain ⟨marks, hrun, hmarks⟩ := reconstructJPEG_rejected (d := d) hok
    rw [hrun, memorySafe_iff hmarks]
    simp only [hok, not_false_eq_true, true_or, iff_true]
    exact Nat.le_refl _

/-- `sizeof(VASliceParameterBufferJPEGBaseline)` -/
def sliceParameterBytes : Nat := 56

/-- The slice parameters are in one buffer. `bufferSize` is its `buf->size`, the product of two
32-bit numbers that `nvCreateBuffer` computes in 32 bits. -/
def InBuffer (sliceCount bufferSize : UInt32) : Prop :=
  sliceCount.toNat * sliceParameterBytes ≤ bufferSize.toNat

instance (sliceCount bufferSize : UInt32) : Decidable (InBuffer sliceCount bufferSize) :=
  inferInstanceAs (Decidable (_ ≤ _))

/-- With slice parameters that a buffer holds, every run is memory safe: whatever the tables, the
slices and the data are, and also where the frame is abandoned. -/
theorem reconstructJPEG_memorySafe (mallocOk : Bool) (jpegCtx : JPEGContext)
    (slices : Nat → VASliceParameterBufferJPEGBaseline) {sliceCount bufferSize : UInt32}
    (hin : InBuffer sliceCount bufferSize) (d : Nat → UInt8) (sliceDataSize : UInt32) :
    MemorySafe sliceDataSize
      (reconstructJPEG mallocOk jpegCtx slices sliceCount d sliceDataSize Buf.start).2 := by
  have hcount : (sliceList slices sliceCount).length < 2 ^ 31 := by
    have hsize := bufferSize.toNat_lt
    unfold InBuffer sliceParameterBytes at hin
    rw [length_sliceList]
    omega
  have hfits : exactSize jpegCtx (sliceList slices sliceCount) < 2 ^ 64 :=
    worstSize_lt jpegCtx.picParams hcount
  exact (reconstructJPEG_safe_iff mallocOk jpegCtx slices sliceCount d sliceDataSize).mpr
    (.inr (.inl hfits))

/-- A frame of two components, which have a quantiser table and the client's Huffman tables each. -/
def clientContext : JPEGContext where
  picParams := ⟨8, 8, fun i => ⟨if i = 0 then 1 else 2, 1, 1, if i = 0 then 0 else 1⟩, 2⟩
  iqMatrix := ⟨fun _ => 1, fun t => .replicate 64 (if t = 0 then 1 else 2)⟩
  huffmanTable := ⟨fun _ => 1, fun _ =>
    ⟨#v[0, 2, 1, 0, 0, 0, 0, 0, 0, 0, 0, 0, 0, 0, 0, 0], dcLuminanceVals,
      #v[0, 1, 2, 0, 0, 0, 0, 0, 0, 0, 0, 0, 0, 0, 0, 0], acLuminanceVals⟩⟩
  hasPicParams := true
  hasIQMatrix := true
  hasHuffmanTable := true
  validQuantTablesMask := 0b11
  validHuffmanDcMask := 0b11
  validHuffmanAcMask := 0b11

/-- Two slices with data of 4 and 2 bytes, which have both components. -/
def clientSlices (i : Nat) : VASliceParameterBufferJPEGBaseline :=
  ⟨if i = 0 then 4 else 2, if i = 0 then 0 else 4, sliceDataFlagAll, 2,
    fun c => if c = 0 then ⟨1, 0, 0⟩ else ⟨2, 1, 1⟩, 0⟩

theorem client_built (d : Nat → UInt8) : ∃ frame,
    (reconstructJPEG true clientContext clientSlices 2 d 6 Buf.start).1 = some frame := by
  have hok : FrameOk clientContext (sliceList clientSlices 2) 6 := by decide
  obtain ⟨b, hrun, -⟩ := reconstructJPEG_written (d := d) hok (by decide)
  have hlen := frameBytes_length_le (d := d) hok (mem_sliceList hok.slices)
  have hsize : worstSize clientContext.picParams (sliceList clientSlices 2).length
      (totalEcs (sliceList clientSlices 2)) ≤ 2 ^ 32 - 1 := by decide
  rw [if_pos (Nat.le_trans hlen hsize)] at hrun
  exact ⟨_, congrArg Prod.fst hrun⟩

/-- The slices of a buffer with room for two make a frame. -/
theorem reconstructJPEG_memorySafe_client :
    (∃ frame, (reconstructJPEG true clientContext clientSlices 2 (fun _ => 0) 6 Buf.start).1 =
      some frame) ∧
    MemorySafe 6 (reconstructJPEG true clientContext clientSlices 2 (fun _ =>
      0) 6 Buf.start).2 := by
  have hin : InBuffer 2 112 := by decide
  exact ⟨client_built _,
    reconstructJPEG_memorySafe true clientContext clientSlices hin (fun _ => 0) 6⟩

end Safety

end NvVaapi
