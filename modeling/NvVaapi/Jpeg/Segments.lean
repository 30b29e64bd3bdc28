import NvVaapi.Lib.Jfif
import NvVaapi.Jpeg.Checks

/-!
# The segments that `reconstructJPEG` writes

Each writing function writes the encoding of a marker segment, or gives up.

* `dqtSegment`, `sof0Segment`, `dhtSegment`, `driSegment`, `sosSegment`: the segments, and
  `writeDRI_writes` and the like: that the functions write them.
* `writeDQT_does`: the used quantiser tables, up to the first one that is empty.
* `writeHuffmanTables_writes`: the client's tables when `UsesClientTables` holds, the standard ones
  otherwise. An attempt that was abandoned leaves nothing outside the standard tables' bytes.
* `writeScans_writes`: the scans.
-/

namespace NvVaapi

open Emit (Prog emit touch require attempt Does Reads Writes AtMost)
open Jfif (Segment be16)

variable {K : Region → Nat} {sliceDataSize : UInt32}

theorem write16be_writes (v : UInt16) : Writes K (write16be v) (be16 v) := Writes.emit _

/-- A marker, a length field and a payload are a segment. -/
theorem writes_segment {m : Prog Region Unit} {marker : UInt8} {payload : List UInt8}
    (len : UInt16) (hlen : len.toNat = payload.length + 2)
    (hm : Writes K m (JPEG_MARKER :: marker :: (be16 len ++ payload))) :
    Writes K m (Segment.encode ⟨marker, payload⟩) := by
  refine hm.of_eq ?_
  rw [Segment.encode, ← hlen, UInt16.ofNat_toNat]
  rfl

/-! ## DRI and SOF0 -/

def driSegment (restartInterval : UInt16) : Segment := ⟨JPEG_DRI, be16 restartInterval⟩

theorem writeDRI_writes (ri : UInt16) : Writes K (writeDRI ri) (driSegment ri).encode :=
  writes_segment 4 rfl
    ((Writes.emit _).bind ((write16be_writes _).bind (write16be_writes _)))

/-- The three bytes of a frame component. -/
def JPEGFrameComponent.bytes (c : JPEGFrameComponent) : List UInt8 :=
  [c.componentId, c.hSamplingFactor <<< 4 ||| c.vSamplingFactor, c.quantiserTableSelector]

def sof0Segment (pic : VAPictureParameterBufferJPEGBaseline) : Segment :=
  ⟨JPEG_SOF0, 8 :: (be16 pic.pictureHeight ++ be16 pic.pictureWidth ++ [pic.numComponents] ++
    pic.comps.flatMap JPEGFrameComponent.bytes)⟩

theorem length_flatMap_const {α : Type} (xs : List α) (f : α → List UInt8) (n : Nat)
    (h : ∀ x ∈ xs, (f x).length = n) : (xs.flatMap f).length = xs.length * n := by
  induction xs with
  | nil => simp
  | cons x xs ih =>
    rw [List.flatMap_cons, List.length_append, h x (List.mem_cons_self ..),
      ih fun y hy => h y (List.mem_cons_of_mem _ hy), List.length_cons, Nat.add_mul, Nat.one_mul,
      Nat.add_comm]

theorem writeSOF0_writes {pic : VAPictureParameterBufferJPEGBaseline}
    (hn : pic.numComponents ≤ 4) :
    Writes (readBounds sliceDataSize) (writeSOF0 pic) (sof0Segment pic).encode := by
  have hl := length_flatMap_const pic.comps JPEGFrameComponent.bytes 3 fun _ _ => rfl
  have hn' : pic.numComponents.toNat ≤ 4 := UInt8.le_iff_toNat_le.mp hn
  have hloop : Writes (readBounds sliceDataSize) (forM (List.range pic.numComponents.toNat)
      fun i => do
        touch .frameComponents (i + 1)
        emit (pic.components i).bytes) (pic.comps.flatMap JPEGFrameComponent.bytes) := by
    refine (Writes.forM (g := fun i => (pic.components i).bytes) fun i hi =>
      Writes.bind_reads (Reads.touch (lt_readBounds hn hi)) (Writes.emit _)).of_eq ?_
    simp [VAPictureParameterBufferJPEGBaseline.comps, List.flatMap_map]
  refine writes_segment (2 + 1 + 2 + 2 + 1 + pic.numComponents.toUInt16 * 3) ?_ ?_
  · simp only [List.length_cons, List.length_append, Jfif.length_be16, List.length_nil, hl,
      VAPictureParameterBufferJPEGBaseline.length_comps, UInt16.toNat_add, UInt16.toNat_mul,
      UInt8.toNat_toUInt16, UInt16.reduceToNat]
    omega
  · refine ((Writes.emit _).bind <| (write16be_writes _).bind <| (Writes.emit _).bind <|
      (write16be_writes _).bind <| (write16be_writes _).bind <|
      (Writes.emit _).bind hloop).of_eq ?_
    simp

/-! ## DQT -/

def dqtSegment (iq : VAIQMatrixBufferJPEGBaseline) (table : Fin 4) : Segment :=
  ⟨JPEG_DQT, UInt8.ofNat table.val :: (iq.quantiserTable table).toList⟩

/-- The component selectors name the table. -/
def QuantUsed (pic : VAPictureParameterBufferJPEGBaseline) (table : Fin 4) : Prop :=
  table.val ∈ pic.quantSelectors

instance (pic : VAPictureParameterBufferJPEGBaseline) : DecidablePred (QuantUsed pic) := fun _ =>
  inferInstanceAs (Decidable (_ ∈ _))

/-- A used quantiser table is not empty. -/
def QuantOk (iq : VAIQMatrixBufferJPEGBaseline) (pic : VAPictureParameterBufferJPEGBaseline)
    (table : Fin 4) : Prop :=
  QuantUsed pic table → quantSum (iq.quantiserTable table) ≠ 0

instance (iq : VAIQMatrixBufferJPEGBaseline) (pic : VAPictureParameterBufferJPEGBaseline) :
    DecidablePred (QuantOk iq pic) := fun _ =>
  inferInstanceAs (Decidable (_ → _))

/-- The segments for the used tables among `ts`. -/
def dqtSegments (iq : VAIQMatrixBufferJPEGBaseline) (pic : VAPictureParameterBufferJPEGBaseline)
    (ts : List (Fin 4)) : List Segment :=
  (ts.filter (QuantUsed pic)).map (dqtSegment iq)

theorem flatMap_filter_encode {α : Type} (ts : List α) (p : α → Prop) [DecidablePred p]
    (seg : α → Segment) : (ts.flatMap fun t => if p t then (seg t).encode else []) =
      ((ts.filter p).map seg).flatMap Segment.encode := by
  induction ts with
  | nil => rfl
  | cons t ts ih => by_cases h : p t <;> simp [h, ih]

/-- The used tables are written in order, up to the first one that is empty. -/
theorem writeDQT_does {jpegCtx : JPEGContext} {sl : List VASliceParameterBufferJPEGBaseline}
    (h : FrameOk jpegCtx sl sliceDataSize) :
    Does (readBounds sliceDataSize)
      (writeDQT jpegCtx.iqMatrix jpegCtx.picParams jpegCtx.validQuantTablesMask)
      (if ∀ t, QuantOk jpegCtx.iqMatrix jpegCtx.picParams t then some () else none)
      ((dqtSegments jpegCtx.iqMatrix jpegCtx.picParams
        ((List.finRange 4).takeWhile (QuantOk jpegCtx.iqMatrix jpegCtx.picParams))).flatMap
          Segment.encode) 0 := by
  have hlt : ∀ t ∈ jpegCtx.picParams.quantSelectors, t < 8 := fun t ht =>
    Nat.lt_trans (h.selectors t ht) (by decide)
  have hbit : ∀ t : Fin 4, maskOf jpegCtx.picParams.quantSelectors &&& tableBit t.val = 0 ↔
      ¬ QuantUsed jpegCtx.picParams t := fun t => by
    have := and_tableBit_ne_zero (maskOf jpegCtx.picParams.quantSelectors) (j := t.val) (by omega)
    rw [getLsbD_maskOf _ (by omega)] at this
    rw [QuantUsed, ← this, not_not]
  have hq : Reads (readBounds sliceDataSize) _ _ :=
    getUsedQuantTablesMask_reads h.count.2
  rw [if_pos h.selectors] at hq
  refine Reads.bind_does hq (Reads.bind_does ((Reads.require _).of_eq
    (if_pos ((and_maskOf_eq _ hlt).mpr h.tables))) ?_)
  rw [dqtSegments, ← flatMap_filter_encode]
  refine (Does.forM_guard (p := QuantOk jpegCtx.iqMatrix jpegCtx.picParams) (fun t _ ht => ?_)
    fun t _ ht => ?_).of_eq (by simp)
  · by_cases hu : QuantUsed jpegCtx.picParams t
    · rw [if_neg (mt (hbit t).mp (not_not.mpr hu)), if_pos hu]
      refine Writes.bind_reads ((Reads.require _).of_eq (if_pos (ht hu)))
        (writes_segment 67 (by simp) ?_)
      exact (Writes.emit _).bind ((write16be_writes _).bind ((Writes.emit _).bind (Writes.emit _)))
    · rw [if_pos ((hbit t).mpr hu), if_neg hu]
      exact Writes.nil
  · obtain ⟨hu, he⟩ := Classical.not_imp.mp ht
    rw [if_neg (mt (hbit t).mp (not_not.mpr hu))]
    exact Does.bind_none ((Reads.require _).of_eq (if_neg he))

theorem dqtSegment_length (iq : VAIQMatrixBufferJPEGBaseline) (t : Fin 4) :
    (dqtSegment iq t).encode.length = 69 := by
  simp [dqtSegment, Segment.encode]

/-! ## DHT -/

def dhtSegment (bits : Vector UInt8 16) (vals : List UInt8) (tableClass tableId : UInt8)
    (numVals : Nat) : Segment :=
  ⟨JPEG_DHT, (tableClass <<< 4 ||| tableId) :: (bits.toList ++ vals.take numVals)⟩

theorem writeDHT_writes {bits : Vector UInt8 16} {vals : List UInt8} {tableClass tableId : UInt8}
    {numVals : Nat} (hv : numVals ≤ vals.length) (hlt : numVals < 256)
    (hK : numVals ≤ K (if tableClass = 0 then .dcValues else .acValues)) :
    Writes K (writeDHT bits vals tableClass tableId numVals)
      (dhtSegment bits vals tableClass tableId numVals).encode := by
  refine writes_segment (UInt16.ofNat (2 + 1 + 16 + numVals)) ?_ ?_
  · rw [UInt16.toNat_ofNat']
    simp only [List.length_cons, List.length_append, List.length_take, Vector.length_toList]
    omega
  · refine ((Writes.emit _).bind ((write16be_writes _).bind ((Writes.emit _).bind
      ((Writes.emit _).bind (Writes.bind_reads (Reads.touch hK) (Writes.emit _)))))).of_eq ?_
    simp

/-- The four standard tables. -/
def standardHuffmanSegments : List Segment :=
  [dhtSegment dcLuminanceBits dcLuminanceVals.toList 0 0 12,
    dhtSegment dcChrominanceBits dcChrominanceVals.toList 0 1 12,
    dhtSegment acLuminanceBits acLuminanceVals.toList 1 0 162,
    dhtSegment acChrominanceBits acChrominanceVals.toList 1 1 162]

theorem writeStandardHuffmanTables_writes :
    Writes (readBounds sliceDataSize) writeStandardHuffmanTables
      (standardHuffmanSegments.flatMap Segment.encode) := by
  have hdc : ∀ (bits : Vector UInt8 16) (vals : Vector UInt8 12) (t : UInt8),
      Writes (readBounds sliceDataSize) (writeDHT bits vals.toList 0 t 12)
        (dhtSegment bits vals.toList 0 t 12).encode := fun bits vals t =>
    writeDHT_writes (by simp) (by decide) (Nat.le_refl 12)
  have hac : ∀ (bits : Vector UInt8 16) (vals : Vector UInt8 162) (t : UInt8),
      Writes (readBounds sliceDataSize) (writeDHT bits vals.toList 1 t 162)
        (dhtSegment bits vals.toList 1 t 162).encode := fun bits vals t =>
    writeDHT_writes (by simp) (by decide) (Nat.le_refl 162)
  refine ((hdc _ _ _).bind ((hdc _ _ _).bind ((hac _ _ _).bind (hac _ _ _)))).of_eq ?_
  simp only [standardHuffmanSegments, List.flatMap_cons, List.flatMap_nil, List.append_nil]

/-- The early exit of the count changes nothing: the count fails when it ends above the limit. -/
theorem countHuffValues_eq (codes : Vector UInt8 16) (maxVals : Nat) :
    countHuffValues codes maxVals =
      if Jfif.codeCount codes.toList ≤ maxVals then some (Jfif.codeCount codes.toList)
      else none := by
  have h : ∀ (cs : List UInt8) (n : Nat), n ≤ maxVals → cs.foldlM (fun sum c =>
      let sum := sum + c.toNat
      if sum > maxVals then none else some sum) n =
      if n + Jfif.codeCount cs ≤ maxVals then some (n + Jfif.codeCount cs) else none := by
    intro cs
    induction cs with
    | nil => intro n hn; simp [Jfif.codeCount, hn]
    | cons c cs ih =>
      intro n hn
      have hsum : n + Jfif.codeCount (c :: cs) = n + c.toNat + Jfif.codeCount cs := by
        simp [Jfif.codeCount, Nat.add_assoc]
      by_cases hc : n + c.toNat > maxVals
      · rw [List.foldlM_cons, if_pos hc, if_neg (by omega)]
        rfl
      · rw [List.foldlM_cons, if_neg hc, Option.bind_eq_bind, Option.bind_some,
          ih _ (by omega), hsum]
  rw [countHuffValues, h _ 0 (Nat.zero_le _), Nat.zero_add]

/-- The client's table has between 1 and `maxVals` codes. -/
def HuffmanOk (bits : Vector UInt8 16) (maxVals : Nat) : Prop :=
  Jfif.codeCount bits.toList ≠ 0 ∧ Jfif.codeCount bits.toList ≤ maxVals

instance (bits : Vector UInt8 16) (maxVals : Nat) : Decidable (HuffmanOk bits maxVals) :=
  inferInstanceAs (Decidable (_ ∧ _))

/-- The segment for a table of the client. -/
def clientSegment (tableClass : UInt8) (bits : Vector UInt8 16) (vals : List UInt8)
    (tableIdx : Nat) : Segment :=
  dhtSegment bits vals tableClass (UInt8.ofNat tableIdx) (Jfif.codeCount bits.toList)

/-- A table of the client: nothing when it is not required, else the table when it is usable. -/
theorem writeVATable_does {tableClass : UInt8} {maxVals : Nat} {bits : Vector UInt8 16}
    {vals : List UInt8} {required : List Nat} {validMask : BitVec 8} {tableIdx : Nat}
    (ht : tableIdx < 8) (hvalid : ∀ t ∈ required, validMask.getLsbD t = true)
    (hvals : maxVals = vals.length) (hlt : maxVals < 256)
    (hK : maxVals ≤ K (if tableClass = 0 then .dcValues else .acValues)) :
    Does K (writeVATable tableClass maxVals bits vals (maskOf required) validMask tableIdx)
      (if tableIdx ∈ required → HuffmanOk bits maxVals then some () else none)
      (if tableIdx ∈ required ∧ HuffmanOk bits maxVals then
        (clientSegment tableClass bits vals tableIdx).encode else []) 0 := by
  have hbit := and_tableBit_ne_zero (maskOf required) ht
  rw [getLsbD_maskOf _ ht] at hbit
  unfold writeVATable
  by_cases hr : tableIdx ∈ required
  · have hv := (and_tableBit_ne_zero validMask ht).mpr (hvalid _ hr)
    simp only [if_pos (hbit.mpr hr), hr, true_and, true_imp_iff]
    refine Reads.bind_does ((Reads.require _).of_eq (if_pos hv)) ?_
    rw [countHuffValues_eq]
    by_cases hle : Jfif.codeCount bits.toList ≤ maxVals
    · rw [if_pos hle]
      by_cases h0 : Jfif.codeCount bits.toList = 0
      · rw [if_neg fun h => h.1 h0, if_neg fun h => h.1 h0]
        exact Does.bind_none ((Reads.require _).of_eq (if_neg (not_not.mpr h0)))
      · rw [if_pos ⟨h0, hle⟩, if_pos ⟨h0, hle⟩]
        refine Reads.bind_does ((Reads.require _).of_eq (if_pos h0)) ?_
        exact writeDHT_writes (by omega) (by omega) (Nat.le_trans hle hK)
    · rw [if_neg hle, if_neg fun h => hle h.2, if_neg fun h => hle h.2]
      exact Reads.fail
  · rw [if_neg (mt hbit.mp hr), if_pos fun h => absurd h hr, if_neg fun h => hr h.1]
    exact Writes.nil

/-- The segment for a table of the client when it is required. -/
def requiredSegment (tableClass : UInt8) (bits : Vector UInt8 16) (vals : List UInt8)
    (required : List Nat) (tableIdx : Nat) : List Segment :=
  if tableIdx ∈ required then [clientSegment tableClass bits vals tableIdx] else []

/-- The client's tables that the slices require. -/
def clientHuffmanSegments (huffman : VAHuffmanTableBufferJPEGBaseline) (dc ac : List Nat) :
    List Segment :=
  (List.finRange 2).flatMap fun t =>
    requiredSegment 0 (huffman.huffmanTable t).numDcCodes (huffman.huffmanTable t).dcValues.toList
      dc t ++
    requiredSegment 1 (huffman.huffmanTable t).numAcCodes (huffman.huffmanTable t).acValues.toList
      ac t

/-- The required tables of one index have admissible code counts. -/
def TableOk (huffman : VAHuffmanTableBufferJPEGBaseline) (dc ac : List Nat) (t : Fin 2) : Prop :=
  (t.val ∈ dc → HuffmanOk (huffman.huffmanTable t).numDcCodes 12) ∧
    (t.val ∈ ac → HuffmanOk (huffman.huffmanTable t).numAcCodes 162)

instance (huffman : VAHuffmanTableBufferJPEGBaseline) (dc ac : List Nat) :
    DecidablePred (TableOk huffman dc ac) := fun _ =>
  inferInstanceAs (Decidable ((_ → _) ∧ (_ → _)))

section Client

variable {huffman : VAHuffmanTableBufferJPEGBaseline} {dc ac : List Nat} {dcMask acMask : BitVec 8}

theorem length_requiredTable_le {tableClass : UInt8} {bits : Vector UInt8 16} {vals : List UInt8}
    {required : List Nat} {tableIdx : Nat} (maxVals : Nat) :
    (if tableIdx ∈ required ∧ HuffmanOk bits maxVals then
      (clientSegment tableClass bits vals tableIdx).encode else []).length ≤ 21 + vals.length := by
  split
  · next h =>
    simp only [clientSegment, dhtSegment, Segment.encode, List.length_cons, List.length_append,
      Jfif.length_be16, Vector.length_toList, List.length_take]
    omega
  · simp

theorem writeVATable_writes {tableClass : UInt8} {bits : Vector UInt8 16} {vals : List UInt8}
    {tableIdx : Nat} {maxVals : Nat} {required : List Nat}
    (ht : tableIdx < 8) (hvalid : ∀ t ∈ required, dcMask.getLsbD t = true)
    (hvals : maxVals = vals.length) (hlt : maxVals < 256)
    (hK : maxVals ≤ K (if tableClass = 0 then .dcValues else .acValues))
    (hok : tableIdx ∈ required → HuffmanOk bits maxVals) :
    Writes K (writeVATable tableClass maxVals bits vals (maskOf required) dcMask tableIdx)
      ((requiredSegment tableClass bits vals required tableIdx).flatMap Segment.encode) := by
  have h : Does K (writeVATable _ _ bits _ _ _ _) _ _ _ :=
    writeVATable_does ht hvalid hvals hlt hK
  rw [if_pos hok] at h
  refine Writes.of_eq h ?_
  unfold requiredSegment
  by_cases hr : tableIdx ∈ required
  · simp [hr, hok hr]
  · simp [hr]

/-- All required tables of the client are usable: they are written. -/
theorem writeVAHuffmanTables_writes (hdc : ∀ t ∈ dc, dcMask.getLsbD t = true)
    (hac : ∀ t ∈ ac, acMask.getLsbD t = true) (hok : ∀ t, TableOk huffman dc ac t) :
    Writes (readBounds sliceDataSize)
      (writeVAHuffmanTables huffman (maskOf dc) (maskOf ac) dcMask acMask)
      ((clientHuffmanSegments huffman dc ac).flatMap Segment.encode) := by
  refine (Writes.forM fun t _ => Writes.bind
    (writeVATable_writes (by omega) hdc (by simp) (by decide) (Nat.le_refl 12) (hok t).1)
    (writeVATable_writes (by omega) hac (by simp) (by decide) (Nat.le_refl 162) (hok t).2)).of_eq ?_
  simp only [clientHuffmanSegments, List.flatMap_assoc, List.flatMap_append]

/-- Whatever an attempt with the client's tables writes is shorter than the standard tables. -/
theorem writeVAHuffmanTables_atMost (hdc : ∀ t ∈ dc, dcMask.getLsbD t = true)
    (hac : ∀ t ∈ ac, acMask.getLsbD t = true) :
    AtMost (readBounds sliceDataSize)
      (writeVAHuffmanTables huffman (maskOf dc) (maskOf ac) dcMask acMask)
      (∀ t ∈ List.finRange 2, TableOk huffman dc ac t) 432 := by
  refine AtMost.forM (n := 216) fun t _ => AtMost.bind (a := 33) (b := 183)
    ⟨_, _, writeVATable_does (by omega) hdc (by simp) (by decide) (Nat.le_refl 12), by simp, ?_⟩
    ⟨_, _, writeVATable_does (by omega) hac (by simp) (by decide) (Nat.le_refl 162), by simp, ?_⟩
  · exact Nat.le_trans (length_requiredTable_le 12) (by simp)
  · exact Nat.le_trans (length_requiredTable_le 162) (by simp)

end Client

/-- The client's tables are used: all that the slices require are loaded and admissible. -/
structure UsesClientTables (jpegCtx : JPEGContext) (dc ac : List Nat) : Prop where
  has : jpegCtx.hasHuffmanTable
  loadedDc : ∀ t ∈ dc, jpegCtx.validHuffmanDcMask.getLsbD t = true
  loadedAc : ∀ t ∈ ac, jpegCtx.validHuffmanAcMask.getLsbD t = true
  ok : ∀ t, TableOk jpegCtx.huffmanTable dc ac t

instance (jpegCtx : JPEGContext) (dc ac : List Nat) : Decidable (UsesClientTables jpegCtx dc ac) :=
  decidable_of_iff
    (jpegCtx.hasHuffmanTable ∧ (∀ t ∈ dc, jpegCtx.validHuffmanDcMask.getLsbD t = true) ∧
      (∀ t ∈ ac, jpegCtx.validHuffmanAcMask.getLsbD t = true) ∧
      ∀ t, TableOk jpegCtx.huffmanTable dc ac t)
    ⟨fun ⟨h₁, h₂, h₃, h₄⟩ => ⟨h₁, h₂, h₃, h₄⟩, fun ⟨h₁, h₂, h₃, h₄⟩ => ⟨h₁, h₂, h₃, h₄⟩⟩

/-- The Huffman tables of the frame. -/
def huffmanSegments (jpegCtx : JPEGContext) (dc ac : List Nat) : List Segment :=
  if UsesClientTables jpegCtx dc ac then clientHuffmanSegments jpegCtx.huffmanTable dc ac
  else standardHuffmanSegments

theorem standardHuffmanSegments_length :
    (standardHuffmanSegments.flatMap Segment.encode).length = 432 := by
  simp [standardHuffmanSegments, dhtSegment, Segment.encode]

theorem writeHuffmanTables_writes {jpegCtx : JPEGContext} {n : Nat} {dc ac : List Nat}
    (hdc : ∀ t ∈ dc, t < 8) (hac : ∀ t ∈ ac, t < 8) :
    Writes (readBounds sliceDataSize) (writeHuffmanTables jpegCtx ⟨n, maskOf dc, maskOf ac⟩)
      ((huffmanSegments jpegCtx dc ac).flatMap Segment.encode) := by
  have hstd : Writes (readBounds sliceDataSize) _ _ := writeStandardHuffmanTables_writes
  unfold writeHuffmanTables
  by_cases hmask : jpegCtx.hasHuffmanTable ∧
      (∀ t ∈ dc, jpegCtx.validHuffmanDcMask.getLsbD t = true) ∧
      ∀ t ∈ ac, jpegCtx.validHuffmanAcMask.getLsbD t = true
  · obtain ⟨h₁, h₂, h₃⟩ := hmask
    simp only [and_maskOf_eq _ hdc, and_maskOf_eq _ hac]
    rw [if_pos ⟨h₁, h₂, h₃⟩]
    by_cases hok : ∀ t, TableOk jpegCtx.huffmanTable dc ac t
    · rw [huffmanSegments, if_pos ⟨h₁, h₂, h₃, hok⟩]
      have hw : Writes (readBounds sliceDataSize) _ _ := writeVAHuffmanTables_writes h₂ h₃ hok
      exact Does.congr (Does.bind hw.attempt_some Writes.nil) (List.append_nil _) (by simp)
    · rw [huffmanSegments, if_neg fun h => hok h.ok]
      have hmost : AtMost (readBounds sliceDataSize)
          (writeVAHuffmanTables jpegCtx.huffmanTable _ _ _ _) _ _ :=
            writeVAHuffmanTables_atMost h₂ h₃
      obtain ⟨r, bs, hd, hr, hl⟩ := hmost
      obtain rfl : r = none := by
        cases r with
        | none => rfl
        | some u => exact absurd (fun t => hr.mp rfl t (List.mem_finRange t)) hok
      exact Writes.cover hd.attempt_none hstd
        (Nat.le_trans (by omega) (Nat.le_of_eq standardHuffmanSegments_length.symm))
  · simp only [and_maskOf_eq _ hdc, and_maskOf_eq _ hac]
    rw [if_neg hmask, huffmanSegments, if_neg fun h => hmask ⟨h.has, h.loadedDc, h.loadedAc⟩]
    exact hstd

/-! ## Scans -/

/-- The two bytes of a scan component. -/
def JPEGScanComponent.bytes (c : JPEGScanComponent) : List UInt8 :=
  [c.componentSelector, c.dcTableSelector <<< 4 ||| c.acTableSelector]

def sosSegment (slice : VASliceParameterBufferJPEGBaseline) : Segment :=
  ⟨JPEG_SOS, slice.numComponents :: (slice.comps.flatMap JPEGScanComponent.bytes ++ [0, 63, 0])⟩

theorem writeSOS_writes {slice : VASliceParameterBufferJPEGBaseline}
    (hn : slice.numComponents ≤ JPEG_MAX_COMPONENTS) :
    Writes (readBounds sliceDataSize) (writeSOS slice) (sosSegment slice).encode := by
  have hl := length_flatMap_const slice.comps JPEGScanComponent.bytes 2 fun _ _ => rfl
  have hn' : slice.numComponents.toNat ≤ 4 := UInt8.le_iff_toNat_le.mp hn
  have hloop : Writes (readBounds sliceDataSize) (forM (List.range slice.numComponents.toNat)
      fun i => do
        touch .scanComponents (i + 1)
        emit (slice.components i).bytes) (slice.comps.flatMap JPEGScanComponent.bytes) := by
    refine (Writes.forM (g := fun i => (slice.components i).bytes) fun i hi => ?_).of_eq ?_
    · have hi : i + 1 ≤ 4 := Nat.le_trans (List.mem_range.mp hi) hn'
      exact Writes.bind_reads (Reads.touch hi) (Writes.emit _)
    simp [VASliceParameterBufferJPEGBaseline.comps, List.flatMap_map]
  refine writes_segment (2 + 1 + slice.numComponents.toUInt16 * 2 + 3) ?_ ?_
  · simp only [List.length_cons, List.length_append, List.length_nil, hl,
      VASliceParameterBufferJPEGBaseline.length_comps, UInt16.toNat_add, UInt16.toNat_mul,
      UInt8.toNat_toUInt16, UInt16.reduceToNat]
    omega
  · refine ((Writes.emit _).bind ((write16be_writes _).bind ((Writes.emit _).bind
      (hloop.bind (Writes.emit _))))).of_eq ?_
    simp

theorem copyEcs_writes {pic : VAPictureParameterBufferJPEGBaseline}
    {slice : VASliceParameterBufferJPEGBaseline} (h : SliceOk pic sliceDataSize slice)
    (d : Nat → UInt8) :
    Writes (readBounds sliceDataSize) (copyEcs d slice) (slice.ecs d) := by
  refine Writes.bind_reads (Reads.touch ?_) (Writes.emit _)
  have h₁ := UInt32.le_iff_toNat_le.mp h.offset
  have h₂ := UInt32.le_iff_toNat_le.mp h.size
  rw [UInt32.toNat_sub_of_le _ _ h.offset] at h₂
  simp only [readBounds]
  omega

/-- The DRI segment in front of a scan, when intervals differ. -/
def scanDri (allSameRestart : Bool) (slice : VASliceParameterBufferJPEGBaseline) : List Segment :=
  if !allSameRestart && slice.restartInterval != 0 then [driSegment slice.restartInterval] else []

/-- The bytes of the scans. -/
def scanBytes (s0 : VASliceParameterBufferJPEGBaseline)
    (sl : List VASliceParameterBufferJPEGBaseline) (d : Nat → UInt8) : List UInt8 :=
  if AllSameSOS s0 sl then (sosSegment s0).encode ++ sl.flatMap (·.ecs d)
  else sl.flatMap fun s => (scanDri (decide (AllSameRestart s0 sl)) s).flatMap Segment.encode ++
    ((sosSegment s).encode ++ s.ecs d)

theorem writeScans_writes {pic : VAPictureParameterBufferJPEGBaseline}
    {slices : Nat → VASliceParameterBufferJPEGBaseline} {sliceCount : UInt32} (d : Nat → UInt8)
    (h0 : sliceList slices sliceCount ≠ [])
    (hs : ∀ s ∈ sliceList slices sliceCount, SliceOk pic sliceDataSize s) :
    Writes (readBounds sliceDataSize)
      (writeScans slices sliceCount.toNat d
        (decide (AllSameSOS (slices 0) (sliceList slices sliceCount)))
        (decide (AllSameRestart (slices 0) (sliceList slices sliceCount))))
      (scanBytes (slices 0) (sliceList slices sliceCount) d) := by
  have hs' : ∀ i ∈ List.range sliceCount.toNat, SliceOk pic sliceDataSize (slices i) :=
    fun i hi => hs _ (List.mem_map_of_mem hi)
  unfold writeScans scanBytes
  by_cases hsame : AllSameSOS (slices 0) (sliceList slices sliceCount)
  · rw [if_pos (decide_eq_true hsame), if_pos hsame]
    have hpos : 0 < sliceCount.toNat := by
      rw [← length_sliceList slices]
      exact List.length_pos_iff.mpr h0
    refine (Writes.bind (writeSOS_writes (hs' 0 (List.mem_range.mpr hpos)).count.2)
      (Writes.forM fun i hi => copyEcs_writes (hs' i hi) d)).of_eq ?_
    rw [sliceList, List.flatMap_map]
  · rw [if_neg (by simpa using hsame), if_neg hsame]
    refine (Writes.forM (g := fun i =>
      (scanDri (decide (AllSameRestart (slices 0) (sliceList slices sliceCount)))
        (slices i)).flatMap Segment.encode ++ ((sosSegment (slices i)).encode ++ (slices i).ecs d))
      fun i hi => ?_).of_eq (by rw [sliceList, List.flatMap_map])
    have hsos : Writes (readBounds sliceDataSize) _ _ := writeSOS_writes (hs' i hi).count.2
    have htail := hsos.bind
      (f := fun _ => copyEcs d (slices i)) (copyEcs_writes (hs' i hi) d)
    unfold scanDri
    split
    · refine (Writes.bind (writeDRI_writes _) htail).of_eq ?_
      simp
    · exact htail

end NvVaapi
