import NvVaapi.Jpeg.Frame

/-!
# Reading the frame back

What a reader of the interchange format finds in the segments that are written.

* `frameHeaderOf`, `quantTable`, `dcTable`, `acTable`, `scanHeaderOf`: what the client's data says
  as the reader would put it. Sampling factors share a byte, so they read back as they are only
  below 16 (`readFrameHeader_eq`).
* `headSegments_define`: the segments before the first scan define exactly that (`headHeader`).
* `parseSOS_sosSegment`: a scan header is read back.
* `readImage_shared`, `readImage_single`: the scans that a reader finds, when the slices share one
  scan header and when each has its own.
-/

namespace NvVaapi

open Jfif (Segment Header DefinesQuant DefinesHuffman)

/-! ## What is to be read -/

/-- The frame header that the picture parameters describe. -/
def frameHeaderOf (pic : VAPictureParameterBufferJPEGBaseline) : Jfif.FrameHeader :=
  ⟨8, pic.pictureHeight, pic.pictureWidth, pic.comps.map fun c =>
    ⟨c.componentId, c.hSamplingFactor.toNat, c.vSamplingFactor.toNat, c.quantiserTableSelector⟩⟩

/-- The byte that holds both sampling factors. -/
def JPEGFrameComponent.sampling (c : JPEGFrameComponent) : UInt8 :=
  c.hSamplingFactor <<< 4 ||| c.vSamplingFactor

/-- The frame header that is read back. -/
def readFrameHeader (pic : VAPictureParameterBufferJPEGBaseline) : Jfif.FrameHeader :=
  ⟨8, pic.pictureHeight, pic.pictureWidth, pic.comps.map fun c =>
    ⟨c.componentId, c.sampling.toNat / 16, c.sampling.toNat % 16, c.quantiserTableSelector⟩⟩

theorem readFrameHeader_eq {pic : VAPictureParameterBufferJPEGBaseline}
    (hs : ∀ c ∈ pic.comps, c.hSamplingFactor < 16 ∧ c.vSamplingFactor < 16) :
    readFrameHeader pic = frameHeaderOf pic := by
  refine congrArg (Jfif.FrameHeader.mk _ _ _) (List.map_congr_left fun c hc => ?_)
  have hv : c.vSamplingFactor.toNat < 16 := UInt8.lt_iff_toNat_lt.mp (hs c hc).2
  rw [JPEGFrameComponent.sampling, Jfif.toNat_nibbles (hs c hc).1 (hs c hc).2]
  congr 1 <;> omega

def quantTable (iq : VAIQMatrixBufferJPEGBaseline) (t : Fin 4) : Jfif.QuantTable :=
  ⟨t, (iq.quantiserTable t).toList⟩

/-- A table of the client: its counts, and as many of its values as they add up to. -/
def clientTable (cls : Nat) (bits : Vector UInt8 16) (vals : List UInt8) (t : Nat) :
    Jfif.HuffmanTable :=
  ⟨cls, t, bits.toList, vals.take (Jfif.codeCount bits.toList)⟩

def clientDcTable (huffman : VAHuffmanTableBufferJPEGBaseline) (t : Fin 2) : Jfif.HuffmanTable :=
  clientTable 0 (huffman.huffmanTable t).numDcCodes (huffman.huffmanTable t).dcValues.toList t

def clientAcTable (huffman : VAHuffmanTableBufferJPEGBaseline) (t : Fin 2) : Jfif.HuffmanTable :=
  clientTable 1 (huffman.huffmanTable t).numAcCodes (huffman.huffmanTable t).acValues.toList t

def standardDcTable : Fin 2 → Jfif.HuffmanTable
  | 0 => ⟨0, 0, dcLuminanceBits.toList, dcLuminanceVals.toList⟩
  | 1 => ⟨0, 1, dcChrominanceBits.toList, dcChrominanceVals.toList⟩

def standardAcTable : Fin 2 → Jfif.HuffmanTable
  | 0 => ⟨1, 0, acLuminanceBits.toList, acLuminanceVals.toList⟩
  | 1 => ⟨1, 1, acChrominanceBits.toList, acChrominanceVals.toList⟩

/-- The DC table `t` of a frame whose slices select the tables `dc` and `ac`. -/
def dcTable (jpegCtx : JPEGContext) (dc ac : List Nat) (t : Fin 2) : Jfif.HuffmanTable :=
  if UsesClientTables jpegCtx dc ac then clientDcTable jpegCtx.huffmanTable t
  else standardDcTable t

def acTable (jpegCtx : JPEGContext) (dc ac : List Nat) (t : Fin 2) : Jfif.HuffmanTable :=
  if UsesClientTables jpegCtx dc ac then clientAcTable jpegCtx.huffmanTable t
  else standardAcTable t

/-- The scan header that the slice parameters describe. -/
def scanHeaderOf (slice : VASliceParameterBufferJPEGBaseline) : Jfif.ScanHeader :=
  ⟨slice.comps.map fun c =>
    ⟨c.componentSelector, c.dcTableSelector.toNat, c.acTableSelector.toNat⟩, 0, 63, 0⟩

/-- The Huffman tables that are defined, in order. -/
def huffmanTables (jpegCtx : JPEGContext) (dc ac : List Nat) : List Jfif.HuffmanTable :=
  if UsesClientTables jpegCtx dc ac then
    (List.finRange 2).flatMap fun t =>
      (if t.val ∈ dc then [clientDcTable jpegCtx.huffmanTable t] else []) ++
      (if t.val ∈ ac then [clientAcTable jpegCtx.huffmanTable t] else [])
  else [standardDcTable 0, standardDcTable 1, standardAcTable 0, standardAcTable 1]

/-- What is defined in front of the first scan. -/
def headHeader (jpegCtx : JPEGContext) (s0 : VASliceParameterBufferJPEGBaseline)
    (sl : List VASliceParameterBufferJPEGBaseline) : Header where
  frames := [readFrameHeader jpegCtx.picParams]
  quant := ((List.finRange 4).filter (QuantUsed jpegCtx.picParams)).map
    (quantTable jpegCtx.iqMatrix)
  huffman := huffmanTables jpegCtx (dcSelectors sl) (acSelectors sl)
  restart := if AllSameRestart s0 sl then s0.restartInterval else 0

/-! ## Reading the segments -/

theorem sof0Segment_add (pic : VAPictureParameterBufferJPEGBaseline) (h : Header) :
    h.add (sof0Segment pic) = some { h with frames := h.frames ++ [readFrameHeader pic] } :=
  Header.add_sof0 h (Jfif.parseFrameComponents_flatMap _ _ _ fun _ _ => ⟨_, _, _, rfl, rfl⟩)
    (by simp)

theorem dqtSegment_defines (iq : VAIQMatrixBufferJPEGBaseline) (t : Fin 4) :
    DefinesQuant (dqtSegment iq t) (quantTable iq t) := fun h =>
  Header.add_dqt h (by omega) (by simp)

theorem dqtSegments_define (iq : VAIQMatrixBufferJPEGBaseline)
    (pic : VAPictureParameterBufferJPEGBaseline) (h : Header) :
    (dqtSegments iq pic (List.finRange 4)).foldlM Header.add h =
      some { h with quant := h.quant ++
        ((List.finRange 4).filter (QuantUsed pic)).map (quantTable iq) } := by
  refine Jfif.foldlM_definesQuant ?_ h
  rw [dqtSegments, List.forall₂_map_left_iff, List.forall₂_map_right_iff]
  exact List.forall₂_same.mpr fun t _ => dqtSegment_defines iq t

theorem dhtSegment_defines {bits : Vector UInt8 16} {vals : List UInt8} {cls id : UInt8} {n : Nat}
    (hcls : cls < 16) (hid : id < 16) (hn : n = Jfif.codeCount bits.toList)
    (hv : n ≤ vals.length) :
    DefinesHuffman (dhtSegment bits vals cls id n)
      ⟨cls.toNat, id.toNat, bits.toList, vals.take n⟩ := by
  intro h
  have hid' : id.toNat < 16 := UInt8.lt_iff_toNat_lt.mp hid
  have hcount : (vals.take n).length = Jfif.codeCount bits.toList := by
    rw [List.length_take, ← hn]
    omega
  have hadd := Header.add_dht h (cls <<< 4 ||| id) (by simp) hcount
  rw [Jfif.toNat_nibbles hcls hid] at hadd
  rw [dhtSegment, show (JPEG_DHT : UInt8) = Jfif.DHT from rfl, hadd]
  have h₁ : (cls.toNat * 16 + id.toNat) / 16 = cls.toNat := by omega
  have h₂ : (cls.toNat * 16 + id.toNat) % 16 = id.toNat := by omega
  rw [h₁, h₂]

theorem clientSegment_defines {cls : UInt8} {bits : Vector UInt8 16} {vals : List UInt8} {t : Nat}
    (hcls : cls < 16) (ht : t < 2) (hok : HuffmanOk bits vals.length) :
    DefinesHuffman (clientSegment cls bits vals t) (clientTable cls.toNat bits vals t) := by
  have hid : (UInt8.ofNat t).toNat = t := by
    rw [UInt8.toNat_ofNat', Nat.mod_eq_of_lt (by omega)]
  have h := @dhtSegment_defines bits vals _ (UInt8.ofNat t) _ hcls
    (UInt8.lt_iff_toNat_lt.mpr (by rw [hid]; exact Nat.lt_trans ht (by decide))) rfl hok.2
  rwa [hid] at h

/-- The standard tables define themselves. -/
theorem standardHuffmanSegments_define : List.Forall₂ DefinesHuffman standardHuffmanSegments
    [standardDcTable 0, standardDcTable 1, standardAcTable 0, standardAcTable 1] := by
  refine .cons ?_ (.cons ?_ (.cons ?_ (.cons ?_ .nil)))
  · exact dhtSegment_defines (by decide) (by decide) (by decide) (by simp)
  · exact dhtSegment_defines (by decide) (by decide) (by decide) (by simp)
  · exact dhtSegment_defines (by decide) (by decide) (by decide) (by simp)
  · exact dhtSegment_defines (by decide) (by decide) (by decide) (by simp)

theorem requiredSegment_defines {cls : UInt8} {bits : Vector UInt8 16} {vals : List UInt8}
    {required : List Nat} {t : Nat} (hcls : cls < 16) (ht : t < 2)
    (hok : t ∈ required → HuffmanOk bits vals.length) :
    List.Forall₂ DefinesHuffman (requiredSegment cls bits vals required t)
      (if t ∈ required then [clientTable cls.toNat bits vals t] else []) := by
  unfold requiredSegment
  by_cases h : t ∈ required
  · rw [if_pos h, if_pos h]
    exact .cons (clientSegment_defines hcls ht (hok h)) .nil
  · rw [if_neg h, if_neg h]
    exact .nil

theorem forall₂_flatMap {α β γ : Type} {R : β → γ → Prop} (xs : List α) {f : α → List β}
    {g : α → List γ} (h : ∀ x ∈ xs, List.Forall₂ R (f x) (g x)) :
    List.Forall₂ R (xs.flatMap f) (xs.flatMap g) := by
  induction xs with
  | nil => exact .nil
  | cons x xs ih =>
    rw [List.flatMap_cons, List.flatMap_cons]
    exact List.rel_append (h x (List.mem_cons_self ..))
      (ih fun y hy => h y (List.mem_cons_of_mem _ hy))

theorem huffmanSegments_define (jpegCtx : JPEGContext) (dc ac : List Nat) :
    List.Forall₂ DefinesHuffman (huffmanSegments jpegCtx dc ac)
      (huffmanTables jpegCtx dc ac) := by
  unfold huffmanSegments huffmanTables
  by_cases h : UsesClientTables jpegCtx dc ac
  · rw [if_pos h, if_pos h]
    refine forall₂_flatMap _ fun t _ => List.rel_append ?_ ?_
    · exact requiredSegment_defines (by decide) t.isLt (by simpa using (h.ok t).1)
    · exact requiredSegment_defines (by decide) t.isLt (by simpa using (h.ok t).2)
  · rw [if_neg h, if_neg h]
    exact standardHuffmanSegments_define

/-- The segments in front of the first scan define what the client's data describes. -/
theorem headSegments_define (jpegCtx : JPEGContext) (s0 : VASliceParameterBufferJPEGBaseline)
    (sl : List VASliceParameterBufferJPEGBaseline) :
    (headSegments jpegCtx s0 sl).foldlM Header.add .empty =
      some (headHeader jpegCtx s0 sl) := by
  have happ : Header.empty.add app0Segment = some .empty := by decide
  rw [headSegments, List.foldlM_cons, happ, Option.bind_eq_bind, Option.bind_some,
    List.foldlM_append, dqtSegments_define, Option.bind_eq_bind, Option.bind_some,
    List.foldlM_cons, sof0Segment_add, Option.bind_eq_bind, Option.bind_some,
    List.foldlM_append, Jfif.foldlM_definesHuffman (huffmanSegments_define _ _ _),
    Option.bind_eq_bind, Option.bind_some]
  unfold headDri headHeader
  by_cases h : AllSameRestart s0 sl
  · by_cases h0 : s0.restartInterval = 0
    · simp [h, h0, Header.empty]
    · simp only [h, h0, decide_true, Bool.true_and, bne_iff_ne, ne_eq, not_false_eq_true, if_true,
        List.foldlM_cons, driSegment, show JPEG_DRI = Jfif.DRI from rfl, Header.add_dri]
      rfl
  · simp [h, Header.empty]

/-- A scan header is read back. -/
theorem parseSOS_sosSegment {pic : VAPictureParameterBufferJPEGBaseline}
    {slice : VASliceParameterBufferJPEGBaseline}
    (h : ∀ c ∈ slice.comps, ScanComponentOk pic c) :
    Jfif.parseSOS (sosSegment slice).payload = some (scanHeaderOf slice) := by
  have hp := Jfif.parseScanComponents_flatMap slice.comps JPEGScanComponent.bytes
    (fun c => ⟨c.componentSelector, c.dcTableSelector.toNat, c.acTableSelector.toNat⟩) [0, 63, 0]
    fun c hc => by
      obtain ⟨-, hdc, hac⟩ := h c hc
      have hac' : c.acTableSelector.toNat ≤ 1 := UInt8.le_iff_toNat_le.mp hac
      refine ⟨_, _, rfl, ?_⟩
      rw [Jfif.toNat_nibbles (UInt8.lt_of_le_of_lt hdc (by decide))
        (UInt8.lt_of_le_of_lt hac (by decide))]
      congr 1 <;> omega
  rw [VASliceParameterBufferJPEGBaseline.length_comps] at hp
  rw [sosSegment, Jfif.parseSOS, hp]
  rfl

/-! ## The segments fit their length fields -/

theorem dhtSegment_fits {bits : Vector UInt8 16} {vals : List UInt8} {cls id : UInt8} {n : Nat}
    (h : vals.length ≤ 162) : (dhtSegment bits vals cls id n).Fits := by
  simp only [Segment.Fits, dhtSegment, List.length_cons, List.length_append, List.length_take,
    Vector.length_toList]
  omega

theorem requiredSegment_fits {cls : UInt8} {bits : Vector UInt8 16} {vals : List UInt8}
    {required : List Nat} {t : Nat} (h : vals.length ≤ 162) :
    ∀ s ∈ requiredSegment cls bits vals required t, s.Fits ∧ s.marker ≠ Jfif.SOS := by
  intro s hs
  unfold requiredSegment at hs
  split at hs
  · obtain rfl := List.mem_singleton.mp hs
    exact ⟨dhtSegment_fits h, show JPEG_DHT ≠ _ by decide⟩
  · cases hs

theorem huffmanSegments_fit (jpegCtx : JPEGContext) (dc ac : List Nat) :
    ∀ s ∈ huffmanSegments jpegCtx dc ac, s.Fits ∧ s.marker ≠ Jfif.SOS := by
  intro s hs
  unfold huffmanSegments at hs
  split at hs
  · obtain ⟨t, -, hs⟩ := List.mem_flatMap.mp hs
    rcases List.mem_append.mp hs with hs | hs
    · exact requiredSegment_fits (by simp) s hs
    · exact requiredSegment_fits (by simp) s hs
  · simp only [standardHuffmanSegments, List.mem_cons, List.not_mem_nil, or_false] at hs
    rcases hs with rfl | rfl | rfl | rfl
    all_goals exact ⟨dhtSegment_fits (by simp), by decide⟩

theorem headSegments_fit (jpegCtx : JPEGContext) (s0 : VASliceParameterBufferJPEGBaseline)
    (sl : List VASliceParameterBufferJPEGBaseline) :
    ∀ s ∈ headSegments jpegCtx s0 sl, s.Fits ∧ s.marker ≠ Jfif.SOS := by
  intro s hs
  simp only [headSegments, List.mem_cons, List.mem_append] at hs
  rcases hs with rfl | hs | rfl | hs | hs
  · exact ⟨show 16 < 65536 by decide, by decide⟩
  · obtain ⟨t, -, rfl⟩ := List.mem_map.mp hs
    exact ⟨by simp [Segment.Fits, dqtSegment], show JPEG_DQT ≠ _ by decide⟩
  · have := jpegCtx.picParams.numComponents.toNat_lt
    refine ⟨?_, show JPEG_SOF0 ≠ _ by decide⟩
    simp only [Segment.Fits, sof0Segment, List.length_cons, List.length_append, Jfif.length_be16,
      List.length_nil, length_flatMap_const _ JPEGFrameComponent.bytes 3 fun _ _ => rfl,
      VAPictureParameterBufferJPEGBaseline.length_comps]
    omega
  · exact huffmanSegments_fit _ _ _ s hs
  · unfold headDri at hs
    split at hs
    · obtain rfl := List.mem_singleton.mp hs
      exact ⟨show 4 < 65536 by decide, show JPEG_DRI ≠ _ by decide⟩
    · cases hs

theorem sosSegment_fits (slice : VASliceParameterBufferJPEGBaseline) : (sosSegment slice).Fits := by
  have := slice.numComponents.toNat_lt
  simp only [Segment.Fits, sosSegment, List.length_cons, List.length_append, List.length_nil,
    length_flatMap_const _ JPEGScanComponent.bytes 2 fun _ _ => rfl,
    VASliceParameterBufferJPEGBaseline.length_comps]
  omega

/-! ## The scans -/

section Scans

variable {jpegCtx : JPEGContext} {s0 : VASliceParameterBufferJPEGBaseline}
  {sl : List VASliceParameterBufferJPEGBaseline} {d : Nat → UInt8} {sliceDataSize : UInt32}

/-- The definitions in effect for a scan that may have its own DRI segment. -/
def scanHeaderState (allSameRestart : Bool) (h : Header)
    (s : VASliceParameterBufferJPEGBaseline) : Header :=
  if !allSameRestart && s.restartInterval != 0 then { h with restart := s.restartInterval } else h

/-- The scans of slices with a scan header each, read from the definitions `h` on. -/
def scansFrom (allSameRestart : Bool) (d : Nat → UInt8) :
    Header → List VASliceParameterBufferJPEGBaseline → List Jfif.Scan
  | _, [] => []
  | h, s :: sl =>
    ⟨scanHeaderOf s, scanHeaderState allSameRestart h s, s.ecs d⟩ ::
      scansFrom allSameRestart d (scanHeaderState allSameRestart h s) sl

theorem scanDri_define (a : Bool) (h : Header) (s : VASliceParameterBufferJPEGBaseline) :
    (scanDri a s).foldlM Header.add h = some (scanHeaderState a h s) := by
  unfold scanDri scanHeaderState
  split
  · simp only [List.foldlM_cons, driSegment, show JPEG_DRI = Jfif.DRI from rfl, Header.add_dri]
    rfl
  · rfl

theorem scanDri_fit (a : Bool) (s : VASliceParameterBufferJPEGBaseline) :
    ∀ seg ∈ scanDri a s, seg.Fits ∧ seg.marker ≠ Jfif.SOS := by
  intro seg hseg
  unfold scanDri at hseg
  split at hseg
  · obtain rfl := List.mem_singleton.mp hseg
    exact ⟨show 4 < 65536 by decide, show JPEG_DRI ≠ _ by decide⟩
  · cases hseg

/-- Slices with a scan header each are read back as one scan each. -/
theorem readScans_scansFrom {pic : VAPictureParameterBufferJPEGBaseline} (a : Bool) (h : Header)
    (hs : ∀ s ∈ sl, ∀ c ∈ s.comps, ScanComponentOk pic c) (rest : List UInt8) :
    Jfif.readScans (sl.map (·.sliceDataSize.toNat)) h
      ((sl.flatMap fun s => (scanDri a s).flatMap Segment.encode ++
        ((sosSegment s).encode ++ s.ecs d)) ++ rest) = some (scansFrom a d h sl, rest) := by
  induction sl generalizing h with
  | nil => rfl
  | cons s sl ih =>
    have hscan := Jfif.readScans_cons (s.ecs d) (fun seg hseg => (scanDri_fit a s seg hseg).1)
      (fun seg hseg => (scanDri_fit a s seg hseg).2) (sosSegment_fits s) rfl
      (scanDri_define a h s) (parseSOS_sosSegment (hs s (List.mem_cons_self ..)))
      (ih (scanHeaderState a h s) fun t ht => hs t (List.mem_cons_of_mem _ ht))
    rw [VASliceParameterBufferJPEGBaseline.length_ecs] at hscan
    rw [List.flatMap_cons, List.map_cons, List.append_assoc, List.append_assoc, List.append_assoc,
      hscan, scansFrom]

/-- The lengths of the entropy-coded parts of the frame, scan by scan. -/
def scanLengths (s0 : VASliceParameterBufferJPEGBaseline)
    (sl : List VASliceParameterBufferJPEGBaseline) : List Nat :=
  if AllSameSOS s0 sl then [totalEcs sl] else sl.map (·.sliceDataSize.toNat)

/-- What follows the scans of a frame. -/
def frameTail (jpegCtx : JPEGContext) (s0 : VASliceParameterBufferJPEGBaseline)
    (sl : List VASliceParameterBufferJPEGBaseline) (d : Nat → UInt8) : List UInt8 :=
  eoiBytes (bodyBytes jpegCtx s0 sl d)

theorem frameBytes_eq : frameBytes jpegCtx s0 sl d = 0xFF :: 0xD8 ::
    ((headSegments jpegCtx s0 sl).flatMap Segment.encode ++
      (scanBytes s0 sl d ++ frameTail jpegCtx s0 sl d)) := by
  rw [frameBytes, bodyBytes, frameTail, List.append_assoc, List.append_assoc]
  rfl

/-- The scan that the slices share. -/
theorem readImage_shared (hok : FrameOk jpegCtx sl sliceDataSize) (h0 : s0 ∈ sl)
    (hsame : AllSameSOS s0 sl) :
    Jfif.readImage (scanLengths s0 sl) (frameBytes jpegCtx s0 sl d) =
      some ([⟨scanHeaderOf s0, headHeader jpegCtx s0 sl, sl.flatMap (·.ecs d)⟩],
        frameTail jpegCtx s0 sl d) := by
  rw [frameBytes_eq, scanLengths, if_pos hsame, scanBytes, if_pos hsame, List.append_assoc,
    ← ecs_flatMap_length sl d]
  exact Jfif.readScans_cons _ (fun seg hseg => (headSegments_fit _ _ _ seg hseg).1)
    (fun seg hseg => (headSegments_fit _ _ _ seg hseg).2) (sosSegment_fits s0) rfl
    (headSegments_define _ _ _) (parseSOS_sosSegment (hok.slice s0 h0).comps) rfl

/-- The scans of slices with a scan header each. -/
theorem readImage_single (hok : FrameOk jpegCtx (s0 :: sl) sliceDataSize)
    (hsame : ¬ AllSameSOS s0 (s0 :: sl)) :
    Jfif.readImage (scanLengths s0 (s0 :: sl)) (frameBytes jpegCtx s0 (s0 :: sl) d) =
      some (scansFrom (decide (AllSameRestart s0 (s0 :: sl))) d
        (headHeader jpegCtx s0 (s0 :: sl)) (s0 :: sl), frameTail jpegCtx s0 (s0 :: sl) d) := by
  let a := decide (AllSameRestart s0 (s0 :: sl))
  let h := headHeader jpegCtx s0 (s0 :: sl)
  have hcomps : ∀ s ∈ s0 :: sl, ∀ c ∈ s.comps, ScanComponentOk jpegCtx.picParams c :=
    fun s hs => (hok.slice s hs).comps
  -- the first scan also has the segments of the frame's head in front of it
  have hfirst :=
    Jfif.readScans_cons (s0.ecs d) (fun seg hseg =>
      (List.mem_append.mp hseg).elim (fun h => (headSegments_fit _ _ _ seg h).1)
      fun h => (scanDri_fit _ _ seg h).1)
    (fun seg hseg => (List.mem_append.mp hseg).elim (fun h => (headSegments_fit _ _ _ seg h).2)
      fun h => (scanDri_fit _ _ seg h).2)
    (sosSegment_fits s0) rfl
    (by rw [List.foldlM_append, headSegments_define]; exact scanDri_define a h s0)
    (parseSOS_sosSegment (hcomps s0 (List.mem_cons_self ..)))
    (readScans_scansFrom (d := d) a (scanHeaderState a h s0)
      (fun s hs => hcomps s (List.mem_cons_of_mem _ hs)) (frameTail jpegCtx s0 (s0 :: sl) d))
  rw [frameBytes_eq, scanLengths, if_neg hsame, scanBytes, if_neg hsame]
  rw [VASliceParameterBufferJPEGBaseline.length_ecs, List.flatMap_append] at hfirst
  simp only [List.flatMap_cons, List.map_cons, List.append_assoc] at hfirst ⊢
  exact hfirst

end Scans

end NvVaapi
