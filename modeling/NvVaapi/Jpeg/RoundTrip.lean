import NvVaapi.Jpeg.Reading
import NvVaapi.Jpeg.Safety

/-!
# The header round trip of `reconstructJPEG`

* `HeaderRecovered`: the header that is read back is the one that the client's data describes.
* `ScanDefined`: every table that a scan or the frame refers to is defined.
* `reconstructJPEG_roundTrip`: both hold of every frame that is rebuilt, and the data of slices that
  share a scan header is found between that header and the final EOI.
-/

namespace NvVaapi

open Emit (Buf)
open Jfif (Segment Header)

/-! ## Statements -/

/-- The header that is read back is the one that the client's data describes: the frame header, the
selected quantiser tables, and one definition for each selected Huffman table. -/
structure HeaderRecovered (jpegCtx : JPEGContext)
    (sl : List VASliceParameterBufferJPEGBaseline) (header : Header) : Prop where
  frames : header.frames = [frameHeaderOf jpegCtx.picParams]
  quant : ∀ t : Fin 4, t.val ∈ jpegCtx.picParams.quantSelectors →
    header.quant.filter (·.id = t.val) = [quantTable jpegCtx.iqMatrix t]
  dc : ∀ t : Fin 2, t.val ∈ dcSelectors sl →
    header.huffman.filter (fun x => x.cls = 0 ∧ x.id = t.val) =
      [dcTable jpegCtx (dcSelectors sl) (acSelectors sl) t]
  ac : ∀ t : Fin 2, t.val ∈ acSelectors sl →
    header.huffman.filter (fun x => x.cls = 1 ∧ x.id = t.val) =
      [acTable jpegCtx (dcSelectors sl) (acSelectors sl) t]

/-- Every table that the frame or the scan refers to is defined in front of the scan. -/
structure ScanDefined (scan : Jfif.Scan) : Prop where
  quant : ∀ f ∈ scan.header.frames, ∀ c ∈ f.components, ∃ q ∈ scan.header.quant, q.id = c.tq.toNat
  dc : ∀ c ∈ scan.scan.components, ∃ t ∈ scan.header.huffman, t.cls = 0 ∧ t.id = c.dc
  ac : ∀ c ∈ scan.scan.components, ∃ t ∈ scan.header.huffman, t.cls = 1 ∧ t.id = c.ac

/-! ## The header -/

section Header

variable {jpegCtx : JPEGContext} {s0 : VASliceParameterBufferJPEGBaseline}
  {sl : List VASliceParameterBufferJPEGBaseline} {d : Nat → UInt8} {sliceDataSize : UInt32}

theorem headHeader_quant {t : Fin 4} (h : t.val ∈ jpegCtx.picParams.quantSelectors) :
    (headHeader jpegCtx s0 sl).quant.filter (·.id = t.val) = [quantTable jpegCtx.iqMatrix t] := by
  have hf : ((List.finRange 4).filter (QuantUsed jpegCtx.picParams)).filter (·.val = t.val) =
      [t] := by
    rw [List.filter_filter]
    have hu : QuantUsed jpegCtx.picParams t := h
    have : ∀ x : Fin 4, (decide (x.val = t.val) && decide (QuantUsed jpegCtx.picParams x)) =
        decide (x = t) := fun x => by
      by_cases hx : x = t
      · simp [hx, hu]
      · simp [hx, Fin.val_inj]
    simp only [this]
    exact (by decide : ∀ t : Fin 4, (List.finRange 4).filter (fun x => decide (x = t)) = [t]) t
  rw [headHeader, List.filter_map]
  exact (congrArg _ hf).trans rfl

/-- The one definition of a table in a list of optional definitions for both classes. -/
theorem filter_tables (dc ac : List Nat) (f g : Fin 2 → Jfif.HuffmanTable)
    (hf : ∀ t, (f t).cls = 0 ∧ (f t).id = t.val) (hg : ∀ t, (g t).cls = 1 ∧ (g t).id = t.val)
    (t : Fin 2) :
    (t.val ∈ dc → ((List.finRange 2).flatMap fun t => (if t.val ∈ dc then [f t] else []) ++
      (if t.val ∈ ac then [g t] else [])).filter (fun x => x.cls = 0 ∧ x.id = t.val) = [f t]) ∧
    (t.val ∈ ac → ((List.finRange 2).flatMap fun t => (if t.val ∈ dc then [f t] else []) ++
      (if t.val ∈ ac then [g t] else [])).filter (fun x => x.cls = 1 ∧ x.id = t.val) = [g t]) := by
  have hone : ∀ (p : Prop) [Decidable p] (x : Jfif.HuffmanTable) (q : Jfif.HuffmanTable → Bool),
      (if p then [x] else []).filter q = if p ∧ q x then [x] else [] := by
    intro p _ x q
    by_cases hp : p <;> cases hq : q x <;> simp [hp, hq]
  simp only [List.finRange_succ, List.finRange_zero, List.map_nil, List.map_cons,
    List.flatMap_cons, List.flatMap_nil, List.append_nil, List.filter_append, hone,
    hf, hg, Fin.succ_zero_eq_one]
  match t with
  | 0 => exact ⟨fun h => by simp [show 0 ∈ dc from h], fun h => by simp [show 0 ∈ ac from h]⟩
  | 1 => exact ⟨fun h => by simp [show 1 ∈ dc from h], fun h => by simp [show 1 ∈ ac from h]⟩

theorem headHeader_huffman (t : Fin 2) :
    (t.val ∈ dcSelectors sl →
      (headHeader jpegCtx s0 sl).huffman.filter (fun x => x.cls = 0 ∧ x.id = t.val) =
        [dcTable jpegCtx (dcSelectors sl) (acSelectors sl) t]) ∧
    (t.val ∈ acSelectors sl →
      (headHeader jpegCtx s0 sl).huffman.filter (fun x => x.cls = 1 ∧ x.id = t.val) =
        [acTable jpegCtx (dcSelectors sl) (acSelectors sl) t]) := by
  unfold headHeader huffmanTables dcTable acTable
  by_cases h : UsesClientTables jpegCtx (dcSelectors sl) (acSelectors sl)
  · simp only [if_pos h]
    exact filter_tables _ _ _ _ (fun t => ⟨rfl, rfl⟩) (fun t => ⟨rfl, rfl⟩) t
  · simp only [if_neg h]
    match t with
    | 0 => exact ⟨fun _ => rfl, fun _ => rfl⟩
    | 1 => exact ⟨fun _ => rfl, fun _ => rfl⟩

theorem headHeader_recovered
    (hs : ∀ c ∈ jpegCtx.picParams.comps, c.hSamplingFactor < 16 ∧ c.vSamplingFactor < 16)
    (s0 : VASliceParameterBufferJPEGBaseline) (sl : List VASliceParameterBufferJPEGBaseline) :
    HeaderRecovered jpegCtx sl (headHeader jpegCtx s0 sl) where
  frames := congrArg ([·]) (readFrameHeader_eq hs)
  quant := fun _ h => headHeader_quant h
  dc := fun t => (headHeader_huffman t).1
  ac := fun t => (headHeader_huffman t).2

end Header

/-! ## The scans -/

section Scans

variable {jpegCtx : JPEGContext} {s0 : VASliceParameterBufferJPEGBaseline}
  {sl : List VASliceParameterBufferJPEGBaseline} {d : Nat → UInt8} {sliceDataSize : UInt32}

theorem exists_of_filter {α : Type} {xs : List α} {p : α → Bool} {x : α}
    (h : xs.filter p = [x]) : ∃ y ∈ xs, p y = true := by
  have hx : x ∈ xs.filter p := by rw [h]; exact List.mem_singleton_self x
  exact ⟨x, (List.mem_filter.mp hx).1, (List.mem_filter.mp hx).2⟩

/-- With the recovered definitions, a scan of one of the slices refers to defined tables. -/
theorem scanDefined_of_recovered (hok : FrameOk jpegCtx sl sliceDataSize) {scan : Jfif.Scan}
    {s : VASliceParameterBufferJPEGBaseline} (hs : s ∈ sl)
    (hr : HeaderRecovered jpegCtx sl scan.header) (hscan : scan.scan = scanHeaderOf s) :
    ScanDefined scan where
  quant := by
    intro f hf c hc
    rw [hr.frames, List.mem_singleton] at hf
    subst hf
    obtain ⟨c', hc', rfl⟩ := List.mem_map.mp hc
    have hsel : c'.quantiserTableSelector.toNat ∈ jpegCtx.picParams.quantSelectors :=
      List.mem_map_of_mem hc'
    obtain ⟨q, hq, hid⟩ := exists_of_filter (hr.quant ⟨_, hok.selectors _ hsel⟩ hsel)
    exact ⟨q, hq, by simpa using hid⟩
  dc := by
    intro c hc
    rw [hscan] at hc
    obtain ⟨c', hc', rfl⟩ := List.mem_map.mp hc
    have hsel : c'.dcTableSelector.toNat ∈ dcSelectors sl :=
      List.mem_flatMap.mpr ⟨s, hs, List.mem_map_of_mem hc'⟩
    obtain ⟨t, ht, hid⟩ := exists_of_filter
      (hr.dc ⟨_, dcSelectors_lt hok.slice _ hsel⟩ hsel)
    exact ⟨t, ht, by simpa using hid⟩
  ac := by
    intro c hc
    rw [hscan] at hc
    obtain ⟨c', hc', rfl⟩ := List.mem_map.mp hc
    have hsel : c'.acTableSelector.toNat ∈ acSelectors sl :=
      List.mem_flatMap.mpr ⟨s, hs, List.mem_map_of_mem hc'⟩
    obtain ⟨t, ht, hid⟩ := exists_of_filter
      (hr.ac ⟨_, acSelectors_lt hok.slice _ hsel⟩ hsel)
    exact ⟨t, ht, by simpa using hid⟩

/-- A DRI segment changes nothing that `HeaderRecovered` speaks about. -/
theorem HeaderRecovered.scanHeaderState {h : Header} (hr : HeaderRecovered jpegCtx sl h) (a : Bool)
    (s : VASliceParameterBufferJPEGBaseline) :
    HeaderRecovered jpegCtx sl (scanHeaderState a h s) := by
  unfold NvVaapi.scanHeaderState
  split
  · exact ⟨hr.frames, hr.quant, hr.dc, hr.ac⟩
  · exact hr

theorem scansFrom_defined (hok : FrameOk jpegCtx sl sliceDataSize) (a : Bool)
    {ts : List VASliceParameterBufferJPEGBaseline} (hts : ∀ s ∈ ts, s ∈ sl) {h : Header}
    (hr : HeaderRecovered jpegCtx sl h) : ∀ scan ∈ scansFrom a d h ts, ScanDefined scan := by
  induction ts generalizing h with
  | nil => nofun
  | cons s ts ih =>
    have hr := hr.scanHeaderState a s
    exact List.forall_mem_cons.mpr
      ⟨scanDefined_of_recovered hok (hts s (List.mem_cons_self ..)) hr rfl,
        ih (fun t ht => hts t (List.mem_cons_of_mem _ ht)) hr⟩

theorem endsWithEOI_iff (bs : List UInt8) :
    endsWithEOI bs = true ↔ [JPEG_MARKER, JPEG_EOI] <:+ bs := by
  rw [endsWithEOI, Bool.and_eq_true, decide_eq_true_eq, beq_iff_eq, List.suffix_iff_eq_drop,
    eq_comm (a := [JPEG_MARKER, JPEG_EOI]), List.length_cons, List.length_cons, List.length_nil]
  refine ⟨fun h => h.2, fun h => ⟨?_, h⟩⟩
  have := congrArg List.length h
  simp only [List.length_drop, List.length_cons, List.length_nil] at this
  omega

/-- The zero that ends a scan header is no part of an EOI marker. -/
theorem endsWithEOI_append (pre cs : List UInt8) :
    endsWithEOI (pre ++ ([0] ++ cs)) = endsWithEOI cs := by
  rw [Bool.eq_iff_iff, endsWithEOI_iff, endsWithEOI_iff]
  refine ⟨fun h => ?_, fun h => h.trans ((List.suffix_append _ _).trans (List.suffix_append _ _))⟩
  have hcs : cs <:+ pre ++ ([0] ++ cs) := (List.suffix_append _ _).trans (List.suffix_append _ _)
  rcases Nat.lt_or_ge cs.length 2 with hlt | hge
  · obtain ⟨t, ht⟩ := h
    match cs, hlt with
    | [], _ =>
      have hsplit : (t ++ [JPEG_MARKER]) ++ [JPEG_EOI] = pre ++ [0] := by simpa using ht
      cases List.append_inj_right' hsplit rfl
    | [c], _ =>
      have hsplit : t ++ [JPEG_MARKER, JPEG_EOI] = pre ++ [0, c] := ht
      cases List.append_inj_right' hsplit rfl
  · exact List.suffix_of_suffix_length_le h hcs hge

/-- The header of the first scan, and what follows it, of slices that share a scan header. -/
theorem readHeader_shared (hok : FrameOk jpegCtx sl sliceDataSize) (h0 : s0 ∈ sl)
    (hsame : AllSameSOS s0 sl) :
    Jfif.readHeader (frameBytes jpegCtx s0 sl d) = some (headHeader jpegCtx s0 sl,
      scanHeaderOf s0, sl.flatMap (·.ecs d) ++ frameTail jpegCtx s0 sl d) := by
  rw [frameBytes_eq, scanBytes, if_pos hsame, List.append_assoc]
  exact Jfif.readHeader_encode (fun seg hseg => (headSegments_fit _ _ _ seg hseg).1)
    (fun seg hseg => (headSegments_fit _ _ _ seg hseg).2) (sosSegment_fits s0) rfl
    (headSegments_define _ _ _) (parseSOS_sosSegment (hok.slice s0 h0).comps) _

/-- The header of the first scan of slices with a scan header each. -/
theorem readHeader_single (hok : FrameOk jpegCtx (s0 :: sl) sliceDataSize)
    (hsame : ¬ AllSameSOS s0 (s0 :: sl)) :
    ∃ rest, Jfif.readHeader (frameBytes jpegCtx s0 (s0 :: sl) d) =
      some (scanHeaderState (decide (AllSameRestart s0 (s0 :: sl)))
        (headHeader jpegCtx s0 (s0 :: sl)) s0, scanHeaderOf s0, rest) := by
  rw [frameBytes_eq, scanBytes, if_neg hsame, List.flatMap_cons, List.append_assoc,
    List.append_assoc, List.append_assoc, ← List.append_assoc, ← List.flatMap_append]
  refine ⟨_, Jfif.readHeader_encode
    (fun seg hseg => (List.mem_append.mp hseg).elim (fun h => (headSegments_fit _ _ _ seg h).1)
      fun h => (scanDri_fit _ _ seg h).1)
    (fun seg hseg => (List.mem_append.mp hseg).elim (fun h => (headSegments_fit _ _ _ seg h).2)
      fun h => (scanDri_fit _ _ seg h).2) (sosSegment_fits s0) rfl ?_
    (parseSOS_sosSegment (hok.slice s0 (List.mem_cons_self ..)).comps) _⟩
  rw [List.foldlM_append, headSegments_define]
  exact scanDri_define _ _ _

/-- Slices that share a scan header, whose data does not end with an EOI marker: the frame gets its
own. -/
theorem frameTail_shared (hsame : AllSameSOS s0 sl)
    (heoi : endsWithEOI (sl.flatMap (·.ecs d)) = false) :
    frameTail jpegCtx s0 sl d = [0xFF, 0xD9] := by
  have hbody : ∃ pre, bodyBytes jpegCtx s0 sl d = pre ++ ([0] ++ sl.flatMap (·.ecs d)) := by
    refine ⟨[JPEG_MARKER, JPEG_SOI] ++ ((headSegments jpegCtx s0 sl).flatMap Segment.encode ++
      (JPEG_MARKER :: JPEG_SOS :: (Jfif.be16 (UInt16.ofNat ((sosSegment s0).payload.length + 2)) ++
        (s0.numComponents :: (s0.comps.flatMap JPEGScanComponent.bytes ++ [0, 63]))))), ?_⟩
    rw [bodyBytes, scanBytes, if_pos hsame, Segment.encode]
    simp [sosSegment, JPEG_MARKER]
  obtain ⟨pre, hpre⟩ := hbody
  rw [frameTail, eoiBytes, hpre, endsWithEOI_append, heoi]
  rfl

/-- Every frame that is rebuilt reads back as what the client handed over. -/
theorem reconstructJPEG_roundTrip {mallocOk : Bool}
    {slices : Nat → VASliceParameterBufferJPEGBaseline} {sliceCount sliceDataSize : UInt32}
    {d : Nat → UInt8} {frame : List UInt8}
    (h : (reconstructJPEG mallocOk jpegCtx slices sliceCount d sliceDataSize Buf.start).1 =
      some frame)
    (hs : ∀ c ∈ jpegCtx.picParams.comps, c.hSamplingFactor < 16 ∧ c.vSamplingFactor < 16) :
    (∃ header rest,
      Jfif.readHeader frame = some (header, scanHeaderOf (slices 0), rest) ∧
      HeaderRecovered jpegCtx (sliceList slices sliceCount) header ∧
      (AllSameSOS (slices 0) (sliceList slices sliceCount) →
        endsWithEOI ((sliceList slices sliceCount).flatMap (·.ecs d)) = false →
        rest = (sliceList slices sliceCount).flatMap (·.ecs d) ++ [0xFF, 0xD9])) ∧
    ∃ scans tail,
      Jfif.readImage (scanLengths (slices 0) (sliceList slices sliceCount)) frame =
        some (scans, tail) ∧
      ∀ scan ∈ scans, ScanDefined scan := by
  obtain ⟨hok, -, rfl⟩ := reconstructJPEG_some h
  have h0 := mem_sliceList hok.slices
  have hr := headHeader_recovered hs (slices 0) (sliceList slices sliceCount)
  by_cases hsame : AllSameSOS (slices 0) (sliceList slices sliceCount)
  · refine ⟨⟨_, _, readHeader_shared hok h0 hsame, hr, fun _ heoi => ?_⟩, _, _,
      readImage_shared hok h0 hsame, fun scan hscan => ?_⟩
    · rw [frameTail_shared hsame heoi]
    · obtain rfl := List.mem_singleton.mp hscan
      exact scanDefined_of_recovered hok h0 hr rfl
  · obtain ⟨tl, htl⟩ := sliceList_eq_cons hok.slices
    rw [htl] at hok hsame hr h0 ⊢
    obtain ⟨rest, hrest⟩ := readHeader_single (d := d) hok hsame
    refine ⟨⟨_, _, hrest, hr.scanHeaderState _ _, fun h => absurd h hsame⟩, _, _,
      readImage_single hok hsame, scansFrom_defined hok _ (fun s hs => hs) hr⟩

/-- Two slices that share a scan header, with the tables of the client. -/
theorem reconstructJPEG_roundTrip_client : ∃ frame,
    (reconstructJPEG true clientContext clientSlices 2 (fun i => UInt8.ofNat i) 6 Buf.start).1 =
      some frame ∧
    ∃ header rest, Jfif.readHeader frame = some (header, scanHeaderOf (clientSlices 0), rest) ∧
      header.frames = [⟨8, 8, 8, [⟨1, 1, 1, 0⟩, ⟨2, 1, 1, 1⟩]⟩] ∧
      header.quant.filter (·.id = 1) = [⟨1, List.replicate 64 2⟩] ∧
      header.huffman.filter (fun t => t.cls = 1 ∧ t.id = 1) =
        [⟨1, 1, [0, 1, 2, 0, 0, 0, 0, 0, 0, 0, 0, 0, 0, 0, 0, 0], [1, 2, 3]⟩] ∧
      rest = [0, 1, 2, 3, 4, 5, 0xFF, 0xD9] := by
  obtain ⟨frame, hframe⟩ := client_built fun i => UInt8.ofNat i
  obtain ⟨⟨header, rest, hread, hr, hrest⟩, -⟩ := reconstructJPEG_roundTrip hframe (by decide)
  refine ⟨frame, hframe, header, rest, hread, hr.frames, hr.quant 1 (by decide), ?_,
    hrest (by decide) (by decide)⟩
  exact hr.ac 1 (by decide)

end Scans

end NvVaapi
