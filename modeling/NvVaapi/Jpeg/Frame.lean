import NvVaapi.Jpeg.Segments
import Mathlib.Data.List.TakeWhile

/-!
# The whole frame

* `headSegments`, `bodyBytes`, `frameBytes`: what a frame consists of.
* `writeFrame_does`: the frame is written, unless a used quantiser table is empty.
* `reconstructJPEG_rejected`, `reconstructJPEG_emptyTable`, `reconstructJPEG_written`: the three
  ways a run goes, with the buffer that it leaves.
* `reconstructJPEG_some`: what a run that gives a frame says about its input.
-/

namespace NvVaapi

open Emit (Prog emit touch require attempt alloc sofar Does Reads Writes Buf)
open Jfif (Segment)

/-! ## The bytes of a frame -/

def app0Segment : Segment :=
  ⟨JPEG_APP0, [0x4A, 0x46, 0x49, 0x46, 0x00, 0x01, 0x01, 0x00, 0x00, 0x01, 0x00, 0x01, 0x00, 0x00]⟩

theorem jfifHeader_eq : jfifHeader = [JPEG_MARKER, JPEG_SOI] ++ app0Segment.encode := by decide

/-- The DRI segment in front of the scans, when all intervals agree. -/
def headDri (s0 : VASliceParameterBufferJPEGBaseline)
    (sl : List VASliceParameterBufferJPEGBaseline) : List Segment :=
  if decide (AllSameRestart s0 sl) && s0.restartInterval != 0 then [driSegment s0.restartInterval]
  else []

/-- The segments between SOI and the scans. -/
def headSegments (jpegCtx : JPEGContext) (s0 : VASliceParameterBufferJPEGBaseline)
    (sl : List VASliceParameterBufferJPEGBaseline) : List Segment :=
  app0Segment :: (dqtSegments jpegCtx.iqMatrix jpegCtx.picParams (List.finRange 4) ++
    sof0Segment jpegCtx.picParams :: (huffmanSegments jpegCtx (dcSelectors sl) (acSelectors sl) ++
      headDri s0 sl))

/-- The frame up to the data of its last slice. -/
def bodyBytes (jpegCtx : JPEGContext) (s0 : VASliceParameterBufferJPEGBaseline)
    (sl : List VASliceParameterBufferJPEGBaseline) (d : Nat → UInt8) : List UInt8 :=
  [JPEG_MARKER, JPEG_SOI] ++ ((headSegments jpegCtx s0 sl).flatMap Segment.encode ++
    scanBytes s0 sl d)

/-- The EOI marker, unless the frame ends with one. -/
def eoiBytes (body : List UInt8) : List UInt8 :=
  if endsWithEOI body then [] else [JPEG_MARKER, JPEG_EOI]

def frameBytes (jpegCtx : JPEGContext) (s0 : VASliceParameterBufferJPEGBaseline)
    (sl : List VASliceParameterBufferJPEGBaseline) (d : Nat → UInt8) : List UInt8 :=
  bodyBytes jpegCtx s0 sl d ++ eoiBytes (bodyBytes jpegCtx s0 sl d)

/-- What is written of a frame whose quantiser tables are refused: up to the first empty one. -/
def refusedBytes (jpegCtx : JPEGContext) : List UInt8 :=
  jfifHeader ++ (dqtSegments jpegCtx.iqMatrix jpegCtx.picParams
    ((List.finRange 4).takeWhile (QuantOk jpegCtx.iqMatrix jpegCtx.picParams))).flatMap
      Segment.encode

theorem ecs_flatMap_length (sl : List VASliceParameterBufferJPEGBaseline) (d : Nat → UInt8) :
    (sl.flatMap (·.ecs d)).length = totalEcs sl := by
  simp [List.length_flatMap, totalEcs]

/-- A gray frame of 8 by 8 samples. -/
def grayContext : JPEGContext where
  picParams := ⟨8, 8, fun _ => ⟨1, 1, 1, 0⟩, 1⟩
  iqMatrix := ⟨fun _ => 1, fun _ => .replicate 64 1⟩
  huffmanTable := default
  hasPicParams := true
  hasIQMatrix := true
  hasHuffmanTable := false
  validQuantTablesMask := 1
  validHuffmanDcMask := 0
  validHuffmanAcMask := 0

section Run

variable {jpegCtx : JPEGContext} {slices : Nat → VASliceParameterBufferJPEGBaseline}
  {sliceCount sliceDataSize : UInt32} {d : Nat → UInt8}

/-- The selected Huffman tables are baseline ones. -/
theorem dcSelectors_lt {pic : VAPictureParameterBufferJPEGBaseline}
    {sl : List VASliceParameterBufferJPEGBaseline}
    (h : ∀ s ∈ sl, SliceOk pic sliceDataSize s) : ∀ t ∈ dcSelectors sl, t < 2 := by
  intro t ht
  obtain ⟨s, hs, hc⟩ := List.mem_flatMap.mp ht
  obtain ⟨c, hcs, rfl⟩ := List.mem_map.mp hc
  exact Nat.lt_succ_of_le (UInt8.le_iff_toNat_le.mp ((h s hs).comps c hcs).2.1)

theorem acSelectors_lt {pic : VAPictureParameterBufferJPEGBaseline}
    {sl : List VASliceParameterBufferJPEGBaseline}
    (h : ∀ s ∈ sl, SliceOk pic sliceDataSize s) : ∀ t ∈ acSelectors sl, t < 2 := by
  intro t ht
  obtain ⟨s, hs, hc⟩ := List.mem_flatMap.mp ht
  obtain ⟨c, hcs, rfl⟩ := List.mem_map.mp hc
  exact Nat.lt_succ_of_le (UInt8.le_iff_toNat_le.mp ((h s hs).comps c hcs).2.2)

/-- The frame is written, unless a used quantiser table is empty. -/
theorem writeFrame_does (h : FrameOk jpegCtx (sliceList slices sliceCount) sliceDataSize)
    (hq : ∀ t, QuantOk jpegCtx.iqMatrix jpegCtx.picParams t) :
    Writes (readBounds sliceDataSize)
      (writeFrame jpegCtx slices sliceCount d (usageOf (sliceList slices sliceCount))
        (decide (AllSameSOS (slices 0) (sliceList slices sliceCount)))
        (decide (AllSameRestart (slices 0) (sliceList slices sliceCount))))
      (bodyBytes jpegCtx (slices 0) (sliceList slices sliceCount) d) := by
  have hdqt := writeDQT_does h
  rw [if_pos hq, List.takeWhile_eq_self_iff.mpr fun t _ => decide_eq_true (hq t)] at hdqt
  have hhuff : Writes (readBounds sliceDataSize)
      (writeHuffmanTables jpegCtx ⟨totalEcs (sliceList slices sliceCount), _, _⟩) _ :=
    writeHuffmanTables_writes
      (fun t ht => Nat.lt_trans (dcSelectors_lt h.slice t ht) (by decide))
      (fun t ht => Nat.lt_trans (acSelectors_lt h.slice t ht) (by decide))
  have hscans := writeScans_writes d h.slices h.slice
  refine ((Writes.emit _).bind (Writes.bind hdqt (Writes.bind (writeSOF0_writes h.count.2)
    (Writes.bind hhuff (?_ : Writes _ _ ((headDri (slices 0) (sliceList slices sliceCount)).flatMap
      Segment.encode ++ scanBytes (slices 0) (sliceList slices sliceCount) d)))))).of_eq ?_
  · unfold headDri
    split
    · refine (Writes.bind (writeDRI_writes _) hscans).of_eq ?_
      simp
    · exact hscans
  · simp only [bodyBytes, headSegments, jfifHeader_eq, List.flatMap_cons, List.flatMap_append,
      List.append_assoc]

theorem writeFrame_refused (h : FrameOk jpegCtx (sliceList slices sliceCount) sliceDataSize)
    (hq : ¬ ∀ t, QuantOk jpegCtx.iqMatrix jpegCtx.picParams t) (u : SliceUsage) (a b : Bool) :
    Does (readBounds sliceDataSize) (writeFrame jpegCtx slices sliceCount d u a b) none
      (refusedBytes jpegCtx) 0 := by
  have hdqt := writeDQT_does h
  rw [if_neg hq] at hdqt
  exact (Writes.bind_does (Writes.emit _) (Does.bind_none hdqt)).congr rfl
    (by rw [refusedBytes, List.length_append]; omega)

theorem finishFrame_eq (b : Buf Region) : finishFrame b =
    (if (b.bytes ++ eoiBytes b.bytes).length ≤ 2 ^ 32 - 1 then some (b.bytes ++ eoiBytes b.bytes)
      else none, b.put (eoiBytes b.bytes) 0) := by
  have htail : ∀ b' : Buf Region, (do
      let frame ← sofar
      require (frame.length ≤ 2 ^ 32 - 1)
      return frame : Prog Region (List UInt8)) b' =
      (if b'.bytes.length ≤ 2 ^ 32 - 1 then some b'.bytes else none, b') := by
    intro b'
    rw [Emit.Prog.bind_of_some (show sofar b' = (some b'.bytes, b') from rfl), require]
    split <;> rfl
  unfold finishFrame
  rw [Emit.Prog.bind_of_some (show sofar b = (some b.bytes, b) from rfl), eoiBytes]
  split
  · refine (htail b).trans ?_
    rw [List.append_nil, Buf.put_nil]
  · rw [Emit.Prog.bind_of_some (show emit _ b = (some (), b.put _ 0) from rfl)]
    exact htail _

/-- The buffer behind the allocation. -/
def allocBuf (n : Nat) (marks : Region → Nat) : Buf Region := ⟨[], n, 0, marks, Emit.length_nil_le⟩

/-- An input that is not `FrameOk`, or a failed allocation: nothing is written. -/
theorem reconstructJPEG_rejected {mallocOk : Bool}
    (h : ¬ (FrameOk jpegCtx (sliceList slices sliceCount) sliceDataSize ∧ mallocOk = true)) :
    ∃ marks, reconstructJPEG mallocOk jpegCtx slices sliceCount d sliceDataSize Buf.start =
      (none, Buf.start.mark marks) ∧ ∀ i, marks i ≤ readBounds sliceDataSize i := by
  have hreads : Reads (readBounds sliceDataSize)
      (reconstructJPEG mallocOk jpegCtx slices sliceCount d sliceDataSize) none := by
    have hc := checkFrame_reads jpegCtx slices sliceCount sliceDataSize
    by_cases hok : FrameOk jpegCtx (sliceList slices sliceCount) sliceDataSize
    · rw [if_pos hok] at hc
      refine Reads.bind_some hc (Reads.bind_some (groupSlices_reads slices sliceCount
        fun s hs => (hok.slice s hs).count.2) ?_)
      exact Does.bind_none ((Reads.require _).of_eq (if_neg fun hm => h ⟨hok, hm⟩))
    · rw [if_neg hok] at hc
      exact Does.bind_none hc
  obtain ⟨marks, hrun, hmarks⟩ := hreads Buf.start
  refine ⟨marks, by rw [hrun, Buf.put_nil], fun i => ?_⟩
  have := hmarks i
  simpa [Buf.start] using this

/-- An input that is `FrameOk` gets as far as the allocation. -/
theorem reconstructJPEG_alloc (h : FrameOk jpegCtx (sliceList slices sliceCount) sliceDataSize) :
    ∃ marks, reconstructJPEG true jpegCtx slices sliceCount d sliceDataSize Buf.start =
      (writeFrame jpegCtx slices sliceCount d (usageOf (sliceList slices sliceCount))
        (decide (AllSameSOS (slices 0) (sliceList slices sliceCount)))
        (decide (AllSameRestart (slices 0) (sliceList slices sliceCount))) >>= fun _ => finishFrame)
        (allocBuf (maxSize64 jpegCtx.picParams sliceCount.toNat
          (totalEcs (sliceList slices sliceCount))) marks) ∧
      ∀ i, marks i ≤ readBounds sliceDataSize i := by
  have hc := checkFrame_reads jpegCtx slices sliceCount sliceDataSize
  rw [if_pos h] at hc
  have hg : Reads (readBounds sliceDataSize) _ _ := groupSlices_reads slices sliceCount
    fun s hs => (h.slice s hs).count.2
  obtain ⟨k₁, h₁, hk₁⟩ := hc Buf.start
  obtain ⟨k₂, h₂, hk₂⟩ := hg (Buf.start.mark k₁)
  rw [Buf.put_nil] at h₁ h₂
  refine ⟨k₂, ?_, fun i => ?_⟩
  · unfold reconstructJPEG
    rw [Emit.Prog.bind_of_some h₁, Emit.Prog.bind_of_some h₂,
      Emit.Prog.bind_of_some (show require (true = true) _ = (some (), _) from rfl)]
    rfl
  · have h₁ := hk₁ i
    have h₂ := hk₂ i
    simp only [Buf.start, Buf.mark_marks] at h₁ h₂
    omega

/-- A used quantiser table is empty: the frame is refused after the tables before it. -/
theorem reconstructJPEG_emptyTable
    (h : FrameOk jpegCtx (sliceList slices sliceCount) sliceDataSize)
    (hq : ¬ ∀ t, QuantOk jpegCtx.iqMatrix jpegCtx.picParams t) :
    ∃ b, reconstructJPEG true jpegCtx slices sliceCount d sliceDataSize Buf.start = (none, b) ∧
      b.cap = maxSize64 jpegCtx.picParams sliceCount.toNat
        (totalEcs (sliceList slices sliceCount)) ∧
      b.written = (refusedBytes jpegCtx).length ∧
      ∀ i, b.marks i ≤ readBounds sliceDataSize i := by
  obtain ⟨k₁, hrun, hk₁⟩ := reconstructJPEG_alloc (d := d) h
  obtain ⟨k₂, hw, hk₂⟩ := writeFrame_refused (d := d) h hq _ _ _ (allocBuf _ k₁)
  rw [hrun, Emit.Prog.bind_of_none hw]
  refine ⟨_, rfl, rfl, ?_, fun i => ?_⟩
  · simp [allocBuf]
  · have h₁ := hk₁ i
    have h₂ := hk₂ i
    simp only [allocBuf, Buf.mark_marks] at h₂ ⊢
    omega

/-- All used quantiser tables have content: the whole frame is written. -/
theorem reconstructJPEG_written
    (h : FrameOk jpegCtx (sliceList slices sliceCount) sliceDataSize)
    (hq : ∀ t, QuantOk jpegCtx.iqMatrix jpegCtx.picParams t) :
    ∃ b, reconstructJPEG true jpegCtx slices sliceCount d sliceDataSize Buf.start =
        (if (frameBytes jpegCtx (slices 0) (sliceList slices sliceCount) d).length ≤ 2 ^ 32 - 1
          then some (frameBytes jpegCtx (slices 0) (sliceList slices sliceCount) d)
          else none, b) ∧
      b.cap = maxSize64 jpegCtx.picParams sliceCount.toNat
        (totalEcs (sliceList slices sliceCount)) ∧
      b.written = (frameBytes jpegCtx (slices 0) (sliceList slices sliceCount) d).length ∧
      ∀ i, b.marks i ≤ readBounds sliceDataSize i := by
  obtain ⟨k₁, hrun, hk₁⟩ := reconstructJPEG_alloc (d := d) h
  obtain ⟨k₂, hw, hk₂⟩ := writeFrame_does (d := d) h hq (allocBuf _ k₁)
  rw [hrun, Emit.Prog.bind_of_some hw, finishFrame_eq]
  refine ⟨_, rfl, rfl, ?_, fun i => ?_⟩
  · simp [allocBuf, frameBytes]
  · have h₁ := hk₁ i
    have h₂ := hk₂ i
    simp only [allocBuf, Buf.mark_marks, Buf.put_marks] at h₂ ⊢
    omega

/-- A run that gives a frame had an input that is `FrameOk` with usable quantiser tables, and gives
`frameBytes`. -/
theorem reconstructJPEG_some {mallocOk : Bool} {frame : List UInt8}
    (h : (reconstructJPEG mallocOk jpegCtx slices sliceCount d sliceDataSize Buf.start).1 =
      some frame) :
    FrameOk jpegCtx (sliceList slices sliceCount) sliceDataSize ∧
      (∀ t, QuantOk jpegCtx.iqMatrix jpegCtx.picParams t) ∧
      frame = frameBytes jpegCtx (slices 0) (sliceList slices sliceCount) d := by
  by_cases hok : FrameOk jpegCtx (sliceList slices sliceCount) sliceDataSize ∧ mallocOk = true
  · obtain ⟨hok, rfl⟩ := hok
    by_cases hq : ∀ t, QuantOk jpegCtx.iqMatrix jpegCtx.picParams t
    · obtain ⟨b, hrun, -⟩ := reconstructJPEG_written (d := d) hok hq
      rw [hrun] at h
      refine ⟨hok, hq, ?_⟩
      dsimp only at h
      split at h
      · exact (Option.some.inj h).symm
      · cases h
    · obtain ⟨b, hrun, -⟩ := reconstructJPEG_emptyTable (d := d) hok hq
      rw [hrun] at h
      cases h
  · obtain ⟨marks, hrun, -⟩ := reconstructJPEG_rejected (d := d) hok
    rw [hrun] at h
    cases h

end Run

end NvVaapi
