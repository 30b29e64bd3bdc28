import NvVaapi.Codec.Slices
import NvVaapi.Jpeg.RoundTrip

/-!
# JPEG pictures

* `JpegPair`: a slice-parameter and a slice-data buffer, of which `copyJPEGSliceData` builds an
  image.
* `jpegPairs`: the pairs of a picture, one after the other. `jpegFrames` are the images that they
  add.
* `jpegPairs_assembled`: the images, where they start and their length are as they should be.
* `jpegPicture_iff`: the count of the images is right exactly when there is one image at most, since
  the handler sets it where the handlers of the other codecs add to it.
-/

namespace NvVaapi

/-! ## The pairs -/

/-- A slice-parameter buffer and the slice-data buffer that goes with it. -/
structure JpegPair where
  paramMem : Memory
  mem : Memory
  params : NVBuffer
  data : NVBuffer
  params_type : params.bufferType = .sliceParameter
  data_type : data.bufferType = .sliceData
  params_ptr : params.ptr ≠ 0
  data_ptr : data.ptr ≠ 0

namespace JpegPair

variable (p : JpegPair) (st : PictureState)

/-- Render the two buffers. -/
def render : Option PictureState := do
  let st ← nvRenderPicture jpegCodec p.paramMem [some p.params] st
  nvRenderPicture jpegCodec p.mem [some p.data] st

/-- The state in which the data is rendered. -/
def remember : PictureState :=
  { st with lastSliceParams := p.params.ptr, lastSliceParamsCount := p.params.elements }

/-- The image that is built. -/
def frame : Option (List UInt8) := jpegFrame p.mem p.data (p.remember st)

theorem render_eq : p.render st = copyJPEGSliceData p.mem p.data (p.remember st) := by
  have hparam : jpegCodec.handlers p.params.bufferType = some copyJPEGSliceParam := by
    rw [p.params_type]
    rfl
  have hdata : jpegCodec.handlers p.data.bufferType = some copyJPEGSliceData := by
    rw [p.data_type]
    rfl
  rw [render, nvRenderPicture_cons, renderBuffer_handler p.params_ptr hparam]
  show nvRenderPicture jpegCodec p.mem [some p.data] (p.remember st) = _
  rw [nvRenderPicture_cons, renderBuffer_handler p.data_ptr hdata]
  exact Option.bind_fun_some _

end JpegPair

/-- The pairs of a picture, in any number. -/
def jpegPairs : Lts PictureState JpegPair where
  init _ := True
  step st p := p.render st

/-- The pair is rebuilt to an image, which the bitstream has room for. -/
def Rebuilds (st : PictureState) (p : JpegPair) : Prop := (p.frame st).isSome

/-- The images that the pairs add. -/
def jpegFrames : List JpegPair → PictureState → List (List UInt8)
  | [], _ => []
  | p :: pairs, st => (p.frame st).toList ++ (p.render st).elim [] (jpegFrames pairs)

/-- The counters and the offsets fit the images `frames`. -/
structure JpegAssembled (frames : List (List UInt8)) (st : PictureState) : Prop where
  bitstream : st.bitstreamBuffer.bytes = frames.flatten
  nNumSlices : st.pPicParams.nNumSlices.toNat = (Bytes.words st.sliceOffsets.bytes).length
  starts : (Bytes.words st.sliceOffsets.bytes).map UInt32.toNat = Bytes.starts 0 frames
  nBitstreamDataLen : st.pPicParams.nBitstreamDataLen.toNat = st.bitstreamBuffer.size

/-! ## One image -/

section Frames

variable {mem : Memory} {buf : NVBuffer} {st st' : PictureState} {frame : List UInt8}

/-- An image is not empty, and its length fits 32 bits. -/
theorem reconstructJPEG_length {ctx : JPEGContext}
    {slices : Nat → VASliceParameterBufferJPEGBaseline} {n size : UInt32} {d : Nat → UInt8}
    (h : (reconstructJPEG true ctx slices n d size Emit.Buf.start).1 = some frame) :
    frame ≠ [] ∧ frame.length ≤ 2 ^ 32 - 1 := by
  obtain ⟨hok, hquant, rfl⟩ := reconstructJPEG_some h
  constructor
  · apply List.ne_nil_of_length_pos
    simp [frameBytes, bodyBytes]
  · obtain ⟨b, hrun, -⟩ := reconstructJPEG_written (d := d) hok hquant
    rw [hrun] at h
    by_contra hlong
    rw [if_neg hlong] at h
    cases h

/-- What the handler builds has room behind the images before it. -/
theorem jpegFrame_some (h : jpegFrame mem buf st = some frame) :
    frame ≠ [] ∧ st.bitstreamBuffer.size + frame.length < 2 ^ 32 := by
  unfold jpegFrame at h
  obtain ⟨ctx, -, h⟩ := Option.bind_eq_some_iff.mp h
  obtain ⟨-, -, h⟩ := Option.bind_eq_some_iff.mp h
  obtain ⟨-, -, h⟩ := Option.bind_eq_some_iff.mp h
  obtain ⟨bytes, hframe, h⟩ := Option.bind_eq_some_iff.mp h
  obtain ⟨_, hroom, h⟩ := Option.bind_eq_some_iff.mp h
  obtain rfl := Option.some_inj.mp h
  obtain ⟨hne, hlen⟩ := reconstructJPEG_length hframe
  have hroom : st.bitstreamBuffer.size ≤ 2 ^ 32 - 1 - bytes.length := by simpa [guard] using hroom
  exact ⟨hne, by omega⟩

end Frames

/-! ## One pair -/

/-- The append buffers can grow. -/
def PictureState.CanGrow (st : PictureState) : Prop :=
  st.bitstreamBuffer.Usable ∧ st.sliceOffsets.Usable

/-- What a slice-data buffer leaves whose image is built. -/
theorem copyJPEGSliceData_some {mem : Memory} {buf : NVBuffer} {st : PictureState}
    {frame : List UInt8} (hf : jpegFrame mem buf st = some frame) (hg : st.CanGrow) : ∃ so bb,
      copyJPEGSliceData mem buf st = some { st with
        sliceOffsets := so
        bitstreamBuffer := bb
        pPicParams :=
          { st.pPicParams with nNumSlices := 1, nBitstreamDataLen := UInt32.ofNat bb.size } } ∧
      so.Usable ∧ bb.Usable ∧
      so.bytes = st.sliceOffsets.bytes ++ Bytes.le32 (UInt32.ofNat st.bitstreamBuffer.size) ∧
      bb.bytes = st.bitstreamBuffer.bytes ++ frame := by
  obtain ⟨hne, -⟩ := jpegFrame_some hf
  obtain ⟨so, hso⟩ := appendBuffer_some hg.2 (Bytes.le32 (UInt32.ofNat st.bitstreamBuffer.size))
  obtain ⟨bb, hbb⟩ := appendBuffer_some hg.1 frame
  refine ⟨so, bb, ?_, appendBuffer_usable hso (by simp [Bytes.le32]), appendBuffer_usable hbb hne,
    appendBuffer_bytes hso, appendBuffer_bytes hbb⟩
  simp [copyJPEGSliceData, hf, appendOffset, hso, hbb]

section Pair

variable {p : JpegPair} {st : PictureState} {ps : List (List UInt8)} {frame : List UInt8}

/-- A pair adds its image, and the image is counted as the only one. -/
theorem JpegPair.render_assembled (hf : p.frame st = some frame) (hg : st.CanGrow)
    (ha : Assembled st ps) :
    ∃ st', p.render st = some st' ∧ Assembled st' (ps ++ [frame]) ∧
      (ps ++ [frame]).flatten.length < 2 ^ 32 ∧
      st'.CanGrow ∧ st'.pPicParams.nNumSlices = 1 := by
  obtain ⟨so, bb, hcopy, hso, hbb, hwords, hbytes⟩ := copyJPEGSliceData_some hf hg
  obtain ⟨-, hroom⟩ := jpegFrame_some hf
  have hsize : st.bitstreamBuffer.size = ps.flatten.length := by
    rw [← ha.bitstream, AppendableBuffer.length_bytes]
  have hbytes' : bb.bytes = (ps ++ [frame]).flatten := by
    rw [hbytes, List.flatten_append, List.flatten_singleton]
    exact congrArg (· ++ frame) ha.bitstream
  refine ⟨_, (p.render_eq st).trans hcopy, ⟨hbytes', ?_, ?_⟩, ?_, ⟨hbb, hso⟩, rfl⟩
  · show so.bytes = _
    rw [hwords]
    show st.sliceOffsets.bytes ++ _ = _
    rw [ha.offsets, Bytes.starts_append, List.map_append, List.flatMap_append]
    show _ ++ Bytes.le32 (UInt32.ofNat st.bitstreamBuffer.size) = _
    rw [hsize]
    simp [Bytes.starts]
  · show UInt32.ofNat bb.size = _
    rw [← hbytes', AppendableBuffer.length_bytes]
  · rw [List.flatten_append, List.flatten_singleton, List.length_append, ← hsize]
    exact hroom

theorem jpegFrames_cons {pairs : List JpegPair} {st' : PictureState} (hf : p.frame st = some frame)
    (hr : p.render st = some st') : jpegFrames (p :: pairs) st = frame :: jpegFrames pairs st' := by
  rw [jpegFrames, hf, hr]
  rfl

end Pair

/-! ## The pairs of a picture -/

/-- What the pairs leave. Only the count can be wrong: it is 1 as soon as there is a pair. -/
theorem jpegPairs_assembled {pairs : List JpegPair} {st : PictureState} {ps : List (List UInt8)}
    (hm : jpegPairs.Meets Rebuilds st pairs) (hg : st.CanGrow) (ha : Assembled st ps)
    (hlen : ps.flatten.length < 2 ^ 32) : ∃ st', jpegPairs.run st pairs = some st' ∧
      Assembled st' (ps ++ jpegFrames pairs st) ∧
      (ps ++ jpegFrames pairs st).flatten.length < 2 ^ 32 ∧
      (jpegFrames pairs st).length = pairs.length ∧
      st'.pPicParams.nNumSlices = if pairs = [] then st.pPicParams.nNumSlices else 1 := by
  induction pairs generalizing st ps with
  | nil =>
    refine ⟨st, rfl, ?_, ?_, rfl, rfl⟩
    · simpa [jpegFrames] using ha
    · simpa [jpegFrames] using hlen
  | cons p pairs ih =>
    obtain ⟨frame, hf⟩ := Option.isSome_iff_exists.mp hm.1
    obtain ⟨st₁, hr, ha₁, hlen₁, hg₁, hn₁⟩ := p.render_assembled hf hg ha
    obtain ⟨st', hrun, ha', hlen', hcount, hn⟩ := ih (hm.2 st₁ hr) hg₁ ha₁ hlen₁
    rw [List.append_assoc, List.singleton_append, ← jpegFrames_cons hf hr] at ha' hlen'
    refine ⟨st', ?_, ha', hlen', ?_, ?_⟩
    · rw [Lts.run_cons]
      show (p.render st).bind _ = _
      rw [hr]
      exact hrun
    · rw [jpegFrames_cons hf hr, List.length_cons, hcount, List.length_cons]
    · rw [hn, hn₁, ite_self, if_neg (List.cons_ne_nil _ _)]

/-- In every run the append buffers of a JPEG context can grow, since no image is empty. -/
theorem jpeg_canGrow {st : PictureState} (h : Codec.jpeg.decoding.Reach st) : st.CanGrow := by
  refine appends_invariant (I := fun bb so => bb.Usable ∧ so.Usable) ⟨.inl rfl,
    .inl rfl⟩ (fun _ _ h => h)
    (fun func hf mem buf st st' hg h => ?_) h
  obtain rfl : copyJPEGSliceData = func := Option.some_inj.mp hf
  cases hframe : jpegFrame mem buf st with
  | none =>
    rw [copyJPEGSliceData, hframe] at h
    obtain rfl := Option.some_inj.mp h
    exact hg
  | some frame =>
    obtain ⟨so, bb, hcopy, hso, hbb, -⟩ := copyJPEGSliceData_some hframe hg
    obtain rfl := Option.some_inj.mp (hcopy.symm.trans h)
    exact ⟨hbb, hso⟩

/-- A JPEG picture that starts with empty append buffers, with images that are built from all of its
pairs: the counters and the offsets fit the images exactly when there is one pair at most. -/
theorem jpegPicture_iff {st : PictureState} (hr : Codec.jpeg.decoding.Reach st)
    (hb : st.bitstreamBuffer.size = 0) (hs : st.sliceOffsets.size = 0)
    (hn : st.pPicParams.nNumSlices = 0) (hl : st.pPicParams.nBitstreamDataLen = 0)
    {pairs : List JpegPair} (hm : jpegPairs.Meets Rebuilds st pairs) :
    (∃ st', jpegPairs.run st pairs = some st' ∧ JpegAssembled (jpegFrames pairs st) st') ↔
      pairs.length ≤ 1 := by
  have h0 : Assembled st [] :=
    ⟨by simp [AppendableBuffer.bytes_of_size hb],
      by simp [AppendableBuffer.bytes_of_size hs, Bytes.starts], hl⟩
  obtain ⟨st', hrun, ha, hlen, hcount, hnum⟩ :=
    jpegPairs_assembled hm (jpeg_canGrow hr) h0 (by simp)
  rw [List.nil_append] at ha hlen
  have hwords := ha.words hlen
  have hentries : (Bytes.words st'.sliceOffsets.bytes).length = pairs.length := by
    rw [← hcount, ← Bytes.length_starts 0 (jpegFrames pairs st), ← hwords, List.length_map]
  -- everything but the count is right
  have hiff : JpegAssembled (jpegFrames pairs st) st' ↔
      st'.pPicParams.nNumSlices.toNat = pairs.length := by
    refine ⟨fun h => h.nNumSlices.trans hentries,
      fun h => ⟨ha.bitstream, h.trans hentries.symm, hwords, ?_⟩⟩
    rw [ha.length, ← AppendableBuffer.length_bytes, ha.bitstream]
    exact UInt32.toNat_ofNat_of_lt' hlen
  constructor
  · rintro ⟨st₁, hrun₁, h⟩
    obtain rfl := Option.some_inj.mp (hrun.symm.trans hrun₁)
    have hle := hiff.mp h
    rw [hnum, hn] at hle
    split at hle
    · next hnil => rw [hnil]; exact Nat.zero_le _
    · exact Nat.le_of_eq hle.symm
  · intro hle
    refine ⟨st', hrun, hiff.mpr ?_⟩
    rw [hnum, hn]
    cases pairs with
    | nil => rfl
    | cons p pairs =>
      rw [List.length_cons] at hle
      have hnil : pairs = [] := List.length_eq_zero_iff.mp (by omega)
      rw [hnil]
      rfl

/-! ## Gray pairs -/

/-- One slice for the gray frame. -/
def graySlice : VASliceParameterBufferJPEGBaseline :=
  ⟨4, 0, sliceDataFlagAll, 1, fun _ => ⟨1, 0, 0⟩, 0⟩

/-- A client whose buffers hold the gray picture. -/
def grayMemory : Memory := fun _ =>
  { (default : ClientData) with
    picJPEG := grayContext.picParams
    iqJPEG := grayContext.iqMatrix
    slicesJPEG := fun _ => graySlice }

def grayTables : List (Option NVBuffer) :=
  [some ⟨1, 64, .pictureParameter, 1, 0⟩, some ⟨1, 64, .iqMatrix, 2, 0⟩]

def grayPair : JpegPair where
  paramMem := grayMemory
  mem := grayMemory
  params := ⟨1, 64, .sliceParameter, 3, 0⟩
  data := ⟨1, 4, .sliceData, 4, 0⟩
  params_type := rfl
  data_type := rfl
  params_ptr := by decide
  data_ptr := by decide

/-- The context once the gray tables are loaded. -/
def grayLoaded : JPEGContext :=
  { JPEGContext.zero with
    picParams := grayContext.picParams
    iqMatrix := { JPEGContext.zero.iqMatrix with quantiserTable := fun _ => .replicate 64 1 }
    validQuantTablesMask := 0b1111
    hasPicParams := true
    hasIQMatrix := true }

theorem gray_reach :
    ∃ st, Codec.jpeg.decoding.Reach st ∧ st.bitstreamBuffer.size = 0 ∧ st.sliceOffsets.size = 0 ∧
    st.pPicParams.nNumSlices = 0 ∧ st.pPicParams.nBitstreamDataLen = 0 ∧
    st.codecData = some grayLoaded := by
  obtain ⟨st, hrun, h⟩ : ∃ st, Codec.jpeg.decoding.run (.init 8 8)
      [.beginPicture 0, .renderPicture grayMemory grayTables] = some st ∧
      st.bitstreamBuffer.size = 0 ∧ st.sliceOffsets.size = 0 ∧ st.pPicParams.nNumSlices = 0 ∧
      st.pPicParams.nBitstreamDataLen = 0 ∧ st.codecData = some grayLoaded :=
        ⟨_, rfl, rfl, rfl, rfl, rfl, rfl⟩
  exact ⟨st, Lts.Reach.run (.init ⟨8, 8, rfl⟩) hrun, h⟩

theorem grayPair_frame {st : PictureState} {frame : List UInt8}
    (hctx : st.codecData = some grayLoaded)
    (hframe : (reconstructJPEG true grayLoaded (fun _ => graySlice) 1 (fun _ =>
      0) 4 Emit.Buf.start).1 = some frame)
    (hroom : st.bitstreamBuffer.size ≤ 2 ^ 32 - 1 - frame.length) :
    grayPair.frame st = some frame := by
  have hctx' : (grayPair.remember st).codecData = some grayLoaded := hctx
  have hparams : (grayPair.remember st).lastSliceParams ≠ 0 ∧
      (grayPair.remember st).lastSliceParamsCount ≠ 0 :=
    show (3 : Ptr) ≠ 0 ∧ (1 : UInt32) ≠ 0 by decide
  have hdata : grayPair.data.size ≤ 2 ^ 32 - 1 := by decide
  have hbuilt : (reconstructJPEG true grayLoaded
      (grayPair.mem (grayPair.remember st).lastSliceParams).slicesJPEG
        (grayPair.remember st).lastSliceParamsCount
      (grayPair.mem grayPair.data.ptr).bytes (UInt32.ofNat grayPair.data.size) Emit.Buf.start).1 =
        some frame :=
    hframe
  have hroom' : (grayPair.remember st).bitstreamBuffer.size ≤ 2 ^ 32 - 1 - frame.length := hroom
  simp only [JpegPair.frame, jpegFrame, hctx', hbuilt, guard, if_pos hparams, if_pos hdata,
    if_pos hroom', Option.bind_eq_bind, Option.bind_some, Option.pure_def]

/-- The gray image is built, and it is short. -/
theorem gray_frame {st : PictureState} (hctx : st.codecData = some grayLoaded)
    (hsize : st.bitstreamBuffer.size ≤ 2 ^ 20) :
    ∃ frame, grayPair.frame st = some frame ∧ frame.length ≤ 2 ^ 20 := by
  have hok : FrameOk grayLoaded (sliceList (fun _ => graySlice) 1) 4 := by decide
  obtain ⟨b, hrun, -⟩ := reconstructJPEG_written (d := fun _ => 0) hok (by decide)
  have hlen := frameBytes_length_le (d := fun _ => 0) hok (mem_sliceList hok.slices)
  have hworst : worstSize grayLoaded.picParams (sliceList (fun _ => graySlice) 1).length
      (totalEcs (sliceList (fun _ => graySlice) 1)) ≤ 2 ^ 20 := by decide
  have hshort := Nat.le_trans hlen hworst
  rw [if_pos (Nat.le_trans hshort (by decide))] at hrun
  exact ⟨_, grayPair_frame hctx (congrArg Prod.fst hrun) (by omega), hshort⟩

/-- Two gray pairs are rebuilt, one after the other. -/
theorem gray_meets {st : PictureState} (hctx : st.codecData = some grayLoaded) (hg : st.CanGrow)
    (hsize : st.bitstreamBuffer.size = 0) : jpegPairs.Meets Rebuilds st [grayPair, grayPair] := by
  obtain ⟨frame, hf, hlen⟩ := gray_frame hctx (by omega)
  refine ⟨Option.isSome_of_eq_some hf, fun st' hst => ⟨?_, fun _ _ => trivial⟩⟩
  obtain ⟨so, bb, hcopy, -, -, -, hbytes⟩ :=
    @copyJPEGSliceData_some _ _ (grayPair.remember st) _ hf hg
  have hr : grayPair.render st = some st' := hst
  obtain rfl := Option.some_inj.mp (((grayPair.render_eq st).trans hcopy).symm.trans hr)
  have hbb : bb.size = frame.length := by
    rw [← AppendableBuffer.length_bytes, hbytes, List.length_append, AppendableBuffer.length_bytes]
    show st.bitstreamBuffer.size + _ = _
    omega
  obtain ⟨_, hf', -⟩ := @gray_frame { grayPair.remember st with
    sliceOffsets := so
    bitstreamBuffer := bb
    pPicParams := { (grayPair.remember st).pPicParams with
      nNumSlices := 1, nBitstreamDataLen := UInt32.ofNat bb.size } } hctx (hbb.trans_le hlen)
  exact Option.isSome_of_eq_some hf'

theorem jpegPicture_gray :
    ∃ st st', Codec.jpeg.decoding.Reach st ∧ jpegPairs.run st [grayPair] = some st' ∧
    JpegAssembled (jpegFrames [grayPair] st) st' := by
  obtain ⟨st, hr, hb, hs, hn, hl, hctx⟩ := gray_reach
  have hm : jpegPairs.Meets Rebuilds st [grayPair] :=
    ⟨(gray_meets hctx (jpeg_canGrow hr) hb).1, fun _ _ => trivial⟩
  obtain ⟨st', hrun, h⟩ := (jpegPicture_iff hr hb hs hn hl hm).mpr (Nat.le_refl 1)
  exact ⟨st, st', hr, hrun, h⟩

/-- With two pairs there are two offsets and a count of one. -/
theorem jpegPicture_two_pairs : ¬∀ st, Codec.jpeg.decoding.Reach st → st.bitstreamBuffer.size = 0 →
    st.sliceOffsets.size = 0 → st.pPicParams.nNumSlices = 0 → st.pPicParams.nBitstreamDataLen = 0 →
    ∀ pairs, jpegPairs.Meets Rebuilds st pairs →
    ∃ st', jpegPairs.run st pairs = some st' ∧ JpegAssembled (jpegFrames pairs st) st' := by
  intro h
  obtain ⟨st, hr, hb, hs, hn, hl, hctx⟩ := gray_reach
  have hg := jpeg_canGrow hr
  have hm := gray_meets hctx hg hb
  obtain ⟨st', hrun, ha⟩ := h st hr hb hs hn hl _ hm
  have h0 : Assembled st [] :=
    ⟨by simp [AppendableBuffer.bytes_of_size hb],
      by simp [AppendableBuffer.bytes_of_size hs, Bytes.starts], hl⟩
  obtain ⟨st₁, hrun₁, ha₁, hlen, hcount, hnum⟩ := jpegPairs_assembled hm hg h0 (by simp)
  obtain rfl := Option.some_inj.mp (hrun.symm.trans hrun₁)
  have hwords := congrArg List.length ha.starts
  rw [List.length_map, Bytes.length_starts, hcount] at hwords
  have := ha.nNumSlices
  rw [hwords, hnum] at this
  cases this

end NvVaapi
