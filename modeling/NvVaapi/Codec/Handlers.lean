import NvVaapi.Codec.Picture

/-!
# The codecs' handlers

One section for each codec file. The picture-parameter handlers set the fields of `CUVIDPICPARAMS`
that codecs share. What they put into `CodecSpecific` is modelled as far as a modelled function
reads it.
-/

namespace NvVaapi

/-! ## H264 -/

def vaPictureH264TopField : UInt32 := 0x2
def vaPictureH264BottomField : UInt32 := 0x4

def copyH264PicParam : HandlerFunc := fun mem buffer st =>
  let buf := (mem buffer.ptr).picH264
  let top := buf.currPicFlags &&& vaPictureH264TopField != 0
  let bottom := buf.currPicFlags &&& vaPictureH264BottomField != 0
  some { st with pPicParams := { st.pPicParams with
    picWidthInMbs := buf.pictureWidthInMbsMinus1.toNat + 1
    frameHeightInMbs := buf.pictureHeightInMbsMinus1.toNat + 1
    fieldPicFlag := buf.fieldPicFlag
    bottomFieldFlag := bottom
    secondField := top && bottom
    refPicFlag := buf.referencePicFlag
    intraPicFlag := true } }

def copyH264SliceParam : HandlerFunc := fun mem buffer st =>
  let buf := (mem buffer.ptr).slices 0
  let st := { st with pPicParams := { st.pPicParams with
    h264NumRefIdxL0ActiveMinus1 := buf.numRefIdxL0ActiveMinus1
    h264NumRefIdxL1ActiveMinus1 := buf.numRefIdxL1ActiveMinus1
    intraPicFlag := if buf.sliceType ≠ 2 ∧ buf.sliceType ≠ 4 then false
      else st.pPicParams.intraPicFlag } }
  some (rememberSlices buffer st)

def copyH264SliceData : HandlerFunc := copySlices [[0, 0, 1]]

/-- `copyH264IQMatrix` fills scaling lists only. -/
def copyH264IQMatrix : HandlerFunc := fun _ _ st => some st

def h264Codec : NVCodec where
  handlers
    | .pictureParameter => copyH264PicParam
    | .iqMatrix => copyH264IQMatrix
    | .sliceParameter => copyH264SliceParam
    | .sliceData => copyH264SliceData
    | _ => none
  beginPicture := none

/-! ## HEVC -/

def vaPictureHEVCFieldPic : UInt32 := 0x2
def vaPictureHEVCBottomField : UInt32 := 0x4

def copyHEVCPicParam : HandlerFunc := fun mem buffer st =>
  let buf := (mem buffer.ptr).picHEVC
  some { st with pPicParams := { st.pPicParams with
    picWidthInMbs := buf.picWidthInLumaSamples.toNat / 16
    frameHeightInMbs := buf.picHeightInLumaSamples.toNat / 16
    fieldPicFlag := buf.currPicFlags &&& vaPictureHEVCFieldPic != 0
    bottomFieldFlag := buf.currPicFlags &&& vaPictureHEVCBottomField != 0
    secondField := false
    refPicFlag := true
    intraPicFlag := buf.intraPicFlag } }

def copyHEVCSliceParam : HandlerFunc := fun _ buffer st => some (rememberSlices buffer st)

def copyHEVCSliceData : HandlerFunc := copySlices [[0, 0, 1]]

/-- `copyHEVCIQMatrix` fills scaling lists only. -/
def copyHEVCIQMatrix : HandlerFunc := fun _ _ st => some st

def hevcCodec : NVCodec where
  handlers
    | .pictureParameter => copyHEVCPicParam
    | .iqMatrix => copyHEVCIQMatrix
    | .sliceParameter => copyHEVCSliceParam
    | .sliceData => copyHEVCSliceData
    | _ => none
  beginPicture := none

/-! ## MPEG-2 -/

def copyMPEG2PicParam : HandlerFunc := fun mem buffer st =>
  let buf := (mem buffer.ptr).picMPEG2
  let fieldPic := buf.pictureStructure != 3
  some { st with pPicParams := { st.pPicParams with
    picWidthInMbs := (buf.horizontalSize.toNat + 15) / 16
    frameHeightInMbs := (buf.verticalSize.toNat + 15) / 16
    fieldPicFlag := fieldPic
    bottomFieldFlag := buf.pictureStructure == 2
    secondField := fieldPic && !buf.isFirstField
    intraPicFlag := buf.pictureCodingType == 1
    refPicFlag := buf.pictureCodingType == 1 || buf.pictureCodingType == 2 } }

def copyMPEG2SliceParam : HandlerFunc := fun _ buf st => some (rememberSlices buf st)

def copyMPEG2SliceData : HandlerFunc := copySlices []

/-- `copyMPEG2IQMatrix` fills quantiser matrices only. -/
def copyMPEG2IQMatrix : HandlerFunc := fun _ _ st => some st

def mpeg2Codec : NVCodec where
  handlers
    | .pictureParameter => copyMPEG2PicParam
    | .iqMatrix => copyMPEG2IQMatrix
    | .sliceParameter => copyMPEG2SliceParam
    | .sliceData => copyMPEG2SliceData
    | _ => none
  beginPicture := none

/-! ## VC-1 -/

def copyVC1PicParam : HandlerFunc := fun mem buffer st =>
  let buf := (mem buffer.ptr).picVC1
  let interlaced := buf.frameCodingMode == 2
  let fieldMode := buf.interlace && interlaced
  some { st with pPicParams := { st.pPicParams with
    picWidthInMbs := (st.width + 15).toNat / 16
    frameHeightInMbs := (st.height + 15).toNat / 16
    fieldPicFlag := fieldMode
    bottomFieldFlag := fieldMode && !(buf.topFieldFirst ^^ !buf.isFirstField)
    secondField := !buf.isFirstField
    intraPicFlag := if interlaced then buf.pictureType == 0 || buf.pictureType == 7
      else buf.pictureType == 0 || buf.pictureType == 3
    refPicFlag := if interlaced then buf.pictureType == 0 || buf.pictureType == 3
      else buf.pictureType == 0 || buf.pictureType == 1 || buf.pictureType == 4 } }

def copyVC1SliceParam : HandlerFunc := fun _ buf st => some (rememberSlices buf st)

def copyVC1SliceData : HandlerFunc := copySlices []

def copyVC1BitPlane : HandlerFunc := fun _ _ st => some st

def vc1Codec : NVCodec where
  handlers
    | .pictureParameter => copyVC1PicParam
    | .sliceParameter => copyVC1SliceParam
    | .sliceData => copyVC1SliceData
    | .bitPlane => copyVC1BitPlane
    | _ => none
  beginPicture := none

/-! ## VP8 -/

def copyVP8PicParam : HandlerFunc := fun mem buffer st =>
  let buf := (mem buffer.ptr).picVP8
  some { st with pPicParams := { st.pPicParams with
    picWidthInMbs := (buf.frameWidth + 15).toNat / 16
    frameHeightInMbs := (buf.frameHeight + 15).toNat / 16
    vp8FrameType := buf.keyFrame
    vp8ShowFrame := true } }

def copyVP8SliceParam : HandlerFunc := fun mem buffer st =>
  let buf := (mem buffer.ptr).slices 0
  let st := { st with pPicParams := { st.pPicParams with
    vp8FirstPartitionSize := buf.partitionSize0 + (buf.macroblockOffset + 7) / 8 } }
  some (rememberSlices buffer st)

/-- The bytes that make `copyVP8SliceData` take a key frame as one with a frame header. -/
def vp8SyncCode (mem : Memory) (buf : NVBuffer) (s : VASliceParameterBuffer) : Bool :=
  let sliceData := fun i => (mem buf.ptr).bytes (s.sliceDataOffset.toNat + i)
  sliceData 3 == 0x9d || sliceData 4 == 0x01 || sliceData 5 == 0x2a

/-- The zero bytes in front of a slice while no frame header was seen. -/
def vp8Padding (firstKeyframeValid isKeyFrame : Bool) : List (List UInt8) :=
  if firstKeyframeValid then [] else if isKeyFrame then [.replicate 10 0] else [.replicate 3 0]

def copyVP8SliceData : HandlerFunc := fun mem buf st =>
  let st := { st with pPicParams := { st.pPicParams with
    vp8ShowFrame := (mem buf.ptr).bytes 0 &&& 0x10 != 0 } }
  forSlices mem (fun s st => do
    let st ← appendOffset st
    let isKeyFrame := !st.pPicParams.vp8FrameType
    let st := if isKeyFrame && vp8SyncCode mem buf s && !st.firstKeyframeValid
      then { st with firstKeyframeValid := true } else st
    appendBitstream (vp8Padding st.firstKeyframeValid isKeyFrame ++
      [sliceBytes mem buf s buf.offset]) st) st

def ignoreVP8Buffer : HandlerFunc := fun _ _ st => some st

def vp8Codec : NVCodec where
  handlers
    | .pictureParameter => copyVP8PicParam
    | .sliceParameter => copyVP8SliceParam
    | .sliceData => copyVP8SliceData
    | .iqMatrix => ignoreVP8Buffer
    | .probability => ignoreVP8Buffer
    | _ => none
  beginPicture := none

/-! ## VP9 -/

def copyVP9PicParam : HandlerFunc := fun mem buffer st =>
  let buf := (mem buffer.ptr).picVP9
  some { st with pPicParams := { st.pPicParams with
    picWidthInMbs := (buf.frameWidth.toNat + 15) / 16
    frameHeightInMbs := (buf.frameHeight.toNat + 15) / 16 } }

def copyVP9SliceParam : HandlerFunc := fun _ buffer st => some (rememberSlices buffer st)

/-- `parseExtraInfo`, called for every slice, fills `CodecSpecific.vp9` only. -/
def copyVP9SliceData : HandlerFunc := copySlices []

def vp9Codec : NVCodec where
  handlers
    | .pictureParameter => copyVP9PicParam
    | .sliceParameter => copyVP9SliceParam
    | .sliceData => copyVP9SliceData
    | _ => none
  beginPicture := none

/-! ## AV1 -/

def copyAV1PicParam : HandlerFunc := fun mem buffer st =>
  let buf := (mem buffer.ptr).picAV1
  some { st with pPicParams := { st.pPicParams with
    picWidthInMbs := (st.width + 15).toNat / 16
    frameHeightInMbs := (st.height + 15).toNat / 16
    intraPicFlag := buf.frameType == 0 || buf.frameType == 2
    refPicFlag := buf.frameType == 0 || (buf.frameType == 3 && buf.showFrame)
    nNumSlices := buf.tileCols.toUInt32 * buf.tileRows.toUInt32 } }

def copyAV1SliceParam : HandlerFunc := fun _ buf st => some (rememberSlices buf st)

def copyAV1SliceData : HandlerFunc := fun mem buf st => do
  let (st, _) ← (List.range st.lastSliceParamsCount.toNat).foldlM (fun (st', offset) i => do
    let s := (mem st.lastSliceParams).slices i
    let bitstreamBuffer ← appendBuffer st'.bitstreamBuffer (sliceBytes mem buf s 0)
    let sliceOffsets ← appendBuffer st'.sliceOffsets (Bytes.le32 offset)
    let offset := offset + s.sliceDataSize
    let sliceOffsets ← appendBuffer sliceOffsets (Bytes.le32 offset)
    return ({ st' with bitstreamBuffer, sliceOffsets }, offset))
    (st, UInt32.ofNat st.bitstreamBuffer.size)
  return { st with pPicParams := { st.pPicParams with
    nBitstreamDataLen := UInt32.ofNat st.bitstreamBuffer.size } }

def av1Codec : NVCodec where
  handlers
    | .pictureParameter => copyAV1PicParam
    | .sliceParameter => copyAV1SliceParam
    | .sliceData => copyAV1SliceData
    | _ => none
  beginPicture := none

/-! ## JPEG -/

/-- `calloc(1, sizeof(JPEGContext))` -/
def JPEGContext.zero : JPEGContext :=
  ⟨default, default, default, false, false, false, 0, 0, 0⟩

/-- `getJPEGContext(ctx, true)` -/
def getJPEGContext (st : PictureState) : JPEGContext := st.codecData.getD .zero

def resetJPEGPictureState (st : PictureState) : PictureState :=
  { st with
    codecData := st.codecData.map fun c => { c with picParams := default, hasPicParams := false }
    lastSliceParams := 0
    lastSliceParamsCount := 0 }

def copyJPEGPicParam : HandlerFunc := fun mem buffer st =>
  let buf := (mem buffer.ptr).picJPEG
  some { st with
    codecData := some { getJPEGContext st with
      picParams := buf
      hasPicParams := buf.pictureWidth != 0 && buf.pictureHeight != 0 && 0 < buf.numComponents &&
        buf.numComponents ≤ JPEG_MAX_COMPONENTS }
    pPicParams := { st.pPicParams with
      picWidthInMbs := (buf.pictureWidth.toNat + 15) / 16
      frameHeightInMbs := (buf.pictureHeight.toNat + 15) / 16
      fieldPicFlag := false
      bottomFieldFlag := false
      secondField := false
      intraPicFlag := true
      refPicFlag := false } }

/-- The mask of the tables below `n` that are loaded. -/
def loadedMask {n : Nat} (load : Fin n → UInt8) : BitVec 8 :=
  (List.finRange n).foldl (fun m t => if load t != 0 then m ||| tableBit t else m) 0

def copyJPEGIQMatrix : HandlerFunc := fun mem buffer st =>
  let buf := (mem buffer.ptr).iqJPEG
  let jpegCtx := getJPEGContext st
  let mask := jpegCtx.validQuantTablesMask ||| loadedMask buf.loadQuantiserTable
  some { st with codecData := some { jpegCtx with
    iqMatrix := { jpegCtx.iqMatrix with
      quantiserTable := fun t => if buf.loadQuantiserTable t != 0 then buf.quantiserTable t
        else jpegCtx.iqMatrix.quantiserTable t }
    validQuantTablesMask := mask
    hasIQMatrix := mask != 0 } }

def copyJPEGHuffmanTable : HandlerFunc := fun mem buffer st =>
  let buf := (mem buffer.ptr).huffmanJPEG
  let jpegCtx := getJPEGContext st
  let loaded := loadedMask buf.loadHuffmanTable
  some { st with codecData := some { jpegCtx with
    huffmanTable := { jpegCtx.huffmanTable with
      huffmanTable := fun t => if buf.loadHuffmanTable t != 0 then buf.huffmanTable t
        else jpegCtx.huffmanTable.huffmanTable t }
    validHuffmanDcMask := jpegCtx.validHuffmanDcMask ||| loaded
    validHuffmanAcMask := jpegCtx.validHuffmanAcMask ||| loaded
    hasHuffmanTable := (jpegCtx.validHuffmanDcMask ||| loaded) |||
      (jpegCtx.validHuffmanAcMask ||| loaded) != 0 } }

def copyJPEGSliceParam : HandlerFunc := fun _ buf st =>
  some { st with lastSliceParams := buf.ptr, lastSliceParamsCount := buf.elements }

/-- The frame that `copyJPEGSliceData` builds, if it gets that far. -/
def jpegFrame (mem : Memory) (buf : NVBuffer) (st : PictureState) : Option (List UInt8) := do
  let jpegCtx ← st.codecData
  guard (st.lastSliceParams ≠ 0 ∧ st.lastSliceParamsCount ≠ 0)
  guard (buf.size ≤ 2 ^ 32 - 1)
  let frame ← (reconstructJPEG true jpegCtx (mem st.lastSliceParams).slicesJPEG
    st.lastSliceParamsCount (mem buf.ptr).bytes (UInt32.ofNat buf.size) Emit.Buf.start).1
  guard (st.bitstreamBuffer.size ≤ 2 ^ 32 - 1 - frame.length)
  return frame

def copyJPEGSliceData : HandlerFunc := fun mem buf st =>
  match jpegFrame mem buf st with
  | none => some st
  | some frame => do
    let st ← appendOffset st
    let bitstreamBuffer ← appendBuffer st.bitstreamBuffer frame
    return { st with
      bitstreamBuffer
      pPicParams := { st.pPicParams with
        nNumSlices := 1
        nBitstreamDataLen := UInt32.ofNat bitstreamBuffer.size } }

def jpegBeginPicture : PictureState → PictureState := resetJPEGPictureState

def jpegCodec : NVCodec where
  handlers
    | .pictureParameter => copyJPEGPicParam
    | .iqMatrix => copyJPEGIQMatrix
    | .huffmanTable => copyJPEGHuffmanTable
    | .sliceParameter => copyJPEGSliceParam
    | .sliceData => copyJPEGSliceData
    | _ => none
  beginPicture := jpegBeginPicture

end NvVaapi
