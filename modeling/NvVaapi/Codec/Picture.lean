import NvVaapi.Buffer
import NvVaapi.Jpeg.Reconstruct

/-!
# The picture that a decode context collects

* `ClientData`: the client's memory at a pointer, under each of the types that the code casts it to.
* `PictureState`: the fields of `NVContext` that hold the picture between `nvBeginPicture` and
  `nvEndPicture`, with the part of `CUVIDPICPARAMS` that the modelled code reads.
* `appendOffset`, `appendBitstream`, `forSlices`: the pieces of the slice loops.
* `NVCodec`: the table of handlers that a codec registers.
-/

namespace NvVaapi

/-- A pointer. 0 is NULL. -/
abbrev Ptr := Nat

inductive VABufferType where
  | pictureParameter
  | iqMatrix
  | bitPlane
  | sliceParameter
  | sliceData
  | huffmanTable
  | probability
  | other
  deriving DecidableEq

/-! ## Client memory -/

/-- The fields that handlers read of the slice parameters of H264, HEVC, MPEG-2, VC-1, VP8, VP9 and
AV1. A context reads those of its codec. -/
structure VASliceParameterBuffer where
  sliceDataSize : UInt32
  sliceDataOffset : UInt32
  sliceType : UInt8
  numRefIdxL0ActiveMinus1 : UInt8
  numRefIdxL1ActiveMinus1 : UInt8
  partitionSize0 : UInt32
  macroblockOffset : UInt32
  deriving DecidableEq, Inhabited

structure VAPictureParameterBufferH264 where
  pictureWidthInMbsMinus1 : UInt16
  pictureHeightInMbsMinus1 : UInt16
  currPicFlags : UInt32
  fieldPicFlag : Bool
  referencePicFlag : Bool
  deriving Inhabited

structure VAPictureParameterBufferHEVC where
  picWidthInLumaSamples : UInt16
  picHeightInLumaSamples : UInt16
  currPicFlags : UInt32
  intraPicFlag : Bool
  deriving Inhabited

structure VAPictureParameterBufferMPEG2 where
  horizontalSize : UInt16
  verticalSize : UInt16
  pictureCodingType : Int
  pictureStructure : Nat
  isFirstField : Bool
  deriving Inhabited

structure VAPictureParameterBufferVC1 where
  frameCodingMode : Nat
  interlace : Bool
  topFieldFirst : Bool
  isFirstField : Bool
  pictureType : Nat
  deriving Inhabited

structure VAPictureParameterBufferVP8 where
  frameWidth : UInt32
  frameHeight : UInt32
  keyFrame : Bool
  deriving Inhabited

structure VADecPictureParameterBufferVP9 where
  frameWidth : UInt16
  frameHeight : UInt16
  deriving Inhabited

structure VADecPictureParameterBufferAV1 where
  frameType : Nat
  showFrame : Bool
  tileCols : UInt8
  tileRows : UInt8
  deriving Inhabited

/-- The client's memory at a pointer. A handler reads it under the type that it casts to, and an
array without a bound, as the C code does. -/
structure ClientData where
  bytes : Nat → UInt8
  slices : Nat → VASliceParameterBuffer
  picH264 : VAPictureParameterBufferH264
  picHEVC : VAPictureParameterBufferHEVC
  picMPEG2 : VAPictureParameterBufferMPEG2
  picVC1 : VAPictureParameterBufferVC1
  picVP8 : VAPictureParameterBufferVP8
  picVP9 : VADecPictureParameterBufferVP9
  picAV1 : VADecPictureParameterBufferAV1
  picJPEG : VAPictureParameterBufferJPEGBaseline
  iqJPEG : VAIQMatrixBufferJPEGBaseline
  huffmanJPEG : VAHuffmanTableBufferJPEGBaseline
  slicesJPEG : Nat → VASliceParameterBufferJPEGBaseline
  deriving Inhabited

/-- The client's memory. -/
abbrev Memory := Ptr → ClientData

structure NVBuffer where
  elements : UInt32
  size : Nat
  bufferType : VABufferType
  ptr : Ptr
  offset : Nat
  deriving DecidableEq

/-! ## The picture -/

/-- `CUVIDPICPARAMS`, without the `CodecSpecific` fields that nothing here reads. -/
structure CUVIDPICPARAMS where
  picWidthInMbs : Int
  frameHeightInMbs : Int
  currPicIdx : Int
  fieldPicFlag : Bool
  bottomFieldFlag : Bool
  secondField : Bool
  nBitstreamDataLen : UInt32
  nNumSlices : UInt32
  refPicFlag : Bool
  intraPicFlag : Bool
  h264NumRefIdxL0ActiveMinus1 : UInt8
  h264NumRefIdxL1ActiveMinus1 : UInt8
  vp8FrameType : Bool
  vp8ShowFrame : Bool
  vp8FirstPartitionSize : UInt32
  deriving DecidableEq

/-- `memset(&pPicParams, 0, sizeof(CUVIDPICPARAMS))` -/
def CUVIDPICPARAMS.zero : CUVIDPICPARAMS :=
  ⟨0, 0, 0, false, false, false, 0, 0, false, false, 0, 0, false, false, 0⟩

/-- The picture that a decode context collects. -/
structure PictureState where
  width : UInt32
  height : UInt32
  pPicParams : CUVIDPICPARAMS
  bitstreamBuffer : AppendableBuffer
  sliceOffsets : AppendableBuffer
  lastSliceParams : Ptr
  lastSliceParamsCount : UInt32
  firstKeyframeValid : Bool
  codecData : Option JPEGContext

/-- The state that `nvCreateContext` allocates, all zero but for the size. -/
def PictureState.init (width height : UInt32) : PictureState :=
  ⟨width, height, .zero, .empty, .empty, 0, 0, false, none⟩

/-- A function that `nvRenderPicture` calls for a buffer. No result models a growth loop of
`appendBuffer` that does not end. -/
abbrev HandlerFunc := Memory → NVBuffer → PictureState → Option PictureState

structure NVCodec where
  handlers : VABufferType → Option HandlerFunc
  beginPicture : Option (PictureState → PictureState)

/-! ## The pieces of the slice loops -/

/--
`uint32_t offset = bitstreamBuffer.size; appendBuffer(&sliceOffsets, &offset, sizeof(offset))` -/
def appendOffset (st : PictureState) : Option PictureState := do
  let offset := UInt32.ofNat st.bitstreamBuffer.size
  let sliceOffsets ← appendBuffer st.sliceOffsets (Bytes.le32 offset)
  return { st with sliceOffsets }

/-- Append the pieces to the bitstream and count their bytes in `nBitstreamDataLen`. -/
def appendBitstream (pieces : List (List UInt8)) (st : PictureState) : Option PictureState := do
  let bitstreamBuffer ← pieces.foldlM appendBuffer st.bitstreamBuffer
  return { st with
    bitstreamBuffer
    pPicParams := { st.pPicParams with
      nBitstreamDataLen := st.pPicParams.nBitstreamDataLen + UInt32.ofNat pieces.flatten.length } }

/-- The loop over the `lastSliceParamsCount` elements behind `lastSliceParams`. -/
def forSlices (mem : Memory) (f : VASliceParameterBuffer → PictureState → Option PictureState)
    (st : PictureState) : Option PictureState :=
  (List.range st.lastSliceParamsCount.toNat).foldlM
    (fun st' i => f ((mem st.lastSliceParams).slices i) st') st

/-- The bytes of a slice, and `extra` more. -/
def sliceBytes (mem : Memory) (buf : NVBuffer) (s : VASliceParameterBuffer) (extra : Nat) :
    List UInt8 :=
  Bytes.read (mem buf.ptr).bytes s.sliceDataOffset.toNat (s.sliceDataSize.toNat + extra)

/-- The slice-parameter handlers: remember the elements and count them. -/
def rememberSlices (buf : NVBuffer) (st : PictureState) : PictureState :=
  { st with
    lastSliceParams := buf.ptr
    lastSliceParamsCount := buf.elements
    pPicParams := { st.pPicParams with nNumSlices := st.pPicParams.nNumSlices + buf.elements } }

/-- The slice-data handlers of H264, HEVC, MPEG-2, VC-1 and VP9: for each slice its offset, then
`header` and the slice's bytes. -/
def copySlices (header : List (List UInt8)) : HandlerFunc := fun mem buf =>
  forSlices mem fun s st => do
    let st ← appendOffset st
    appendBitstream (header ++ [sliceBytes mem buf s 0]) st

end NvVaapi
