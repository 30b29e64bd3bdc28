import NvVaapi.Lib.Bytes
import NvVaapi.Lib.Emit
import Mathlib.Data.List.FinRange

/-!
# Rebuilding a JPEG stream (`reconstructJPEG`)

The client hands over picture parameters, tables and slice data in separate buffers. The decoder
wants one JPEG stream, which `reconstructJPEG` writes into a buffer of a precomputed size.

* The parameter structures have the fields that the code reads. An array that is read under a count
  from the client is a function of the index.
* The writing functions are programs of `Emit.Prog`, which records how far the frame is written and
  how far each `Region` is read.
* `reconstructJPEG` takes whether its `malloc` succeeds as an argument.
-/

namespace NvVaapi

open Emit (Prog emit touch require alloc attempt sofar)

/-! ## Client data -/

structure JPEGFrameComponent where
  componentId : UInt8
  hSamplingFactor : UInt8
  vSamplingFactor : UInt8
  quantiserTableSelector : UInt8
  deriving DecidableEq, Inhabited

structure VAPictureParameterBufferJPEGBaseline where
  pictureWidth : UInt16
  pictureHeight : UInt16
  components : Nat → JPEGFrameComponent
  numComponents : UInt8
  deriving Inhabited

structure VAIQMatrixBufferJPEGBaseline where
  loadQuantiserTable : Fin 4 → UInt8
  quantiserTable : Fin 4 → Vector UInt8 64
  deriving Inhabited

structure JPEGHuffmanTable where
  numDcCodes : Vector UInt8 16
  dcValues : Vector UInt8 12
  numAcCodes : Vector UInt8 16
  acValues : Vector UInt8 162
  deriving Inhabited

structure VAHuffmanTableBufferJPEGBaseline where
  loadHuffmanTable : Fin 2 → UInt8
  huffmanTable : Fin 2 → JPEGHuffmanTable
  deriving Inhabited

structure JPEGScanComponent where
  componentSelector : UInt8
  dcTableSelector : UInt8
  acTableSelector : UInt8
  deriving DecidableEq, Inhabited

structure VASliceParameterBufferJPEGBaseline where
  sliceDataSize : UInt32
  sliceDataOffset : UInt32
  sliceDataFlag : UInt32
  numComponents : UInt8
  components : Nat → JPEGScanComponent
  restartInterval : UInt16
  deriving Inhabited

structure JPEGContext where
  picParams : VAPictureParameterBufferJPEGBaseline
  iqMatrix : VAIQMatrixBufferJPEGBaseline
  huffmanTable : VAHuffmanTableBufferJPEGBaseline
  hasPicParams : Bool
  hasIQMatrix : Bool
  hasHuffmanTable : Bool
  validQuantTablesMask : BitVec 8
  validHuffmanDcMask : BitVec 8
  validHuffmanAcMask : BitVec 8

/-- What the code reads besides its own variables. -/
inductive Region where
  | frameComponents
  | scanComponents
  | dcValues
  | acValues
  | sliceData
  deriving DecidableEq

/-! ## Constants -/

def JPEG_SOI : UInt8 := 0xD8
def JPEG_EOI : UInt8 := 0xD9
def JPEG_APP0 : UInt8 := 0xE0
def JPEG_DQT : UInt8 := 0xDB
def JPEG_SOF0 : UInt8 := 0xC0
def JPEG_DHT : UInt8 := 0xC4
def JPEG_DRI : UInt8 := 0xDD
def JPEG_SOS : UInt8 := 0xDA
def JPEG_MARKER : UInt8 := 0xFF
def JPEG_MAX_COMPONENTS : UInt8 := 4

/-- `VA_SLICE_DATA_FLAG_ALL` -/
def sliceDataFlagAll : UInt32 := 0

def jfifHeader : List UInt8 :=
  [JPEG_MARKER, JPEG_SOI, JPEG_MARKER, JPEG_APP0, 0x00, 0x10, 0x4A, 0x46, 0x49, 0x46, 0x00,
    0x01, 0x01, 0x00, 0x00, 0x01, 0x00, 0x01, 0x00, 0x00]

def dcLuminanceBits : Vector UInt8 16 := #v[
    0, 1, 5, 1, 1, 1, 1, 1, 1, 0, 0, 0, 0, 0, 0, 0]

def dcLuminanceVals : Vector UInt8 12 := #v[
    0, 1, 2, 3, 4, 5, 6, 7, 8, 9, 10, 11]

def dcChrominanceBits : Vector UInt8 16 := #v[
    0, 3, 1, 1, 1, 1, 1, 1, 1, 1, 1, 0, 0, 0, 0, 0]

def dcChrominanceVals : Vector UInt8 12 := #v[
    0, 1, 2, 3, 4, 5, 6, 7, 8, 9, 10, 11]

def acLuminanceBits : Vector UInt8 16 := #v[
    0, 2, 1, 3, 3, 2, 4, 3, 5, 5, 4, 4, 0, 0, 1, 0x7d]

def acLuminanceVals : Vector UInt8 162 := #v[
    0x01, 0x02, 0x03, 0x00, 0x04, 0x11, 0x05, 0x12, 0x21, 0x31, 0x41, 0x06, 0x13, 0x51, 0x61,
    0x07, 0x22, 0x71, 0x14, 0x32, 0x81, 0x91, 0xa1, 0x08, 0x23, 0x42, 0xb1, 0xc1, 0x15, 0x52,
    0xd1, 0xf0, 0x24, 0x33, 0x62, 0x72, 0x82, 0x09, 0x0a, 0x16, 0x17, 0x18, 0x19, 0x1a, 0x25,
    0x26, 0x27, 0x28, 0x29, 0x2a, 0x34, 0x35, 0x36, 0x37, 0x38, 0x39, 0x3a, 0x43, 0x44, 0x45,
    0x46, 0x47, 0x48, 0x49, 0x4a, 0x53, 0x54, 0x55, 0x56, 0x57, 0x58, 0x59, 0x5a, 0x63, 0x64,
    0x65, 0x66, 0x67, 0x68, 0x69, 0x6a, 0x73, 0x74, 0x75, 0x76, 0x77, 0x78, 0x79, 0x7a, 0x83,
    0x84, 0x85, 0x86, 0x87, 0x88, 0x89, 0x8a, 0x92, 0x93, 0x94, 0x95, 0x96, 0x97, 0x98, 0x99,
    0x9a, 0xa2, 0xa3, 0xa4, 0xa5, 0xa6, 0xa7, 0xa8, 0xa9, 0xaa, 0xb2, 0xb3, 0xb4, 0xb5, 0xb6,
    0xb7, 0xb8, 0xb9, 0xba, 0xc2, 0xc3, 0xc4, 0xc5, 0xc6, 0xc7, 0xc8, 0xc9, 0xca, 0xd2, 0xd3,
    0xd4, 0xd5, 0xd6, 0xd7, 0xd8, 0xd9, 0xda, 0xe1, 0xe2, 0xe3, 0xe4, 0xe5, 0xe6, 0xe7, 0xe8,
    0xe9, 0xea, 0xf1, 0xf2, 0xf3, 0xf4, 0xf5, 0xf6, 0xf7, 0xf8, 0xf9, 0xfa]

def acChrominanceBits : Vector UInt8 16 := #v[
    0, 2, 1, 2, 4, 4, 3, 4, 7, 5, 4, 4, 0, 1, 2, 0x77]

def acChrominanceVals : Vector UInt8 162 := #v[
    0x00, 0x01, 0x02, 0x03, 0x11, 0x04, 0x05, 0x21, 0x31, 0x06, 0x12, 0x41, 0x51, 0x07, 0x61,
    0x71, 0x13, 0x22, 0x32, 0x81, 0x08, 0x14, 0x42, 0x91, 0xa1, 0xb1, 0xc1, 0x09, 0x23, 0x33,
    0x52, 0xf0, 0x15, 0x62, 0x72, 0xd1, 0x0a, 0x16, 0x24, 0x34, 0xe1, 0x25, 0xf1, 0x17, 0x18,
    0x19, 0x1a, 0x26, 0x27, 0x28, 0x29, 0x2a, 0x35, 0x36, 0x37, 0x38, 0x39, 0x3a, 0x43, 0x44,
    0x45, 0x46, 0x47, 0x48, 0x49, 0x4a, 0x53, 0x54, 0x55, 0x56, 0x57, 0x58, 0x59, 0x5a, 0x63,
    0x64, 0x65, 0x66, 0x67, 0x68, 0x69, 0x6a, 0x73, 0x74, 0x75, 0x76, 0x77, 0x78, 0x79, 0x7a,
    0x82, 0x83, 0x84, 0x85, 0x86, 0x87, 0x88, 0x89, 0x8a, 0x92, 0x93, 0x94, 0x95, 0x96, 0x97,
    0x98, 0x99, 0x9a, 0xa2, 0xa3, 0xa4, 0xa5, 0xa6, 0xa7, 0xa8, 0xa9, 0xaa, 0xb2, 0xb3, 0xb4,
    0xb5, 0xb6, 0xb7, 0xb8, 0xb9, 0xba, 0xc2, 0xc3, 0xc4, 0xc5, 0xc6, 0xc7, 0xc8, 0xc9, 0xca,
    0xd2, 0xd3, 0xd4, 0xd5, 0xd6, 0xd7, 0xd8, 0xd9, 0xda, 0xe2, 0xe3, 0xe4, 0xe5, 0xe6, 0xe7,
    0xe8, 0xe9, 0xea, 0xf2, 0xf3, 0xf4, 0xf5, 0xf6, 0xf7, 0xf8, 0xf9, 0xfa]

/-! ## Segments -/

/-- `(uint8_t)(1U << t)` -/
def tableBit (t : Nat) : BitVec 8 := BitVec.twoPow 8 t

def write16be (value : UInt16) : Prog Region Unit :=
  emit [(value >>> 8).toUInt8, value.toUInt8]

def componentInFrame (pic : VAPictureParameterBufferJPEGBaseline) (componentId : UInt8) :
    Prog Region Bool :=
  (List.range pic.numComponents.toNat).anyM fun i => do
    touch .frameComponents (i + 1)
    return (pic.components i).componentId == componentId

def getUsedQuantTablesMask (pic : VAPictureParameterBufferJPEGBaseline) :
    Prog Region (BitVec 8) :=
  (List.range pic.numComponents.toNat).foldlM (fun usedMask i => do
    touch .frameComponents (i + 1)
    let tableId := (pic.components i).quantiserTableSelector
    require (tableId < 4)
    return usedMask ||| tableBit tableId.toNat) 0

/-- The sum that `writeDQT` compares with 0. -/
def quantSum (table : Vector UInt8 64) : Nat := (table.toList.map UInt8.toNat).sum

def writeDQT (iq : VAIQMatrixBufferJPEGBaseline) (pic : VAPictureParameterBufferJPEGBaseline)
    (validMask : BitVec 8) : Prog Region Unit := do
  let usedMask ← getUsedQuantTablesMask pic
  require (validMask &&& usedMask = usedMask)
  forM (List.finRange 4) fun (table : Fin 4) => do
    if usedMask &&& tableBit table = 0 then
      pure ()
    else
      require (quantSum (iq.quantiserTable table) ≠ 0)
      emit [JPEG_MARKER, JPEG_DQT]
      write16be 67
      emit [UInt8.ofNat table.val]
      emit (iq.quantiserTable table).toList

def writeDRI (restartInterval : UInt16) : Prog Region Unit := do
  emit [JPEG_MARKER, JPEG_DRI]
  write16be 4
  write16be restartInterval

def writeSOF0 (pic : VAPictureParameterBufferJPEGBaseline) : Prog Region Unit := do
  emit [JPEG_MARKER, JPEG_SOF0]
  write16be (2 + 1 + 2 + 2 + 1 + pic.numComponents.toUInt16 * 3)
  emit [8]
  write16be pic.pictureHeight
  write16be pic.pictureWidth
  emit [pic.numComponents]
  forM (List.range pic.numComponents.toNat) fun i => do
    touch .frameComponents (i + 1)
    let c := pic.components i
    emit [c.componentId, c.hSamplingFactor <<< 4 ||| c.vSamplingFactor, c.quantiserTableSelector]

def writeDHT (bits : Vector UInt8 16) (vals : List UInt8) (tableClass tableId : UInt8)
    (numVals : Nat) : Prog Region Unit := do
  emit [JPEG_MARKER, JPEG_DHT]
  write16be (UInt16.ofNat (2 + 1 + 16 + numVals))
  emit [tableClass <<< 4 ||| tableId]
  emit bits.toList
  touch (if tableClass = 0 then .dcValues else .acValues) numVals
  emit (vals.take numVals)

def writeStandardHuffmanTables : Prog Region Unit := do
  writeDHT dcLuminanceBits dcLuminanceVals.toList 0 0 12
  writeDHT dcChrominanceBits dcChrominanceVals.toList 0 1 12
  writeDHT acLuminanceBits acLuminanceVals.toList 1 0 162
  writeDHT acChrominanceBits acChrominanceVals.toList 1 1 162

def countHuffValues (codes : Vector UInt8 16) (maxVals : Nat) : Option Nat :=
  codes.toList.foldlM (fun sum c =>
    let sum := sum + c.toNat
    if sum > maxVals then none else some sum) 0

/-- The part of `writeVAHuffmanTables` that both table classes run: nothing for a table that is not
required, else the table when it is loaded and has between 1 and `maxVals` codes. -/
def writeVATable (tableClass : UInt8) (maxVals : Nat) (bits : Vector UInt8 16) (vals : List UInt8)
    (requiredMask validMask : BitVec 8) (tableIdx : Nat) : Prog Region Unit := do
  if requiredMask &&& tableBit tableIdx ≠ 0 then
    require (validMask &&& tableBit tableIdx ≠ 0)
    match countHuffValues bits maxVals with
    | none => Emit.fail
    | some numValues =>
      require (numValues ≠ 0)
      writeDHT bits vals tableClass (UInt8.ofNat tableIdx) numValues

def writeVAHuffmanTables (huffman : VAHuffmanTableBufferJPEGBaseline)
    (requiredDcMask requiredAcMask validDcMask validAcMask : BitVec 8) : Prog Region Unit :=
  forM (List.finRange 2) fun (tableIdx : Fin 2) => do
    let t := huffman.huffmanTable tableIdx
    writeVATable 0 12 t.numDcCodes t.dcValues.toList requiredDcMask validDcMask tableIdx
    writeVATable 1 162 t.numAcCodes t.acValues.toList requiredAcMask validAcMask tableIdx

def validateSliceAndCollectHuffmanUsage (pic : VAPictureParameterBufferJPEGBaseline)
    (slice : VASliceParameterBufferJPEGBaseline) (requiredDcMask requiredAcMask : BitVec 8) :
    Prog Region (BitVec 8 × BitVec 8) := do
  require (slice.numComponents ≠ 0 ∧ slice.numComponents ≤ JPEG_MAX_COMPONENTS)
  (List.range slice.numComponents.toNat).foldlM (fun masks i => do
    touch .scanComponents (i + 1)
    let c := slice.components i
    let found ← componentInFrame pic c.componentSelector
    require found
    require (c.dcTableSelector ≤ 1 ∧ c.acTableSelector ≤ 1)
    return (masks.1 ||| tableBit c.dcTableSelector.toNat,
      masks.2 ||| tableBit c.acTableSelector.toNat)) (requiredDcMask, requiredAcMask)

def writeSOS (slice : VASliceParameterBufferJPEGBaseline) : Prog Region Unit := do
  emit [JPEG_MARKER, JPEG_SOS]
  write16be (2 + 1 + slice.numComponents.toUInt16 * 2 + 3)
  emit [slice.numComponents]
  forM (List.range slice.numComponents.toNat) fun i => do
    touch .scanComponents (i + 1)
    let c := slice.components i
    emit [c.componentSelector, c.dcTableSelector <<< 4 ||| c.acTableSelector]
  emit [0, 63, 0]

/-! ## The frame -/

/-- What the first loop over the slices collects. -/
structure SliceUsage where
  totalEcsSize : Nat
  requiredDcMask : BitVec 8
  requiredAcMask : BitVec 8
  deriving DecidableEq

/-- One turn of the first loop over the slices. -/
def checkSlice (pic : VAPictureParameterBufferJPEGBaseline) (sliceDataSize : UInt32)
    (u : SliceUsage) (slice : VASliceParameterBufferJPEGBaseline) : Prog Region SliceUsage := do
  require (slice.sliceDataFlag = sliceDataFlagAll)
  let masks ← validateSliceAndCollectHuffmanUsage pic slice u.requiredDcMask u.requiredAcMask
  require (slice.sliceDataOffset ≤ sliceDataSize)
  require (slice.sliceDataSize ≤ sliceDataSize - slice.sliceDataOffset)
  require (slice.sliceDataSize.toNat ≤ 2 ^ 64 - 1 - u.totalEcsSize)
  return ⟨u.totalEcsSize + slice.sliceDataSize.toNat, masks.1, masks.2⟩

/-- The scan headers of two slices have the same components. -/
def sameSOSHeader (slice slice0 : VASliceParameterBufferJPEGBaseline) : Prog Region Bool := do
  if slice.numComponents ≠ slice0.numComponents then
    return false
  let differ ← (List.range slice.numComponents.toNat).anyM fun c => do
    touch .scanComponents (c + 1)
    return slice.components c != slice0.components c
  return !differ

/-- The second loop over the slices: `allSameSOSHeader` and `allSameRestartInterval`. -/
def groupSlices (slices : Nat → VASliceParameterBufferJPEGBaseline) (sliceCount : Nat) :
    Prog Region (Bool × Bool) :=
  (List.range' 1 (sliceCount - 1)).foldlM (fun same i => do
    let sameRestart := if (slices i).restartInterval ≠ (slices 0).restartInterval then false
      else same.2
    let sameSOS ← sameSOSHeader (slices i) (slices 0)
    return (same.1 && sameSOS, sameRestart)) (true, true)

/-- The sum behind `maxSize64`, before it wraps. -/
def worstSize (pic : VAPictureParameterBufferJPEGBaseline) (sliceCount totalEcsSize : Nat) : Nat :=
  let dqtSize := 4 * (2 + 2 + 1 + 64)
  let sof0Size := 2 + 2 + 1 + 2 + 2 + 1 + pic.numComponents.toNat * 3
  let dhtSize := 2 * ((2 + 2 + 1 + 16 + 12) + (2 + 2 + 1 + 16 + 162))
  let driSize := sliceCount * (2 + 2 + 2)
  let sosSize := sliceCount * (2 + 2 + 1 + 4 * 2 + 3)
  jfifHeader.length + dqtSize + sof0Size + dhtSize + driSize + sosSize + totalEcsSize + 2

/-- The allocation size, a `uint64_t`. The source tests it against `SIZE_MAX`, which is the same
type's maximum. -/
def maxSize64 (pic : VAPictureParameterBufferJPEGBaseline) (sliceCount totalEcsSize : Nat) : Nat :=
  worstSize pic sliceCount totalEcsSize % 2 ^ 64

/-- The copy of one slice's entropy-coded data. -/
def copyEcs (sliceData : Nat → UInt8) (slice : VASliceParameterBufferJPEGBaseline) :
    Prog Region Unit := do
  touch .sliceData (slice.sliceDataOffset.toNat + slice.sliceDataSize.toNat)
  emit (Bytes.read sliceData slice.sliceDataOffset.toNat slice.sliceDataSize.toNat)

/-- The scans, under one scan header or under one each. -/
def writeScans (slices : Nat → VASliceParameterBufferJPEGBaseline) (sliceCount : Nat)
    (sliceData : Nat → UInt8) (allSameSOSHeader allSameRestartInterval : Bool) :
    Prog Region Unit := do
  if allSameSOSHeader then
    writeSOS (slices 0)
    forM (List.range sliceCount) fun i => copyEcs sliceData (slices i)
  else
    forM (List.range sliceCount) fun i => do
      if !allSameRestartInterval && (slices i).restartInterval != 0 then
        writeDRI (slices i).restartInterval
      writeSOS (slices i)
      copyEcs sliceData (slices i)

/-- The stream ends with an EOI marker already. -/
def endsWithEOI (bytes : List UInt8) : Bool :=
  2 ≤ bytes.length && bytes.drop (bytes.length - 2) == [JPEG_MARKER, JPEG_EOI]

/-- The checks in front of the allocation. They give the slice usage. -/
def checkFrame (jpegCtx : JPEGContext) (slices : Nat → VASliceParameterBufferJPEGBaseline)
    (sliceCount : UInt32) (sliceDataSize : UInt32) : Prog Region SliceUsage := do
  let pic := jpegCtx.picParams
  require (jpegCtx.hasPicParams ∧ jpegCtx.hasIQMatrix)
  require (pic.pictureWidth ≠ 0 ∧ pic.pictureHeight ≠ 0)
  require (pic.numComponents ≠ 0 ∧ pic.numComponents ≤ JPEG_MAX_COMPONENTS)
  let usedQuantMask ← getUsedQuantTablesMask pic
  require (jpegCtx.validQuantTablesMask &&& usedQuantMask = usedQuantMask)
  require (sliceCount ≠ 0)
  (List.range sliceCount.toNat).foldlM (fun u i => checkSlice pic sliceDataSize u (slices i))
    ⟨0, 0, 0⟩

/-- The Huffman tables of the client when they can be used, else the standard ones. -/
def writeHuffmanTables (jpegCtx : JPEGContext) (u : SliceUsage) : Prog Region Unit := do
  if jpegCtx.hasHuffmanTable ∧
      jpegCtx.validHuffmanDcMask &&& u.requiredDcMask = u.requiredDcMask ∧
      jpegCtx.validHuffmanAcMask &&& u.requiredAcMask = u.requiredAcMask then
    let ok ← attempt (writeVAHuffmanTables jpegCtx.huffmanTable u.requiredDcMask u.requiredAcMask
      jpegCtx.validHuffmanDcMask jpegCtx.validHuffmanAcMask)
    if ok then pure () else writeStandardHuffmanTables
  else
    writeStandardHuffmanTables

/-- The frame up to the data of its last slice. -/
def writeFrame (jpegCtx : JPEGContext) (slices : Nat → VASliceParameterBufferJPEGBaseline)
    (sliceCount : UInt32) (sliceData : Nat → UInt8) (u : SliceUsage)
    (allSameSOSHeader allSameRestartInterval : Bool) : Prog Region Unit := do
  emit jfifHeader
  writeDQT jpegCtx.iqMatrix jpegCtx.picParams jpegCtx.validQuantTablesMask
  writeSOF0 jpegCtx.picParams
  writeHuffmanTables jpegCtx u
  if allSameRestartInterval && (slices 0).restartInterval != 0 then
    writeDRI (slices 0).restartInterval
  writeScans slices sliceCount.toNat sliceData allSameSOSHeader allSameRestartInterval

/-- The EOI marker, unless the client's data ended with one, and the size limit of the result. -/
def finishFrame : Prog Region (List UInt8) := do
  let frame ← sofar
  if endsWithEOI frame then pure () else emit [JPEG_MARKER, JPEG_EOI]
  let frame ← sofar
  require (frame.length ≤ 2 ^ 32 - 1)
  return frame

/-- `reconstructJPEG`. Its result is the frame, whose length is `outSize`. -/
def reconstructJPEG (mallocOk : Bool) (jpegCtx : JPEGContext)
    (slices : Nat → VASliceParameterBufferJPEGBaseline) (sliceCount : UInt32)
    (sliceData : Nat → UInt8) (sliceDataSize : UInt32) : Prog Region (List UInt8) := do
  let u ← checkFrame jpegCtx slices sliceCount sliceDataSize
  let same ← groupSlices slices sliceCount.toNat
  require mallocOk
  alloc (maxSize64 jpegCtx.picParams sliceCount.toNat u.totalEcsSize)
  writeFrame jpegCtx slices sliceCount sliceData u same.1 same.2
  finishFrame

end NvVaapi
