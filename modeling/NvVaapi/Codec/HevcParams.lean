import NvVaapi.Codec.References
import NvVaapi.Lib.Indexed

/-!
# The HEVC picture parameters (`copyHEVCPicParam`)

What `copyHEVCPicParam` derives for `CodecSpecific.hevc`: the tiles and the reference picture sets.
The fields that it only copies are left out, and those that it sets for every codec are in
`NvVaapi.Codec.Handlers`.

* An array is a function of the index. What stands behind its end is what the memory holds there.
* `HevcArray`: the arrays whose accesses are recorded.
-/

namespace NvVaapi.Hevc

open References

/-! ## Data -/

def vaPictureHEVCLongTermReference : UInt32 := 0x8
def vaPictureHEVCRpsStCurrBefore : UInt32 := 0x10
def vaPictureHEVCRpsStCurrAfter : UInt32 := 0x20
def vaPictureHEVCRpsLtCurr : UInt32 := 0x40

structure VAPictureHEVC where
  pictureId : VASurfaceID
  picOrderCnt : Int32
  flags : UInt32

/-- `VAPictureParameterBufferHEVC`. `pic` is `CurrPic` and behind it the 15 `ReferenceFrames`, as
the code reads them. -/
structure VAPictureParameterBufferHEVC where
  pic : Nat → VAPictureHEVC
  tilesEnabledFlag : Bool
  numTileColumnsMinus1 : UInt8
  numTileRowsMinus1 : UInt8
  columnWidthMinus1 : Nat → UInt16
  rowHeightMinus1 : Nat → UInt16

structure CUVIDHEVCPICPARAMS where
  tilesEnabledFlag : Bool
  uniformSpacingFlag : Bool
  numTileColumnsMinus1 : UInt8
  numTileRowsMinus1 : UInt8
  columnWidthMinus1 : Nat → UInt16
  rowHeightMinus1 : Nat → UInt16
  numPocTotalCurr : Nat
  numPocStCurrBefore : Nat
  numPocStCurrAfter : Nat
  numPocLtCurr : Nat
  currPicOrderCntVal : Int32
  refPicIdx : Nat → Int
  picOrderCntVal : Nat → Int32
  isLongTerm : Nat → Bool
  refPicSetStCurrBefore : Nat → UInt8
  refPicSetStCurrAfter : Nat → UInt8
  refPicSetLtCurr : Nat → UInt8

/-- `memset(&pPicParams, 0, sizeof(CUVIDPICPARAMS))` -/
def CUVIDHEVCPICPARAMS.zero : CUVIDHEVCPICPARAMS :=
  ⟨false, false, 0, 0, fun _ => 0, fun _ => 0, 0, 0, 0, 0, 0, fun _ => 0, fun _ => 0,
    fun _ => false, fun _ => 0, fun _ => 0, fun _ => 0⟩

/-- The client's arrays of the tile sizes, those of `CUVIDHEVCPICPARAMS`, and its reference picture
sets. -/
inductive HevcArray where
  | vaColumnWidthMinus1
  | vaRowHeightMinus1
  | columnWidthMinus1
  | rowHeightMinus1
  | refPicSetStCurrBefore
  | refPicSetStCurrAfter
  | refPicSetLtCurr
  deriving DecidableEq

/-- The sizes that the headers declare. -/
def HevcArray.size : HevcArray → Nat
  | vaColumnWidthMinus1 => 19
  | vaRowHeightMinus1 => 21
  | columnWidthMinus1 => 21
  | rowHeightMinus1 => 21
  | refPicSetStCurrBefore => 8
  | refPicSetStCurrAfter => 8
  | refPicSetLtCurr => 8

/-! ## The tiles -/

/-- One of the two loops that look for neighbours that differ, over `n` indices from `i` on. -/
def equalNeighbours (a : HevcArray) (xs : Nat → UInt16) : Nat → Nat → Indexed HevcArray Bool
  | 0, _ => pure true
  | n + 1, i => do
    let x ← Indexed.read a xs i
    let y ← Indexed.read a xs (i + 1)
    if x ≠ y then pure false else equalNeighbours a xs n (i + 1)

/-- `uniform_spacing_flag` -/
def uniformSpacing (buf : VAPictureParameterBufferHEVC) : Indexed HevcArray Bool :=
  if buf.tilesEnabledFlag then do
    let columns ← equalNeighbours .vaColumnWidthMinus1 buf.columnWidthMinus1 19 0
    if columns then equalNeighbours .vaRowHeightMinus1 buf.rowHeightMinus1 21 0 else pure false
  else pure true

/-- One of the two loops that copy the tile sizes up to the index `last`. -/
def copyTileSizes (src dst : HevcArray) (last : UInt8) (xs ys : Nat → UInt16) :
    Indexed HevcArray (Nat → UInt16) :=
  (List.range (last.toNat + 1)).foldlM (fun ys i => do
    let x ← Indexed.read src xs i
    Indexed.write dst ys i x) ys

/-! ## The reference picture sets -/

/-- The turn of the loop over `pic` for the index `i`. -/
def addPicture (drv : Surfaces) (buf : VAPictureParameterBufferHEVC)
    (ppc : CUVIDHEVCPICPARAMS) (i : Nat) :
    Indexed HevcArray CUVIDHEVCPICPARAMS := do
  let pic := buf.pic i
  let refPicIdx := pictureIdxFromSurfaceId drv pic.pictureId
  let ppc := { ppc with
    refPicIdx := Function.update ppc.refPicIdx i refPicIdx
    picOrderCntVal := Function.update ppc.picOrderCntVal i pic.picOrderCnt
    isLongTerm := Function.update ppc.isLongTerm i
      (i != 0 && pic.flags &&& vaPictureHEVCLongTermReference != 0)
    numPocTotalCurr :=
      if i ≠ 0 ∧ refPicIdx ≠ -1 then ppc.numPocTotalCurr + 1 else ppc.numPocTotalCurr }
  if pic.flags &&& vaPictureHEVCRpsStCurrBefore ≠ 0 then do
    let refPicSetStCurrBefore ←
      Indexed.write .refPicSetStCurrBefore ppc.refPicSetStCurrBefore ppc.numPocStCurrBefore
        (UInt8.ofNat i)
    return { ppc with refPicSetStCurrBefore, numPocStCurrBefore := ppc.numPocStCurrBefore + 1 }
  else if pic.flags &&& vaPictureHEVCRpsStCurrAfter ≠ 0 then do
    let refPicSetStCurrAfter ←
      Indexed.write .refPicSetStCurrAfter ppc.refPicSetStCurrAfter ppc.numPocStCurrAfter
        (UInt8.ofNat i)
    return { ppc with refPicSetStCurrAfter, numPocStCurrAfter := ppc.numPocStCurrAfter + 1 }
  else if pic.flags &&& vaPictureHEVCRpsLtCurr ≠ 0 then do
    let refPicSetLtCurr ← Indexed.write .refPicSetLtCurr ppc.refPicSetLtCurr ppc.numPocLtCurr
        (UInt8.ofNat i)
    return { ppc with refPicSetLtCurr, numPocLtCurr := ppc.numPocLtCurr + 1 }
  else return ppc

/-- `qsort_r` on the first `n` elements. Equal picture order counts have no order of their own. -/
def qsort (a : HevcArray) (before : UInt8 → UInt8 → Bool) (n : Nat) (xs : Nat → UInt8) :
    Indexed HevcArray (Nat → UInt8) := do
  (List.range n).forM fun i => Indexed.access a i
  let sorted := ((List.range n).map xs).mergeSort before
  return fun i => (sorted[i]?).getD (xs i)

/-! ## The handler -/

/-- `copyHEVCPicParam`, on `CodecSpecific.hevc`. -/
def copyHEVCPicParam (drv : Surfaces) (buf : VAPictureParameterBufferHEVC)
    (ppc : CUVIDHEVCPICPARAMS) :
    Indexed HevcArray CUVIDHEVCPICPARAMS := do
  let uniformSpacingFlag ← uniformSpacing buf
  let ppc := { ppc with
    tilesEnabledFlag := buf.tilesEnabledFlag
    uniformSpacingFlag
    numTileColumnsMinus1 := buf.numTileColumnsMinus1
    numTileRowsMinus1 := buf.numTileRowsMinus1
    numPocTotalCurr := 0
    numPocStCurrBefore := 0
    numPocStCurrAfter := 0
    numPocLtCurr := 0
    currPicOrderCntVal := (buf.pic 0).picOrderCnt }
  let columnWidthMinus1 ← copyTileSizes .vaColumnWidthMinus1 .columnWidthMinus1
      ppc.numTileColumnsMinus1
    buf.columnWidthMinus1 ppc.columnWidthMinus1
  let rowHeightMinus1 ← copyTileSizes .vaRowHeightMinus1 .rowHeightMinus1 ppc.numTileRowsMinus1
    buf.rowHeightMinus1 ppc.rowHeightMinus1
  let ppc ← (List.range 16).foldlM (addPicture drv buf)
      { ppc with columnWidthMinus1, rowHeightMinus1 }
  let refPicSetStCurrBefore ← qsort .refPicSetStCurrBefore
    (fun a b => ppc.picOrderCntVal b.toNat ≤ ppc.picOrderCntVal a.toNat) ppc.numPocStCurrBefore
    ppc.refPicSetStCurrBefore
  let refPicSetStCurrAfter ← qsort .refPicSetStCurrAfter
    (fun a b => ppc.picOrderCntVal a.toNat < ppc.picOrderCntVal b.toNat) ppc.numPocStCurrAfter
    ppc.refPicSetStCurrAfter
  return { ppc with refPicSetStCurrBefore, refPicSetStCurrAfter }

end NvVaapi.Hevc
