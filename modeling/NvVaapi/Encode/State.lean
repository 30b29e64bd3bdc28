import NvVaapi.Lib.Lts
import NvVaapi.Encode.Reads
import Mathlib.Logic.Function.Basic

/-!
# Encode contexts and their surfaces

* `nvencSetVisibleRect` and the functions around it: how sequence headers and reconfigurations
  change the sizes of a context.
* `nvPutImage`: how an image changes the content rectangle of a surface.
* `EncodeWorld`: the surfaces and the encode contexts, by their ids, and the copies that were made.
* `encoder`: the system of all calls that change a size, in any order.

NVENC does not change the parameters that are passed to `nvEncReconfigureEncoder`: what
`resizeIfRejected` takes over from them are the sizes that were passed.
-/

namespace NvVaapi

/-! ## The visible rectangle -/

namespace EncodeContext

variable (ctx : EncodeContext)

def nvencSetVisibleRect (x y w h : UInt32) : EncodeContext :=
  let invalid := { ctx with encVisibleValid := false }
  -- a zero size is also caught here
  if evenDown w = 0 ∨ evenDown h = 0 then invalid
  else if evenDown x ≥ ctx.width ∨ evenDown y ≥ ctx.height then invalid
  else
    let w' := evenDown (clip (evenDown x) (evenDown w) ctx.width)
    let h' := evenDown (clip (evenDown y) (evenDown h) ctx.height)
    if w' = 0 ∨ h' = 0 then invalid
    else { ctx with
      encVisibleX := evenDown x
      encVisibleY := evenDown y
      encVisibleWidth := w'
      encVisibleHeight := h'
      encVisibleValid := true }

/-- `g_encVisibleReconfigure` is the environment's `NVD_ENC_VISIBLE_RECONFIG`. -/
def nvencMaybeUseVisibleResolution (g_encVisibleReconfigure : Bool) : EncodeContext :=
  let visW := ctx.encVisibleWidth
  let visH := ctx.encVisibleHeight
  if !g_encVisibleReconfigure then ctx
  else if !ctx.encVisibleValid then ctx
  else if visW = 0 ∨ visH = 0 then ctx
  else if ctx.encVisibleX ≠ 0 ∨ ctx.encVisibleY ≠ 0 then ctx
  else if visW = ctx.width ∧ visH = ctx.height then ctx
  else if visW > ctx.encInitParams.maxEncodeWidth ∨
    visH > ctx.encInitParams.maxEncodeHeight then ctx
  else { ctx with
    encInitParams := { ctx.encInitParams with
      encodeWidth := visW
      encodeHeight := visH
      darWidth := visW
      darHeight := visH }
    encNeedsReconfigure := true }

end EncodeContext

/-- The fields of `VAEncSequenceParameterBufferH264` that decide the visible rectangle. -/
structure SequenceH264 where
  picture_width_in_mbs : UInt16
  picture_height_in_mbs : UInt16
  chroma_format_idc : UInt32
  frame_mbs_only_flag : Bool
  frame_cropping_flag : Bool
  frame_crop_left_offset : UInt32
  frame_crop_right_offset : UInt32
  frame_crop_top_offset : UInt32
  frame_crop_bottom_offset : UInt32

namespace SequenceH264

variable (seq : SequenceH264)

def cropUnitX : UInt32 :=
  if seq.chroma_format_idc = 1 ∨ seq.chroma_format_idc = 2 then 2 else 1

def cropUnitY : UInt32 :=
  if seq.chroma_format_idc = 1 then if seq.frame_mbs_only_flag then 2 else 4
  else if seq.frame_mbs_only_flag then 1 else 2

/-- An offset in samples, 0 without cropping. -/
def crop (offset unit : UInt32) : UInt32 := if seq.frame_cropping_flag then offset * unit else 0

end SequenceH264

/-- What is left of `coded` without the two crops. -/
def uncropped (coded crop₁ crop₂ : UInt32) : UInt32 :=
  if coded > crop₁ + crop₂ then coded - (crop₁ + crop₂) else coded

/-- The arguments of `nvencSetVisibleRect`. -/
structure VisibleRect where
  x : UInt32
  y : UInt32
  width : UInt32
  height : UInt32
  deriving DecidableEq

/-- The coded picture without its crops. -/
def SequenceH264.rect (seq : SequenceH264) : VisibleRect :=
  let cropL := seq.crop seq.frame_crop_left_offset seq.cropUnitX
  let cropR := seq.crop seq.frame_crop_right_offset seq.cropUnitX
  let cropT := seq.crop seq.frame_crop_top_offset seq.cropUnitY
  let cropB := seq.crop seq.frame_crop_bottom_offset seq.cropUnitY
  let codedW := seq.picture_width_in_mbs.toUInt32 * 16
  let codedH := seq.picture_height_in_mbs.toUInt32 * 16
  ⟨cropL, cropT, uncropped codedW cropL cropR, uncropped codedH cropT cropB⟩

namespace EncodeContext

variable (g_encVisibleReconfigure : Bool) (ctx : EncodeContext)

/-- What `nvencSetBitrate`, `nvencSetGop` and `nvencSetFrameRate` do to the context. -/
def ratesChanged (changed : Bool) : EncodeContext :=
  { ctx with encNeedsReconfigure := ctx.encNeedsReconfigure || changed }

/-- The common end of the two functions below. -/
def useVisible : EncodeContext :=
  if ctx.encVisibleValid then ctx.nvencMaybeUseVisibleResolution g_encVisibleReconfigure else ctx

def nvencUpdateVisibleRectFromH264Seq (seq : SequenceH264) : EncodeContext :=
  let r := seq.rect
  useVisible g_encVisibleReconfigure (ctx.nvencSetVisibleRect r.x r.y r.width r.height)

def nvencUpdateVisibleRectFromHevcSeq (picWidth picHeight : UInt16) : EncodeContext :=
  if picWidth = 0 ∨ picHeight = 0 then ctx
  else useVisible g_encVisibleReconfigure <|
    ctx.nvencSetVisibleRect 0 0 picWidth.toUInt32 picHeight.toUInt32

end EncodeContext

/-! ## Reconfiguration -/

/-- The results of the calls that an `nvEndPicture` meets. -/
structure EncodeOutcome where
  /-- The coded buffer and an I/O buffer are there. -/
  buffers : Bool
  /-- `nvEncReconfigureEncoder` is there. -/
  available : Bool
  /-- The last reconfiguration is too recent. -/
  debounced : Bool
  /-- The pending reconfiguration succeeds. -/
  accepted : Bool
  /-- The pitch of the input buffer, when it could be locked. -/
  locked : Option Nat
  /-- The picture is rejected with `NV_ENC_ERR_INVALID_PARAM`. -/
  rejected : Bool
  /-- The reconfiguration to the size of the copy succeeds. -/
  resized : Bool

namespace EncodeContext

variable (ctx : EncodeContext)

def ResolutionChange : Prop :=
  ctx.encInitParams.encodeWidth ≠ ctx.width ∨ ctx.encInitParams.encodeHeight ≠ ctx.height ∨
    ctx.encInitParams.darWidth ≠ ctx.width ∨ ctx.encInitParams.darHeight ≠ ctx.height

instance : Decidable ctx.ResolutionChange := inferInstanceAs (Decidable (_ ∨ _ ∨ _ ∨ _))

def nvencReconfigureIfNeeded (o : EncodeOutcome) : EncodeContext :=
  if !ctx.encNeedsReconfigure then ctx
  else if !o.available then { ctx with encNeedsReconfigure := false }
  else if ¬ctx.ResolutionChange ∧ o.debounced then ctx
  else if !o.accepted then { ctx with encNeedsReconfigure := false }
  else { ctx with
    width := ctx.encInitParams.encodeWidth
    height := ctx.encInitParams.encodeHeight
    encNeedsReconfigure := false }

/-- What `nvEndPicture` does when the encoder rejects a picture of the size of the region `r`. NVENC
leaves `reInitEncodeParams` as it was passed. -/
def resizeIfRejected (o : EncodeOutcome) (r : SourceRegion) : EncodeContext :=
  if o.rejected ∧ (r.copyWidth ≠ ctx.width ∨ r.copyHeight ≠ ctx.height) ∧ o.available ∧
      o.resized then
    { ctx with
      width := r.copyWidth
      height := r.copyHeight
      encInitParams :=
        { encodeWidth := r.copyWidth
          encodeHeight := r.copyHeight
          darWidth := r.copyWidth
          darHeight := r.copyHeight
          maxEncodeWidth := if ctx.encInitParams.maxEncodeWidth < r.copyWidth then r.copyWidth
            else ctx.encInitParams.maxEncodeWidth
          maxEncodeHeight := if ctx.encInitParams.maxEncodeHeight < r.copyHeight then r.copyHeight
            else ctx.encInitParams.maxEncodeHeight } }
  else ctx

end EncodeContext

/-! ## Surfaces and their content -/

inductive ChromaFormat where
  | yuv420
  | yuv422
  | other
  deriving DecidableEq

/-- A surface as `nvCreateSurfaces2` leaves it. -/
def EncodeSurface.init (chromaFormat : ChromaFormat) (width height : UInt32) : EncodeSurface :=
  match chromaFormat with
  | .yuv422 => .created (roundUp width 2) height
  | .yuv420 => .created (roundUp width 2) (roundUp height 2)
  | .other => .created width height

/-- The arguments of `nvPutImage`, and the size of the image. -/
structure PutImage where
  imageWidth : UInt32
  imageHeight : UInt32
  srcX : Int32
  srcY : Int32
  srcWidth : UInt32
  srcHeight : UInt32
  destX : Int32
  destY : Int32
  destWidth : UInt32
  destHeight : UInt32

namespace EncodeSurface

variable (sf : EncodeSurface)

/-- The content is the whole surface, `valid` or not. -/
def wholeContent (valid : Bool) : EncodeSurface :=
  { sf with
    contentX := 0
    contentY := 0
    contentWidth := sf.width
    contentHeight := sf.height
    contentValid := valid }

/-- The content rectangle grows by a rectangle that was written. -/
def addContent (rx ry rw rh : UInt32) : EncodeSurface :=
  if !sf.contentValid then
    { sf with
      contentX := rx
      contentY := ry
      contentWidth := rw
      contentHeight := rh
      contentValid := true }
  else
    let x0 := if sf.contentX < rx then sf.contentX else rx
    let y0 := if sf.contentY < ry then sf.contentY else ry
    let x1a := sf.contentX + sf.contentWidth
    let y1a := sf.contentY + sf.contentHeight
    let x1b := rx + rw
    let y1b := ry + rh
    let x1 := lesser sf.width (if x1a > x1b then x1a else x1b)
    let y1 := lesser sf.height (if y1a > y1b then y1a else y1b)
    let contentWidth := if x1 > x0 then x1 - x0 else 0
    let contentHeight := if y1 > y0 then y1 - y0 else 0
    { sf with
      contentX := x0
      contentY := y0
      contentWidth := contentWidth
      contentHeight := contentHeight
      contentValid := contentWidth > 0 ∧ contentHeight > 0 }

def nvPutImage (p : PutImage) : EncodeSurface :=
  let srcX := p.srcX.toUInt32
  let srcY := p.srcY.toUInt32
  let destX := p.destX.toUInt32
  let destY := p.destY.toUInt32
  if p.srcWidth = 0 ∨ p.srcHeight = 0 ∨ p.destWidth = 0 ∨ p.destHeight = 0 then sf
  else if p.srcX < 0 ∨ p.srcY < 0 ∨ p.destX < 0 ∨ p.destY < 0 then sf
  else if srcX ≥ p.imageWidth ∨ srcY ≥ p.imageHeight then sf
  else if destX ≥ sf.width ∨ destY ≥ sf.height then sf
  else
    let copyW := clip destX (clip srcX (lesser p.srcWidth p.destWidth) p.imageWidth) sf.width
    let copyH := clip destY (clip srcY (lesser p.srcHeight p.destHeight) p.imageHeight) sf.height
    if copyW > 0 ∧ copyH > 0 then sf.addContent destX destY copyW copyH else sf

end EncodeSurface

/-! ## The system -/

/-- A copy that was made: its context, its surface and the pitch of the input buffer. -/
structure HostCopy where
  ctx : EncodeContext
  surface : EncodeSurface
  dstPitch : Nat

structure EncodeWorld where
  contexts : Nat → Option EncodeContext
  surfaces : Nat → Option EncodeSurface
  /-- History: the copies. -/
  copies : List HostCopy

namespace EncodeWorld

def empty : EncodeWorld := ⟨fun _ => none, fun _ => none, []⟩

variable (w : EncodeWorld)

def setContext (c : Nat) (ctx : EncodeContext) : EncodeWorld :=
  { w with contexts := Function.update w.contexts c (some ctx) }

/-- Change the context `c`, if there is one. -/
def updateContext (c : Nat) (f : EncodeContext → EncodeContext) : EncodeWorld :=
  match w.contexts c with
  | none => w
  | some ctx => w.setContext c (f ctx)

/-- Change the surface `s`, if there is one. -/
def updateSurface (s : Nat) (f : EncodeSurface → EncodeSurface) : EncodeWorld :=
  match w.surfaces s with
  | none => w
  | some sf => { w with surfaces := Function.update w.surfaces s (some (f sf)) }

def nvCreateContext (c : Nat) (pictureWidth pictureHeight : Int32) (isHevc : Bool) : EncodeWorld :=
  if pictureWidth ≤ 0 ∨ pictureHeight ≤ 0 then w
  else w.setContext c (.created pictureWidth.toUInt32 pictureHeight.toUInt32 isHevc)

def nvBeginPicture (c s : Nat) : EncodeWorld :=
  match w.contexts c, w.surfaces s with
  | some ctx, some _ =>
    (w.setContext c
      { ctx with encCurrentSurface := some s, encHasCodedBuf := false }).updateSurface s
      fun sf => sf.wholeContent false
  | _, _ => w

/-- The context and the surface that `nvEndPicture` finds, when its checks succeed. -/
def endTarget (c : Nat) (o : EncodeOutcome) : Option (EncodeContext × EncodeSurface) := do
  let ctx ← w.contexts c
  let s ← ctx.encCurrentSurface
  guard ctx.encHasCodedBuf
  let sf ← w.surfaces s
  guard o.buffers
  return (ctx, sf)

def nvEndPicture (c : Nat) (o : EncodeOutcome) : EncodeWorld :=
  match w.endTarget c o with
  | none => w
  | some (ctx, sf) =>
    let ctx := ctx.nvencReconfigureIfNeeded o
    match o.locked with
    | none => w.setContext c ctx
    | some dstPitch =>
      { w.setContext c (ctx.resizeIfRejected o (selectRegion ctx sf)) with
        copies := w.copies ++ [⟨ctx, sf, dstPitch⟩] }

end EncodeWorld

inductive EncodeCall where
  | createSurface (s : Nat) (chromaFormat : ChromaFormat) (width height : UInt32)
  | destroySurface (s : Nat)
  | putImage (s : Nat) (p : PutImage)
  /-- `nvUnmapBuffer` on an image of the surface. -/
  | unmapImage (s : Nat)
  | createContext (c : Nat) (pictureWidth pictureHeight : Int32) (isHevc : Bool)
  | destroyContext (c : Nat)
  | beginPicture (c s : Nat)
  /-- A coded buffer, rendered by itself or named by picture parameters. -/
  | renderCodedBuffer (c : Nat)
  /-- A sequence header, with whether its rates changed something. -/
  | renderSequenceH264 (c : Nat) (seq : SequenceH264) (changed : Bool)
  | renderSequenceHevc (c : Nat) (picWidth picHeight : UInt16) (changed : Bool)
  /-- A rate or a frame rate that changed something. -/
  | renderMisc (c : Nat)
  | endPicture (c : Nat) (o : EncodeOutcome)

/-- The step of the system that a call is. A new object gets an id that is not in use. -/
def encodeStep (g_encVisibleReconfigure : Bool) (w : EncodeWorld) : EncodeCall → Option EncodeWorld
  | .createSurface s chromaFormat width height =>
    if (w.surfaces s).isNone then
      some { w with
        surfaces := Function.update w.surfaces s (some (.init chromaFormat width height)) }
    else none
  | .destroySurface s => some { w with surfaces := Function.update w.surfaces s none }
  | .putImage s p => some (w.updateSurface s fun sf => sf.nvPutImage p)
  | .unmapImage s => some (w.updateSurface s fun sf => sf.wholeContent true)
  | .createContext c pictureWidth pictureHeight isHevc =>
    if (w.contexts c).isNone then some (w.nvCreateContext c pictureWidth pictureHeight isHevc)
    else none
  | .destroyContext c => some { w with contexts := Function.update w.contexts c none }
  | .beginPicture c s => some (w.nvBeginPicture c s)
  | .renderCodedBuffer c => some (w.updateContext c fun ctx => { ctx with encHasCodedBuf := true })
  | .renderSequenceH264 c seq changed => some <| w.updateContext c fun ctx =>
    if ctx.encIsHevc then ctx
    else (ctx.nvencUpdateVisibleRectFromH264Seq g_encVisibleReconfigure seq).ratesChanged changed
  | .renderSequenceHevc c picWidth picHeight changed => some <| w.updateContext c fun ctx =>
    if ctx.encIsHevc then
      (ctx.nvencUpdateVisibleRectFromHevcSeq g_encVisibleReconfigure picWidth
        picHeight).ratesChanged
        changed
    else ctx
  | .renderMisc c => some (w.updateContext c fun ctx => ctx.ratesChanged true)
  | .endPicture c o => some (w.nvEndPicture c o)

/-- The calls on any encode contexts and surfaces, in any order. -/
def encoder (g_encVisibleReconfigure : Bool) : Lts EncodeWorld EncodeCall where
  init w := w = .empty
  step := encodeStep g_encVisibleReconfigure

end NvVaapi
