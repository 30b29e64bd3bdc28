import NvVaapi.Lib.Lts
import NvVaapi.Objects.Create

/-!
# The backing images of the EGL backend

* `ImagePool`: the surfaces, the memory of the images, and the list of the images, with the images
  that were freed as history.
* `eglRealiseSurface`, `eglDetachBackingImageFromSurface`, `eglDestroyAllBackingImage`: the
  functions of `export-buf.c` that give an image to a surface and take it back.
* `imagePool`: the system of these calls, in any order.

The number of a surface or an image is its address and is not used again. An image that was freed
keeps its contents, so that one can see what is done with it.
-/

namespace NvVaapi.Export

open Objects (SurfaceFormat surfaceFormats)

/-! ## Images and surfaces -/

/-- `DRM_FORMAT_NV21` -/
def drmFormatNV21 : UInt32 := 0x3132564e

/-- `CUarray_format`. `unset` is the 0 of a frame without one. -/
inductive CUarrayFormat where
  | unset
  | unsignedInt8
  | unsignedInt16
  deriving DecidableEq

/-- `CUeglColorFormat`. The first is 0. -/
inductive EglColorFormat where
  | yuv420Planar
  | yuv420Semiplanar
  | yvu420Semiplanar
  | y10v10u10_420Semiplanar
  deriving DecidableEq

structure CUeglFrame where
  width : UInt32
  height : UInt32
  eglColorFormat : EglColorFormat
  cuFormat : CUarrayFormat

structure BackingImage where
  surface : Option Nat
  width : UInt32
  height : UInt32
  fourcc : UInt32
  /-- The format of the elements of `arrays`. -/
  arrayFormat : CUarrayFormat

structure NVSurface extends Objects.NVSurface where
  backingImage : Option Nat

/-- The frame that `egl_allocateBackingImage` presents. -/
def eglFrame (useCorrectNV12Format : Bool) (surface : NVSurface) : CUeglFrame where
  width := surface.width
  height := surface.height
  eglColorFormat :=
    match surface.format with
    | .nv12 => if useCorrectNV12Format then .yuv420Semiplanar else .yvu420Semiplanar
    | .p016 => if surface.bitDepth = 10 ∨
        surface.bitDepth = 12 then .y10v10u10_420Semiplanar else .yuv420Planar
    | .yuv444 | .yuv444_16Bit => .yuv420Planar
  cuFormat :=
    match surface.format with
    | .nv12 => .unsignedInt8
    | .p016 => .unsignedInt16
    | .yuv444 | .yuv444_16Bit => .unset

/-! ## What EGL and CUDA answer -/

/-- A turn of the loop over the events of the stream. -/
inductive StreamEvent where
  /-- An image is available: whether it can be acquired, and its `fourcc` if it can be exported. -/
  | imageAvailable (acquired : Bool) (exported : Option UInt32)
  /-- An image was added or removed, or the event is not handled. -/
  | other

structure AllocateReply where
  /-- Both calls of `cuArray3DCreate` succeed. -/
  arraysCreated : Bool
  /-- The frame is presented, at once or after a new connection. -/
  presented : Bool
  events : List StreamEvent

/-- The answers to an allocation. CUDA does not create an array without a format. -/
structure EglReplies where
  reply : CUeglFrame → AllocateReply
  refuses : ∀ frame, frame.cuFormat = .unset → (reply frame).arraysCreated = false

/-- An image with this `fourcc` is acquired, and everything else succeeds. -/
def EglReplies.exportedAs (fourcc : UInt32) : EglReplies where
  reply frame := ⟨frame.cuFormat ≠ .unset, true, [.imageAvailable true (some fourcc)]⟩
  refuses frame h := by simp [h]

/-- The answers to `egl_realiseSurface`: to the first allocation, to the destruction of its image,
and to the second allocation. -/
structure RealiseReplies where
  first : EglReplies
  arraysDestroyed : Bool
  second : EglReplies

/-! ## The pool -/

structure ImagePool where
  surfaces : Nat → Option NVSurface
  nextSurface : Nat
  memory : Nat → BackingImage
  nextImage : Nat
  images : List Nat
  useCorrectNV12Format : Bool
  /-- History: the images that were freed, the last of them first. -/
  freed : List Nat

namespace ImagePool

variable (p : ImagePool)

def setBackingImage (s : Nat) (b : Option Nat) : ImagePool :=
  { p with
    surfaces :=
      Function.update p.surfaces s ((p.surfaces s).map fun sf => { sf with backingImage := b }) }

def setSurface (a : Nat) (s : Option Nat) : ImagePool :=
  { p with memory := Function.update p.memory a { p.memory a with surface := s } }

def addSurface (sf : NVSurface) : ImagePool :=
  { p with
    surfaces := Function.update p.surfaces p.nextSurface (some sf)
    nextSurface := p.nextSurface + 1 }

def deleteSurface (s : Nat) : ImagePool := { p with surfaces := Function.update p.surfaces s none }

def free (a : Nat) : ImagePool := { p with freed := a :: p.freed }

def backingOf (s : Nat) : Option Nat := (p.surfaces s).bind (·.backingImage)

/-- The image is not freed if one of its arrays cannot be destroyed. -/
def eglDestroyBackingImage (a : Nat) (arraysDestroyed : Bool) : Bool × ImagePool :=
  let p :=
    match (p.memory a).surface with
    | some s => p.setBackingImage s none
    | none => p
  if arraysDestroyed then (true, p.free a) else (false, p)

def eglAttachBackingImageToSurface (s a : Nat) : ImagePool :=
  (p.setBackingImage s (some a)).setSurface a (some s)

/-- The loop of `egl_detachBackingImageFromSurface`: the first image of the surface loses it. -/
def unlinkImage (s : Nat) : ImagePool :=
  match p.images.find? fun b => (p.memory b).surface = some s with
  | some b => p.setSurface b none
  | none => p

def eglDetachBackingImageFromSurface (s : Nat) (arraysDestroyed : Bool) : ImagePool :=
  match p.backingOf s with
  | none => p
  | some a =>
    if (p.memory a).fourcc = drmFormatNV21 then
      (p.eglDestroyBackingImage a arraysDestroyed).2.setBackingImage s none
    else (p.unlinkImage s).setBackingImage s none

/-- The turn of `egl_destroyAllBackingImage` for the last image of the list. -/
def destroyLast (arraysDestroyed : Nat → Bool) (a : Nat) (p : ImagePool) : ImagePool :=
  let p := (p.eglDestroyBackingImage a (arraysDestroyed a)).2
  { p with images := p.images.dropLast }

def eglDestroyAllBackingImage (arraysDestroyed : Nat → Bool) : ImagePool :=
  p.images.foldr (destroyLast arraysDestroyed) p

/-- The image that `findFreeBackingImage` finds for a surface. -/
def freeImage (sf : NVSurface) : Option Nat :=
  p.images.find? fun a =>
    (p.memory a).surface = none ∧ (p.memory a).width = sf.width ∧ (p.memory a).height = sf.height

def findFreeBackingImage (s : Nat) (sf : NVSurface) : Option Nat × ImagePool :=
  match p.freeImage sf with
  | some a => (some a, p.eglAttachBackingImageToSurface s a)
  | none => (none, p)

/-- `exported` is the `fourcc`, if the image can be exported. -/
def createBackingImage (frame : CUeglFrame) (exported : Option UInt32) : Option Nat × ImagePool :=
  let a := p.nextImage
  let img : BackingImage := ⟨none, frame.width, frame.height, exported.getD 0, frame.cuFormat⟩
  let p := { p with memory := Function.update p.memory a img, nextImage := a + 1 }
  match exported with
  | some _ => (some a, p)
  | none => (none, p.free a)

/-- The loop over the events. -/
def pollEvents (frame : CUeglFrame) (p : ImagePool) (ret : Option Nat) :
    List StreamEvent → Option Nat × ImagePool
  | [] => (ret, p)
  | .other :: events => pollEvents frame p ret events
  | .imageAvailable false _ :: _ => (ret, p)
  | .imageAvailable true exported :: events =>
    let created := p.createBackingImage frame exported
    pollEvents frame created.2 created.1 events

def eglAllocateBackingImage (sf : NVSurface) (egl : EglReplies) : Option Nat × ImagePool :=
  let frame := eglFrame p.useCorrectNV12Format sf
  let r := egl.reply frame
  if r.arraysCreated && r.presented then pollEvents frame p none r.events else (none, p)

/-- The end of `egl_realiseSurface` for a new image. -/
def addBackingImage (s a : Nat) : ImagePool :=
  let p := p.eglAttachBackingImageToSurface s a
  { p with images := p.images ++ [a] }

/-- There is no result where `img->fourcc` follows NULL. -/
def eglRealiseSurface (s : Nat) (sf : NVSurface) (r : RealiseReplies) : Option (Bool × ImagePool) :=
  match sf.backingImage with
  | some _ => some (true, p)
  | none =>
    match p.findFreeBackingImage s sf with
    | (some _, p) => some (true, p)
    | (none, p) =>
      match p.eglAllocateBackingImage sf r.first with
      | (none, p) => some (false, p)
      | (some a, p) =>
        if (p.memory a).fourcc = drmFormatNV21 then
          let p := (p.eglDestroyBackingImage a r.arraysDestroyed).2
          let p := { p with useCorrectNV12Format := !p.useCorrectNV12Format }
          match p.eglAllocateBackingImage sf r.second with
          | (none, _) => none
          | (some b, p) => some (true, p.addBackingImage s b)
        else some (true, p.addBackingImage s a)

def empty (useCorrectNV12Format : Bool) : ImagePool where
  surfaces := fun _ => none
  nextSurface := 0
  memory := fun _ => ⟨none, 0, 0, 0, .unset⟩
  nextImage := 0
  images := []
  useCorrectNV12Format := useCorrectNV12Format
  freed := []

end ImagePool

/-! ## Runs -/

inductive PoolCall where
  /-- The turn of `nvCreateSurfaces2` for one surface. -/
  | createSurface (format width height : UInt32)
  | realiseSurface (s : Nat) (r : RealiseReplies)
  | detachBackingImage (s : Nat) (arraysDestroyed : Bool)
  /-- The turn of `nvDestroySurfaces` for one surface. -/
  | destroySurface (s : Nat) (arraysDestroyed : Bool)
  | destroyAllBackingImage (arraysDestroyed : Nat → Bool)

def imagePool : Lts ImagePool PoolCall where
  init p := ∃ useCorrectNV12Format, p = .empty useCorrectNV12Format
  step p
    | .createSurface format width height => do
      let f ← surfaceFormats format
      return p.addSurface { Objects.NVSurface.created width height f with backingImage := none }
    | .realiseSurface s r => do
      let sf ← p.surfaces s
      let (_, p) ← p.eglRealiseSurface s sf r
      return p
    | .detachBackingImage s arraysDestroyed => do
      let _ ← p.surfaces s
      return p.eglDetachBackingImageFromSurface s arraysDestroyed
    | .destroySurface s arraysDestroyed =>
      match p.surfaces s with
      | none => some p
      | some _ => some ((p.eglDetachBackingImageFromSurface s arraysDestroyed).deleteSurface s)
    | .destroyAllBackingImage arraysDestroyed => some (p.eglDestroyAllBackingImage arraysDestroyed)

end NvVaapi.Export
