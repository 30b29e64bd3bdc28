import NvVaapi.Driver.State
import NvVaapi.Encode.Staging
import NvVaapi.Lib.Prog
import NvVaapi.Objects.Config
import NvVaapi.Objects.Table

/-!
# The driver's objects

* `NVSurface`, `NVContext`, `NVBuffer`, `NVImage`: the objects, with the pointers that they hold.
* `World`: the object table, each object with its address, and the calling thread's stack of CUDA
  contexts.
* `modifySurface` and the like: a write through a pointer.
* `Fresh`: what an allocation can return.

An entrypoint is an `Entry`: it returns a status, or it never returns (it waits for a mutex that its
own thread holds), or it follows a pointer to something that is not there.
-/

namespace NvVaapi.Objects

inductive VAStatus where
  | success
  | errorInvalidConfig
  | errorInvalidContext
  | errorInvalidSurface
  | errorInvalidBuffer
  | errorInvalidImage
  | errorInvalidImageFormat
  | errorInvalidParameter
  | errorMaxNumExceeded
  | errorOperationFailed
  | errorDecodingError
  | errorAllocationFailed
  | errorUnsupportedProfile
  | errorUnsupportedEntrypoint
  | errorUnsupportedRtFormat
  | errorUnsupportedMemoryType
  deriving DecidableEq

/-- `NVENCSTATUS`, as far as the code tells the values apart. -/
inductive NvencStatus where
  | success
  | outOfMemory
  | invalidParam
  | invalidPtr
  | encoderNotInitialized
  | noEncodeDevice
  | unsupportedDevice
  | needMoreInput
  | other
  deriving DecidableEq

def nvencToVaStatus : NvencStatus → VAStatus
  | .success => .success
  | .outOfMemory => .errorAllocationFailed
  | .invalidParam | .invalidPtr => .errorInvalidParameter
  | .encoderNotInitialized => .errorInvalidContext
  | .noEncodeDevice | .unsupportedDevice => .errorUnsupportedEntrypoint
  | .needMoreInput | .other => .errorOperationFailed

theorem nvencToVaStatus_ne_success {nvs : NvencStatus} (h : nvs ≠ .success) :
    nvencToVaStatus nvs ≠ .success := by
  cases nvs with
  | success => exact absurd rfl h
  | _ => decide

/-- A buffer's type. `outOfRange` stands for the values from `VABufferTypeMax` on. -/
inductive BufferType where
  | pictureParameter
  | iqMatrix
  | bitPlane
  | sliceParameter
  | sliceData
  | huffmanTable
  | probability
  | image
  | encCoded
  | encSequenceParameter
  | encPictureParameter
  | encMiscParameter
  | other
  | outOfRange
  deriving DecidableEq

inductive NVFormat where
  | nv12
  | p010
  | p012
  | p016
  | yuv444p
  | q416
  deriving DecidableEq

namespace NVFormat

/-! `formatsInfo[format]` -/

/-- Bytes for a pixel and a channel. -/
def bppc : NVFormat → UInt32
  | .nv12 | .yuv444p => 1
  | .p010 | .p012 | .p016 | .q416 => 2

/-- For each plane `channelCount` and `ss.x + ss.y`. -/
def planes : NVFormat → List (UInt32 × UInt32)
  | .nv12 | .p010 | .p012 | .p016 => [(1, 0), (2, 2)]
  | .yuv444p | .q416 => [(1, 0), (1, 0), (1, 0)]

end NVFormat

/-! ## The objects -/

structure NVSurface where
  width : UInt32
  height : UInt32
  format : SurfaceFormat
  chromaFormat : ChromaFormat
  bitDepth : Nat
  pictureIdx : Int
  context : Addr
  resolving : Bool
  hostData : Addr
  /-- The mutex is held. -/
  locked : Bool

inductive NVContextMode where
  | decode
  | encode
  deriving DecidableEq

structure NVContext where
  mode : NVContextMode
  profile : VAProfile
  codec : Codec
  decoder : Bool
  renderTarget : Addr
  lastSliceParams : Addr
  currentPictureId : Int
  surfaceCount : Int
  surfaceQueue : RingBuffer surfaceQueueSize Addr
  nvencEncoder : Bool
  nvencInputBuffers : Nat → Bool
  nvencOutputBuffers : Nat → Bool
  nvencIoBufferCount : Nat
  nvencIoBufferIndex : Nat
  encIsHevc : Bool
  encCurrentSurface : VAGenericID
  encCodedBufId : VAGenericID
  encHasCodedBuf : Bool

/-- `codedSeg` is `codedData`. `commitOnUnmap` is left out, nothing sets it. -/
structure NVBuffer where
  elements : UInt32
  size : Nat
  bufferType : BufferType
  ptr : Addr
  ownsPtr : Bool
  codedData : Addr
  codedCapacity : Nat
  surfaceId : VAGenericID
  mappedSurfaceLock : Bool
  deriving DecidableEq

structure NVImage where
  width : UInt32
  height : UInt32
  format : NVFormat
  imageBuffer : Addr
  deriving DecidableEq

/-- What an object's `obj` points to. -/
inductive Payload where
  | config (cfg : NVConfig)
  | context (ctx : NVContext)
  | surface (sf : NVSurface)
  | buffer (buf : NVBuffer)
  | image (img : NVImage)

namespace Payload

def type : Payload → ObjectType
  | .config _ => .config
  | .context _ => .context
  | .surface _ => .surface
  | .buffer _ => .buffer
  | .image _ => .image

def config? : Payload → Option NVConfig
  | .config cfg => some cfg
  | _ => none

def context? : Payload → Option NVContext
  | .context ctx => some ctx
  | _ => none

def surface? : Payload → Option NVSurface
  | .surface sf => some sf
  | _ => none

def buffer? : Payload → Option NVBuffer
  | .buffer buf => some buf
  | _ => none

def image? : Payload → Option NVImage
  | .image img => some img
  | _ => none

/-- The host memory that an object owns. -/
def memory : Payload → List Addr
  | .surface sf => [sf.hostData]
  | .buffer buf => (if buf.ownsPtr then [buf.ptr] else []) ++ [buf.codedData]
  | _ => []

end Payload

/-- An object's memory: its address and what is there. -/
structure Cell where
  addr : Addr
  payload : Payload

/-- A context on a thread's stack of CUDA contexts. -/
abbrev CUcontext := Nat

structure World where
  info : DriverInfo
  cudaContext : CUcontext
  objects : List (Object Cell)
  nextObjId : VAGenericID
  /-- The CUDA contexts of the calling thread, the current one first. -/
  cudaStack : List CUcontext
  /-- History: the contexts that `destroyContext` was called with. -/
  destroyed : List Addr
  /-- History: the host memory that was freed. -/
  freed : List Addr

abbrev Entry := Prog World VAStatus VAStatus

namespace World

variable (w : World)

/-- The driver after its initialization, on a thread with the CUDA contexts `cudaStack`. -/
def init (info : DriverInfo) (cudaContext : CUcontext) (cudaStack : List CUcontext) : World :=
  ⟨info, cudaContext, [], 0, cudaStack, [], []⟩

/-- The addresses in use. -/
def addresses : List Addr := w.objects.flatMap fun o => o.obj.addr :: o.obj.payload.memory

/-- An allocation can return `a`. -/
def Fresh (a : Addr) : Prop := a ≠ 0 ∧ a ∉ w.addresses

instance (a : Addr) : Decidable (w.Fresh a) := inferInstanceAs (Decidable (_ ∧ _))

/-! ## Finding -/

/-- `getObjectPtr` -/
def getObjectPtr (type : ObjectType) (id : VAGenericID) : Option Cell :=
  (findObject w.objects type id).map Object.obj

def getConfig (id : VAGenericID) : Option (Addr × NVConfig) :=
  (w.getObjectPtr .config id).bind fun c => c.payload.config?.map fun cfg => (c.addr, cfg)

def getContext (id : VAGenericID) : Option (Addr × NVContext) :=
  (w.getObjectPtr .context id).bind fun c => c.payload.context?.map fun ctx => (c.addr, ctx)

def getSurface (id : VAGenericID) : Option (Addr × NVSurface) :=
  (w.getObjectPtr .surface id).bind fun c => c.payload.surface?.map fun sf => (c.addr, sf)

def getBuffer (id : VAGenericID) : Option (Addr × NVBuffer) :=
  (w.getObjectPtr .buffer id).bind fun c => c.payload.buffer?.map fun buf => (c.addr, buf)

def getImage (id : VAGenericID) : Option (Addr × NVImage) :=
  (w.getObjectPtr .image id).bind fun c => c.payload.image?.map fun img => (c.addr, img)

/-- `getObjectByPtr(drv, OBJECT_TYPE_BUFFER, ptr)` -/
def getBufferByPtr (ptr : Addr) : Option (VAGenericID × NVBuffer) :=
  if ptr = 0 then none
  else (w.objects.find? fun o => o.obj.addr = ptr ∧ o.type = .buffer).bind fun o =>
    o.obj.payload.buffer?.map fun buf => (o.id, buf)

/-! ## Following a pointer -/

def contextAt (a : Addr) : Option NVContext :=
  (w.objects.find? fun o => o.obj.addr = a ∧ o.obj.payload.context?.isSome).bind fun o =>
    o.obj.payload.context?

def surfaceAt (a : Addr) : Option NVSurface :=
  (w.objects.find? fun o => o.obj.addr = a ∧ o.obj.payload.surface?.isSome).bind fun o =>
    o.obj.payload.surface?

def bufferAt (a : Addr) : Option NVBuffer :=
  (w.objects.find? fun o => o.obj.addr = a ∧ o.obj.payload.buffer?.isSome).bind fun o =>
    o.obj.payload.buffer?

/-! ## Writing through a pointer -/

/-- Change what is at the address `a`. -/
def modify (a : Addr) (f : Payload → Payload) : World :=
  { w with objects := w.objects.map fun o =>
      if o.obj.addr = a then { o with obj := ⟨a, f o.obj.payload⟩ } else o }

def modifyConfig (a : Addr) (f : NVConfig → NVConfig) : World :=
  w.modify a fun
    | .config cfg => .config (f cfg)
    | p => p

def modifyContext (a : Addr) (f : NVContext → NVContext) : World :=
  w.modify a fun
    | .context ctx => .context (f ctx)
    | p => p

def modifySurface (a : Addr) (f : NVSurface → NVSurface) : World :=
  w.modify a fun
    | .surface sf => .surface (f sf)
    | p => p

def modifyBuffer (a : Addr) (f : NVBuffer → NVBuffer) : World :=
  w.modify a fun
    | .buffer buf => .buffer (f buf)
    | p => p

def modifyImage (a : Addr) (f : NVImage → NVImage) : World :=
  w.modify a fun
    | .image img => .image (f img)
    | p => p

def deleteObject (id : VAGenericID) : World := { w with objects := eraseObject w.objects id }

def free (a : Addr) : World := { w with freed := if a = 0 then w.freed else a :: w.freed }

end World

/-! ## The steps that entrypoints share -/

section Steps

variable {ε : Type}

/-- `allocateObject`, with the address that `calloc` returns. -/
def allocateObject (payload : Payload) (addr : Addr) : Prog World ε VAGenericID := do
  Prog.wait fun w => w.Fresh addr
  let w ← Prog.read
  let id := w.nextObjId + 1
  Prog.update fun w =>
    { w with objects := w.objects ++ [⟨payload.type, id, addr, payload⟩], nextObjId := id }
  return id

def deleteObject (id : VAGenericID) : Prog World ε Unit := Prog.update fun w => w.deleteObject id

def free (a : Addr) : Prog World ε Unit := Prog.update fun w => w.free a

/-- `CHECK_CUDA_RESULT_RETURN(cuCtxPushCurrent(drv->cudaContext), e)`, with its result. -/
def pushContext (ok : Bool) (e : ε) : Prog World ε Unit := do
  if !ok then Prog.leave e
  Prog.update fun w => { w with cudaStack := w.cudaContext :: w.cudaStack }

/-- `cuCtxPopCurrent(NULL)`, with its result. -/
def popCurrent (ok : Bool) : Prog World ε Unit :=
  Prog.update fun w => { w with cudaStack := if ok then w.cudaStack.tail else w.cudaStack }

/-- `CHECK_CUDA_RESULT_RETURN(cuCtxPopCurrent(NULL), e)` -/
def popContext (ok : Bool) (e : ε) : Prog World ε Unit := do
  popCurrent ok
  if !ok then Prog.leave e

/-- Wait for the mutex of the surface at `a`, to hold it for a while. -/
def waitUnlocked (a : Addr) : Prog World ε Unit :=
  Prog.wait fun w => ((w.surfaceAt a).any fun sf => !sf.locked) = true

/-- `ensureSurfaceHostBuffer`, with what `calloc` returns. -/
def ensureSurfaceHostBuffer (a : Addr) (alloc : Option Addr) : Prog World ε Bool := do
  let w ← Prog.read
  let sf ← Prog.need (w.surfaceAt a)
  if sf.hostData ≠ 0 then
    return true
  else
    match alloc with
    | none => return false
    | some p =>
      Prog.wait fun w => w.Fresh p
      Prog.update fun w => w.modifySurface a fun sf => { sf with hostData := p }
      return true

end Steps

end NvVaapi.Objects
