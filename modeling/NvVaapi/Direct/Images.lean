import NvVaapi.Image.Layout
import NvVaapi.Encode.Staging
import NvVaapi.Lib.Ledger
import NvVaapi.Lib.Prog

/-!
# The backing images of the direct backend

* `allocImage`, `importToCuda`, `directAllocateBackingImage`: how an image of GPU memory is made for
  a surface, with the results of the system calls and of the CUDA calls.
* `DirectState`: the descriptors that the call has open, the CUDA objects that it created, and its
  variables.

A descriptor that is opened is not one that is open: the kernel gives out no such number. The memory
of the `BackingImage` is there.
-/

namespace NvVaapi.Direct

open Image (NVFormatPlane plane)
open Objects (NVFormat)

/-- A file descriptor that is not -1. -/
abbrev Fd := Nat

/-! ## Results of the environment -/

/-- The results of the calls in `alloc_memory`. -/
structure MemoryReplies where
  allocated : Bool
  /-- `open("/dev/nvidiactl")` -/
  opened : Option Fd
  attached : Bool
  exported : Bool
  freed : Bool

/-- The results of the calls in `alloc_image`. -/
structure ImageReplies extends MemoryReplies where
  /-- `dup` -/
  duplicated : Option Fd
  /-- `DRM_IOCTL_NVIDIA_GEM_IMPORT_NVKMS_MEMORY` -/
  imported : Bool
  /-- `DRM_IOCTL_PRIME_HANDLE_TO_FD` -/
  prime : Option Fd
  /-- `DRM_IOCTL_GEM_CLOSE` -/
  gemClosed : Bool

/-- The results of the calls in `import_to_cuda`: the objects that they create. -/
structure CudaReplies where
  extMem : Option Addr
  mipmapArray : Option Addr
  array : Option Addr

/-- The results for each plane. -/
structure AllocReplies where
  image : Nat → ImageReplies
  cuda : Nat → CudaReplies

/-! ## Images -/

/-- 0 stands for a descriptor that is not there. -/
structure NVDriverImage where
  nvFd : Fd
  nvFd2 : Fd
  drmFd : Fd
  width : UInt32
  height : UInt32
  memorySize : UInt32
  pitch : UInt32

def NVDriverImage.zero : NVDriverImage := ⟨0, 0, 0, 0, 0, 0, 0⟩

inductive CudaObject where
  | extMem (object : Addr)
  | mipmapArray (object : Addr)
  | array (object : Addr)
  deriving DecidableEq

structure NVCudaImage where
  extMem : Addr
  mipmapArray : Addr

structure BackingImage where
  format : NVFormat
  width : UInt32
  height : UInt32
  fds : Nat → Fd
  strides : Nat → UInt32
  size : Nat → UInt32
  cudaImages : Nat → NVCudaImage
  arrays : Nat → Addr

/-- An image from `calloc`, with the format that it gets first. -/
def BackingImage.zero (format : NVFormat) : BackingImage :=
  ⟨format, 0, 0, fun _ => 0, fun _ => 0, fun _ => 0, fun _ => ⟨0, 0⟩, fun _ => 0⟩

/-- The descriptors and the CUDA objects of a call, and its variables. -/
structure DirectState where
  descriptors : Ledger Fd
  objects : Multiset CudaObject
  driverImages : Nat → NVDriverImage
  backingImage : BackingImage

def DirectState.init (format : NVFormat) : DirectState := ⟨.empty, 0, fun _ => .zero, .zero format⟩

variable {ρ : Type}

/-! ## Descriptors -/

/-- A system call that returns a new descriptor. -/
def openFd (fd : Fd) : Prog DirectState ρ Unit := do
  Prog.wait fun st => fd ∉ st.descriptors.held
  Prog.update fun st => { st with descriptors := st.descriptors.acquire fd }

/-- `close`. Also what `cuImportExternalMemory` does to the descriptor that it becomes the owner
of. -/
def closeFd (fd : Fd) : Prog DirectState ρ Unit :=
  Prog.update fun st => { st with descriptors := st.descriptors.release fd }

/-- A descriptor is closed unless it is 0. -/
def closeSome (fd : Fd) : Prog DirectState ρ Unit := if fd ≠ 0 then closeFd fd else pure ()

/-! ## `alloc_image` -/

/-- The descriptor that `alloc_memory` returns, if it succeeds. -/
def allocMemory (r : MemoryReplies) : Prog DirectState ρ (Option Fd) :=
  if r.allocated then
    match r.opened with
    | none => return none
    | some nvctlFd2 => do
      openFd nvctlFd2
      if r.attached ∧ r.exported ∧ r.freed then
        return some nvctlFd2
      else
        closeSome nvctlFd2
        return none
  else return none

def log2GobsPerBlockY (height : UInt32) : UInt32 :=
  if height < 11 then 0
  else if height < 22 then 1
  else if height < 43 then 2
  else if height < 86 then 3
  else 4

/-- The image of a plane with its memory. -/
def NVDriverImage.allocated (width height channels bitsPerChannel : UInt32)
    (nvFd nvFd2 drmFd : Fd) : NVDriverImage :=
  let bytesPerPixel := channels * (bitsPerChannel / 8)
  let widthInBytes := roundUp (width * bytesPerPixel) 64
  let alignedHeight := roundUp height (8 <<< log2GobsPerBlockY height)
  { nvFd, nvFd2, drmFd, width, height, memorySize := roundUp (widthInBytes * alignedHeight) 65536,
    pitch := widthInBytes }

/-- Whether `alloc_image` succeeds. It leaves `driverImages[i]` where it fails. -/
def allocImage (i : Nat) (width height channels bitsPerChannel : UInt32) (r : ImageReplies) :
    Prog DirectState ρ Bool := do
  match ← allocMemory r.toMemoryReplies with
  | none => return false
  | some memFd =>
    match r.duplicated with
    | none =>
      closeSome memFd
      return false
    | some memFd2 => do
      openFd memFd2
      if r.imported then
        match r.prime with
        | none =>
          closeSome memFd
          return false
        | some drmFd => do
          openFd drmFd
          if r.gemClosed then
            Prog.update fun st => { st with
              driverImages := Function.update st.driverImages i
                (.allocated width height channels bitsPerChannel memFd memFd2 drmFd) }
            return true
          else
            closeSome drmFd
            closeSome memFd
            return false
      else
        closeSome memFd
        return false

/-! ## `import_to_cuda` -/

/-- The call creates an object, and the image gets it. -/
def createObject (object : CudaObject) (record : BackingImage → BackingImage) :
    Prog DirectState ρ Unit :=
  Prog.update fun st => { st with
    objects := object ::ₘ st.objects
    backingImage := record st.backingImage }

def importToCuda (i : Nat) (r : CudaReplies) : Prog DirectState ρ Bool := do
  let st ← Prog.read
  match r.extMem with
  | none => return false
  | some extMem => do
    createObject (.extMem extMem) fun img => { img with
      cudaImages := Function.update img.cudaImages i { img.cudaImages i with extMem } }
    -- the memory owns `nvFd`
    closeFd (st.driverImages i).nvFd
    closeFd (st.driverImages i).nvFd2
    Prog.update fun st => { st with
      driverImages :=
        Function.update st.driverImages i { st.driverImages i with nvFd := 0, nvFd2 := 0 } }
    match r.mipmapArray with
    | none => return false
    | some mipmapArray => do
      createObject (.mipmapArray mipmapArray) fun img => { img with
        cudaImages := Function.update img.cudaImages i { img.cudaImages i with mipmapArray } }
      match r.array with
      | none => return false
      | some array => do
        createObject (.array array) fun img =>
          { img with arrays := Function.update img.arrays i array }
        return true

/-! ## `direct_allocateBackingImage` -/

def directFormat (surface : Objects.NVSurface) : NVFormat :=
  match surface.format with
  | .p016 =>
    if surface.bitDepth = 10 then .p010
    else if surface.bitDepth = 12 then .p012
    else .p016
  | .yuv444_16Bit => .q416
  | .yuv444 => .yuv444p
  | .nv12 => .nv12

/-- The planes with their numbers. -/
def planes (format : NVFormat) : List (NVFormatPlane × Nat) := (plane format).zipIdx

/-- The turn of `bail` for a plane. -/
def closePlane (i : Nat) : Prog DirectState ρ Unit := do
  let st ← Prog.read
  closeSome (st.driverImages i).nvFd
  closeSome (st.driverImages i).nvFd2
  closeSome (st.driverImages i).drmFd

def bail (format : NVFormat) : Prog DirectState (Option BackingImage) Unit := do
  Prog.forEach (planes format) fun p => closePlane p.2
  Prog.leave none

/-- The turn of the first loop for a plane. Its result is not looked at. -/
def allocPlane (surface : Objects.NVSurface) (r : AllocReplies) (p : NVFormatPlane × Nat) :
    Prog DirectState ρ Unit := do
  let _ ← allocImage p.2 (surface.width >>> UInt32.ofNat p.1.ssX)
      (surface.height >>> UInt32.ofNat p.1.ssY)
    p.1.channelCount (8 * (directFormat surface).bppc) (r.image p.2)

/-- The turn of the second loop for a plane. -/
def importPlane (surface : Objects.NVSurface) (r : AllocReplies) (p : NVFormatPlane × Nat) :
    Prog DirectState (Option BackingImage) Unit := do
  let ok ← importToCuda p.2 (r.cuda p.2)
  if !ok then
    bail (directFormat surface)

/-- The turn of the last loop for a plane. -/
def recordPlane (p : NVFormatPlane × Nat) : Prog DirectState ρ Unit :=
  Prog.update fun st => { st with
    backingImage := { st.backingImage with
      fds := Function.update st.backingImage.fds p.2 (st.driverImages p.2).drmFd
      strides := Function.update st.backingImage.strides p.2 (st.driverImages p.2).pitch
      size := Function.update st.backingImage.size p.2 (st.driverImages p.2).memorySize } }

/-- The image, if there is one. -/
def directAllocateBackingImage (surface : Objects.NVSurface) (r : AllocReplies) :
    Prog DirectState (Option BackingImage) (Option BackingImage) := do
  Prog.forEach (planes (directFormat surface)) (allocPlane surface r)
  Prog.forEach (planes (directFormat surface)) (importPlane surface r)
  Prog.update fun st => { st with
    backingImage := { st.backingImage with width := surface.width, height := surface.height } }
  Prog.forEach (planes (directFormat surface)) recordPlane
  let st ← Prog.read
  return some st.backingImage

end NvVaapi.Direct
