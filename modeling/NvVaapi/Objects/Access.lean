import NvVaapi.Objects.Create

/-!
# Buffers, images and surfaces in use

`nvMapBuffer`, `nvUnmapBuffer`, `nvGetImage`, `nvPutImage` and the other entrypoints that neither
create nor destroy an object, with what they do to the objects, to the mutexes of surfaces and to
the CUDA contexts of the calling thread. The pixels are left out.
-/

namespace NvVaapi.Objects

def nvBufferSetNumElements (buffer : VAGenericID) (numElements : UInt32) : Entry := do
  let w ← Prog.read
  match w.getBuffer buffer with
  | none => Prog.leave .errorInvalidBuffer
  | some (a, _) =>
    Prog.update fun w => w.modifyBuffer a fun buf => { buf with elements := numElements }
    return .success

/-! ## Mapping -/

/-- What the allocations in `nvMapBuffer` return. -/
structure MapAlloc where
  host : Option Addr
  shadow : Option Addr
  deriving DecidableEq

/-- Strict mode: the buffer gets a copy of the surface's host buffer. -/
def mapShadow (a sa : Addr) (alloc : MapAlloc) : Entry := do
  let w ← Prog.read
  let sf ← Prog.need (w.surfaceAt sa)
  let buf ← Prog.need (w.bufferAt a)
  let need := sf.hostTotalSize
  if !buf.ownsPtr ∨ buf.ptr = sf.hostData ∨ buf.size ≠ need ∨ buf.ptr = 0 then
    match alloc.shadow with
    | none => Prog.leave .errorAllocationFailed
    | some p =>
      -- `realloc` can return the old address
      let old := if buf.ownsPtr then buf.ptr else 0
      Prog.wait fun w => w.Fresh p ∨ (p = old ∧ p ≠ 0)
      if p ≠ old then
        free old
      Prog.update fun w => w.modifyBuffer a fun buf =>
        { buf with ptr := p, size := need, ownsPtr := true }
  waitUnlocked sa
  return .success

/-- Otherwise the surface's mutex is held until the buffer is unmapped. -/
def lockMapped (a : Addr) (buf : NVBuffer) : Prog World VAStatus Unit := do
  if buf.bufferType = .image ∧ buf.surfaceId ≠ vaInvalidId ∧ !buf.mappedSurfaceLock then
    let w ← Prog.read
    match w.getSurface buf.surfaceId with
    | none => pure ()
    | some (sa, _) =>
      waitUnlocked sa
      Prog.update fun w => w.modifySurface sa fun sf => { sf with locked := true }
      Prog.update fun w => w.modifyBuffer a fun buf => { buf with mappedSurfaceLock := true }

def nvMapBuffer (buffer : VAGenericID) (alloc : MapAlloc) : Entry := do
  let w ← Prog.read
  match w.getBuffer buffer with
  | none => Prog.leave .errorInvalidBuffer
  | some (a, buf) =>
    if buf.bufferType = .image ∧ buf.surfaceId ≠ vaInvalidId then
      match w.getSurface buf.surfaceId with
      | none => pure ()
      | some (sa, _) =>
        let ok ← ensureSurfaceHostBuffer sa alloc.host
        if ok ∧ w.info.encStrictMode then
          let status ← Prog.call (mapShadow a sa alloc)
          Prog.leave status
    lockMapped a buf
    return .success

/-- The part of `nvUnmapBuffer` for a derived image, once its surface has a host buffer. -/
def unlockMapped (a sa : Addr) (buf : NVBuffer) : Prog World VAStatus Unit := do
  let w ← Prog.read
  if w.info.encStrictMode ∧ buf.ptr ≠ 0 ∧ buf.ownsPtr then
    waitUnlocked sa
  else if !buf.mappedSurfaceLock then
    waitUnlocked sa
  else
    Prog.update fun w => w.modifySurface sa fun sf => { sf with locked := false }
    Prog.update fun w => w.modifyBuffer a fun buf => { buf with mappedSurfaceLock := false }

/-- `host` is what `calloc` returns for the surface's host buffer. -/
def nvUnmapBuffer (buffer : VAGenericID) (host : Option Addr) : Entry := do
  let w ← Prog.read
  match w.getBuffer buffer with
  | none => Prog.leave .errorInvalidBuffer
  | some (a, buf) =>
    if buf.bufferType = .image ∧ buf.surfaceId ≠ vaInvalidId then
      match w.getSurface buf.surfaceId with
      | none => pure ()
      | some (sa, _) =>
        let ok ← ensureSurfaceHostBuffer sa host
        if ok then
          unlockMapped a sa buf
    return .success

/-! ## Reading and writing surfaces -/

def nvSyncSurface (surface : VAGenericID) : Entry := do
  let w ← Prog.read
  match w.getSurface surface with
  | none => Prog.leave .errorInvalidSurface
  | some (sa, _) =>
    waitUnlocked sa
    Prog.wait fun w => ((w.surfaceAt sa).any fun sf => !sf.resolving) = true
    return .success

/-- The results of the CUDA calls in `nvGetImage`. -/
structure GetResults where
  pushed : Bool
  popped : Bool
  memcpy2D : Nat → Bool

/-- A surface that was last used for encoding, or not at all. -/
def getImageHost (sa : Addr) (sf : NVSurface) (img : NVImage) (x y : Int32) : Entry := do
  if sf.hostData = 0 ∨ img.imageBuffer = 0 then
    Prog.leave .errorInvalidContext
  let w ← Prog.read
  let buf ← Prog.need (w.bufferAt img.imageBuffer)
  if buf.ptr = 0 then
    Prog.leave .errorInvalidContext
  if x < 0 ∨ y < 0 then
    Prog.leave .errorInvalidParameter
  if x.toUInt32 ≥ sf.width ∨ y.toUInt32 ≥ sf.height then
    Prog.leave .errorInvalidParameter
  waitUnlocked sa
  return .success

/-- A surface that was last used for decoding. -/
def getImageDevice (surface : VAGenericID) (img : NVImage) (r : GetResults) : Entry := do
  let _ ← Prog.call (nvSyncSurface surface)
  pushContext r.pushed .errorOperationFailed
  Prog.forEach (List.range img.format.planes.length) fun i => do
    let w ← Prog.read
    let _ ← Prog.need (w.bufferAt img.imageBuffer)
    if !r.memcpy2D i then
      Prog.leave .errorDecodingError
  popContext r.popped .errorOperationFailed
  return .success

def nvGetImage (surface : VAGenericID) (x y : Int32) (image : VAGenericID)
    (r : GetResults) : Entry := do
  let w ← Prog.read
  match w.getSurface surface, w.getImage image with
  | none, _ => Prog.leave .errorInvalidSurface
  | some _, none => Prog.leave .errorInvalidImage
  | some (sa, sf), some (_, img) =>
    if sf.context = 0 then
      getImageHost sa sf img x y
    else
      let ctx ← Prog.need (w.contextAt sf.context)
      if ctx.mode = .encode then getImageHost sa sf img x y
      else getImageDevice surface img r

/-- The arguments of `nvPutImage`. -/
structure PutArgs where
  srcX : Int32
  srcY : Int32
  srcWidth : UInt32
  srcHeight : UInt32
  destX : Int32
  destY : Int32
  destWidth : UInt32
  destHeight : UInt32

def nvPutImage (surface image : VAGenericID) (p : PutArgs) (host : Option Addr) : Entry := do
  let w ← Prog.read
  match w.getSurface surface, w.getImage image with
  | none, _ => Prog.leave .errorInvalidSurface
  | some _, none => Prog.leave .errorInvalidImage
  | some (sa, sf), some (_, img) =>
    if img.imageBuffer = 0 then
      Prog.leave .errorInvalidImage
    let buf ← Prog.need (w.bufferAt img.imageBuffer)
    if buf.ptr = 0 then
      Prog.leave .errorInvalidImage
    let ok ← ensureSurfaceHostBuffer sa host
    if !ok then
      Prog.leave .errorAllocationFailed
    if p.srcWidth = 0 ∨ p.srcHeight = 0 ∨ p.destWidth = 0 ∨ p.destHeight = 0 then
      Prog.leave .success
    if p.srcX < 0 ∨ p.srcY < 0 ∨ p.destX < 0 ∨ p.destY < 0 then
      Prog.leave .errorInvalidParameter
    if p.srcX.toUInt32 ≥ img.width ∨ p.srcY.toUInt32 ≥ img.height then
      Prog.leave .errorInvalidParameter
    if p.destX.toUInt32 ≥ sf.width ∨ p.destY.toUInt32 ≥ sf.height then
      Prog.leave .errorInvalidParameter
    waitUnlocked sa
    return .success

def nvLockSurface (surface : VAGenericID) (host : Option Addr) : Entry := do
  let w ← Prog.read
  match w.getSurface surface with
  | none => Prog.leave .errorInvalidSurface
  | some (sa, _) =>
    let ok ← ensureSurfaceHostBuffer sa host
    if !ok then
      Prog.leave .errorAllocationFailed
    return .success

/-! ## Queries and exports -/

/-- The results of the CUDA calls in `nvQuerySurfaceAttributes`. A failure is only logged. -/
structure QueryResults where
  pushed : Bool
  popped : Bool
  deriving DecidableEq

/-- `numAttribs` and `attribList` say that the pointers are not NULL. -/
def nvQuerySurfaceAttributes (config : VAGenericID) (numAttribs attribList : Bool)
    (r : QueryResults) :
    Entry := do
  let w ← Prog.read
  match w.getConfig config with
  | none => Prog.leave .errorInvalidConfig
  | some (_, cfg) =>
    if cfg.isEncode then
      if !numAttribs then
        Prog.leave .errorInvalidParameter
      Prog.leave .success
    if (cfg.chromaFormat = .yuv444 ∨ cfg.surfaceFormat = .yuv444_16Bit) ∧
        !w.info.supports444Surface then
      Prog.leave .errorInvalidConfig
    if cfg.surfaceFormat = .p016 ∧ !w.info.supports16BitSurface then
      Prog.leave .errorInvalidConfig
    if !numAttribs then
      Prog.leave .errorInvalidParameter
    if !attribList then
      Prog.leave .success
    if r.pushed then
      Prog.update fun w => { w with cudaStack := w.cudaContext :: w.cudaStack }
      popCurrent r.popped
    return .success

structure ExportResults where
  pushed : Bool
  popped : Bool
  realiseSurface : Bool
  deriving DecidableEq

/-- `memType` and `flags` say that the bits that the driver asks for are set. -/
def nvExportSurfaceHandle (surface : VAGenericID) (memType flags : Bool)
    (r : ExportResults) : Entry := do
  if !memType then
    Prog.leave .errorUnsupportedMemoryType
  if !flags then
    Prog.leave .errorInvalidSurface
  let w ← Prog.read
  match w.getSurface surface with
  | none => Prog.leave .errorInvalidSurface
  | some (sa, _) =>
    pushContext r.pushed .errorOperationFailed
    waitUnlocked sa
    if !r.realiseSurface then
      Prog.leave .errorAllocationFailed
    popContext r.popped .errorOperationFailed
    return .success

end NvVaapi.Objects
