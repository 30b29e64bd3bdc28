import NvVaapi.Objects.World

/-!
# Creating objects

`nvCreateConfig`, `nvCreateSurfaces2`, `nvCreateContext`, `nvCreateBuffer`, `nvCreateImage` and
`nvDeriveImage`, each with the results of the allocations and of the CUDA, NVENC and thread calls
that it makes.
-/

namespace NvVaapi.Objects

/-! ## Configurations -/

def nvCreateConfig (profile : VAProfile) (entrypoint : VAEntrypoint) (attribs : List VAConfigAttrib)
    (addr : Addr) : Entry := do
  let w ← Prog.read
  if entrypoint = .encSlice ∨ entrypoint = .encSliceLP then
    if !w.info.nvencAvailable then
      Prog.leave .errorUnsupportedEntrypoint
    if !profile.isEncodeProfile then
      Prog.leave .errorUnsupportedProfile
    let _ ← allocateObject (.config (.encodeConfig profile entrypoint attribs)) addr
    return .success
  else
    match vaToCuCodec profile with
    | none => Prog.leave .errorUnsupportedProfile
    | some cudaCodec =>
      if entrypoint ≠ .vld then
        Prog.leave .errorUnsupportedEntrypoint
      if w.info.disableDecoder then
        Prog.leave .errorUnsupportedEntrypoint
      let _ ← allocateObject
          (.config (.decodeConfig w.info profile entrypoint cudaCodec attribs)) addr
      return .success

/-! ## Surfaces -/

/-- The formats of `nvCreateSurfaces2`. -/
def surfaceFormats (format : UInt32) : Option (SurfaceFormat × ChromaFormat × Nat) :=
  if format = rtFormatYuv420 then some (.nv12, .yuv420, 8)
  else if format = rtFormatYuv420_10 then some (.p016, .yuv420, 10)
  else if format = rtFormatYuv420_12 then some (.p016, .yuv420, 12)
  else if format = rtFormatYuv444 then some (.yuv444, .yuv444, 8)
  else if format = rtFormatYuv444_10 then some (.yuv444_16Bit, .yuv444, 10)
  else if format = rtFormatYuv444_12 then some (.yuv444_16Bit, .yuv444, 12)
  else none

/-- A surface before it gets its host buffer. With subsampled chroma its size is a multiple of 2. -/
def NVSurface.created (width height : UInt32) (f : SurfaceFormat × ChromaFormat × Nat) :
    NVSurface where
  width := if f.2.1 = .yuv420 then roundUp width 2 else width
  height := if f.2.1 = .yuv420 then roundUp height 2 else height
  format := f.1
  chromaFormat := f.2.1
  bitDepth := f.2.2
  pictureIdx := -1
  context := 0
  resolving := false
  hostData := 0
  locked := false

/-- What `calloc` returns for a surface and its host buffer. -/
structure SurfaceAlloc where
  addr : Addr
  host : Option Addr
  deriving DecidableEq

/-- The turn of `nvCreateSurfaces2` for one surface. -/
def createSurface (sf : NVSurface) (popped : Bool) (a : SurfaceAlloc) :
    Prog World VAStatus Unit := do
  let _ ← allocateObject (.surface sf) a.addr
  let ok ← ensureSurfaceHostBuffer a.addr a.host
  if !ok then
    popContext popped .errorOperationFailed
    Prog.leave .errorAllocationFailed

/-- The surfaces are as many as `allocs`. -/
def nvCreateSurfaces2 (format width height : UInt32) (allocs : List SurfaceAlloc)
    (pushed popped : Bool) : Entry :=
  match surfaceFormats format with
  | none => Prog.leave .errorUnsupportedRtFormat
  | some f => do
    pushContext pushed .errorOperationFailed
    Prog.forEach allocs (createSurface (.created width height f) popped)
    popContext popped .errorOperationFailed
    return .success

/-! ## Contexts -/

/-- The results that `nvCreateContext` meets. `ioDepth` is the environment's `NVD_ENC_IO_DEPTH`. -/
structure ContextResults where
  addr : Addr
  pushed : Bool
  popped : Bool
  ioDepth : Nat
  openEncodeSession : NvencStatus
  getPresetConfig : NvencStatus
  initializeEncoder : NvencStatus
  createInputBuffer : Nat → NvencStatus
  createBitstreamBuffer : Nat → NvencStatus
  createDecoder : Bool
  createThread : Bool

def nvencMaxIoBuffers : Nat := 4

/-- The fields that `calloc` leaves zero, for both modes. -/
def NVContext.zero (mode : NVContextMode) (profile : VAProfile) : NVContext where
  mode
  profile
  codec := .h264
  decoder := false
  renderTarget := 0
  lastSliceParams := 0
  currentPictureId := 0
  surfaceCount := 0
  surfaceQueue := .zero surfaceQueueSize_pos 0
  nvencEncoder := false
  nvencInputBuffers := fun _ => false
  nvencOutputBuffers := fun _ => false
  nvencIoBufferCount := 0
  nvencIoBufferIndex := 0
  encIsHevc := false
  encCurrentSurface := 0
  encCodedBufId := 0
  encHasCodedBuf := false

def NVContext.encoder (profile : VAProfile) (ioDepth : Nat) : NVContext :=
  { NVContext.zero .encode profile with
    nvencIoBufferCount := if ioDepth = 0 then 1 else min ioDepth nvencMaxIoBuffers
    encCurrentSurface := vaInvalidId
    encCodedBufId := vaInvalidId }

/-- `profileToNvencGuids`, of which `encIsHevc` is kept. -/
def profileToNvencGuids : VAProfile → Option Bool
  | .h264ConstrainedBaseline | .h264Main | .h264High => some false
  | .hevcMain | .hevcMain10 => some true
  | _ => none

/-- The exits of `nvCreateContext` after `cuCtxPushCurrent`, in encode mode. The session and its
buffers are destroyed first. -/
def failContext (r : ContextResults) (id : VAGenericID) (status : NvencStatus) :
    Prog World VAStatus Unit := do
  Prog.update fun w => w.modifyContext r.addr fun ctx =>
    { ctx with
      nvencEncoder := false
      nvencInputBuffers := fun _ => false
      nvencOutputBuffers := fun _ => false }
  popCurrent r.popped
  deleteObject id
  Prog.leave (nvencToVaStatus status)

/-- One input and one bitstream buffer. -/
def createIoBuffers (r : ContextResults) (id : VAGenericID) (i : Nat) :
    Prog World VAStatus Unit := do
  if r.createInputBuffer i ≠ .success then
    failContext r id (r.createInputBuffer i)
  Prog.update fun w => w.modifyContext r.addr fun ctx =>
    { ctx with nvencInputBuffers := Function.update ctx.nvencInputBuffers i true }
  if r.createBitstreamBuffer i ≠ .success then
    failContext r id (r.createBitstreamBuffer i)
  Prog.update fun w => w.modifyContext r.addr fun ctx =>
    { ctx with nvencOutputBuffers := Function.update ctx.nvencOutputBuffers i true }

/-- `nvCreateContext` for a configuration with `isEncode`. -/
def createEncodeContext (cfg : NVConfig) (pictureWidth pictureHeight : Int32) (r : ContextResults) :
    Entry := do
  let w ← Prog.read
  if !w.info.nvencAvailable then
    Prog.leave .errorUnsupportedEntrypoint
  if pictureWidth ≤ 0 ∨ pictureHeight ≤ 0 then
    Prog.leave .errorInvalidParameter
  let ctx := NVContext.encoder cfg.profile r.ioDepth
  let id ← allocateObject (.context ctx) r.addr
  match profileToNvencGuids cfg.profile with
  | none =>
    deleteObject id
    Prog.leave .errorUnsupportedProfile
  | some encIsHevc =>
    Prog.update fun w => w.modifyContext r.addr fun ctx => { ctx with encIsHevc }
    pushContext r.pushed .errorOperationFailed
    if r.openEncodeSession ≠ .success then
      failContext r id r.openEncodeSession
    Prog.update fun w => w.modifyContext r.addr fun ctx => { ctx with nvencEncoder := true }
    if r.getPresetConfig ≠ .success then
      failContext r id r.getPresetConfig
    if r.initializeEncoder ≠ .success then
      failContext r id r.initializeEncoder
    Prog.forEach (List.range ctx.nvencIoBufferCount) (createIoBuffers r id)
    popContext r.popped .errorOperationFailed
    return .success

/-- The formats of the first render target replace those of the configuration. -/
def useRenderTarget (cfgAddr : Addr) (renderTargets : List VAGenericID) :
    Prog World VAStatus Unit :=
  match renderTargets with
  | [] => pure ()
  | id :: _ => do
    let w ← Prog.read
    match w.getSurface id with
    | none => Prog.leave .errorInvalidParameter
    | some (_, sf) =>
      Prog.update fun w => w.modifyConfig cfgAddr fun cfg =>
        cfg.setFormat sf.format sf.chromaFormat sf.bitDepth

/-- `nvCreateContext` for another configuration. -/
def createDecodeContext (cfgAddr : Addr) (cfg : NVConfig) (renderTargets : List VAGenericID)
    (r : ContextResults) : Entry :=
  match vaToCuCodec cfg.profile with
  | none => Prog.leave .errorUnsupportedProfile
  | some codec => do
    useRenderTarget cfgAddr renderTargets
    pushContext r.pushed .errorOperationFailed
    if !r.createDecoder then
      Prog.leave .errorAllocationFailed
    popContext r.popped .errorOperationFailed
    let ctx := { NVContext.zero .decode cfg.profile with
      codec
      decoder := true
      surfaceCount := decodeSurfaceCount renderTargets.length }
    let id ← allocateObject (.context ctx) r.addr
    if !r.createThread then
      deleteObject id
      Prog.leave .errorOperationFailed
    return .success

def nvCreateContext (config : VAGenericID) (pictureWidth pictureHeight : Int32)
    (renderTargets : List VAGenericID) (r : ContextResults) : Entry := do
  let w ← Prog.read
  match w.getConfig config with
  | none => Prog.leave .errorInvalidConfig
  | some (cfgAddr, cfg) =>
    if cfg.isEncode then createEncodeContext cfg pictureWidth pictureHeight r
    else createDecodeContext cfgAddr cfg renderTargets r

/-! ## Buffers -/

def nvencCodedBufSize : Nat := 4 * 1024 * 1024

/-- What the allocations in `nvCreateBuffer` return: for the object, and for the memory behind
`codedData` or `ptr`. -/
structure BufferAlloc where
  addr : Addr
  memory : Option Addr
  deriving DecidableEq

/-- The bytes in front of VP8 slice data that `nvCreateBuffer` takes too, for `data & 0xf`. -/
def vp8Offset (ctx : Option NVContext) (type : BufferType) (dataLow : Fin 16) : UInt32 :=
  match ctx with
  | none => 0
  | some ctx =>
    if ctx.mode ≠ .encode ∧ ctx.profile = .vp8Version0_3 ∧ type = .sliceData then
      dataLow.val.toUInt32
    else 0

def nvCreateBuffer (context : VAGenericID) (type : BufferType) (size numElements : UInt32)
    (dataLow : Fin 16) (a : BufferAlloc) : Entry := do
  let w ← Prog.read
  let ctx := (w.getContext context).map Prod.snd
  if context ≠ 0 ∧ ctx.isNone then
    Prog.leave .errorInvalidContext
  let isEncode := ctx.any fun ctx => ctx.mode = .encode
  let size := size + vp8Offset ctx type dataLow
  let bufSize := (numElements * size).toNat
  let id ← allocateObject (.buffer {
    elements := numElements
    size := bufSize
    bufferType := type
    ptr := 0
    ownsPtr := true
    codedData := 0
    codedCapacity := 0
    surfaceId := vaInvalidId
    mappedSurfaceLock := false }) a.addr
  match a.memory with
  | none =>
    deleteObject id
    Prog.leave .errorAllocationFailed
  | some p =>
    Prog.wait fun w => w.Fresh p
    if isEncode ∧ type = .encCoded then
      Prog.update fun w => w.modifyBuffer a.addr fun buf =>
        { buf with codedData := p, codedCapacity := max bufSize nvencCodedBufSize }
    else
      Prog.update fun w => w.modifyBuffer a.addr fun buf => { buf with ptr := p }
    return .success

/-! ## Images -/

/-- What the allocations in `nvCreateImage` return. The last one is not checked. -/
structure ImageAlloc where
  image : Addr
  buffer : Addr
  memory : Option Addr
  deriving DecidableEq

/-- The size of an image's buffer. -/
def imageSize (format : NVFormat) (width height : UInt32) : Nat :=
  (format.planes.map fun p => (((width * height) >>> p.2) * format.bppc * p.1).toNat).sum

/-- A format that is not known has no `NVFormat`. -/
def nvCreateImage (format : Option NVFormat) (width height : UInt32) (a : ImageAlloc) : Entry :=
  match format with
  | none => Prog.leave .errorInvalidImageFormat
  | some format => do
    let _ ← allocateObject (.image ⟨width, height, format, 0⟩) a.image
    let _ ← allocateObject (.buffer {
      elements := 1
      size := imageSize format width height
      bufferType := .image
      ptr := 0
      ownsPtr := false
      codedData := 0
      codedCapacity := 0
      surfaceId := 0
      mappedSurfaceLock := false }) a.buffer
    match a.memory with
    | none => pure ()
    | some p =>
      Prog.wait fun w => w.Fresh p
      Prog.update fun w => w.modifyBuffer a.buffer fun buf => { buf with ptr := p }
    Prog.update fun w => w.modifyBuffer a.buffer fun buf => { buf with ownsPtr := true }
    Prog.update fun w => w.modifyImage a.image fun img => { img with imageBuffer := a.buffer }
    return .success

/-- The size of a surface's host buffer. -/
def NVSurface.hostTotalSize (sf : NVSurface) : Nat :=
  (EncodeSurface.created sf.width sf.height).hostTotalSize

/-- What the allocations in `nvDeriveImage` return. -/
structure DeriveAlloc where
  host : Option Addr
  buffer : Addr
  image : Addr
  deriving DecidableEq

def nvDeriveImage (surface : VAGenericID) (a : DeriveAlloc) : Entry := do
  let w ← Prog.read
  match w.getSurface surface with
  | none => Prog.leave .errorInvalidSurface
  | some (sa, _) =>
    let ok ← ensureSurfaceHostBuffer sa a.host
    if !ok then
      Prog.leave .errorAllocationFailed
    let w ← Prog.read
    let sf ← Prog.need (w.surfaceAt sa)
    let _ ← allocateObject (.buffer {
      elements := 1
      size := sf.hostTotalSize
      bufferType := .image
      ptr := sf.hostData
      ownsPtr := false
      codedData := 0
      codedCapacity := 0
      surfaceId := surface
      mappedSurfaceLock := false }) a.buffer
    let _ ← allocateObject (.image ⟨sf.width, sf.height, .nv12, a.buffer⟩) a.image
    return .success

end NvVaapi.Objects
