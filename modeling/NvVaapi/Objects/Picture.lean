import NvVaapi.Objects.World

/-!
# Pictures

`nvBeginPicture`, `nvRenderPicture`, `nvEndPicture` and the resolve thread's turn for a surface,
with what they do to the objects and to the CUDA contexts of the calling thread. What they do to the
picture of a decode context is in `NvVaapi.Codec.Decode`.
-/

namespace NvVaapi.Objects

/-! ## `nvBeginPicture` -/

def beginEncode (surface : VAGenericID) (ca sa : Addr) (alloc : Option Addr) : Entry := do
  let ok ← ensureSurfaceHostBuffer sa alloc
  if !ok then
    Prog.leave .errorAllocationFailed
  Prog.update fun w => w.modifyContext ca fun ctx =>
    { ctx with encCurrentSurface := surface, encCodedBufId := vaInvalidId, encHasCodedBuf := false }
  Prog.update fun w => w.modifySurface sa fun sf => { sf with context := ca }
  return .success

def beginDecode (ca sa : Addr) : Entry := do
  let w ← Prog.read
  let sf ← Prog.need (w.surfaceAt sa)
  if sf.context ≠ 0 ∧ sf.context ≠ ca then
    Prog.update fun w => w.modifySurface sa fun sf => { sf with pictureIdx := -1 }
  let w ← Prog.read
  let ctx ← Prog.need (w.contextAt ca)
  let sf ← Prog.need (w.surfaceAt sa)
  if sf.pictureIdx = -1 then
    if ctx.currentPictureId = ctx.surfaceCount then
      Prog.leave .errorMaxNumExceeded
    Prog.update fun w => w.modifySurface sa fun sf => { sf with pictureIdx := ctx.currentPictureId }
    Prog.update fun w => w.modifyContext ca fun ctx =>
      { ctx with currentPictureId := ctx.currentPictureId + 1 }
  waitUnlocked sa
  Prog.update fun w => w.modifySurface sa fun sf => { sf with resolving := true }
  -- the `beginPicture` of JPEG forgets the slice parameters
  Prog.update fun w => w.modifyContext ca fun ctx =>
    { ctx with
      renderTarget := sa
      lastSliceParams := if ctx.codec = .jpeg then 0 else ctx.lastSliceParams }
  return .success

/-- `alloc` is what `calloc` returns for the surface's host buffer. -/
def nvBeginPicture (context renderTarget : VAGenericID) (alloc : Option Addr) : Entry := do
  let w ← Prog.read
  match w.getContext context, w.getSurface renderTarget with
  | none, _ => Prog.leave .errorInvalidContext
  | some _, none => Prog.leave .errorInvalidSurface
  | some (ca, ctx), some (sa, _) =>
    if ctx.mode = .encode then beginEncode renderTarget ca sa alloc else beginDecode ca sa

/-! ## `nvRenderPicture` -/

/-- The turn for a buffer on an encode context. `codedBuf` is the field of that name, in picture
parameters that are long enough. -/
def renderEncodeBuffer (ca : Addr) (b : VAGenericID × Option VAGenericID) :
    Prog World VAStatus Unit := do
  let setCoded (id : VAGenericID) : Prog World VAStatus Unit :=
    Prog.update fun w => w.modifyContext ca fun ctx =>
      { ctx with encCodedBufId := id, encHasCodedBuf := true }
  let w ← Prog.read
  match w.getBuffer b.1 with
  | none => pure ()
  | some (_, buf) =>
    if buf.bufferType = .encCoded then
      setCoded b.1
    else if buf.bufferType = .encPictureParameter ∧ buf.ptr ≠ 0 then
      match b.2 with
      | none => pure ()
      | some codedBuf =>
        if ((w.getBuffer codedBuf).any fun c => c.2.bufferType = .encCoded) then
          setCoded codedBuf

/-- The turn for a buffer on a decode context. Of what the handlers do, the slice parameters are
kept. An index outside of the table of handlers has no meaning. -/
def renderDecodeBuffer (ca : Addr) (b : VAGenericID) : Prog World VAStatus Unit := do
  let w ← Prog.read
  match w.getBuffer b with
  | none => pure ()
  | some (_, buf) =>
    if buf.ptr ≠ 0 then
      Prog.wait fun _ => buf.bufferType ≠ .outOfRange
      if buf.bufferType = .sliceParameter then
        Prog.update fun w => w.modifyContext ca fun ctx => { ctx with lastSliceParams := buf.ptr }

/-- The buffers, each with the `coded_buf` that it names. -/
def nvRenderPicture (context : VAGenericID) (buffers : List (VAGenericID × Option VAGenericID)) :
    Entry := do
  let w ← Prog.read
  match w.getContext context with
  | none => Prog.leave .errorInvalidContext
  | some (ca, ctx) =>
    if ctx.mode = .encode then
      Prog.forEach buffers (renderEncodeBuffer ca)
    else
      Prog.forEach buffers fun b => renderDecodeBuffer ca b.1
    return .success

/-! ## `nvEndPicture` -/

/-- The results that `nvEndPicture` meets. -/
structure EndResults where
  pushed : Bool
  popped : Bool
  decodePicture : Bool
  lockInputBuffer : NvencStatus
  unlockInputBuffer : NvencStatus
  encodePicture : NvencStatus
  /-- The size of the picture is not that of the context. -/
  otherSize : Bool
  /-- `nvEncReconfigureEncoder`, if it is there. -/
  reconfigureEncoder : Option NvencStatus
  encodeAfterReconfigure : NvencStatus
  encodeAtContextSize : NvencStatus
  lockBitstream : NvencStatus
  unlockBitstream : NvencStatus

/-- The status of the last `nvEncEncodePicture`: a picture that is rejected for its size is tried
again after a reconfiguration, and then with the size of the context. -/
def EndResults.encoded (r : EndResults) : NvencStatus :=
  if r.encodePicture = .invalidParam ∧ r.otherSize then
    let nvs :=
      if r.reconfigureEncoder = some .success then r.encodeAfterReconfigure else r.encodePicture
    if nvs = .invalidParam then r.encodeAtContextSize else nvs
  else r.encodePicture

/-- An exit after `cuCtxPushCurrent`. -/
def failEncode (r : EndResults) (status : NvencStatus) : Prog World VAStatus Unit := do
  popCurrent r.popped
  Prog.leave (nvencToVaStatus status)

/-- `nvencReconfigureIfNeeded` succeeds always. -/
def endEncode (ca : Addr) (ctx : NVContext) (r : EndResults) : Entry := do
  let w ← Prog.read
  if ctx.encCurrentSurface = vaInvalidId then
    Prog.leave .errorInvalidSurface
  if !ctx.encHasCodedBuf then
    Prog.leave .errorInvalidBuffer
  match w.getSurface ctx.encCurrentSurface, w.getBuffer ctx.encCodedBufId with
  | none, _ => Prog.leave .errorInvalidSurface
  | some (sa, sf), codedBuf =>
    if sf.hostData = 0 then
      Prog.leave .errorInvalidSurface
    if !(codedBuf.any fun c => c.2.codedData ≠ 0 ∧ c.2.codedCapacity ≠ 0) then
      Prog.leave .errorInvalidBuffer
    if ctx.nvencIoBufferCount = 0 then
      Prog.leave .errorOperationFailed
    let ioSlot := ctx.nvencIoBufferIndex % ctx.nvencIoBufferCount
    if !ctx.nvencInputBuffers ioSlot ∨ !ctx.nvencOutputBuffers ioSlot then
      Prog.leave .errorOperationFailed
    pushContext r.pushed .errorOperationFailed
    if r.lockInputBuffer ≠ .success then
      failEncode r r.lockInputBuffer
    waitUnlocked sa
    if r.unlockInputBuffer ≠ .success then
      failEncode r r.unlockInputBuffer
    if r.encoded ≠ .success ∧ r.encoded ≠ .needMoreInput then
      failEncode r r.encoded
    let nextSlot : Prog World VAStatus Unit := Prog.update fun w => w.modifyContext ca fun ctx =>
      { ctx with nvencIoBufferIndex := (ioSlot + 1) % ctx.nvencIoBufferCount }
    if r.encoded = .needMoreInput then
      popContext r.popped .errorOperationFailed
      nextSlot
      return .success
    else
      if r.lockBitstream ≠ .success then
        failEncode r r.lockBitstream
      -- `nvEncUnlockBitstream` can fail, which is only logged
      popContext r.popped .errorOperationFailed
      nextSlot
      return .success

def endDecode (ca : Addr) (ctx : NVContext) (r : EndResults) : Entry := do
  if !ctx.decoder then
    Prog.leave .errorInvalidContext
  pushContext r.pushed .errorOperationFailed
  popContext r.popped .errorOperationFailed
  let w ← Prog.read
  let _ ← Prog.need (w.surfaceAt ctx.renderTarget)
  Prog.update fun w => w.modifySurface ctx.renderTarget fun sf => { sf with context := ca }
  Prog.update fun w => w.modifyContext ca fun ctx' =>
    { ctx' with surfaceQueue := ctx'.surfaceQueue.enqueue ctx.renderTarget }
  return if r.decodePicture then .success else .errorDecodingError

def nvEndPicture (context : VAGenericID) (r : EndResults) : Entry := do
  let w ← Prog.read
  match w.getContext context with
  | none => Prog.leave .errorInvalidContext
  | some (ca, ctx) => if ctx.mode = .encode then endEncode ca ctx r else endDecode ca ctx r

/-! ## The resolve thread -/

/-- The resolve thread of the context at `ca` takes a surface from the queue. When `notified`, it
marks the surface as resolved. -/
def resolveSurface (ca : Addr) (notified : Bool) : Entry := do
  let w ← Prog.read
  let ctx ← Prog.need (w.contextAt ca)
  Prog.wait fun _ => ctx.mode = .decode ∧ ¬ctx.surfaceQueue.IsEmpty
  Prog.update fun w => w.modifyContext ca fun ctx =>
    { ctx with surfaceQueue := ctx.surfaceQueue.dequeue }
  let _ ← Prog.need (w.surfaceAt ctx.surfaceQueue.front)
  if notified then
    Prog.update fun w => w.modifySurface ctx.surfaceQueue.front fun sf =>
      { sf with resolving := false }
  return .success

end NvVaapi.Objects
