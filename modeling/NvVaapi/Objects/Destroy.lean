import NvVaapi.Objects.World

/-!
# Destroying objects

`nvDestroyConfig`, `nvDestroySurfaces`, `nvDestroyContext`, `nvDestroyBuffer`, `nvDestroyImage` and
`nvTerminate` with `deleteAllObjects`.
-/

namespace NvVaapi.Objects

/-- Any object with the id is deleted. -/
def nvDestroyConfig (config : VAGenericID) : Entry := do
  deleteObject config
  return .success

/-- The turn of `nvDestroySurfaces` for one id. -/
def destroySurface (id : VAGenericID) : Prog World VAStatus Unit := do
  let w ← Prog.read
  match w.getSurface id with
  | none => Prog.leave .errorInvalidSurface
  | some (a, sf) =>
    free sf.hostData
    Prog.update fun w => w.modifySurface a fun sf => { sf with hostData := 0 }
    deleteObject id

def nvDestroySurfaces (surfaces : List VAGenericID) : Entry := do
  Prog.forEach surfaces destroySurface
  return .success

/-- The results of the CUDA calls in `destroyContext`. -/
structure DestroyResults where
  pushed : Bool
  popped : Bool
  deriving DecidableEq

/-- `destroyContext` for the context at `a`. `encLastFrameData` is never set. -/
def destroyContext (a : Addr) (ctx : NVContext) (r : DestroyResults) : Prog World Bool Bool := do
  Prog.update fun w => { w with destroyed := a :: w.destroyed }
  pushContext r.pushed false
  if ctx.mode = .encode then
    Prog.update fun w => w.modifyContext a fun ctx =>
      { ctx with
        nvencEncoder := false
        nvencInputBuffers := fun _ => false
        nvencOutputBuffers := fun _ => false }
  popContext r.popped false
  return true

def nvDestroyContext (context : VAGenericID) (r : DestroyResults) : Entry := do
  let w ← Prog.read
  match w.getContext context with
  | none => Prog.leave .errorInvalidContext
  | some (a, ctx) =>
    let ok ← Prog.call (destroyContext a ctx r)
    deleteObject context
    return if ok then .success else .errorOperationFailed

def nvDestroyBuffer (buffer : VAGenericID) : Entry := do
  let w ← Prog.read
  match w.getBuffer buffer with
  | none => Prog.leave .errorInvalidBuffer
  | some (a, buf) =>
    if buf.ownsPtr then
      free buf.ptr
    free buf.codedData
    if buf.mappedSurfaceLock ∧ buf.surfaceId ≠ vaInvalidId then
      match w.getSurface buf.surfaceId with
      | none => pure ()
      | some (sa, _) =>
        Prog.update fun w => w.modifySurface sa fun sf => { sf with locked := false }
      Prog.update fun w => w.modifyBuffer a fun buf => { buf with mappedSurfaceLock := false }
    deleteObject buffer
    return .success

def nvDestroyImage (image : VAGenericID) : Entry := do
  let w ← Prog.read
  match w.getImage image with
  | none => Prog.leave .errorInvalidImage
  | some (_, img) =>
    match w.getBufferByPtr img.imageBuffer with
    | none => pure ()
    | some (id, buf) =>
      if buf.ownsPtr then
        free buf.ptr
      deleteObject id
    deleteObject image
    return .success

/-! ## The end of the driver -/

/-- The body of `deleteAllObjects` for an object. -/
def releaseObject (o : Object Cell) (r : DestroyResults) : Prog World VAStatus Unit :=
  match o.obj.payload with
  | .context ctx => do
    let _ ← Prog.call (destroyContext o.obj.addr ctx r)
  | .buffer buf => do
    if buf.ownsPtr then
      free buf.ptr
    free buf.codedData
  | .surface sf => do
    free sf.hostData
    Prog.update fun w => w.modifySurface o.obj.addr fun sf => { sf with hostData := 0 }
  | _ => pure ()

/-- The loop of `deleteAllObjects` from the index `idx` on, for at most `fuel` rounds. -/
def deleteAllFrom (r : Nat → DestroyResults) : Nat → Nat → Prog World VAStatus Unit
  | 0, _ => Prog.need none
  | fuel + 1, idx => do
    let w ← Prog.read
    match w.objects[idx]? with
    | none => pure ()
    | some o =>
      releaseObject o (r idx)
      deleteObject o.id
      deleteAllFrom r fuel (idx + 1)

/-- An index is reached once, so there are no more rounds than objects. `r` are the results of the
calls in `destroyContext`, by the index of the round. -/
def deleteAllObjects (r : Nat → DestroyResults) : Prog World VAStatus Unit := do
  let w ← Prog.read
  deleteAllFrom r (w.objects.length + 1) 0

structure TerminateResults where
  pushed : Bool
  popped : Bool
  destroyed : Bool
  contexts : Nat → DestroyResults

/-- `cuCtxDestroy(drv->cudaContext)`. A thread to which the context is current loses it. -/
def cuCtxDestroy : Prog World VAStatus Unit := Prog.update fun w =>
  { w with
    cudaStack :=
      if w.cudaStack.head? = some w.cudaContext then w.cudaStack.tail else w.cudaStack }

def nvTerminate (r : TerminateResults) : Entry := do
  pushContext r.pushed .errorOperationFailed
  deleteAllObjects r.contexts
  popContext r.popped .errorOperationFailed
  if !r.destroyed then
    Prog.leave .errorOperationFailed
  cuCtxDestroy
  return .success

end NvVaapi.Objects
