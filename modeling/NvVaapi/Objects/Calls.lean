import NvVaapi.Lib.Lts
import NvVaapi.Objects.Access
import NvVaapi.Objects.Destroy
import NvVaapi.Objects.Picture

/-!
# The system of all calls

* `ApiCall`: an entrypoint with its arguments and the results of what it calls, or a turn of a
  resolve thread.
* `ApiCall.entry`: the code that it runs.
* `objectSystem`: the calls in any order.
-/

namespace NvVaapi.Objects

inductive ApiCall where
  | createConfig (profile : VAProfile) (entrypoint : VAEntrypoint) (attribs : List VAConfigAttrib)
      (addr : Addr)
  | destroyConfig (config : VAGenericID)
  | createSurfaces (format width height : UInt32) (allocs : List SurfaceAlloc)
      (pushed popped : Bool)
  | destroySurfaces (surfaces : List VAGenericID)
  | createContext (config : VAGenericID) (pictureWidth pictureHeight : Int32)
      (renderTargets : List VAGenericID) (r : ContextResults)
  | destroyContext (context : VAGenericID) (r : DestroyResults)
  | createBuffer (context : VAGenericID) (type : BufferType) (size numElements : UInt32)
      (dataLow : Fin 16) (a : BufferAlloc)
  | bufferSetNumElements (buffer : VAGenericID) (numElements : UInt32)
  | mapBuffer (buffer : VAGenericID) (alloc : MapAlloc)
  | unmapBuffer (buffer : VAGenericID) (host : Option Addr)
  | destroyBuffer (buffer : VAGenericID)
  | beginPicture (context renderTarget : VAGenericID) (alloc : Option Addr)
  | renderPicture (context : VAGenericID) (buffers : List (VAGenericID × Option VAGenericID))
  | endPicture (context : VAGenericID) (r : EndResults)
  | syncSurface (surface : VAGenericID)
  | createImage (format : Option NVFormat) (width height : UInt32) (a : ImageAlloc)
  | deriveImage (surface : VAGenericID) (a : DeriveAlloc)
  | destroyImage (image : VAGenericID)
  | getImage (surface : VAGenericID) (x y : Int32) (image : VAGenericID) (r : GetResults)
  | putImage (surface image : VAGenericID) (p : PutArgs) (host : Option Addr)
  | lockSurface (surface : VAGenericID) (host : Option Addr)
  | querySurfaceAttributes (config : VAGenericID) (numAttribs attribList : Bool) (r : QueryResults)
  | exportSurfaceHandle (surface : VAGenericID) (memType flags : Bool) (r : ExportResults)
  /-- A resolve thread takes a surface. -/
  | resolve (context : Addr) (notified : Bool)

def ApiCall.entry : ApiCall → Entry
  | .createConfig profile entrypoint attribs addr => nvCreateConfig profile entrypoint attribs addr
  | .destroyConfig config => nvDestroyConfig config
  | .createSurfaces format width height allocs pushed popped =>
    nvCreateSurfaces2 format width height allocs pushed popped
  | .destroySurfaces surfaces => nvDestroySurfaces surfaces
  | .createContext config width height renderTargets r =>
    nvCreateContext config width height renderTargets r
  | .destroyContext context r => nvDestroyContext context r
  | .createBuffer context type size numElements dataLow a =>
    nvCreateBuffer context type size numElements dataLow a
  | .bufferSetNumElements buffer numElements => nvBufferSetNumElements buffer numElements
  | .mapBuffer buffer alloc => nvMapBuffer buffer alloc
  | .unmapBuffer buffer host => nvUnmapBuffer buffer host
  | .destroyBuffer buffer => nvDestroyBuffer buffer
  | .beginPicture context renderTarget alloc => nvBeginPicture context renderTarget alloc
  | .renderPicture context buffers => nvRenderPicture context buffers
  | .endPicture context r => nvEndPicture context r
  | .syncSurface surface => nvSyncSurface surface
  | .createImage format width height a => nvCreateImage format width height a
  | .deriveImage surface a => nvDeriveImage surface a
  | .destroyImage image => nvDestroyImage image
  | .getImage surface x y image r => nvGetImage surface x y image r
  | .putImage surface image p host => nvPutImage surface image p host
  | .lockSurface surface host => nvLockSurface surface host
  | .querySurfaceAttributes config numAttribs attribList r =>
    nvQuerySurfaceAttributes config numAttribs attribList r
  | .exportSurfaceHandle surface memType flags r => nvExportSurfaceHandle surface memType flags r
  | .resolve context notified => resolveSurface context notified

/-- The state that a call leaves, if it returns. -/
def ApiCall.step (call : ApiCall) (w : World) : Option World := (call.entry.eval w).map Prod.snd

/-- The calls in any order. -/
def objectSystem : Lts World ApiCall where
  init w := ∃ info cudaContext cudaStack, w = .init info cudaContext cudaStack
  step w call := call.step w

theorem step_returns {call : ApiCall} {w w' : World} {R : World → Prop}
    (h : call.entry.Returns w fun _ => R) (hs : objectSystem.step w call = some w') : R w' := by
  obtain ⟨⟨st, w₁⟩, he, rfl⟩ := Option.map_eq_some_iff.mp hs
  exact h.eval he

end NvVaapi.Objects
