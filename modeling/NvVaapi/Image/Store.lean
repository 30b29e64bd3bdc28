import NvVaapi.Image.Paths

/-!
# The two stores of a surface

* `TrackedSurface`: a surface with the context that it was last used with, and as history the
  picture that the completed writes left.
* `surfaceStore`: the system of the calls that use 8-bit 4:2:0 surfaces, in any order: decoding,
  encoding, `nvPutImage`, and writing through derived images.
* `Coherent`: every way to read a surface gives the picture of the completed writes.

An id is the address of its object and is not used again. What follows a pointer to an object that
was destroyed has no result, and neither has a call that waits for a mutex.
-/

namespace NvVaapi.Image

open Objects (NVContextMode PutArgs GetResults)

structure TrackedSurface extends NVSurface where
  context : Option Nat
  /-- `nvBeginPicture` of a decode context was called, and its picture is not resolved. -/
  resolving : Bool
  /-- The resolve thread has the surface in its queue. -/
  queued : Bool
  /-- The image buffer through which the surface is mapped, which holds the mutex. -/
  mappedBy : Option Nat
  /-- History: the picture that the completed writes left. -/
  written : Picture

structure SurfaceUser where
  mode : NVContextMode
  renderTarget : Option Nat

/-- The buffer of a derived image. In strict mode it gets memory of its own when it is mapped. -/
structure DerivedBuffer where
  surface : Nat
  shadow : Option Memory

structure SurfaceStore where
  nextId : Nat
  surfaces : Nat → Option TrackedSurface
  contexts : Nat → Option SurfaceUser
  buffers : Nat → Option DerivedBuffer

inductive StoreCall where
  | createSurface (width height : UInt32)
  | destroySurface (s : Nat)
  | createContext (mode : NVContextMode)
  | destroyContext (c : Nat)
  /-- `exhausted`: a decode context has no picture index left. -/
  | beginPicture (c s : Nat) (exhausted : Bool)
  /-- `early`: the call returns an error before it comes to the surface. -/
  | endPicture (c : Nat) (early : Bool)
  /-- The resolve thread is done with a surface, with what it copied. -/
  | resolve (s : Nat) (arrays : Option (Nat → CUarray))
  | putImage (s : Nat) (img : NVImage) (p : PutArgs)
  | deriveImage (s : Nat)
  | mapBuffer (b : Nat)
  /-- The client writes through a mapped image. -/
  | write (b : Nat) (m : Memory)
  | unmapBuffer (b : Nat)

namespace SurfaceStore

variable (w : SurfaceStore)

def empty : SurfaceStore := ⟨0, fun _ => none, fun _ => none, fun _ => none⟩

def setSurface (s : Nat) (e : TrackedSurface) : SurfaceStore :=
  { w with surfaces := Function.update w.surfaces s (some e) }

/-- A new surface. Its host buffer is zero. -/
def createSurface (width height : UInt32) : SurfaceStore :=
  { w.setSurface w.nextId
      { EncodeSurface.init .yuv420 width height with
        hostData := some fun _ => 0
        backingImage := none
        status := .ready
        context := none
        resolving := false
        queued := false
        mappedBy := none
        written := ⟨fun _ _ => 0, fun _ _ => 0⟩ } with
    nextId := w.nextId + 1 }

def beginPicture (c s : Nat) (exhausted : Bool) : SurfaceStore :=
  match w.contexts c, w.surfaces s with
  | some ctx, some e =>
    match ctx.mode with
    | .encode =>
      { w.setSurface s { e with
          toEncodeSurface := e.wholeContent false
          context := some c
          status := .rendering } with
        contexts := Function.update w.contexts c (some { ctx with renderTarget := some s }) }
    | .decode =>
      -- a backing image of another context is detached
      let e := if e.context ≠ none ∧ e.context ≠ some c then { e with backingImage := none } else e
      if exhausted then w.setSurface s e
      else
        { w.setSurface s { e with resolving := true, status := .rendering } with
          contexts := Function.update w.contexts c (some { ctx with renderTarget := some s }) }
  | _, _ => w

def endPicture (c : Nat) (early : Bool) : Option SurfaceStore :=
  match w.contexts c with
  | none => some w
  | some ctx =>
    if early then some w
    else do
      let s ← ctx.renderTarget
      let e ← w.surfaces s
      match ctx.mode with
      | .encode => return w.setSurface s { e with status := .ready }
      | .decode =>
        return w.setSurface s { e with context := some c, queued := true, status := .rendering }

def resolve (s : Nat) (arrays : Option (Nat → CUarray)) : Option SurfaceStore := do
  let e ← w.surfaces s
  guard e.queued
  let e := { e with queued := false, resolving := false, status := .ready }
  match arrays with
  | none => return w.setSurface s e
  | some arrays =>
    return w.setSurface s { e with backingImage := some arrays, written := ⟨arrays 0, arrays 1⟩ }

def putImage (s : Nat) (img : NVImage) (p : PutArgs) : Option SurfaceStore :=
  match w.surfaces s with
  | none => some w
  | some e =>
    let t := nvPutImage true e.toNVSurface img p
    match t.copied, img.ptr with
    | some copies, some src =>
      if e.mappedBy.isSome then none
      else some (w.setSurface s { e with
        toNVSurface := t.after
        written := e.written.paste (img.layout.picture src) copies })
    | _, _ => some (w.setSurface s { e with toNVSurface := t.after })

def deriveImage (s : Nat) : SurfaceStore :=
  match w.surfaces s with
  | none => w
  | some e =>
    match nvDeriveImage true e.toNVSurface with
    | none => w
    | some (sf, _, _) =>
      { w.setSurface s { e with toNVSurface := sf } with
        buffers := Function.update w.buffers w.nextId (some ⟨s, none⟩)
        nextId := w.nextId + 1 }

/-- `strict` is `g_encStrictMode`. -/
def mapBuffer (strict : Bool) (b : Nat) : Option SurfaceStore := do
  let d ← w.buffers b
  let e ← w.surfaces d.surface
  if strict then
    guard e.mappedBy.isNone
    return { w with buffers := Function.update w.buffers b (some { d with shadow := e.hostData }) }
  else if e.mappedBy = some b then return w
  else
    guard e.mappedBy.isNone
    return w.setSurface d.surface { e with mappedBy := some b }

def write (strict : Bool) (b : Nat) (m : Memory) : Option SurfaceStore := do
  let d ← w.buffers b
  let e ← w.surfaces d.surface
  if strict then
    guard d.shadow.isSome
    return { w with buffers := Function.update w.buffers b (some { d with shadow := some m }) }
  else
    guard (e.mappedBy = some b)
    return w.setSurface d.surface { e with hostData := some m }

def unmapBuffer (strict : Bool) (b : Nat) : Option SurfaceStore := do
  let d ← w.buffers b
  let e ← w.surfaces d.surface
  let e' := { e with toEncodeSurface := e.wholeContent true, status := .ready }
  match strict, d.shadow with
  | true, some m =>
    guard e.mappedBy.isNone
    return w.setSurface d.surface { e' with
      hostData := some m
      written := (hostLayout e.toEncodeSurface).picture m }
  | _, _ =>
    guard (e.mappedBy = none ∨ e.mappedBy = some b)
    match e.mappedBy, e.hostData with
    | some _, some m =>
      return w.setSurface d.surface { e' with
        mappedBy := none
        written := (hostLayout e.toEncodeSurface).picture m }
    | _, _ => return w.setSurface d.surface { e' with mappedBy := none }

def step (strict : Bool) : StoreCall → Option SurfaceStore
  | .createSurface width height => some (w.createSurface width height)
  | .destroySurface s => some { w with surfaces := Function.update w.surfaces s none }
  | .createContext mode => some { w with
      contexts := Function.update w.contexts w.nextId (some ⟨mode, none⟩)
      nextId := w.nextId + 1 }
  | .destroyContext c => some { w with contexts := Function.update w.contexts c none }
  | .beginPicture c s exhausted => some (w.beginPicture c s exhausted)
  | .endPicture c early => w.endPicture c early
  | .resolve s arrays => w.resolve s arrays
  | .putImage s img p => w.putImage s img p
  | .deriveImage s => some (w.deriveImage s)
  | .mapBuffer b => w.mapBuffer strict b
  | .write b m => w.write strict b m
  | .unmapBuffer b => w.unmapBuffer strict b

/-- The mode of the context that a surface was last used with. -/
def modeOf (e : TrackedSurface) : Option (Option NVContextMode) :=
  match e.context with
  | none => some none
  | some c => (w.contexts c).map fun u => some u.mode

/-- The memory that a mapped derived image gives to the client. -/
def mapped (strict : Bool) (b : Nat) : Option Memory := do
  let d ← w.buffers b
  if strict then d.shadow
  else
    let e ← w.surfaces d.surface
    e.hostData

end SurfaceStore

def surfaceStore (strict : Bool) : Lts SurfaceStore StoreCall where
  init w := w = .empty
  step w := w.step strict

/-! ## Reading a surface -/

namespace TrackedSurface

variable (e : TrackedSurface)

/-- No write to the surface is under way. -/
def Settled : Prop := e.mappedBy = none ∧ e.resolving = false

/-- A picture has the pixels of the completed writes. -/
def Shows (p : Picture) : Prop := p.SameRect e.written 0 0 0 0 e.width.toNat e.height.toNat

end TrackedSurface

/-- An image of the whole surface, a derived image that is mapped, and the locked surface show the
completed writes. A surface without a pixel has no image to get. -/
structure Coherent (strict : Bool) (w : SurfaceStore) (s : Nat) (e : TrackedSurface) : Prop where
  getImage : ∀ {width height : Int32} {dst : Memory} {img : NVImage},
    nvCreateImage .nv12 width height (some dst) = some (.ok img) → img.width = e.width →
    img.height = e.height → 0 < e.width.toNat → 0 < e.height.toNat →
    ∃ mode get m, w.modeOf e = some mode ∧
      nvGetImage mode e.toNVSurface img 0 0 e.width e.height cudaSucceeds = some get ∧
      get.status = .success ∧ get.after.ptr = some m ∧ e.Shows (get.after.layout.picture m)
  deriveImage : ∃ w₁ w₂ r m, w.step strict (.deriveImage s) = some w₁ ∧
    w₁.step strict (.mapBuffer w.nextId) = some w₂ ∧ nvDeriveImage true e.toNVSurface = some r ∧
    w₂.mapped strict w.nextId = some m ∧ e.Shows (r.2.1.picture m)
  lockSurface : ∃ r, nvLockSurface true e.toNVSurface = some r ∧ e.Shows (r.2.1.picture r.2.2)

end NvVaapi.Image
