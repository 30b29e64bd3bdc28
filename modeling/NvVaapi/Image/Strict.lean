import NvVaapi.Image.RoundTrip
import NvVaapi.Lib.Lts
import Mathlib.Logic.Function.Basic

/-!
# Mapped images in normal and in strict mode

* `MapWorld`: surfaces, the buffers of images, and the images that `nvCreateImage` made.
* `nvDeriveImage`, `nvMapBuffer`, `nvUnmapBuffer`: the buffer of a derived image points to the host
  buffer of its surface. In strict mode it gets memory of its own when it is mapped, which is copied
  back when it is unmapped. Otherwise the mutex of the surface is held between the two calls.
* `mapping strict`: the system of these calls, of `nvPutImage` and `nvGetImage` with created images,
  and of the client's reads and writes through the pointers it was given.
* `Bracketed`: the calls that leave a mapped surface alone, and whose allocations succeed.

An id is not used again. A call that waits for a mutex has no result, and neither has a read or a
write through NULL.
-/

namespace NvVaapi.Image

open Objects (NVContextMode PutArgs)

/-! ## The state -/

/-- Where the pointer of a buffer goes: to the host buffer of a surface, or to memory that only this
buffer points to. -/
inductive BufferPtr where
  | null
  | host (s : Nat)
  | own (m : Memory)

def BufferPtr.isNull : BufferPtr → Bool
  | .null => true
  | _ => false

/-- `buf->ptr == surf->hostData` -/
def BufferPtr.isHost (s : Nat) : BufferPtr → Bool
  | .host s' => s' = s
  | _ => false

/-- `NVBuffer`, as far as image buffers use it. Those of created images have the `surfaceId` 0. -/
structure ImageBuffer where
  ptr : BufferPtr
  size : Nat
  ownsPtr : Bool
  surfaceId : Nat
  commitOnUnmap : Bool
  mappedSurfaceLock : Bool

/-- The buffer has no memory of its own that `need` bytes fit in exactly. -/
def ImageBuffer.needsShadow (buf : ImageBuffer) (need : Nat) : Bool :=
  !buf.ownsPtr || buf.ptr.isHost buf.surfaceId || buf.size != need || buf.ptr.isNull

/-- An image that `nvCreateImage` made. Its memory is that of the buffer. -/
structure ImageObject where
  layout : NVImage
  imageBuffer : Nat

structure MapSurface extends NVSurface where
  /-- The mode of the context that the surface was last used with. -/
  mode : Option NVContextMode
  locked : Bool
  /-- History: the buffer that was mapped, and not unmapped since. -/
  mappedBy : Option Nat

/-- What a call returns to the client, with the bytes that it reads. -/
structure Reply where
  status : Objects.VAStatus
  bytes : List UInt8

structure MapWorld where
  nextObjId : Nat
  surfaces : Nat → Option MapSurface
  buffers : Nat → Option ImageBuffer
  images : Nat → Option ImageObject
  /-- History: what the calls returned. -/
  replies : List Reply

namespace MapWorld

variable (w : MapWorld)

def setSurface (s : Nat) (sf : MapSurface) : MapWorld :=
  { w with surfaces := Function.update w.surfaces s (some sf) }

def setBuffer (b : Nat) (buf : ImageBuffer) : MapWorld :=
  { w with buffers := Function.update w.buffers b (some buf) }

def reply (status : Objects.VAStatus) (bytes : List UInt8) : MapWorld :=
  { w with replies := w.replies ++ [⟨status, bytes⟩] }

/-- What is behind the pointer of a buffer. -/
def memoryAt : BufferPtr → Option Memory
  | .null => none
  | .host s => (w.surfaces s).bind fun sf => sf.hostData
  | .own m => some m

/-- The image with the memory of its buffer. -/
def image (i : Nat) : Option NVImage := do
  let img ← w.images i
  let buf ← w.buffers img.imageBuffer
  return { img.layout with size := buf.size, ptr := w.memoryAt buf.ptr }

/-! ## Images -/

def createImage (format : VAFourcc) (width height : Int32) (memory : Option Memory) :
    Option MapWorld := do
  match ← nvCreateImage format width height memory with
  | .error status => return w.reply status []
  | .ok img =>
    let buffer : ImageBuffer :=
      ⟨memory.elim .null .own, img.size, true, 0, false, false⟩
    let w := { w.setBuffer (w.nextObjId + 2) buffer with
      images := Function.update w.images (w.nextObjId + 1) (some ⟨img, w.nextObjId + 2⟩)
      nextObjId := w.nextObjId + 2 }
    return w.reply .success []

/-- The image itself, which no call here uses, gets an id too. -/
def deriveImage (s : Nat) (calloc : Bool) : MapWorld :=
  match w.surfaces s with
  | none => w.reply .errorInvalidSurface []
  | some sf =>
    match ensureSurfaceHostBuffer calloc sf.toNVSurface with
    | none => w.reply .errorAllocationFailed []
    | some (e, _) =>
      let buffer : ImageBuffer := ⟨.host s, e.hostTotalSize, false, s, false, false⟩
      let w :=
        { (w.setSurface s { sf with toNVSurface := e }).setBuffer (w.nextObjId + 1) buffer with
        nextObjId := w.nextObjId + 2 }
      w.reply .success []

/-! ## Mapping -/

/-- The strict path of `nvMapBuffer`, for a surface with the host buffer `host`. -/
def mapShadow (b : Nat) (buf : ImageBuffer) (sf : MapSurface) (host : Memory)
    (realloc : Option Memory) : Option (Objects.VAStatus × MapWorld) :=
  let need := sf.hostTotalSize
  match if buf.needsShadow need then realloc else w.memoryAt buf.ptr with
  | none => some (.errorAllocationFailed, w)
  | some shadow =>
    if sf.locked then none
    else
      let shadow := Bytes.write shadow 0 (Bytes.read host 0 need)
      some (.success, w.setBuffer b { buf with ptr := .own shadow, size := need, ownsPtr := true })

/-- The end of `nvMapBuffer`: the surface is locked, unless the buffer has locked it already. -/
def mapDirect (b : Nat) (buf : ImageBuffer) (sf : MapSurface) :
    Option (Objects.VAStatus × MapWorld) :=
  if buf.mappedSurfaceLock then some (.success, w)
  else if sf.locked then none
  else some (.success,
    (w.setSurface buf.surfaceId { sf with locked := true }).setBuffer b
      { buf with mappedSurfaceLock := true })

/-- `realloc` is what `realloc` returns, if it is called. -/
def nvMapBuffer (strict : Bool) (b : Nat) (calloc : Bool) (realloc : Option Memory) :
    Option (Objects.VAStatus × MapWorld) :=
  match w.buffers b with
  | none => some (.errorInvalidBuffer, w)
  | some buf =>
    match w.surfaces buf.surfaceId with
    | none => some (.success, w)
    | some sf =>
      match ensureSurfaceHostBuffer calloc sf.toNVSurface with
      | none => w.mapDirect b buf sf
      | some (e, host) =>
        let sf := { sf with toNVSurface := e }
        let w := w.setSurface buf.surfaceId sf
        if strict then w.mapShadow b buf sf host realloc else w.mapDirect b buf sf

/-- The surface after the `size` bytes at `m` were copied to its host buffer `host`. -/
def committed (sf : MapSurface) (host m : Memory) (size : Nat) : MapSurface :=
  { sf with hostData := some (Bytes.write host 0 (Bytes.read m 0 (min size sf.hostTotalSize))) }

/-- The whole surface is valid content. -/
def wholeReady (sf : MapSurface) : MapSurface :=
  { sf with toEncodeSurface := sf.wholeContent true, status := .ready }

/-- The first part of `nvUnmapBuffer`, for a surface with the host buffer `host`. -/
def unmapSurface (strict : Bool) (b : Nat) (buf : ImageBuffer) (sf : MapSurface) (host : Memory) :
    Option MapWorld :=
  match if strict ∧ !buf.ptr.isNull ∧ buf.ownsPtr then w.memoryAt buf.ptr else none with
  | some m =>
    if sf.locked then none
    else some (w.setSurface buf.surfaceId (wholeReady (committed sf host m buf.size)))
  | none =>
    if buf.mappedSurfaceLock then
      some ((w.setSurface buf.surfaceId { wholeReady sf with locked := false }).setBuffer b
        { buf with mappedSurfaceLock := false })
    else if sf.locked then none
    else some (w.setSurface buf.surfaceId (wholeReady sf))

/-- The second part of `nvUnmapBuffer`. -/
def commitOnUnmap (buf : ImageBuffer) (calloc : Bool) : Option MapWorld :=
  match if buf.commitOnUnmap then w.memoryAt buf.ptr else none, w.surfaces buf.surfaceId with
  | some m, some sf =>
    match ensureSurfaceHostBuffer calloc sf.toNVSurface with
    | none => some w
    | some (e, host) =>
      if sf.locked then none
      else some (w.setSurface buf.surfaceId
        (wholeReady (committed { sf with toNVSurface := e } host m buf.size)))
  | _, _ => some w

def nvUnmapBuffer (strict : Bool) (b : Nat) (calloc : Bool) :
    Option (Objects.VAStatus × MapWorld) :=
  match w.buffers b with
  | none => some (.errorInvalidBuffer, w)
  | some buf => do
    let w ← match w.surfaces buf.surfaceId with
      | none => some w
      | some sf =>
        match ensureSurfaceHostBuffer calloc sf.toNVSurface with
        | none => some w
        | some (e, host) =>
          let sf := { sf with toNVSurface := e }
          (w.setSurface buf.surfaceId sf).unmapSurface strict b buf sf host
    let w ← w.commitOnUnmap buf calloc
    return (.success, w)

/-! ## Copies from and to created images -/

def putImage (s i : Nat) (calloc : Bool) (p : PutArgs) : Option MapWorld :=
  match w.surfaces s, w.image i with
  | none, _ => some (w.reply .errorInvalidSurface [])
  | some _, none => some (w.reply .errorInvalidImage [])
  | some sf, some img =>
    let t := nvPutImage calloc sf.toNVSurface img p
    if t.copied.isSome ∧ sf.locked then none
    else some ((w.setSurface s { sf with toNVSurface := t.after }).reply t.status [])

/-- The image gets its bytes, which the client can read. -/
def setImage (i : Nat) (m : Memory) : MapWorld :=
  match w.images i with
  | none => w
  | some img =>
    match w.buffers img.imageBuffer with
    | none => w
    | some buf => w.setBuffer img.imageBuffer { buf with ptr := .own m }

/-- For a surface that is not used for decoding. -/
def getImage (s i : Nat) (x y : Int32) (width height : UInt32) : Option MapWorld :=
  match w.surfaces s, w.image i with
  | none, _ => some (w.reply .errorInvalidSurface [])
  | some _, none => some (w.reply .errorInvalidImage [])
  | some sf, some img =>
    if sf.mode = some .decode then none
    else
      let t := getImageHost sf.toNVSurface img x y width height
      match t.copied, t.after.ptr with
      | some _, some m =>
        if sf.locked then none else some ((w.setImage i m).reply t.status (Bytes.read m 0 img.size))
      | _, _ => some (w.reply t.status [])

/-! ## The client -/

/-- The memory at the pointer of a buffer is `m` now. -/
def setMemory (b : Nat) (buf : ImageBuffer) (m : Memory) : MapWorld :=
  match buf.ptr with
  | .null => w
  | .own _ => w.setBuffer b { buf with ptr := .own m }
  | .host s =>
    match w.surfaces s with
    | none => w
    | some sf => w.setSurface s { sf with hostData := some m }

def write (b offset : Nat) (bytes : List UInt8) : Option MapWorld := do
  let buf ← w.buffers b
  let m ← w.memoryAt buf.ptr
  return w.setMemory b buf (Bytes.write m offset bytes)

def read (b offset n : Nat) : Option MapWorld := do
  let buf ← w.buffers b
  let m ← w.memoryAt buf.ptr
  return w.reply .success (Bytes.read m offset n)

/-- History: the buffer `b` is mapped now, or it is not any more. -/
def setMapped (b : Nat) (mappedBy : Option Nat) : MapWorld :=
  match w.buffers b with
  | none => w
  | some buf =>
    match w.surfaces buf.surfaceId with
    | none => w
    | some sf => w.setSurface buf.surfaceId { sf with mappedBy }

end MapWorld

/-! ## The system -/

inductive MapCall where
  | createImage (format : VAFourcc) (width height : Int32) (memory : Option Memory)
  | deriveImage (s : Nat) (calloc : Bool)
  | mapBuffer (b : Nat) (calloc : Bool) (realloc : Option Memory)
  | write (b offset : Nat) (bytes : List UInt8)
  | read (b offset n : Nat)
  | unmapBuffer (b : Nat) (calloc : Bool)
  | putImage (s i : Nat) (calloc : Bool) (p : PutArgs)
  | getImage (s i : Nat) (x y : Int32) (width height : UInt32)

/-- `strict` is `g_encStrictMode`. -/
def mapStep (strict : Bool) (w : MapWorld) : MapCall → Option MapWorld
  | .createImage format width height memory => w.createImage format width height memory
  | .deriveImage s calloc => some (w.deriveImage s calloc)
  | .mapBuffer b calloc realloc => do
    let (status, w) ← w.nvMapBuffer strict b calloc realloc
    return (if status = .success then w.setMapped b (some b) else w).reply status []
  | .write b offset bytes => w.write b offset bytes
  | .read b offset n => w.read b offset n
  | .unmapBuffer b calloc => do
    let (status, w) ← w.nvUnmapBuffer strict b calloc
    return (w.setMapped b none).reply status []
  | .putImage s i calloc p => w.putImage s i calloc p
  | .getImage s i x y width height => w.getImage s i x y width height

/-- At first there are surfaces only, which are not used for decoding. No object has the id 0. -/
structure MapWorld.Initial (w : MapWorld) : Prop where
  surface : ∀ s sf, w.surfaces s = some sf →
    sf.locked = false ∧ sf.mappedBy = none ∧ sf.mode ≠ some .decode
  zero : w.surfaces 0 = none
  buffers : w.buffers = fun _ => none
  images : w.images = fun _ => none

def mapping (strict : Bool) : Lts MapWorld MapCall where
  init := MapWorld.Initial
  step := mapStep strict

/-- The surface `s`, if it is there, is mapped by `mappedBy`. -/
def MapWorld.MappedBy (w : MapWorld) (s : Nat) (mappedBy : Option Nat) : Prop :=
  ∀ sf ∈ w.surfaces s, sf.mappedBy = mappedBy

instance (w : MapWorld) (s : Nat) (mappedBy : Option Nat) : Decidable (w.MappedBy s mappedBy) :=
  inferInstanceAs (Decidable (∀ sf ∈ w.surfaces s, _))

/-- The surface of a buffer, if there is one, is mapped by `mappedBy`. -/
def MapWorld.BufferMappedBy (w : MapWorld) (b : Nat) (mappedBy : Option Nat) : Prop :=
  ∀ buf ∈ w.buffers b, w.MappedBy buf.surfaceId mappedBy

instance (w : MapWorld) (b : Nat) (mappedBy : Option Nat) :
    Decidable (w.BufferMappedBy b mappedBy) :=
  inferInstanceAs (Decidable (∀ buf ∈ w.buffers b, _))

/-- The `n` bytes from `offset` on are bytes that the buffer is mapped to. Those of created images
can be used without a map. -/
def MapWorld.InMapped (w : MapWorld) (b offset n : Nat) : Prop :=
  ∃ buf ∈ w.buffers b, (w.memoryAt buf.ptr).isSome ∧
    ∀ sf ∈ w.surfaces buf.surfaceId, sf.mappedBy = some b ∧ offset + n ≤ sf.hostTotalSize

instance (w : MapWorld) (b offset n : Nat) : Decidable (w.InMapped b offset n) :=
  inferInstanceAs (Decidable (∃ buf ∈ w.buffers b, _))

/-- Every map is followed by one unmap, without another call on that surface in between, and every
allocation succeeds. The size of a created image has a product. -/
def Bracketed (w : MapWorld) : MapCall → Prop
  | .createImage format width height memory =>
    memory.isSome ∧ (nvCreateImage format width height memory).isSome
  | .deriveImage s calloc => calloc = true ∧ w.MappedBy s none
  | .mapBuffer b calloc realloc => calloc = true ∧ realloc.isSome ∧ w.BufferMappedBy b none
  | .write b offset bytes => w.InMapped b offset bytes.length
  | .read b offset n => w.InMapped b offset n
  | .unmapBuffer b calloc => calloc = true ∧ w.BufferMappedBy b (some b)
  | .putImage s _ calloc _ => calloc = true ∧ w.MappedBy s none
  | .getImage s _ _ _ _ _ => w.MappedBy s none

instance (w : MapWorld) : (a : MapCall) → Decidable (Bracketed w a)
  | .createImage .. | .deriveImage .. | .mapBuffer .. | .unmapBuffer .. | .putImage .. =>
    inferInstanceAs (Decidable (_ ∧ _))
  | .write b offset bytes => inferInstanceAs (Decidable (w.InMapped b offset bytes.length))
  | .read b offset n => inferInstanceAs (Decidable (w.InMapped b offset n))
  | .getImage s .. => inferInstanceAs (Decidable (w.MappedBy s none))

end NvVaapi.Image
