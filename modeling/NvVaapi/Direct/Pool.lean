import NvVaapi.Direct.Owned
import NvVaapi.Lib.Link
import NvVaapi.Lib.Lts

/-!
# The images of the surfaces in the direct backend

* `DirectPool`: the descriptors and the CUDA objects that the driver has, its surfaces and its
  images.
* `directRealiseSurface`, `directDetachBackingImageFromSurface`, `directDestroyAllBackingImage`:
  what makes and destroys images, with the results of the calls that they make.
* `directPool`: the calls of a client in any order. A surface that is in use is not destroyed by
  another thread.

What closes a descriptor or destroys a CUDA object succeeds, also where `nvDestroySurfaces` and
`nvBeginPicture` call it without a pushed CUDA context, and `cuMemcpy2D` changes nothing of this.
-/

namespace NvVaapi.Direct

def CudaObject.handle : CudaObject → Addr
  | .extMem object | .mipmapArray object | .array object => object

structure DirectPool where
  descriptors : Ledger Fd
  objects : Ledger CudaObject
  surfaces : Addr → Option Objects.NVSurface
  /-- `surface->backingImage` -/
  backingImage : Addr → Option Addr
  /-- The images that were allocated and not freed. -/
  heap : Finset Addr
  memory : Addr → BackingImage
  /-- `img->surface` -/
  surface : Addr → Option Addr
  /-- `drv->images` -/
  images : List Addr

namespace DirectPool

def empty : DirectPool where
  descriptors := .empty
  objects := .empty
  surfaces := fun _ => none
  backingImage := fun _ => none
  heap := ∅
  memory := fun _ => .zero .nv12
  surface := fun _ => none
  images := []

variable (d : DirectPool)

def setBackingImage (s : Addr) (b : Option Addr) : DirectPool :=
  { d with backingImage := Function.update d.backingImage s b }

/-! ## Destroying an image -/

/-- The turn of the first loop of `destroyBackingImage`. -/
def closeFds (img : BackingImage) (i : Nat) : DirectPool :=
  if img.fds i > 0 then { d with descriptors := d.descriptors.release (img.fds i) } else d

/-- `CHECK_CUDA_RESULT` only logs. The object is gone afterwards. -/
def destroyObject (object : CudaObject) : DirectPool :=
  if object.handle ≠ 0 then { d with objects := d.objects.release object } else d

/-- The turn of the second loop. -/
def destroyPlane (img : BackingImage) (i : Nat) : DirectPool :=
  (img.objects i).foldl destroyObject d

/-- `memset` and `free`. No format has the number 0. -/
def free (a : Addr) : DirectPool :=
  { d with
    heap := d.heap.erase a
    memory := Function.update d.memory a (.zero .nv12)
    surface := Function.update d.surface a none }

def destroyBackingImage (a : Addr) : DirectPool :=
  let img := d.memory a
  let d :=
    match d.surface a with
    | some s => d.setBackingImage s none
    | none => d
  let d := (List.range 4).foldl (fun d i => d.closeFds img i) d
  let d := (planeIndices img.format).foldl (fun d i => d.destroyPlane img i) d
  d.free a

def directDetachBackingImageFromSurface (s : Addr) : DirectPool :=
  match d.backingImage s with
  | none => d
  | some a => (d.destroyBackingImage a).setBackingImage s none

/-- The turn of `direct_destroyAllBackingImage` for the last image of the list. -/
def destroyLast (a : Addr) (d : DirectPool) : DirectPool :=
  let d := d.destroyBackingImage a
  { d with images := d.images.dropLast }

def directDestroyAllBackingImage : DirectPool := d.images.foldr destroyLast d

/-! ## Making an image -/

/-- What the state of an allocation leaves in the driver. -/
def leave (st : DirectState) : DirectPool :=
  { d with descriptors := st.descriptors, objects := ⟨st.objects, d.objects.stray⟩ }

/-- The memory of an image, which `direct_allocateBackingImage` has filled in. -/
def allocate (a : Addr) (img : BackingImage) : DirectPool :=
  { d with
    heap := insert a d.heap
    memory := Function.update d.memory a img
    surface := Function.update d.surface a none }

def directAttachBackingImageToSurface (s a : Addr) : DirectPool :=
  { d.setBackingImage s (some a) with surface := Function.update d.surface a (some s) }

/-- `a` is what `calloc` returns. -/
def directRealiseSurface (s : Addr) (sf : Objects.NVSurface) (r : AllocReplies) (a : Addr) :
    Option (Bool × DirectPool) :=
  match d.backingImage s with
  | some _ => some (true, d)
  | none =>
    match (directAllocateBackingImage sf r).eval
      (.enter d.descriptors d.objects.held (directFormat sf)) with
    | none => none
    | some (none, st) => some (false, d.leave st)
    | some (some img, st) =>
      some (true, ((d.leave st).allocate a img).directAttachBackingImageToSurface s a)

end DirectPool

/-! ## Runs -/

inductive DirectCall where
  /-- The turn of `nvCreateSurfaces2` for one surface, with what `calloc` returns. -/
  | createSurface (s : Addr) (sf : Objects.NVSurface)
  /-- Also what `direct_exportCudaPtr` does first. -/
  | realiseSurface (s : Addr) (r : AllocReplies) (a : Addr)
  /-- `nvBeginPicture`, where the context of the surface changes. -/
  | detachBackingImage (s : Addr)
  /-- The turn of `nvDestroySurfaces` for one surface. -/
  | destroySurface (s : Addr)
  | destroyAllBackingImage

def directPool : Lts DirectPool DirectCall where
  init d := d = .empty
  step d
    | .createSurface s sf =>
      match d.surfaces s with
      | some _ => none
      | none =>
        some { d.setBackingImage s none with surfaces := Function.update d.surfaces s (some sf) }
    | .realiseSurface s r a => do
      let sf ← d.surfaces s
      if a ∈ d.heap then none
      let (_, d) ← d.directRealiseSurface s sf r a
      return d
    | .detachBackingImage s => do
      let _ ← d.surfaces s
      return d.directDetachBackingImageFromSurface s
    | .destroySurface s => do
      let _ ← d.surfaces s
      let d := d.directDetachBackingImageFromSurface s
      return { d with surfaces := Function.update d.surfaces s none }
    | .destroyAllBackingImage => some d.directDestroyAllBackingImage

/-! ## What the operations do -/

namespace BackingImage

variable (img : BackingImage)

/-- The descriptors that `destroyBackingImage` closes. -/
def closes : List Fd := ((List.range 4).map img.fds).filter (0 < ·)

/-- The objects that it destroys. -/
def destroys : List CudaObject :=
  ((planeIndices img.format).flatMap img.objects).filter (·.handle ≠ 0)

end BackingImage

namespace DirectPool

variable {d d' : DirectPool} {s a : Addr} {sf : Objects.NVSurface} {r : AllocReplies}

theorem foldl_closeFds (img : BackingImage) (is : List Nat) :
    is.foldl (fun d i => d.closeFds img i) d =
    { d with descriptors := d.descriptors.releaseAll ((is.map img.fds).filter (0 < ·)) } := by
  induction is generalizing d with
  | nil => rfl
  | cons i is ih =>
    rw [List.foldl_cons, ih, closeFds, List.map_cons, List.filter_cons]
    by_cases h : 0 < img.fds i
    · simp [h]
    · simp [h]

theorem foldl_destroyObject (objects : List CudaObject) : objects.foldl destroyObject d =
    { d with objects := d.objects.releaseAll (objects.filter (·.handle ≠ 0)) } := by
  induction objects generalizing d with
  | nil => rfl
  | cons object objects ih =>
    rw [List.foldl_cons, ih, destroyObject, List.filter_cons]
    by_cases h : object.handle = 0
    · simp [h]
    · simp [h]

theorem foldl_destroyPlane (img : BackingImage) (is : List Nat) :
    is.foldl (fun d i => d.destroyPlane img i) d =
    { d with
      objects := d.objects.releaseAll ((is.flatMap img.objects).filter (·.handle ≠ 0)) } := by
  induction is generalizing d with
  | nil => rfl
  | cons i is ih =>
    rw [List.foldl_cons, ih, destroyPlane, foldl_destroyObject, List.flatMap_cons,
      List.filter_append, Ledger.releaseAll_append]

/-- Detaching a surface from its image destroys the image. -/
theorem detach_eq (hl : Linked d.backingImage d.surface) (h : d.backingImage s = some a) :
    d.directDetachBackingImageFromSurface s =
      { d with
        descriptors := d.descriptors.releaseAll (d.memory a).closes
        objects := d.objects.releaseAll (d.memory a).destroys
        backingImage := Function.update d.backingImage s none
        heap := d.heap.erase a
        memory := Function.update d.memory a (.zero .nv12)
        surface := Function.update d.surface a none } := by
  have hs : d.surface a = some s := (hl s a).mp h
  rw [directDetachBackingImageFromSurface, h]
  simp only [destroyBackingImage, hs, foldl_closeFds, foldl_destroyPlane, setBackingImage, free,
    BackingImage.closes, BackingImage.destroys, Function.update_idem]

theorem detach_of_none (h : d.backingImage s = none) :
    d.directDetachBackingImageFromSurface s = d := by
  rw [directDetachBackingImageFromSurface, h]

/-- A surface that is realised has an image already, or none is made, or it gets a new one. -/
theorem realise_cases {ok : Bool} (h : d.directRealiseSurface s sf r a = some (ok, d')) :
    (d.backingImage s ≠ none ∧ d' = d) ∨ d.backingImage s = none ∧ ∃ ret st,
      (directAllocateBackingImage sf r).eval
        (.enter d.descriptors d.objects.held (directFormat sf)) = some (ret, st) ∧
      d' = match ret with
        | none => d.leave st
        | some img => ((d.leave st).allocate a img).directAttachBackingImageToSurface s a := by
  unfold directRealiseSurface at h
  split at h
  · next b hb =>
    obtain ⟨-, rfl⟩ := Prod.mk.inj (Option.some.inj h)
    exact .inl ⟨by simp [hb], rfl⟩
  · next hb =>
    refine .inr ⟨hb, ?_⟩
    split at h
    · cases h
    · next st he =>
      obtain ⟨-, rfl⟩ := Prod.mk.inj (Option.some.inj h)
      exact ⟨_, _, he, rfl⟩
    · next img st he =>
      obtain ⟨-, rfl⟩ := Prod.mk.inj (Option.some.inj h)
      exact ⟨_, _, he, rfl⟩

end DirectPool

/-- What a step of the driver is. -/
theorem directPool_step_cases {d d' : DirectPool} {c : DirectCall}
    (h : directPool.step d c = some d') :
    match c with
    | .createSurface s sf => d.surfaces s = none ∧
        d' = { d.setBackingImage s none with surfaces := Function.update d.surfaces s (some sf) }
    | .realiseSurface s r a => ∃ sf ok, d.surfaces s = some sf ∧ a ∉ d.heap ∧
        d.directRealiseSurface s sf r a = some (ok, d')
    | .detachBackingImage s => d.surfaces s ≠ none ∧ d' = d.directDetachBackingImageFromSurface s
    | .destroySurface s =>
      d.surfaces s ≠ none ∧ ∃ d₁, d₁ = d.directDetachBackingImageFromSurface s ∧
        d' = { d₁ with surfaces := Function.update d₁.surfaces s none }
    | .destroyAllBackingImage => d' = d.directDestroyAllBackingImage := by
  cases c with
  | createSurface s sf =>
    simp only [directPool] at h
    split at h
    · cases h
    · next hs => exact ⟨hs, (Option.some.inj h).symm⟩
  | realiseSurface s r a =>
    simp only [directPool, Option.bind_eq_bind, Option.bind_eq_some_iff] at h
    obtain ⟨sf, hs, h⟩ := h
    split at h
    · simp at h
    · next ha =>
      simp only [Option.pure_def, Option.bind_eq_some_iff] at h
      obtain ⟨⟨ok, d₁⟩, hr, h⟩ := h
      obtain rfl : d₁ = d' := Option.some.inj h
      exact ⟨sf, ok, hs, ha, hr⟩
  | detachBackingImage s =>
    obtain ⟨sf, hs, h⟩ := Option.bind_eq_some_iff.mp h
    exact ⟨by simp [hs], (Option.some.inj h).symm⟩
  | destroySurface s =>
    obtain ⟨sf, hs, h⟩ := Option.bind_eq_some_iff.mp h
    exact ⟨by simp [hs], _, rfl, (Option.some.inj h).symm⟩
  | destroyAllBackingImage => exact (Option.some.inj h).symm

end NvVaapi.Direct
