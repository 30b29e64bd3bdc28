import NvVaapi.Lib.Lts
import NvVaapi.Lib.RingBuffer
import Mathlib.Logic.Function.Basic

/-!
# Decode contexts, surfaces and resolve threads

* `World`: the live surfaces and decode contexts, by address. A freed address can be used again.
* `nvBeginPicture`, `nvEndPicture`, `resolveStep`: the calls and the turns of a resolve thread, each
  with the results of the CUDA and NVDEC calls that it meets.
* `driver`: the system of all of them, in any order.

A critical section is one step. A condition variable wakes its waiter at any time, which covers the
signals. What dereferences a surface or a render target that is not there has no result.
-/

namespace NvVaapi

/-- An address. 0 is NULL. -/
abbrev Addr := Nat

/-- One creation of a context, so that contexts at one address can be told apart. -/
abbrev Generation := Nat

def surfaceQueueSize : Nat := 16

theorem surfaceQueueSize_pos : 0 < surfaceQueueSize := by decide

structure NVSurface where
  pictureIdx : Int
  context : Addr
  resolving : Bool
  decodeFailed : Bool
  /-- History: the index under which the surface was last begun on a context. -/
  begun : Generation → Option Int
  /-- History: the context on which the surface was last begun. -/
  lastBegun : Option Generation

/-- Where a resolve thread is in `resolveSurfaces`. -/
inductive ThreadPc where
  | start
  | head
  | check
  | waiting
  | woken
  | take
  | mapping (s : Addr)
  | exporting (s : Addr) (null : Bool)
  | unmapping (s : Addr) (exported : Bool)
  | out
  | exited
  deriving DecidableEq

/-- The surface that the thread is processing. -/
def ThreadPc.surface : ThreadPc → Option Addr
  | .mapping s => some s
  | .exporting s _ => some s
  | .unmapping s _ => some s
  | _ => none

/-- A decode context and its resolve thread. -/
structure NVContext where
  decoder : Bool
  renderTarget : Addr
  currPicIdx : Int
  currentPictureId : Int
  surfaceCount : Int
  surfaceQueue : RingBuffer surfaceQueueSize Addr
  exiting : Bool
  thread : ThreadPc
  generation : Generation
  /-- History: `nvBeginPicture` was called and `nvEndPicture` was not, since. -/
  inPicture : Bool
  /-- History: the surfaces that were put into the queue. -/
  enqueued : List Addr
  /-- History: the surfaces that the thread took. -/
  taken : List Addr

structure World where
  surfaces : Addr → Option NVSurface
  contexts : Addr → Option NVContext
  nextGeneration : Generation

namespace World

def empty : World := ⟨fun _ => none, fun _ => none, 0⟩

def setSurface (w : World) (s : Addr) (sf : NVSurface) : World :=
  { w with surfaces := Function.update w.surfaces s (some sf) }

def setContext (w : World) (c : Addr) (ctx : NVContext) : World :=
  { w with contexts := Function.update w.contexts c (some ctx) }

/-- `deleteObject` on a surface. -/
def freeSurface (w : World) (s : Addr) : World :=
  { w with surfaces := Function.update w.surfaces s none }

/-- `deleteObject` on a context. What its thread does from then on is not modelled. -/
def freeContext (w : World) (c : Addr) : World :=
  { w with contexts := Function.update w.contexts c none }

/-- An allocation can return `a`. -/
def Unused (w : World) (a : Addr) : Prop :=
  a ≠ 0 ∧ (w.surfaces a).isNone ∧ (w.contexts a).isNone

instance (w : World) (a : Addr) : Decidable (w.Unused a) := inferInstanceAs (Decidable (_ ∧ _ ∧ _))

end World

inductive VAStatus where
  | success
  | errorInvalidContext
  | errorInvalidSurface
  | errorMaxNumExceeded
  | errorHwBusy
  | errorOperationFailed
  | errorDecodingError
  deriving DecidableEq

/-! ## Creation and destruction -/

/-- A surface as `nvCreateSurfaces2` leaves it. -/
def NVSurface.init : NVSurface := ⟨-1, 0, false, false, fun _ => none, none⟩

/-- The number of decode surfaces for `num_render_targets`. -/
def decodeSurfaceCount (numRenderTargets : Int) : Int :=
  let surfaceCount := if numRenderTargets > 0 then numRenderTargets else 32
  if surfaceCount > 32 then 32 else surfaceCount

/-- A context as `nvCreateContext` leaves it, with its thread started. -/
def NVContext.init (generation : Generation) (numRenderTargets : Int) : NVContext where
  decoder := true
  renderTarget := 0
  currPicIdx := 0
  currentPictureId := 0
  surfaceCount := decodeSurfaceCount numRenderTargets
  surfaceQueue := .zero surfaceQueueSize_pos 0
  exiting := false
  thread := .start
  generation := generation
  inPicture := false
  enqueued := []
  taken := []

/-! ## `nvBeginPicture` -/

/-- The surface was last used on a different context, so its index is dropped. -/
def resetIndex (c : Addr) (sf : NVSurface) : NVSurface :=
  if sf.context ≠ 0 ∧ sf.context ≠ c then { sf with pictureIdx := -1 } else sf

/-- Give the surface an index of the context, if it has none. No result stands for
`VA_STATUS_ERROR_MAX_NUM_EXCEEDED`. -/
def assignIndex (ctx : NVContext) (sf : NVSurface) : Option (NVContext × NVSurface) :=
  if sf.pictureIdx = -1 then
    if ctx.currentPictureId = ctx.surfaceCount then none
    else some ({ ctx with currentPictureId := ctx.currentPictureId + 1 },
      { sf with pictureIdx := ctx.currentPictureId })
  else some (ctx, sf)

/-- The surface, being rendered on the context `generation`. -/
def NVSurface.rendering (sf : NVSurface) (generation : Generation) : NVSurface :=
  { sf with
    resolving := true
    begun := Function.update sf.begun generation (some sf.pictureIdx)
    lastBegun := some generation }

/-- The context, rendering the surface at `s`, which has the index `pictureIdx`. -/
def NVContext.rendering (ctx : NVContext) (s : Addr) (pictureIdx : Int) : NVContext :=
  { ctx with renderTarget := s, currPicIdx := pictureIdx, inPicture := true }

def nvBeginPicture (c s : Addr) (w : World) : VAStatus × World :=
  match w.contexts c, w.surfaces s with
  | none, _ => (.errorInvalidContext, w)
  | some _, none => (.errorInvalidSurface, w)
  | some ctx, some sf =>
    match assignIndex ctx (resetIndex c sf) with
    | none => (.errorMaxNumExceeded, w.setSurface s (resetIndex c sf))
    | some (ctx, sf) =>
      (.success, (w.setSurface s (sf.rendering ctx.generation)).setContext c
        (ctx.rendering s sf.pictureIdx))

/-! ## `nvEndPicture` -/

/-- The results of the CUDA calls in `nvEndPicture`. -/
structure EndOutcome where
  pushed : Bool
  decoded : Bool
  popped : Bool

/-- The call gets to the queue. -/
def EndOutcome.Reaches (o : EndOutcome) (ctx : NVContext) : Prop :=
  ctx.decoder ∧ o.pushed ∧ o.popped

instance (o : EndOutcome) (ctx : NVContext) : Decidable (o.Reaches ctx) :=
  inferInstanceAs (Decidable (_ ∧ _ ∧ _))

/-- The context after `surfaceQueue[surfaceQueueWriteIdx++] = renderTarget`. -/
def NVContext.enqueue (ctx : NVContext) : NVContext :=
  { ctx with
    surfaceQueue := ctx.surfaceQueue.enqueue ctx.renderTarget
    inPicture := false
    enqueued := ctx.enqueued ++ [ctx.renderTarget] }

def nvEndPicture (o : EndOutcome) (c : Addr) (w : World) : Option (VAStatus × World) :=
  match w.contexts c with
  | none => some (.errorInvalidContext, w)
  | some ctx =>
    if o.Reaches ctx then
      match w.surfaces ctx.renderTarget with
      | none => none
      | some sf => some (if o.decoded then .success else .errorDecodingError,
          (w.setSurface ctx.renderTarget
            { sf with context := c, decodeFailed := !o.decoded }).setContext c ctx.enqueue)
    else some (if ctx.decoder then .errorOperationFailed else .errorInvalidContext,
      w.setContext c { ctx with inPicture := false })

/-! ## `resolveSurfaces` -/

inductive MapOutcome where
  | failed
  | mapped (null : Bool)
  deriving DecidableEq

inductive ExportOutcome where
  | realiseFailed
  | copyFailed
  | copied
  deriving DecidableEq

/-- The results of the calls that a turn of the thread meets. -/
structure ResolveOutcome where
  pushed : Bool
  frame : MapOutcome
  exported : ExportOutcome

/-- The surface after it was resolved, or given up. -/
def NVSurface.resolved (sf : NVSurface) (failed : Bool) : NVSurface :=
  { sf with resolving := false, decodeFailed := sf.decodeFailed || failed }

/-- The context with the thread at `pc`. -/
def NVContext.goto (ctx : NVContext) (pc : ThreadPc) : NVContext := { ctx with thread := pc }

/-- `surfaceQueue[surfaceQueueReadIdx++]` -/
def NVContext.dequeue (ctx : NVContext) : NVContext :=
  { ctx with
    surfaceQueue := ctx.surfaceQueue.dequeue
    thread := .mapping ctx.surfaceQueue.front
    taken := ctx.taken ++ [ctx.surfaceQueue.front] }

/-- `exportCudaPtr` on the surface `s`: whether it says that it succeeded, and the surface. A NULL
frame is neither copied nor reported. -/
def exportCudaPtr (o : ExportOutcome) (null : Bool) (sf : NVSurface) : Bool × NVSurface :=
  match o with
  | .realiseFailed => (false, sf)
  | .copyFailed => if null then (true, sf) else (false, sf)
  | .copied => if null then (true, sf) else (true, sf.resolved false)

/-- A step of a thread that has no surface. -/
def awaitFrame (pushed : Bool) (ctx : NVContext) : NVContext :=
  match ctx.thread with
  | .start => ctx.goto (if pushed then .head else .exited)
  | .head => ctx.goto (if ctx.exiting then .out else .check)
  | .check => ctx.goto (if ctx.surfaceQueue.IsEmpty then .waiting else .take)
  | .waiting => ctx.goto .woken
  | .woken => ctx.goto (if ctx.exiting then .out else .check)
  | .take => ctx.dequeue
  | .out => { ctx with decoder := false, thread := .exited }
  | _ => ctx

/-- A step of a thread with a surface: where it goes, and the surface. -/
def resolveFrame (o : ResolveOutcome) (pc : ThreadPc) (sf : NVSurface) : ThreadPc × NVSurface :=
  match pc with
  | .mapping s =>
    if sf.decodeFailed then (.head, sf.resolved true)
    else match o.frame with
      | .failed => (.head, sf.resolved true)
      | .mapped null => (.exporting s null, sf)
  | .exporting s null =>
    let (exported, sf) := exportCudaPtr o.exported null sf
    (.unmapping s exported, sf)
  | .unmapping _ exported => (.head, if exported then sf else sf.resolved true)
  | pc => (pc, sf)

/-- A step of the resolve thread of the context at `c`. -/
def resolveStep (o : ResolveOutcome) (c : Addr) (w : World) : Option World := do
  let ctx ← w.contexts c
  match ctx.thread.surface with
  | none => return w.setContext c (awaitFrame o.pushed ctx)
  | some s =>
    let sf ← w.surfaces s
    let (pc, sf) := resolveFrame o ctx.thread sf
    return (w.setSurface s sf).setContext c (ctx.goto pc)

/-! ## The system -/

inductive DriverCall where
  | createSurface (s : Addr)
  | destroySurface (s : Addr)
  | createContext (c : Addr) (numRenderTargets : Int)
  | beginPicture (c s : Addr)
  | renderPicture (c : Addr)
  | endPicture (c : Addr) (o : EndOutcome)
  /-- `nvDestroyContext` up to the wait for the thread, or to its end without a CUDA context. -/
  | destroyContext (c : Addr) (pushed : Bool)
  /-- The rest of `nvDestroyContext`, after the thread was joined or five seconds passed. -/
  | deleteContext (c : Addr) (joined : Bool)
  | resolve (c : Addr) (o : ResolveOutcome)

def driverStep (w : World) : DriverCall → Option World
  | .createSurface s => if w.Unused s then some (w.setSurface s .init) else none
  | .destroySurface s => some (w.freeSurface s)
  | .createContext c n =>
    if w.Unused c then
      some { w.setContext c (.init w.nextGeneration n) with nextGeneration := w.nextGeneration + 1 }
    else none
  | .beginPicture c s => some (nvBeginPicture c s w).2
  | .renderPicture _ => some w
  | .endPicture c o => (nvEndPicture o c w).map Prod.snd
  | .destroyContext c pushed =>
    match w.contexts c with
    | none => some w
    | some ctx =>
      some (if pushed then w.setContext c { ctx with exiting := true } else w.freeContext c)
  | .deleteContext c joined =>
    match w.contexts c with
    | none => none
    | some ctx =>
      if ctx.exiting ∧ (joined → ctx.thread = .exited) then some (w.freeContext c) else none
  | .resolve c o => resolveStep o c w

/-- The calls of any clients and the steps of all resolve threads, in any order. -/
def driver : Lts World DriverCall where
  init w := w = .empty
  step := driverStep

namespace World

variable (w : World) (s c : Addr) (sf : NVSurface) (ctx : NVContext)

@[simp] theorem setSurface_contexts : (w.setSurface s sf).contexts = w.contexts := rfl

@[simp] theorem setContext_surfaces : (w.setContext c ctx).surfaces = w.surfaces := rfl

@[simp] theorem freeSurface_contexts : (w.freeSurface s).contexts = w.contexts := rfl

@[simp] theorem setContext_contexts (c' : Addr) :
    (w.setContext c ctx).contexts c' = if c' = c then some ctx else w.contexts c' := by
  by_cases h : c' = c <;> simp [setContext, h]

@[simp] theorem setSurface_surfaces (s' : Addr) :
    (w.setSurface s sf).surfaces s' = if s' = s then some sf else w.surfaces s' := by
  by_cases h : s' = s <;> simp [setSurface, h]

@[simp] theorem freeContext_contexts (c' : Addr) :
    (w.freeContext c).contexts c' = if c' = c then none else w.contexts c' := by
  by_cases h : c' = c <;> simp [freeContext, h]

@[simp] theorem freeSurface_surfaces (s' : Addr) :
    (w.freeSurface s).surfaces s' = if s' = s then none else w.surfaces s' := by
  by_cases h : s' = s <;> simp [freeSurface, h]

/-- A context after an update is the new one, or it is as before. -/
theorem contexts_setContext_cases {w : World} {c c' : Addr} {ctx ctx' : NVContext}
    (h : (w.setContext c ctx).contexts c' = some ctx') :
    (c' = c ∧ ctx' = ctx) ∨ (c' ≠ c ∧ w.contexts c' = some ctx') := by
  by_cases hc : c' = c
  · exact .inl ⟨hc, by simpa [hc] using h.symm⟩
  · exact .inr ⟨hc, by simpa [hc] using h⟩

/-- A context that is left is another one than the freed one. -/
theorem contexts_freeContext {w : World} {c c' : Addr} {ctx : NVContext}
    (h : (w.freeContext c).contexts c' = some ctx) : c' ≠ c ∧ w.contexts c' = some ctx := by
  by_cases hc : c' = c
  · simp [hc] at h
  · exact ⟨hc, by simpa [hc] using h⟩

theorem surfaces_setSurface_cases {w : World} {s s' : Addr} {sf sf' : NVSurface}
    (h : (w.setSurface s sf).surfaces s' = some sf') :
    (s' = s ∧ sf' = sf) ∨ (s' ≠ s ∧ w.surfaces s' = some sf') := by
  by_cases hs : s' = s
  · exact .inl ⟨hs, by simpa [hs] using h.symm⟩
  · exact .inr ⟨hs, by simpa [hs] using h⟩

end World

/-! ## The steps, case by case -/

section Cases

variable {w w' : World} {c s : Addr}

theorem exists_beginPicture (h : driverStep w (.beginPicture c s) = some w') :
    ∃ st, nvBeginPicture c s w = (st, w') := by
  cases h
  exact ⟨_, rfl⟩

theorem exists_endPicture {o : EndOutcome} (h : driverStep w (.endPicture c o) = some w') :
    ∃ st, nvEndPicture o c w = some (st, w') := by
  obtain ⟨⟨st, w₁⟩, hst, rfl⟩ := Option.map_eq_some_iff.mp h
  exact ⟨st, hst⟩

/-- A surface keeps its index, or it gets the next one of the context. -/
theorem assignIndex_cases {ctx ctx' : NVContext} {sf sf' : NVSurface}
    (h : assignIndex ctx sf = some (ctx', sf')) :
    (sf.pictureIdx ≠ -1 ∧ ctx' = ctx ∧ sf' = sf) ∨
      (sf.pictureIdx = -1 ∧ ctx.currentPictureId ≠ ctx.surfaceCount ∧
        ctx' = { ctx with currentPictureId := ctx.currentPictureId + 1 } ∧
        sf' = { sf with pictureIdx := ctx.currentPictureId }) := by
  unfold assignIndex at h
  split at h
  · next hi =>
    split at h
    · cases h
    · next hc =>
      cases h
      exact .inr ⟨hi, hc, rfl, rfl⟩
  · next hi =>
    cases h
    exact .inl ⟨hi, rfl, rfl⟩

/-- `nvBeginPicture` fails without a change, or it fails after it dropped the surface's index, or it
succeeds. -/
theorem nvBeginPicture_cases {st : VAStatus} (h : nvBeginPicture c s w = (st, w')) :
    (st ≠ .success ∧ w' = w) ∨ ∃ ctx sf, w.contexts c = some ctx ∧ w.surfaces s = some sf ∧
      ((st ≠ .success ∧ assignIndex ctx (resetIndex c sf) = none ∧
          w' = w.setSurface s (resetIndex c sf)) ∨
        ∃ ctx' sf', st = .success ∧ assignIndex ctx (resetIndex c sf) = some (ctx', sf') ∧
          w' = (w.setSurface s (sf'.rendering ctx'.generation)).setContext c
            (ctx'.rendering s sf'.pictureIdx)) := by
  unfold nvBeginPicture at h
  split at h
  · cases h
    exact .inl ⟨by decide, rfl⟩
  · cases h
    exact .inl ⟨by decide, rfl⟩
  · next ctx sf hc hs =>
    refine .inr ⟨ctx, sf, hc, hs, ?_⟩
    split at h
    · next ha =>
      cases h
      exact .inl ⟨by decide, ha, rfl⟩
    · next ctx' sf' ha =>
      cases h
      exact .inr ⟨ctx', sf', rfl, ha, rfl⟩

/-- `nvEndPicture` finds no context, or it returns early, or it puts the render target into the
queue. -/
theorem nvEndPicture_cases {st : VAStatus} {o : EndOutcome}
    (h : nvEndPicture o c w = some (st, w')) :
    (w.contexts c = none ∧ w' = w) ∨ ∃ ctx, w.contexts c = some ctx ∧
      ((¬o.Reaches ctx ∧ w' = w.setContext c { ctx with inPicture := false }) ∨
        ∃ sf, o.Reaches ctx ∧ w.surfaces ctx.renderTarget = some sf ∧
          w' = (w.setSurface ctx.renderTarget
            { sf with context := c, decodeFailed := !o.decoded }).setContext c ctx.enqueue) := by
  unfold nvEndPicture at h
  split at h
  · next hc =>
    cases h
    exact .inl ⟨hc, rfl⟩
  · next ctx hc =>
    refine .inr ⟨ctx, hc, ?_⟩
    split at h
    · next hr =>
      split at h
      · cases h
      · next sf hs =>
        cases h
        exact .inr ⟨sf, hr, hs, rfl⟩
    · next hr =>
      cases h
      exact .inl ⟨hr, rfl⟩

/-- A thread steps with its surface or without one. -/
theorem resolveStep_cases {o : ResolveOutcome} (h : resolveStep o c w = some w') :
    ∃ ctx, w.contexts c = some ctx ∧
      ((ctx.thread.surface = none ∧ w' = w.setContext c (awaitFrame o.pushed ctx)) ∨
        ∃ s sf, ctx.thread.surface = some s ∧ w.surfaces s = some sf ∧
          w' = (w.setSurface s (resolveFrame o ctx.thread sf).2).setContext c
            (ctx.goto (resolveFrame o ctx.thread sf).1)) := by
  obtain ⟨ctx, hc, h⟩ := Option.bind_eq_some_iff.mp h
  refine ⟨ctx, hc, ?_⟩
  split at h
  · next hp =>
    cases h
    exact .inl ⟨hp, rfl⟩
  · next s hp =>
    obtain ⟨sf, hs, h⟩ := Option.bind_eq_some_iff.mp h
    cases h
    exact .inr ⟨s, sf, hp, hs, rfl⟩

end Cases

end NvVaapi
