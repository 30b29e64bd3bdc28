import NvVaapi.Objects.Cleanup

/-!
# The stack of CUDA contexts

* `Entrypoint`: any call, or the end of the driver.
* `Entrypoint.SkipsPop`: the exits that leave the pushed context on the stack.
* `Entrypoint.stackAfter`: the stack when an entrypoint returns, while each `cuCtxPopCurrent`
  succeeds.
-/

namespace NvVaapi.Objects

inductive Entrypoint where
  | call (c : ApiCall)
  | terminate (r : TerminateResults)

namespace Entrypoint

def entry : Entrypoint → Entry
  | .call c => c.entry
  | .terminate r => nvTerminate r

/-- The entrypoint calls `cuCtxPushCurrent`. -/
def PushesContext : Entrypoint → Bool
  | .call c =>
    match c with
    | .createSurfaces .. | .createContext .. | .destroyContext .. | .endPicture .. | .getImage ..
    | .querySurfaceAttributes .. | .exportSurfaceHandle .. => true
    | _ => false
  | .terminate _ => true

/-- No `cuCtxPopCurrent` fails. -/
def PopsSucceed : Entrypoint → Prop
  | .call c =>
    match c with
    | .createSurfaces _ _ _ _ _ popped => popped
    | .createContext _ _ _ _ r => r.popped
    | .destroyContext _ r => r.popped
    | .endPicture _ r => r.popped
    | .getImage _ _ _ _ r => r.popped
    | .querySurfaceAttributes _ _ _ r => r.popped
    | .exportSurfaceHandle _ _ _ r => r.popped
    | _ => True
  | .terminate r => r.popped ∧ ∀ i, (r.contexts i).popped

/-- The decoder of a new context is not created. -/
def FailsDecoder (w : World) (config : VAGenericID) (renderTargets : List VAGenericID)
    (r : ContextResults) : Prop :=
  ((w.getConfig config).any fun c => !c.2.isEncode && (vaToCuCodec c.2.profile).isSome) ∧
    (renderTargets.head?.all fun id => (w.getSurface id).isSome) ∧ r.pushed ∧ !r.createDecoder

/-- A plane of a surface that was last used for decoding is not copied. -/
def FailsCopy (w : World) (surface image : VAGenericID) (r : GetResults) : Prop :=
  ((w.getSurface surface).any fun s =>
      s.2.context ≠ 0 && (w.contextAt s.2.context).any fun ctx => ctx.mode = .decode) ∧
    r.pushed ∧ ((w.getImage image).any fun c => (List.range c.2.format.planes.length).any fun i =>
      !r.memcpy2D i)

/-- A surface gets no backing image. -/
def FailsRealise (w : World) (surface : VAGenericID) (memType flags : Bool)
    (r : ExportResults) : Prop :=
  memType ∧ flags ∧ (w.getSurface surface).isSome ∧ r.pushed ∧ !r.realiseSurface

/-- The entrypoint returns an error between `cuCtxPushCurrent` and `cuCtxPopCurrent`. -/
def SkipsPop (w : World) : Entrypoint → Prop
  | .call c =>
    match c with
    | .createContext config _ _ renderTargets r => FailsDecoder w config renderTargets r
    | .getImage surface _ _ image r => FailsCopy w surface image r
    | .exportSurfaceHandle surface memType flags r => FailsRealise w surface memType flags r
    | _ => False
  | .terminate _ => False

/-- `cuCtxDestroy` destroys the context that is current to the thread. -/
def DestroysCurrent (w : World) : Entrypoint → Prop
  | .call _ => False
  | .terminate r => r.pushed ∧ r.destroyed ∧ w.cudaStack.head? = some w.cudaContext

instance (w : World) (config : VAGenericID) (renderTargets : List VAGenericID)
    (r : ContextResults) : Decidable (FailsDecoder w config renderTargets r) :=
  inferInstanceAs (Decidable (_ ∧ _))

instance (w : World) (surface image : VAGenericID) (r : GetResults) :
    Decidable (FailsCopy w surface image r) :=
  inferInstanceAs (Decidable (_ ∧ _))

instance (w : World) (surface : VAGenericID) (memType flags : Bool) (r : ExportResults) :
    Decidable (FailsRealise w surface memType flags r) :=
  inferInstanceAs (Decidable (_ ∧ _))

instance (w : World) (e : Entrypoint) : Decidable (e.SkipsPop w) :=
  match e with
  | .call c =>
    match c with
    | .createContext config _ _ renderTargets r =>
      inferInstanceAs (Decidable (FailsDecoder w config renderTargets r))
    | .getImage surface _ _ image r => inferInstanceAs (Decidable (FailsCopy w surface image r))
    | .exportSurfaceHandle surface memType flags r =>
      inferInstanceAs (Decidable (FailsRealise w surface memType flags r))
    | .createConfig .. | .destroyConfig .. | .createSurfaces .. | .destroySurfaces ..
    | .destroyContext .. | .createBuffer .. | .bufferSetNumElements .. | .mapBuffer ..
    | .unmapBuffer .. | .destroyBuffer .. | .beginPicture .. | .renderPicture .. | .endPicture ..
    | .syncSurface .. | .createImage .. | .deriveImage .. | .destroyImage .. | .putImage ..
    | .lockSurface .. | .querySurfaceAttributes .. | .resolve .. => .isFalse id
  | .terminate _ => .isFalse id

instance (w : World) (e : Entrypoint) : Decidable (e.DestroysCurrent w) :=
  match e with
  | .call _ => .isFalse id
  | .terminate _ => inferInstanceAs (Decidable (_ ∧ _ ∧ _))

end Entrypoint

/-! ## The entrypoints that pop what they push -/

section Balanced

variable {w : World}

theorem createSurface_stack (sf : NVSurface) (a : SurfaceAlloc) {st : List CUcontext}
    (h : w.cudaStack.tail = st) :
    (createSurface sf true a).Ensures w (fun _ w' => w'.cudaStack = w.cudaStack) fun _ w' =>
      w'.cudaStack = st := by
  simp only [createSurface, Prog.ensures_bind, ensures_allocateObject,
    ensures_ensureSurfaceHostBuffer]
  intro _ sf' _
  refine ⟨fun _ => ?_, fun _ => ⟨fun _ => ?_, fun p _ _ => ?_⟩⟩
  · simp
  · simp [h]
  · simp [World.modifySurface]

theorem nvCreateSurfaces2_stack (format width height : UInt32) (allocs : List SurfaceAlloc)
    (pushed : Bool) :
    (nvCreateSurfaces2 format width height allocs pushed true).Returns w fun _ w' =>
      w'.cudaStack = w.cudaStack := by
  unfold Prog.Returns nvCreateSurfaces2
  split
  · exact Eq.refl w.cudaStack
  · simp only [Prog.ensures_bind, ensures_pushContext]
    refine ⟨fun _ => trivial, fun _ => ?_⟩
    refine (Prog.Ensures.forEach (I := fun w' =>
      w'.cudaStack = w.cudaContext :: w.cudaStack) rfl ?_).mono ?_ fun _ _ h => h
    · intro a _ w' hw'
      refine (createSurface_stack _ a (by rw [hw']; rfl)).mono (fun _ _ h => h.trans hw')
        fun _ _ h => h
    · intro _ w' hw'
      simp [hw']

theorem failContext_stack (r : ContextResults) (hp : r.popped) (id : VAGenericID)
    (status : NvencStatus) {st : List CUcontext} (h : w.cudaStack.tail = st)
    {Q : Unit → World → Prop} :
    (failContext r id status).Ensures w Q fun _ w' => w'.cudaStack = st := by
  simp [hp, World.endSession, World.modifyContext, h]

theorem createIoBuffers_stack (r : ContextResults) (hp : r.popped) (id : VAGenericID) (i : Nat)
    {st : List CUcontext} (h : w.cudaStack.tail = st) :
    (createIoBuffers r id i).Ensures w (fun _ w' => w'.cudaStack = w.cudaStack) fun _ w' =>
      w'.cudaStack = st := by
  simp [createIoBuffers, hp, World.endSession, World.modifyContext, h]

theorem createEncodeContext_stack (cfg : NVConfig) (width height : Int32) (r : ContextResults)
    (hp : r.popped) :
    (createEncodeContext cfg width height r).Returns w fun _ w' => w'.cudaStack = w.cudaStack := by
  unfold Prog.Returns createEncodeContext
  simp only [Prog.ensures_bind, Prog.ensures_read, Prog.ensures_ite, Prog.ensures_leave,
    ensures_allocateObject]
  refine ⟨fun _ => trivial, fun _ => ⟨fun _ => trivial, fun _ _ => ?_⟩⟩
  split
  · simp
  · simp only [Prog.ensures_bind, Prog.ensures_ite, Prog.ensures_update, ensures_pushContext]
    refine ⟨fun _ => rfl, fun _ => ⟨fun _ => failContext_stack r hp _ _ rfl, fun _ =>
      ⟨fun _ => failContext_stack r hp _ _ rfl,
        fun _ => ⟨fun _ => failContext_stack r hp _ _ rfl, fun _ => ?_⟩⟩⟩⟩
    refine (Prog.Ensures.forEach (I := fun w' =>
      w'.cudaStack = w.cudaContext :: w.cudaStack) rfl ?_).mono ?_ fun _ _ h => h
    · intro i _ w' hw'
      refine (createIoBuffers_stack r hp _ i (by rw [hw']; rfl)).mono (fun _ _ h => h.trans hw')
        fun _ _ h => h
    · intro _ w' hw'
      simp [hp, hw']

theorem nvDestroyContext_stack (context : VAGenericID) (r : DestroyResults) (hp : r.popped) :
    (nvDestroyContext context r).Returns w fun _ w' => w'.cudaStack = w.cudaStack := by
  unfold Prog.Returns nvDestroyContext
  rw [Prog.ensures_bind, Prog.ensures_read]
  split
  · exact Eq.refl w.cudaStack
  · simp [destroyContext, hp, World.modifyContext]

theorem endEncode_stack (ca : Addr) (ctx : NVContext) (r : EndResults) (hp : r.popped) :
    (endEncode ca ctx r).Returns w fun _ w' => w'.cudaStack = w.cudaStack := by
  unfold Prog.Returns endEncode
  rw [Prog.ensures_bind, Prog.ensures_read]
  split
  · simp
  · -- the pushes and pops along the function, then its conditions
    simp only [Prog.ensures_ite, Prog.ensures_bind, Prog.ensures_leave, Prog.ensures_pure,
      Prog.ensures_update,
      ensures_pushContext, ensures_popContext, ensures_failEncode, ensures_waitUnlocked,
        World.modifyContext,
      World.modify_cudaStack, World.push_cudaStack, World.pop_cudaStack, List.tail_cons, if_pos hp]
    simp [hp]

theorem nvEndPicture_stack (context : VAGenericID) (r : EndResults) (hp : r.popped) :
    (nvEndPicture context r).Returns w fun _ w' => w'.cudaStack = w.cudaStack := by
  unfold Prog.Returns nvEndPicture
  rw [Prog.ensures_bind, Prog.ensures_read]
  split
  · exact Eq.refl w.cudaStack
  · split
    · exact endEncode_stack _ _ r hp
    · simp [endDecode, hp, World.modifyContext, World.modifySurface]

theorem nvQuerySurfaceAttributes_stack (config : VAGenericID) (numAttribs attribList : Bool)
    (r : QueryResults) (hp : r.popped) :
    (nvQuerySurfaceAttributes config numAttribs attribList r).Returns w fun _ w' =>
      w'.cudaStack = w.cudaStack := by
  unfold Prog.Returns nvQuerySurfaceAttributes
  rw [Prog.ensures_bind, Prog.ensures_read]
  split
  · exact Eq.refl w.cudaStack
  · simp [hp]

end Balanced

/-! ## The entrypoints that may not -/

/-- The pushed context stays on the stack exactly if `c`. -/
def World.PushesIf (w : World) (c : Prop) (w' : World) : Prop :=
  (c → w'.cudaStack = w.cudaContext :: w.cudaStack) ∧ (¬c → w'.cudaStack = w.cudaStack)

section Skips

variable {w w' : World} {c : Prop}

theorem World.PushesIf.of_not (h : w'.cudaStack = w.cudaStack) (hc : ¬c) : w.PushesIf c w' :=
  ⟨fun h => absurd h hc, fun _ => h⟩

theorem World.PushesIf.of (h : w'.cudaStack = w.cudaContext :: w.cudaStack) (hc : c) :
    w.PushesIf c w' :=
  ⟨fun _ => h, fun h => absurd hc h⟩

theorem createDecodeContext_stack (cfgAddr : Addr) (cfg : NVConfig)
    (renderTargets : List VAGenericID) (r : ContextResults) (hp : r.popped) :
    (createDecodeContext cfgAddr cfg renderTargets r).Returns w fun _ =>
      w.PushesIf ((vaToCuCodec cfg.profile).isSome ∧
        (renderTargets.head?.all fun id => (w.getSurface id).isSome) ∧ r.pushed ∧
        !r.createDecoder) := by
  unfold Prog.Returns createDecodeContext
  split
  · rename_i hc
    exact .of_not rfl (by simp [hc])
  · rename_i codec hc
    have ht : (useRenderTarget cfgAddr renderTargets).Ensures w
        (fun _ w' => (renderTargets.head?.all fun id => (w.getSurface id).isSome) ∧
          w'.cudaContext = w.cudaContext ∧ w'.cudaStack = w.cudaStack)
        fun _ w' => ¬(renderTargets.head?.all fun id => (w.getSurface id).isSome) ∧
          w'.cudaStack = w.cudaStack := by
      unfold useRenderTarget
      cases renderTargets with
      | nil => simp
      | cons id _ => cases hs : w.getSurface id <;> simp [hs, World.modifyConfig]
    rw [Prog.ensures_bind]
    refine ht.mono (fun _ w' ⟨hr, hw, hst⟩ => ?_) fun _ w' ⟨hr, hst⟩ =>
      .of_not hst fun h => hr h.2.1
    cases r.pushed <;> cases r.createDecoder <;> simp [World.PushesIf, hc, hr, hw, hst, hp]

theorem nvCreateContext_stack (config : VAGenericID) (width height : Int32)
    (renderTargets : List VAGenericID) (r : ContextResults) (hp : r.popped) :
    (nvCreateContext config width height renderTargets r).Returns w fun _ =>
      w.PushesIf (Entrypoint.FailsDecoder w config renderTargets r) := by
  unfold Prog.Returns nvCreateContext Entrypoint.FailsDecoder
  rw [Prog.ensures_bind, Prog.ensures_read]
  cases w.getConfig config with
  | none => exact .of_not rfl (by simp)
  | some c =>
    obtain ⟨cfgAddr, cfg⟩ := c
    rw [Prog.ensures_ite]
    refine ⟨fun he => ?_, fun he => ?_⟩
    · apply Prog.Returns.mono (createEncodeContext_stack cfg width height r hp)
      exact fun _ w' h => .of_not h (by simp [he])
    · simpa [he, Prog.Returns] using createDecodeContext_stack cfgAddr cfg renderTargets r hp

theorem forEach_copy_same (r : GetResults) (img : NVImage) (is : List Nat) :
    (Prog.forEach is fun i => do
      let w ← Prog.read
      let _ ← Prog.need (w.bufferAt img.imageBuffer)
      if !r.memcpy2D i then
        Prog.leave VAStatus.errorDecodingError).Ensures w
      (fun _ w' => w' = w ∧ ¬is.any fun i => !r.memcpy2D i) fun _ w' => w' = w ∧ is.any fun i =>
        !r.memcpy2D i := by
  induction is with
  | nil => simp
  | cons i is ih =>
    simp only [Prog.ensures_forEach_cons, Prog.ensures_bind, Prog.ensures_read, Prog.ensures_need,
      Prog.ensures_ite, Prog.ensures_leave, Prog.ensures_pure]
    refine fun _ _ =>
      ⟨fun h => ⟨trivial, by simp [h]⟩, fun h => ih.mono (fun _ w' hw => ?_) fun _ w' hw => ?_⟩
    · simp_all
    · simp_all

theorem nvSyncSurface_same (surface : VAGenericID) :
    (nvSyncSurface surface).Returns w fun _ w' => w' = w := by
  unfold Prog.Returns nvSyncSurface
  rw [Prog.ensures_bind, Prog.ensures_read]
  split <;> simp

theorem getImageHost_same (sa : Addr) (sf : NVSurface) (img : NVImage) (x y : Int32) :
    (getImageHost sa sf img x y).Returns w fun _ w' => w' = w := by
  simp [Prog.Returns, getImageHost]

theorem getImageDevice_stack (surface : VAGenericID) (img : NVImage) (r : GetResults)
    (hp : r.popped) :
    (getImageDevice surface img r).Returns w fun _ =>
      w.PushesIf (r.pushed ∧ (List.range img.format.planes.length).any fun i => !r.memcpy2D i) := by
  unfold Prog.Returns getImageDevice
  rw [Prog.ensures_bind, Prog.ensures_call]
  refine Prog.Returns.mono (nvSyncSurface_same surface) ?_
  rintro _ _ rfl
  simp only [Prog.ensures_bind, ensures_pushContext]
  refine ⟨fun h => .of_not rfl (by simp [h]), fun h => (forEach_copy_same r img _).mono ?_ ?_⟩
  · rintro _ _ ⟨rfl, hc⟩
    simp only [ensures_popContext, hp]
    exact ⟨fun hp => absurd hp (by simp), fun _ => .of_not rfl fun h => hc h.2⟩
  · rintro _ _ ⟨rfl, hc⟩
    exact .of rfl ⟨h, hc⟩

theorem nvGetImage_stack (surface : VAGenericID) (x y : Int32) (image : VAGenericID)
    (r : GetResults) (hp : r.popped) :
    (nvGetImage surface x y image r).Returns w fun _ =>
      w.PushesIf (Entrypoint.FailsCopy w surface image r) := by
  unfold Prog.Returns nvGetImage Entrypoint.FailsCopy
  rw [Prog.ensures_bind, Prog.ensures_read]
  cases w.getSurface surface with
  | none => exact .of_not rfl (by simp)
  | some s =>
    obtain ⟨sa, sf⟩ := s
    cases w.getImage image with
    | none => exact .of_not rfl (by simp)
    | some c =>
      obtain ⟨ia, img⟩ := c
      have hh {c : Prop} (hc : ¬c) : (getImageHost sa sf img x y).Returns w fun _ => w.PushesIf c :=
        (getImageHost_same sa sf img x y).mono fun _ w' hw => .of_not (by rw [hw]) hc
      simp only [Prog.ensures_ite, Prog.ensures_bind, Prog.ensures_need]
      refine ⟨fun h0 => hh (by simp [h0]),
        fun h0 ctx hctx => ⟨fun hm => hh (by simp [hctx, hm]), fun hm => ?_⟩⟩
      have hm : ctx.mode = .decode := by
        cases h : ctx.mode
        · rfl
        · exact absurd h hm
      simpa [h0, hctx, hm, Prog.Returns] using getImageDevice_stack surface img r hp

theorem nvExportSurfaceHandle_stack (surface : VAGenericID) (memType flags : Bool)
    (r : ExportResults) (hp : r.popped) :
    (nvExportSurfaceHandle surface memType flags r).Returns w fun _ =>
      w.PushesIf (Entrypoint.FailsRealise w surface memType flags r) := by
  unfold Prog.Returns nvExportSurfaceHandle Entrypoint.FailsRealise
  simp only [Prog.ensures_bind, Prog.ensures_ite, Prog.ensures_leave, Prog.ensures_read]
  refine ⟨fun h => .of_not rfl (by simp_all),
    fun hm => ⟨fun h => .of_not rfl (by simp_all), fun hf => ?_⟩⟩
  cases w.getSurface surface with
  | none => exact .of_not rfl (by simp)
  | some s =>
    cases r.pushed <;> cases r.realiseSurface <;> simp_all [World.PushesIf]

end Skips

/-! ## The end of the driver -/

section Terminate

variable {w : World}

/-- The thread's CUDA contexts are `st`. -/
def World.Stacked (c : CUcontext) (st : List CUcontext) (w : World) : Prop :=
  w.cudaContext = c ∧ w.cudaStack = st

theorem releaseObject_stacked (o : Object Cell) (r : DestroyResults) (hp : r.popped) {c : CUcontext}
    {st : List CUcontext} : (releaseObject o r).Keeps (World.Stacked c st) := by
  rintro w ⟨rfl, rfl⟩
  unfold releaseObject
  split
  · simp [destroyContext, hp, World.modifyContext, World.Stacked]
  · simp [World.Stacked]
  · simp [World.modifySurface, World.Stacked]
  · exact ⟨rfl, rfl⟩

theorem deleteAllFrom_stacked (r : Nat → DestroyResults) (hp : ∀ i, (r i).popped) {c : CUcontext}
    {st : List CUcontext} (fuel idx : Nat) :
    (deleteAllFrom r fuel idx).Keeps (World.Stacked c st) := by
  induction fuel generalizing idx with
  | zero => exact .need _
  | succ fuel ih =>
    refine .bind .read fun w => ?_
    split
    · exact .pure _
    · exact .bind (releaseObject_stacked _ _ (hp idx)) fun _ => .bind (fun _ h => h) fun _ => ih _

theorem nvTerminate_stack (r : TerminateResults) (hp : r.popped) (hc : ∀ i, (r.contexts i).popped) :
    (nvTerminate r).Returns w fun _ w' =>
      w'.cudaStack =
        if (Entrypoint.terminate r).DestroysCurrent w then w.cudaStack.tail else w.cudaStack := by
  unfold Prog.Returns nvTerminate Entrypoint.DestroysCurrent
  simp only [Prog.ensures_bind, ensures_pushContext]
  refine ⟨fun h => by simp [h], fun h => ?_⟩
  have hd :
      (deleteAllObjects r.contexts).Keeps
        (World.Stacked w.cudaContext (w.cudaContext :: w.cudaStack)) :=
    .bind .read fun _ => deleteAllFrom_stacked _ hc _ _
  have hall : (deleteAllObjects r.contexts).Ensures w.push
      (fun _ => World.Stacked w.cudaContext (w.cudaContext :: w.cudaStack)) fun _ _ => False := by
    obtain ⟨w', hw'⟩ := deleteAllObjects_goes r.contexts w.push
    have h' := hd w.push ⟨rfl, rfl⟩
    unfold Prog.Ensures at *
    simpa only [hw'] using h'
  refine hall.mono ?_ fun _ _ h => h.elim
  rintro _ w' ⟨hctx, hst⟩
  simp only [ensures_popContext, Prog.ensures_ite, Prog.ensures_bind,
    Prog.ensures_leave, cuCtxDestroy, Prog.ensures_update, Prog.ensures_pure]
  refine ⟨fun h => absurd hp (by simp [h]), fun _ => ⟨fun h' => ?_, fun h' => ?_⟩⟩
  · simp_all
  · simp_all

end Terminate

/-! ## All entrypoints -/

theorem entry_stack {w : World} (e : Entrypoint) (hpush : e.PushesContext) (hp : e.PopsSucceed) :
    e.entry.Returns w fun _ w' => (e.SkipsPop w → w'.cudaStack = w.cudaContext :: w.cudaStack) ∧
      (¬e.SkipsPop w → w'.cudaStack =
        if e.DestroysCurrent w then w.cudaStack.tail else w.cudaStack) := by
  have hsame {f : Entry} (hs : ¬e.SkipsPop w) (hd : ¬e.DestroysCurrent w)
      (h : f.Returns w fun _ w' => w'.cudaStack = w.cudaStack) :
      f.Returns w fun _ w' => (e.SkipsPop w → w'.cudaStack = w.cudaContext :: w.cudaStack) ∧
        (¬e.SkipsPop w → w'.cudaStack =
          if e.DestroysCurrent w then w.cudaStack.tail else w.cudaStack) :=
    h.mono fun _ w' h => ⟨fun h' => absurd h' hs, fun _ => by rw [if_neg hd]; exact h⟩
  cases e with
  | terminate r =>
    exact (nvTerminate_stack r hp.1 hp.2).mono fun _ w' h => ⟨False.elim, fun _ => h⟩
  | call c =>
    cases c with
    | createSurfaces format width height allocs pushed popped =>
      obtain rfl : popped = true := hp
      exact hsame id id (nvCreateSurfaces2_stack _ _ _ _ _)
    | createContext config width height renderTargets r => exact nvCreateContext_stack _ _ _ _ r hp
    | destroyContext context r => exact hsame id id (nvDestroyContext_stack _ r hp)
    | endPicture context r => exact hsame id id (nvEndPicture_stack _ r hp)
    | getImage surface x y image r => exact nvGetImage_stack _ _ _ _ r hp
    | querySurfaceAttributes config numAttribs attribList r =>
      exact hsame id id (nvQuerySurfaceAttributes_stack _ _ _ r hp)
    | exportSurfaceHandle surface memType flags r => exact nvExportSurfaceHandle_stack _ _ _ r hp
    | _ => cases hpush

/-- A context without a decoder leaves the pushed CUDA context behind. -/
example :
    ∃ w w', objectSystem.run (.init plainInfo 0 [7]) [.createConfig .h264High .vld [] 1] = some w ∧
    (nvCreateContext 1 16 16 [] { ContextResults.ok 2 with createDecoder := false }).eval w =
      some (.errorAllocationFailed, w') ∧ w'.cudaStack = [0, 7] :=
  ⟨_, _, rfl, rfl, rfl⟩

/-- The stack is the same when an entrypoint returns, unless its context is destroyed. -/
theorem cudaStack_balanced {e : Entrypoint} {w w' : World} {status : VAStatus}
    (hpush : e.PushesContext) (hp : e.PopsSucceed) (hs : ¬e.SkipsPop w)
    (h : e.entry.eval w = some (status, w')) :
    w'.cudaStack = if e.DestroysCurrent w then w.cudaStack.tail else w.cudaStack :=
  ((entry_stack e hpush hp).eval h).2 hs

/-- A client with the context 7, that creates a surface. -/
theorem cudaStack_balanced_surface : ∃ w' : World,
    (Entrypoint.call (.createSurfaces rtFormatYuv420 16 16 [⟨1, some 2⟩] true true)).entry.eval
      (.init plainInfo 0 [7]) = some (.success, w') ∧ w'.cudaStack = [7] := by
  let e : Entrypoint := .call (.createSurfaces rtFormatYuv420 16 16 [⟨1, some 2⟩] true true)
  obtain ⟨w', h⟩ : ∃ w', e.entry.eval (.init plainInfo 0 [7]) = some (.success, w') := ⟨_, rfl⟩
  have hp : e.PopsSucceed := rfl
  exact ⟨w', h, (cudaStack_balanced rfl hp id h).trans (if_neg id)⟩

/-- The end of the driver takes its own CUDA context away. -/
theorem cudaStack_unbalanced :
    ∃ (w w' : World) (e : Entrypoint), objectSystem.Reach w ∧ e.PushesContext ∧
    e.PopsSucceed ∧ e.entry.eval w = some (.success, w') ∧
    w'.cudaStack.length + 1 = w.cudaStack.length :=
  ⟨.init plainInfo 0 [0], _, .terminate ⟨true, true, true, fun _ => ⟨true, true⟩⟩,
    init_reach _ _ _, rfl, ⟨rfl, fun _ => rfl⟩, rfl, rfl⟩

end NvVaapi.Objects
