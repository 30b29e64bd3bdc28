import NvVaapi.Objects.Steps

/-!
# Invariants that most calls leave alone

* `World.Stable I`: what the calls that destroy nothing, and make no object refer to another one,
  need to keep `I`.
* `Stable.entry`: these calls keep it.
-/

namespace NvVaapi.Objects

/-- A buffer at `a` is an image's. -/
def World.ImageAt (w : World) (a : Addr) : Prop :=
  ∀ o ∈ w.objects, ∀ buf, o.obj = ⟨a, .buffer buf⟩ → buf.bufferType = .image

namespace World.ImageAt

variable {w : World} {a b : Addr}

theorem modify (h : w.ImageAt a) {g : Payload → Payload}
    (hg : ∀ p buf, g p = .buffer buf →
      ∃ buf', p = .buffer buf' ∧ buf.bufferType = buf'.bufferType) :
    (w.modify b g).ImageAt a := by
  intro o ho buf hobj
  obtain ⟨⟨t, id, a', p⟩, ho', rfl⟩ := mem_modify.mp ho
  by_cases e : a' = b
  · subst e
    obtain ⟨rfl, hp⟩ : a' = a ∧ g p = .buffer buf := by simpa using hobj
    obtain ⟨buf', rfl, hc⟩ := hg p buf hp
    exact hc.trans (h _ ho' buf' rfl)
  · exact h _ ho' buf (by simpa [e] using hobj)

theorem modifySurface (h : w.ImageAt a) (f : NVSurface → NVSurface) :
    (w.modifySurface b f).ImageAt a := by
  refine h.modify fun p buf hp => ?_
  cases p with
  | buffer buf' => exact ⟨buf', rfl, by rw [← Payload.buffer.inj hp]⟩
  | _ => cases hp

theorem modifyBuffer (h : w.ImageAt a) {f : NVBuffer → NVBuffer}
    (hf : ∀ buf, (f buf).bufferType = buf.bufferType) : (w.modifyBuffer b f).ImageAt a := by
  refine h.modify fun p buf hp => ?_
  cases p with
  | buffer buf' => exact ⟨buf', rfl, by rw [← Payload.buffer.inj hp, hf]⟩
  | _ => cases hp

end World.ImageAt

/-- The fields of a buffer that say what it refers to, and what it is. -/
def NVBuffer.SameData (buf buf' : NVBuffer) : Prop :=
  buf'.ptr = buf.ptr ∧ buf'.ownsPtr = buf.ownsPtr ∧ buf'.surfaceId = buf.surfaceId ∧
    buf'.codedData = buf.codedData ∧ buf'.bufferType = buf.bufferType

/-- The fields of a context that refer to other objects. -/
def NVContext.SameRefs (ctx ctx' : NVContext) : Prop :=
  ctx'.renderTarget = ctx.renderTarget ∧ ctx'.surfaceQueue = ctx.surfaceQueue ∧
    ctx'.lastSliceParams = ctx.lastSliceParams

/-- The elementary steps that make and destroy no reference keep `I`. -/
structure World.Stable (I : World → Prop) : Prop where
  objects {w w' : World} : I w → w'.objects = w.objects → I w'
  config {w : World} {a : Addr} (cfg : NVConfig) : I w → w.Fresh a → I (w.allocate a (.config cfg))
  surface {w : World} {a : Addr} {sf : NVSurface} : I w → w.Fresh a → sf.context = 0 →
    I (w.allocate a (.surface sf))
  hostBuffer {w : World} {a : Addr} {sf : NVSurface} (p : Addr) : I w → w.surfaceAt a = some sf →
    sf.hostData = 0 → I (w.modifySurface a fun sf => { sf with hostData := p })
  modifyConfig {w : World} {a : Addr} (f : NVConfig → NVConfig) : I w → I (w.modifyConfig a f)
  modifySurface {w : World} {a : Addr} {f : NVSurface → NVSurface} : I w →
    (∀ sf, (f sf).hostData = sf.hostData ∧ (f sf).context = sf.context) → I (w.modifySurface a f)
  modifyContext {w : World} {a : Addr} {f : NVContext → NVContext} : I w →
    (∀ ctx : NVContext, ctx.SameRefs (f ctx)) → I (w.modifyContext a f)
  modifyBuffer {w : World} {a : Addr} {f : NVBuffer → NVBuffer} : I w →
    (∀ buf : NVBuffer, buf.SameData (f buf)) → I (w.modifyBuffer a f)
  shadow {w : World} {a : Addr} (p : Addr) (n : Nat) : I w → w.ImageAt a →
    I (w.modifyBuffer a fun buf => { buf with ptr := p, size := n, ownsPtr := true })
  imageAt {w : World} {id : VAGenericID} {a : Addr} {buf : NVBuffer} : I w →
    w.getBuffer id = some (a, buf) → buf.bufferType = .image → w.ImageAt a

/-- A call that creates a configuration or surfaces, or that uses what there is. -/
def ApiCall.Neutral : ApiCall → Bool
  | .createConfig .. | .createSurfaces .. | .bufferSetNumElements .. | .mapBuffer ..
  | .unmapBuffer ..
  | .syncSurface .. | .getImage .. | .putImage .. | .lockSurface .. | .querySurfaceAttributes ..
  | .exportSurfaceHandle .. => true
  | _ => false

namespace World.Stable

variable {I : World → Prop} (hI : World.Stable I) {ε : Type}
include hI

/-! ## The shared steps -/

theorem pushContext_keeps (ok : Bool) (e : ε) : (pushContext ok e).Keeps I := by
  intro w h
  simpa using ⟨fun _ => h, fun _ => hI.objects h rfl⟩

theorem popContext_keeps (ok : Bool) (e : ε) : (popContext ok e).Keeps I := by
  intro w h
  simpa using ⟨fun _ => h, fun _ => hI.objects h rfl⟩

theorem popCurrent_keeps (ok : Bool) : (popCurrent ok : Prog World ε Unit).Keeps I := by
  intro w h
  cases ok
  · exact h
  · exact hI.objects h rfl

omit hI in
theorem waitUnlocked_keeps (a : Addr) : (waitUnlocked a : Prog World ε Unit).Keeps I := .wait _

theorem ensureSurfaceHostBuffer_keeps (a : Addr) (alloc : Option Addr) :
    (ensureSurfaceHostBuffer a alloc : Prog World ε Bool).Keeps I := by
  intro w h
  rw [ensures_ensureSurfaceHostBuffer]
  exact fun sf hs => ⟨fun _ => h, fun h0 => ⟨fun _ => h, fun p _ _ => hI.hostBuffer p h hs h0⟩⟩

theorem allocateConfig_keeps (cfg : NVConfig) (a : Addr) :
    (allocateObject (.config cfg) a : Prog World ε VAGenericID).Keeps I := by
  intro w h
  simpa using hI.config cfg h

theorem allocateSurface_keeps {sf : NVSurface} (hc : sf.context = 0) (a : Addr) :
    (allocateObject (.surface sf) a : Prog World ε VAGenericID).Keeps I := by
  intro w h
  simpa using fun ha => hI.surface h ha hc

theorem modifyContext_keeps {a : Addr} {f : NVContext → NVContext}
    (hf : ∀ ctx : NVContext, ctx.SameRefs (f ctx)) :
    (Prog.update fun w => w.modifyContext a f : Prog World ε Unit).Keeps I :=
  .update fun _ h => hI.modifyContext h hf

theorem modifySurface_keeps {a : Addr} {f : NVSurface → NVSurface}
    (hf : ∀ sf, (f sf).hostData = sf.hostData ∧ (f sf).context = sf.context) :
    (Prog.update fun w => w.modifySurface a f : Prog World ε Unit).Keeps I :=
  .update fun _ h => hI.modifySurface h hf

theorem modifyBuffer_keeps {a : Addr} {f : NVBuffer → NVBuffer}
    (hf : ∀ buf : NVBuffer, buf.SameData (f buf)) :
    (Prog.update fun w => w.modifyBuffer a f : Prog World ε Unit).Keeps I :=
  .update fun _ h => hI.modifyBuffer h hf

/-! ## Configurations and surfaces -/

theorem nvCreateConfig_keeps (profile : VAProfile) (entrypoint : VAEntrypoint)
    (attribs : List VAConfigAttrib) (addr : Addr) :
    (nvCreateConfig profile entrypoint attribs addr).Keeps I := by
  refine .bind .read fun w => .ite ?_ ?_
  · exact .exit (.leave _) <| .exit (.leave _) <|
      .bind (hI.allocateConfig_keeps _ _) fun _ => .pure _
  · split
    · exact .leave _
    · exact .exit (.leave _) <| .exit (.leave _) <|
        .bind (hI.allocateConfig_keeps _ _) fun _ => .pure _

theorem createSurface_keeps {sf : NVSurface} (hc : sf.context = 0) (popped : Bool)
    (a : SurfaceAlloc) : (createSurface sf popped a).Keeps I :=
  .bind (hI.allocateSurface_keeps hc _) fun _ =>
    .bind (hI.ensureSurfaceHostBuffer_keeps _ _) fun _ =>
    .ite (.bind (hI.popContext_keeps _ _) fun _ => .leave _) (.pure _)

theorem nvCreateSurfaces2_keeps (format width height : UInt32) (allocs : List SurfaceAlloc)
    (pushed popped : Bool) :
    (nvCreateSurfaces2 format width height allocs pushed popped).Keeps I := by
  unfold nvCreateSurfaces2
  split
  · exact .leave _
  · exact .bind (hI.pushContext_keeps _ _) fun _ =>
      .bind (.forEach fun a _ => hI.createSurface_keeps rfl _ a) fun _ =>
      .bind (hI.popContext_keeps _ _) fun _ => .pure _

/-! ## Encoding -/

theorem renderEncodeBuffer_keeps (ca : Addr) (b : VAGenericID × Option VAGenericID) :
    (renderEncodeBuffer ca b).Keeps I := by
  have hs (id : VAGenericID) :
      (Prog.update fun w => w.modifyContext ca fun ctx =>
        { ctx with encCodedBufId := id, encHasCodedBuf := true } :
        Prog World VAStatus Unit).Keeps I :=
    hI.modifyContext_keeps fun _ => ⟨rfl, rfl, rfl⟩
  refine .bind .read fun w => ?_
  split
  · exact .pure _
  · refine .ite (hs _) (.ite ?_ (.pure _))
    split
    · exact .pure _
    · exact .ite (hs _) (.pure _)

theorem endEncode_keeps (ca : Addr) (ctx : NVContext) (r : EndResults) :
    (endEncode ca ctx r).Keeps I := by
  have hf (status : NvencStatus) : (failEncode r status).Keeps I :=
    .bind (hI.popCurrent_keeps _) fun _ => .leave _
  refine .bind .read fun w => .ite (.left _ _) <| .ite (.left _ _) ?_
  split
  · exact .leave _
  · refine .ite (.left _ _) <| .ite (.left _ _) <| .ite (.left _ _) <| .ite (.left _ _) <|
      .bind (hI.pushContext_keeps _ _) fun _ =>
        .exit (hf _) <| .bind (waitUnlocked_keeps _) fun _ =>
      .exit (hf _) <| .exit (hf _) <| .ite ?_ <| .exit (hf _) ?_
    all_goals
      exact .bind (hI.popContext_keeps _ _) fun _ =>
        .bind (hI.modifyContext_keeps fun _ => ⟨rfl, rfl, rfl⟩) fun _ => .pure _

/-! ## Buffers and images -/

theorem nvBufferSetNumElements_keeps (buffer : VAGenericID) (numElements : UInt32) :
    (nvBufferSetNumElements buffer numElements).Keeps I := by
  refine .bind .read fun w => ?_
  split
  · exact .leave _
  · exact .bind (hI.modifyBuffer_keeps fun _ => ⟨rfl, rfl, rfl, rfl, rfl⟩) fun _ => .pure _

/-- `mapShadow` changes the buffer of an image. -/
theorem mapShadow_keeps (a sa : Addr) (alloc : MapAlloc) :
    (mapShadow a sa alloc).Keeps fun w => I w ∧ w.ImageAt a := by
  have hu (p : Addr) (n : Nat) (w : World) (h : I w ∧ w.ImageAt a) :
      let w' := w.modifyBuffer a fun buf => { buf with ptr := p, size := n, ownsPtr := true }
      I w' ∧ w'.ImageAt a :=
    ⟨hI.shadow p n h.1 h.2, h.2.modifyBuffer fun _ => rfl⟩
  refine .bind .read fun w => .bind (.need _) fun sf => .bind (.need _) fun buf => .ite ?_ ?_
  · split
    · exact .left _ _
    · refine .bind (.wait _) fun _ =>
        .exit ?_ (.bind (.update (hu _ _)) fun _ => .bind (.wait _) fun _ => .pure _)
      exact fun w h => ⟨hI.objects h.1 rfl, h.2⟩
  · exact .bind (.wait _) fun _ => .pure _

theorem ensureSurfaceHostBuffer_imageAt {a : Addr} (sa : Addr) (alloc : Option Addr) :
    (ensureSurfaceHostBuffer sa alloc : Prog World ε Bool).Keeps fun w => I w ∧ w.ImageAt a := by
  rintro w ⟨h, hi⟩
  rw [ensures_ensureSurfaceHostBuffer]
  exact fun sf hs => ⟨fun _ => ⟨h, hi⟩, fun h0 => ⟨fun _ => ⟨h, hi⟩, fun p _ _ =>
    ⟨hI.hostBuffer p h hs h0, hi.modifySurface _⟩⟩⟩

theorem setLocked_keeps (a sa : Addr) (b : Bool) :
    (do
      Prog.update fun w => w.modifySurface sa fun sf => { sf with locked := b }
      Prog.update fun w => w.modifyBuffer a fun buf => { buf with mappedSurfaceLock := b } :
      Prog World ε Unit).Keeps I :=
  .bind (hI.modifySurface_keeps fun _ => ⟨rfl, rfl⟩) fun _ =>
    hI.modifyBuffer_keeps fun _ => ⟨rfl, rfl, rfl, rfl, rfl⟩

theorem lockMapped_keeps (a : Addr) (buf : NVBuffer) : (lockMapped a buf).Keeps I := by
  refine .ite (.bind .read fun w => ?_) (.pure _)
  split
  · exact .pure _
  · exact .bind (waitUnlocked_keeps _) fun _ => hI.setLocked_keeps _ _ _

theorem nvMapBuffer_keeps (buffer : VAGenericID) (alloc : MapAlloc) :
    (nvMapBuffer buffer alloc).Keeps I := by
  intro w h
  simp only [nvMapBuffer, Prog.ensures_bind, Prog.ensures_read]
  have hl (a : Addr) (buf : NVBuffer) :
      (lockMapped a buf >>= fun _ => pure VAStatus.success : Entry).Keeps I :=
    .bind (hI.lockMapped_keeps a buf) fun _ => .pure _
  split
  · exact h
  · rename_i a buf hb
    split
    · rename_i hi
      split
      · exact hl a buf w h
      · rename_i sa sf hs
        rw [Prog.ensures_bind]
        refine ((hI.ensureSurfaceHostBuffer_imageAt sa alloc.host) w ⟨h,
          hI.imageAt h hb hi.1⟩).mono ?_
          fun _ _ hw => hw.1
        intro ok w hw
        simp only [Prog.ensures_ite, Prog.ensures_bind, Prog.ensures_call, Prog.ensures_leave]
        refine ⟨fun _ => ?_, fun _ => (Prog.ensures_bind _ _).mp (hl a buf w hw.1)⟩
        exact (hI.mapShadow_keeps a sa alloc w hw).mono (fun _ _ hw => hw.1) fun _ _ hw => hw.1
    · exact hl a buf w h

theorem nvUnmapBuffer_keeps (buffer : VAGenericID) (host : Option Addr) :
    (nvUnmapBuffer buffer host).Keeps I := by
  have hu (a sa : Addr) (buf : NVBuffer) : (unlockMapped a sa buf).Keeps I :=
    .bind .read fun _ => .ite (waitUnlocked_keeps _) <| .ite (waitUnlocked_keeps _) <|
      hI.setLocked_keeps _ _ _
  refine .bind .read fun w => ?_
  split
  · exact .leave _
  · refine .ite ?_ (.pure _)
    split
    · exact .pure _
    · exact .bind (hI.ensureSurfaceHostBuffer_keeps _ _) fun _ => .exit (hu _ _ _) (.pure _)

omit hI in
theorem nvSyncSurface_keeps (surface : VAGenericID) : (nvSyncSurface surface).Keeps I := by
  refine .bind .read fun w => ?_
  split
  · exact .leave _
  · exact .bind (waitUnlocked_keeps _) fun _ => .bind (.wait _) fun _ => .pure _

omit hI in
theorem getImageHost_keeps (sa : Addr) (sf : NVSurface) (img : NVImage) (x y : Int32) :
    (getImageHost sa sf img x y).Keeps I := by
  unfold getImageHost
  exact .exit (.leave _) <| .bind .read fun _ => .bind (.need _) fun _ => .exit (.leave _) <|
    .exit (.leave _) <| .exit (.leave _) <| .bind (waitUnlocked_keeps _) fun _ => .pure _

theorem getImageDevice_keeps (surface : VAGenericID) (img : NVImage) (r : GetResults) :
    (getImageDevice surface img r).Keeps I :=
  .bind (nvSyncSurface_keeps surface).call fun _ => .bind (hI.pushContext_keeps _ _) fun _ =>
    .bind (.forEach fun _ _ => .bind .read fun _ => .bind (.need _) fun _ =>
      .ite (.leave _) (.pure _)) fun _ =>
    .bind (hI.popContext_keeps _ _) fun _ => .pure _

theorem nvGetImage_keeps (surface : VAGenericID) (x y : Int32) (image : VAGenericID)
    (r : GetResults) : (nvGetImage surface x y image r).Keeps I := by
  refine .bind .read fun w => ?_
  split
  · exact .leave _
  · exact .leave _
  · exact .ite (getImageHost_keeps _ _ _ _ _) <| .bind (.need _) fun _ =>
      .ite (getImageHost_keeps _ _ _ _ _) (hI.getImageDevice_keeps _ _ _)

theorem nvPutImage_keeps (surface image : VAGenericID) (p : PutArgs) (host : Option Addr) :
    (nvPutImage surface image p host).Keeps I := by
  refine .bind .read fun w => ?_
  split
  · exact .leave _
  · exact .leave _
  · exact .exit (.leave _) <| .bind (.need _) fun _ => .exit (.leave _) <|
      .bind (hI.ensureSurfaceHostBuffer_keeps _ _) fun _ => .exit (.leave _) <| .exit (.leave _) <|
      .exit (.leave _) <| .exit (.leave _) <| .exit (.leave _) <|
        .bind (waitUnlocked_keeps _) fun _ => .pure _

theorem nvLockSurface_keeps (surface : VAGenericID) (host : Option Addr) :
    (nvLockSurface surface host).Keeps I := by
  refine .bind .read fun w => ?_
  split
  · exact .leave _
  · exact .bind (hI.ensureSurfaceHostBuffer_keeps _ _) fun _ => .exit (.leave _) (.pure _)

theorem nvQuerySurfaceAttributes_keeps (config : VAGenericID) (numAttribs attribList : Bool)
    (r : QueryResults) : (nvQuerySurfaceAttributes config numAttribs attribList r).Keeps I := by
  refine .bind .read fun w => ?_
  split
  · exact .leave _
  · refine .ite (.ite (.left _ _) (.left _ _)) <| .ite (.left _ _) <| .ite (.left _ _) <|
      .ite (.left _ _) <| .ite (.left _ _) <| .ite ?_ (.pure _)
    exact .bind (.update fun _ h => hI.objects h rfl) fun _ =>
      .bind (hI.popCurrent_keeps _) fun _ => .pure _

theorem nvExportSurfaceHandle_keeps (surface : VAGenericID) (memType flags : Bool)
    (r : ExportResults) : (nvExportSurfaceHandle surface memType flags r).Keeps I := by
  unfold nvExportSurfaceHandle
  refine .exit (.leave _) <| .exit (.leave _) <| .bind .read fun w => ?_
  split
  · exact .leave _
  · exact .bind (hI.pushContext_keeps _ _) fun _ => .bind (waitUnlocked_keeps _) fun _ =>
      .exit (.leave _) <|
      .bind (hI.popContext_keeps _ _) fun _ => .pure _

theorem entry {call : ApiCall} (hn : call.Neutral) : call.entry.Keeps I := by
  cases call with
  | createConfig profile entrypoint attribs addr => exact hI.nvCreateConfig_keeps _ _ _ _
  | createSurfaces format width height allocs pushed popped =>
    exact hI.nvCreateSurfaces2_keeps _ _ _ _ _ _
  | bufferSetNumElements buffer numElements => exact hI.nvBufferSetNumElements_keeps _ _
  | mapBuffer buffer alloc => exact hI.nvMapBuffer_keeps _ _
  | unmapBuffer buffer host => exact hI.nvUnmapBuffer_keeps _ _
  | syncSurface surface => exact nvSyncSurface_keeps _
  | getImage surface x y image r => exact hI.nvGetImage_keeps _ _ _ _ _
  | putImage surface image p host => exact hI.nvPutImage_keeps _ _ _ _
  | lockSurface surface host => exact hI.nvLockSurface_keeps _ _
  | querySurfaceAttributes config numAttribs attribList r =>
    exact hI.nvQuerySurfaceAttributes_keeps _ _ _ _
  | exportSurfaceHandle surface memType flags r => exact hI.nvExportSurfaceHandle_keeps _ _ _ _
  | _ => cases hn

end World.Stable

end NvVaapi.Objects
