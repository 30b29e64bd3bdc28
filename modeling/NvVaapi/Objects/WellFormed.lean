import NvVaapi.Objects.Stable

/-!
# What holds of the objects after any calls

* `World.Wf`: an object is what its type says, two objects have different addresses, and a buffer
  for coded data has no other data.
* One lemma for each function on worlds, and one for each entrypoint.
* `reach_wf`: it holds after any calls.
-/

namespace NvVaapi.Objects

/-- A buffer with coded data has nothing at `ptr`. -/
def Payload.CodedAlone : Payload → Prop
  | .buffer buf => buf.codedData ≠ 0 → buf.ptr = 0 ∧ buf.bufferType = .encCoded
  | _ => True

structure World.Wf (w : World) : Prop where
  typed : ∀ o ∈ w.objects, o.type = o.obj.payload.type
  addrs : (w.objects.map fun o => o.obj.addr).Nodup
  coded : ∀ o ∈ w.objects, o.obj.payload.CodedAlone

namespace World.Wf

variable {w : World} {a : Addr} {payload : Payload}

theorem init (info : DriverInfo) (cudaContext : CUcontext) (cudaStack : List CUcontext) :
    (World.init info cudaContext cudaStack).Wf :=
  ⟨by simp [World.init], by simp [World.init], by simp [World.init]⟩

theorem of_objects {w' : World} (h : w.Wf) (ho : w'.objects = w.objects) : w'.Wf :=
  ⟨ho ▸ h.typed, ho ▸ h.addrs, ho ▸ h.coded⟩

theorem push (h : w.Wf) : w.push.Wf := h.of_objects rfl

theorem pop (h : w.Wf) : w.pop.Wf := h.of_objects rfl

theorem free (h : w.Wf) : (w.free a).Wf := h.of_objects rfl

theorem allocate (h : w.Wf) (ha : w.Fresh a) (hp : payload.CodedAlone) :
    (w.allocate a payload).Wf where
  typed := by
    simp only [allocate_objects, List.mem_append, List.mem_singleton]
    rintro o (ho | rfl)
    · exact h.typed o ho
    · rfl
  addrs := by
    have hne : ∀ o ∈ w.objects, o.obj.addr ≠ a := fun o ho e =>
      ha.2 (List.mem_flatMap.mpr ⟨o, ho, by simp [e]⟩)
    simpa [List.nodup_append, h.addrs] using hne
  coded := by
    simp only [allocate_objects, List.mem_append, List.mem_singleton]
    rintro o (ho | rfl)
    · exact h.coded o ho
    · exact hp

theorem deleteObject (h : w.Wf) (id : VAGenericID) : (w.deleteObject id).Wf where
  typed o ho := h.typed o (mem_eraseObject ho)
  addrs := by
    refine h.addrs.sublist (List.Sublist.map _ ?_)
    simp only [deleteObject_objects, eraseObject]
    split
    · exact List.Sublist.refl _
    · exact List.eraseP_sublist
  coded o ho := h.coded o (mem_eraseObject ho)

/-- A write at an address keeps it when what is there keeps its type and its coded data. -/
theorem modify (h : w.Wf) {g : Payload → Payload}
    (hg : ∀ o ∈ w.objects, o.obj.addr = a → o.obj.payload.CodedAlone →
      (g o.obj.payload).type = o.obj.payload.type ∧ (g o.obj.payload).CodedAlone) :
    (w.modify a g).Wf where
  typed o ho := by
    obtain ⟨o', ho', rfl⟩ := mem_modify.mp ho
    by_cases e : o'.obj.addr = a
    · simp [e, h.typed o' ho', (hg o' ho' e (h.coded o' ho')).1]
    · simp [e, h.typed o' ho']
  addrs := by
    rw [modify_map fun _ a => a]
    exact h.addrs
  coded o ho := by
    obtain ⟨o', ho', rfl⟩ := mem_modify.mp ho
    by_cases e : o'.obj.addr = a
    · simpa [e] using (hg o' ho' e (h.coded o' ho')).2
    · simpa [e] using h.coded o' ho'

theorem modifyConfig (h : w.Wf) (f : NVConfig → NVConfig) : (w.modifyConfig a f).Wf := by
  refine h.modify ?_
  rintro ⟨_, _, _, p⟩ _ _ hc
  cases p <;> exact ⟨rfl, hc⟩

theorem modifyContext (h : w.Wf) (f : NVContext → NVContext) : (w.modifyContext a f).Wf := by
  refine h.modify ?_
  rintro ⟨_, _, _, p⟩ _ _ hc
  cases p <;> exact ⟨rfl, hc⟩

theorem endSession (h : w.Wf) : (w.endSession a).Wf := h.modifyContext _

theorem modifySurface (h : w.Wf) (f : NVSurface → NVSurface) : (w.modifySurface a f).Wf := by
  refine h.modify ?_
  rintro ⟨_, _, _, p⟩ _ _ hc
  cases p <;> exact ⟨rfl, hc⟩

theorem modifyImage (h : w.Wf) (f : NVImage → NVImage) : (w.modifyImage a f).Wf := by
  refine h.modify ?_
  rintro ⟨_, _, _, p⟩ _ _ hc
  cases p <;> exact ⟨rfl, hc⟩

theorem modifyBuffer (h : w.Wf) {f : NVBuffer → NVBuffer}
    (hf : ∀ o ∈ w.objects, ∀ buf, o.obj = ⟨a, .buffer buf⟩ → (Payload.buffer buf).CodedAlone →
      (Payload.buffer (f buf)).CodedAlone) : (w.modifyBuffer a f).Wf := by
  refine h.modify fun o ho ha hc => ?_
  obtain ⟨_, _, a', p⟩ := o
  obtain rfl : a' = a := ha
  cases p with
  | buffer buf => exact ⟨rfl, hf _ ho buf rfl hc⟩
  | _ => exact ⟨rfl, hc⟩

theorem imageAt (h : w.Wf) {id : VAGenericID} {buf : NVBuffer} (hb : w.getBuffer id = some (a, buf))
    (hi : buf.bufferType = .image) : w.ImageAt a := by
  intro o ho buf' hbuf
  obtain ⟨o', ho', -, -, hobj⟩ := getBuffer_mem hb
  obtain rfl : o = o' := List.inj_on_of_nodup_map h.addrs ho ho' (by rw [hbuf, hobj])
  obtain rfl : buf' = buf := by simpa using hbuf.symm.trans hobj
  exact hi

theorem getSurface_isSome (h : w.Wf) {id : VAGenericID} : (w.getSurface id).isSome ↔
    id ≠ vaInvalidId ∧ ∃ o ∈ w.objects, o.id = id ∧ o.type = .surface := by
  constructor
  · intro hs
    obtain ⟨⟨a, sf⟩, hs⟩ := Option.isSome_iff_exists.mp hs
    obtain ⟨o, ho, hid, ht, -⟩ := getSurface_mem hs
    refine ⟨fun hv => ?_, o, ho, hid, ht⟩
    simp [World.getSurface, World.getObjectPtr, findObject, hv] at hs
  · rintro ⟨hv, o, ho, hid, ht⟩
    have hf : (w.objects.find? fun o => o.id = id ∧ o.type = .surface).isSome := by
      rw [List.find?_isSome]
      exact ⟨o, ho, by simp [hid, ht]⟩
    obtain ⟨x, hx⟩ := Option.isSome_iff_exists.mp hf
    have hxt := h.typed x (List.mem_of_find?_eq_some hx)
    have hp := List.find?_some hx
    simp only [decide_eq_true_eq] at hp
    rw [World.getSurface, World.getObjectPtr, findObject, if_neg hv, hx]
    cases hpay : x.obj.payload <;> simp_all [Payload.type, Payload.surface?]

theorem surfaceAt (h : w.Wf) {sf : NVSurface} {o : Object Cell} (ho : o ∈ w.objects)
    (hobj : o.obj = ⟨a, .surface sf⟩) : w.surfaceAt a = some sf := by
  have hf : (w.objects.find? fun o => o.obj.addr = a ∧ o.obj.payload.surface?.isSome).isSome := by
    rw [List.find?_isSome]
    exact ⟨o, ho, by simp [hobj, Payload.surface?]⟩
  obtain ⟨x, hx⟩ := Option.isSome_iff_exists.mp hf
  have hp := List.find?_some hx
  simp only [decide_eq_true_eq] at hp
  obtain rfl : x = o :=
    List.inj_on_of_nodup_map h.addrs (List.mem_of_find?_eq_some hx) ho (by rw [hp.1, hobj])
  rw [World.surfaceAt, hx]
  simp [hobj, Payload.surface?]

end World.Wf

theorem stable_wf : World.Stable World.Wf where
  objects h ho := h.of_objects ho
  config cfg h ha := h.allocate ha trivial
  surface h ha _ := h.allocate ha trivial
  hostBuffer p h _ _ := h.modifySurface _
  modifyConfig f h := h.modifyConfig f
  modifySurface h _ := h.modifySurface _
  modifyContext h _ := h.modifyContext _
  modifyBuffer h hf := by
    refine h.modifyBuffer fun o ho buf _ hc => ?_
    obtain ⟨hp, -, -, hd, ht⟩ := hf buf
    simpa [Payload.CodedAlone, hp, hd, ht] using hc
  shadow p n h hi := h.modifyBuffer fun o ho buf hb hc hne => by
    simpa [hi o ho buf hb] using (hc hne).2
  imageAt h hb hi := h.imageAt hb hi

/-! ## The entrypoints keep it -/

section Entrypoints

attribute [local grind .] World.Wf.push World.Wf.pop World.Wf.free World.Wf.allocate
  World.Wf.deleteObject World.Wf.modifyConfig World.Wf.modifyContext World.Wf.endSession
  World.Wf.modifySurface World.Wf.modifyImage

attribute [local grind] Payload.CodedAlone

theorem allocateObject_wf {ε : Type} {payload : Payload} (a : Addr) (hp : payload.CodedAlone) :
    (allocateObject payload a : Prog World ε VAGenericID).Keeps World.Wf := by
  intro w h
  simpa using fun ha => h.allocate ha hp

theorem nvDestroyConfig_wf (config : VAGenericID) : (nvDestroyConfig config).Keeps World.Wf :=
  fun _ h => h.deleteObject config

theorem nvDestroySurfaces_wf (surfaces : List VAGenericID) :
    (nvDestroySurfaces surfaces).Keeps World.Wf := by
  intro w h
  simp only [nvDestroySurfaces, Prog.ensures_bind]
  refine (Prog.Keeps.forEach fun id _ w h => ?_).ensures h fun _ w h => by simpa using h
  simp only [destroySurface, Prog.ensures_bind, Prog.ensures_read]
  cases w.getSurface id <;> simp <;> grind

theorem failContext_wf (r : ContextResults) (id : VAGenericID) (status : NvencStatus) :
    (failContext r id status).Keeps World.Wf := by
  intro w h
  simp
  grind

theorem createIoBuffers_wf (r : ContextResults) (id : VAGenericID) (i : Nat) :
    (createIoBuffers r id i).Keeps World.Wf := by
  intro w h
  simp [createIoBuffers]
  grind

theorem createEncodeContext_wf (cfg : NVConfig) (width height : Int32) (r : ContextResults) :
    (createEncodeContext cfg width height r).Keeps World.Wf := by
  unfold createEncodeContext
  refine .bind .read fun w => .exit (.leave _) <| .exit (.leave _) <|
    .bind (allocateObject_wf r.addr trivial) fun id => ?_
  cases profileToNvencGuids cfg.profile with
  | none => exact .bind (fun w h => h.deleteObject id) fun _ => .leave _
  | some encIsHevc =>
    have hf := failContext_wf r id
    refine .bind (.update fun w h => h.modifyContext _) fun _ =>
      .bind (stable_wf.pushContext_keeps _ _) fun _ =>
      .exit (hf _) <| .bind (.update fun w h => h.modifyContext _) fun _ =>
      .exit (hf _) <| .exit (hf _) <| .bind (.forEach fun i _ => createIoBuffers_wf r id i) fun _ =>
      .bind (stable_wf.popContext_keeps _ _) fun _ => .pure _

theorem deleteObject_wf {ε : Type} (id : VAGenericID) :
    (deleteObject id : Prog World ε Unit).Keeps World.Wf :=
  fun _ h => h.deleteObject id

theorem createDecodeContext_wf (a : Addr) (cfg : NVConfig) (renderTargets : List VAGenericID)
    (r : ContextResults) : (createDecodeContext a cfg renderTargets r).Keeps World.Wf := by
  have ht : (useRenderTarget a renderTargets).Keeps World.Wf := by
    intro w h
    unfold useRenderTarget
    cases renderTargets with
    | nil => exact h
    | cons id _ => cases hs : w.getSurface id <;> simp [hs] <;> grind
  unfold createDecodeContext
  cases vaToCuCodec cfg.profile with
  | none => exact .leave _
  | some codec =>
    exact .bind ht fun _ => .bind (stable_wf.pushContext_keeps _ _) fun _ => .exit (.leave _) <|
      .bind (stable_wf.popContext_keeps _ _) fun _ => .bind (allocateObject_wf _ trivial) fun id =>
      .ite (.bind (deleteObject_wf id) fun _ => .bind (.leave _) fun _ => .pure _) (.pure _)

theorem nvCreateContext_wf (config : VAGenericID) (width height : Int32)
    (renderTargets : List VAGenericID) (r : ContextResults) :
    (nvCreateContext config width height renderTargets r).Keeps World.Wf := by
  refine .bind .read fun w => ?_
  split
  · exact .leave _
  · split
    · exact createEncodeContext_wf _ _ _ _
    · exact createDecodeContext_wf _ _ _ _

theorem nvCreateBuffer_wf (context : VAGenericID) (type : BufferType) (size numElements : UInt32)
    (dataLow : Fin 16) (a : BufferAlloc) :
    (nvCreateBuffer context type size numElements dataLow a).Keeps World.Wf := by
  intro w h
  unfold nvCreateBuffer
  cases a.memory with
  | none => simp; grind
  | some p =>
    simp +contextual only [Prog.ensures_bind, Prog.ensures_read, Prog.ensures_ite,
      Prog.ensures_leave,
      Prog.ensures_wait, Prog.ensures_update, Prog.ensures_pure, ensures_allocateObject,
      World.modifyBuffer_allocate]
    grind

theorem nvCreateImage_wf (format : Option NVFormat) (width height : UInt32) (a : ImageAlloc) :
    (nvCreateImage format width height a).Keeps World.Wf := by
  intro w h
  unfold nvCreateImage
  cases format with
  | none => exact h
  | some format =>
    cases a.memory <;>
    · simp +contextual only [Prog.ensures_bind, Prog.ensures_wait, Prog.ensures_update,
        Prog.ensures_pure, ensures_allocateObject, World.modifyBuffer_allocate]
      grind

theorem nvDeriveImage_wf (surface : VAGenericID) (a : DeriveAlloc) :
    (nvDeriveImage surface a).Keeps World.Wf := by
  refine .bind .read fun w => ?_
  split
  · exact .leave _
  · exact .bind (stable_wf.ensureSurfaceHostBuffer_keeps _ _) fun _ =>
      .exit (.leave _) <| .bind .read fun _ =>
      .bind (.need _) fun _ => .bind (allocateObject_wf _ (by grind)) fun _ =>
      .bind (allocateObject_wf _ trivial) fun _ => .pure _

theorem destroyContext_wf (a : Addr) (ctx : NVContext) (r : DestroyResults) :
    (destroyContext a ctx r).Keeps World.Wf :=
  .bind (.update fun _ h => h.of_objects rfl) fun _ =>
    .bind (stable_wf.pushContext_keeps _ _) fun _ =>
    .exit (.update fun _ h => h.modifyContext _) <|
      .bind (stable_wf.popContext_keeps _ _) fun _ => .pure _

theorem nvDestroyContext_wf (context : VAGenericID) (r : DestroyResults) :
    (nvDestroyContext context r).Keeps World.Wf := by
  refine .bind .read fun w => ?_
  split
  · exact .leave _
  · exact .bind (destroyContext_wf _ _ r).call fun _ => .bind (deleteObject_wf _) fun _ => .pure _

theorem nvDestroyBuffer_wf (buffer : VAGenericID) : (nvDestroyBuffer buffer).Keeps World.Wf := by
  have hf (a : Addr) : (free a : Prog World VAStatus Unit).Keeps World.Wf := fun _ h => h.free
  have hd : (deleteObject buffer >>= fun _ => pure VAStatus.success : Entry).Keeps World.Wf :=
    .bind (deleteObject_wf _) fun _ => .pure _
  refine .bind .read fun w => ?_
  split
  · exact .leave _
  · refine .exit (hf _) (.bind (hf _) fun _ => .ite ?_ hd)
    have hu (a : Addr) (w : World) (h : w.Wf) :
        (w.modifyBuffer a fun buf => { buf with mappedSurfaceLock := false }).Wf :=
      h.modifyBuffer fun _ _ _ _ hc => hc
    split
    · exact .bind (.update (hu _)) fun _ => hd
    · exact .bind (.update fun _ h => h.modifySurface _) fun _ => .bind (.update (hu _)) fun _ => hd

theorem nvDestroyImage_wf (image : VAGenericID) : (nvDestroyImage image).Keeps World.Wf := by
  have hd : (deleteObject image >>= fun _ => pure VAStatus.success : Entry).Keeps World.Wf :=
    .bind (deleteObject_wf _) fun _ => .pure _
  refine .bind .read fun w => ?_
  split
  · exact .leave _
  · split
    · exact hd
    · exact .exit (fun _ h => h.free) (.bind (deleteObject_wf _) fun _ => hd)

theorem nvBeginPicture_wf (context renderTarget : VAGenericID) (alloc : Option Addr) :
    (nvBeginPicture context renderTarget alloc).Keeps World.Wf := by
  have he (ca sa : Addr) : (beginEncode renderTarget ca sa alloc).Keeps World.Wf :=
    .bind (stable_wf.ensureSurfaceHostBuffer_keeps _ _) fun _ => .exit (.leave _) <|
      .bind (.update fun _ h => h.modifyContext _) fun _ =>
      .bind (.update fun _ h => h.modifySurface _) fun _ => .pure _
  have hs (sa : Addr) (f : NVSurface → NVSurface) :
      (Prog.update fun w => w.modifySurface sa f : Prog World VAStatus Unit).Keeps World.Wf :=
    .update fun _ h => h.modifySurface _
  have hd (ca sa : Addr) : (beginDecode ca sa).Keeps World.Wf := by
    refine .bind .read fun w => .bind (.need _) fun sf => .exit (hs _ _) ?_
    refine .bind .read fun w => .bind (.need _) fun ctx => .bind (.need _) fun sf => ?_
    refine .ite (.exit (.leave _) <|
      .bind (hs _ _) fun _ => .bind (.update fun _ h => h.modifyContext _)
      fun _ => ?_) ?_ <;>
    exact .bind (World.Stable.waitUnlocked_keeps _) fun _ => .bind (hs _ _) fun _ =>
      .bind (.update fun _ h => h.modifyContext _) fun _ => .pure _
  refine .bind .read fun w => ?_
  split
  · exact .leave _
  · exact .leave _
  · exact .ite (he _ _) (hd _ _)

theorem renderDecodeBuffer_wf (ca : Addr) (b : VAGenericID) :
    (renderDecodeBuffer ca b).Keeps World.Wf := by
  refine .bind .read fun w => ?_
  split
  · exact .pure _
  · exact .ite (.bind (.wait _) fun _ =>
      .ite (.update fun _ h => h.modifyContext _) (.pure _)) (.pure _)

theorem nvRenderPicture_wf (context : VAGenericID)
    (buffers : List (VAGenericID × Option VAGenericID)) :
    (nvRenderPicture context buffers).Keeps World.Wf := by
  refine .bind .read fun w => ?_
  split
  · exact .leave _
  · exact .ite (.bind (.forEach fun b _ => stable_wf.renderEncodeBuffer_keeps _ b) fun _ => .pure _)
      (.bind (.forEach fun b _ => renderDecodeBuffer_wf _ b.1) fun _ => .pure _)

theorem nvEndPicture_wf (context : VAGenericID) (r : EndResults) :
    (nvEndPicture context r).Keeps World.Wf := by
  have hd (ca : Addr) (ctx : NVContext) : (endDecode ca ctx r).Keeps World.Wf := by
    unfold endDecode
    exact .exit (.leave _) <| .bind (stable_wf.pushContext_keeps _ _) fun _ =>
      .bind (stable_wf.popContext_keeps _ _) fun _ =>
      .bind .read fun _ => .bind (.need _) fun _ =>
        .bind (.update fun _ h => h.modifySurface _) fun _ =>
      .bind (.update fun _ h => h.modifyContext _) fun _ => .pure _
  refine .bind .read fun w => ?_
  split
  · exact .leave _
  · exact .ite (stable_wf.endEncode_keeps _ _ _) (hd _ _)

theorem resolveSurface_wf (ca : Addr) (notified : Bool) :
    (resolveSurface ca notified).Keeps World.Wf := by
  exact .bind .read fun _ => .bind (.need _) fun _ => .bind (.wait _) fun _ =>
    .bind (.update fun _ h => h.modifyContext _) fun _ => .bind (.need _) fun _ =>
    .exit (.update fun _ h => h.modifySurface _) (.pure _)

end Entrypoints

/-! ## Any calls -/

theorem entry_wf (call : ApiCall) : call.entry.Keeps World.Wf := by
  cases call with
  | destroyConfig config => exact nvDestroyConfig_wf _
  | destroySurfaces surfaces => exact nvDestroySurfaces_wf _
  | createContext config width height renderTargets r => exact nvCreateContext_wf _ _ _ _ _
  | destroyContext context r => exact nvDestroyContext_wf _ _
  | createBuffer context type size numElements dataLow a => exact nvCreateBuffer_wf _ _ _ _ _ _
  | destroyBuffer buffer => exact nvDestroyBuffer_wf _
  | beginPicture context renderTarget alloc => exact nvBeginPicture_wf _ _ _
  | renderPicture context buffers => exact nvRenderPicture_wf _ _
  | endPicture context r => exact nvEndPicture_wf _ _
  | createImage format width height a => exact nvCreateImage_wf _ _ _ _
  | deriveImage surface a => exact nvDeriveImage_wf _ _
  | destroyImage image => exact nvDestroyImage_wf _
  | resolve context notified => exact resolveSurface_wf _ _
  | _ => exact stable_wf.entry rfl

theorem step_wf {w w' : World} {call : ApiCall} (h : w.Wf)
    (hs : objectSystem.step w call = some w') : w'.Wf :=
  step_returns (entry_wf call w h) hs

theorem init_wf {w : World} (h : objectSystem.init w) : w.Wf := by
  obtain ⟨info, cudaContext, cudaStack, rfl⟩ := h
  exact World.Wf.init info cudaContext cudaStack

/-- The objects are well-formed after any calls. -/
theorem reach_wf {w : World} (h : objectSystem.Reach w) : w.Wf :=
  h.invariant (fun _ => init_wf) fun _ _ _ => step_wf

theorem init_reach (info : DriverInfo) (cudaContext : CUcontext) (cudaStack : List CUcontext) :
    objectSystem.Reach (.init info cudaContext cudaStack) :=
  .init ⟨info, cudaContext, cudaStack, rfl⟩

/-- A driver that supports everything, not in strict mode. -/
def plainInfo : DriverInfo := ⟨true, true, true, false, false⟩

/-- The results of calls that all succeed, for a context at `addr`. -/
def ContextResults.ok (addr : Addr) : ContextResults where
  addr
  pushed := true
  popped := true
  ioDepth := 0
  openEncodeSession := .success
  getPresetConfig := .success
  initializeEncoder := .success
  createInputBuffer _ := .success
  createBitstreamBuffer _ := .success
  createDecoder := true
  createThread := true

end NvVaapi.Objects
