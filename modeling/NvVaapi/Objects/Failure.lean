import NvVaapi.Objects.WellFormed

/-!
# Creations that fail

* `World.table`: what is in the object table, without what the objects hold.
* `World.CanUndo`: `deleteObject` takes the next object away again.
* `ApiCall.LeavesObject`: a creation leaves an object behind if it fails.
* `failedCreation_iff`: a creation that fails leaves the table as it was exactly if it does not.
-/

namespace NvVaapi.Objects

/-- An object's type, its id and where it is. -/
abbrev TableEntry := ObjectType × VAGenericID × Addr

namespace World

def table (w : World) : List TableEntry := w.objects.map fun o => (o.type, o.id, o.obj.addr)

/-- The next object can be deleted by its id. -/
def CanUndo (w : World) : Prop := w.FreshId ∧ w.nextObjId + 1 ≠ vaInvalidId

variable {w : World} {a : Addr} {id : VAGenericID} {payload : Payload} {g : Payload → Payload}

@[simp] theorem table_modify : (w.modify a g).table = w.table := by
  simp only [table, modify, List.map_map]
  congr 1
  funext o
  by_cases h : o.obj.addr = a <;> simp [h]

@[simp] theorem table_modifyContext (f : NVContext → NVContext) :
    (w.modifyContext a f).table = w.table :=
  table_modify

@[simp] theorem table_modifySurface (f : NVSurface → NVSurface) :
    (w.modifySurface a f).table = w.table :=
  table_modify

@[simp] theorem table_endSession : (w.endSession a).table = w.table := table_modify

@[simp] theorem table_push : w.push.table = w.table := rfl

@[simp] theorem table_pop : w.pop.table = w.table := rfl

@[simp] theorem table_allocate :
    (w.allocate a payload).table = w.table ++ [(payload.type, w.nextObjId + 1, a)] := by
  simp [table]

/-- What `deleteObject` does to the table. -/
def eraseEntry (l : List TableEntry) (id : VAGenericID) : List TableEntry :=
  if id = vaInvalidId then l else l.eraseP fun e => e.2.1 = id

theorem table_deleteObject : (w.deleteObject id).table = eraseEntry w.table id := by
  simp only [table, deleteObject_objects, eraseObject, eraseEntry]
  split
  · rfl
  · rw [List.eraseP_map]
    rfl

theorem freshId_iff : w.FreshId ↔ ∀ e ∈ w.table, e.2.1 ≠ w.nextObjId + 1 := by
  simp [FreshId, table]

theorem canUndo_congr {w' : World} (ht : w'.table = w.table) (hn : w'.nextObjId = w.nextObjId) :
    w'.CanUndo ↔ w.CanUndo := by
  unfold CanUndo
  rw [freshId_iff, freshId_iff, ht, hn]

theorem Fresh.not_mem_table (h : w.Fresh a) {t : ObjectType} {id : VAGenericID} :
    (t, id, a) ∉ w.table := by
  intro hm
  obtain ⟨o, ho, he⟩ := List.mem_map.mp hm
  exact h.ne_addr o ho (congrArg (fun e => e.2.2) he)

/-- An object that was just entered is deleted exactly if it can be. -/
theorem eraseEntry_allocate (ha : w.Fresh a) (t : ObjectType) :
    eraseEntry (w.table ++ [(t, w.nextObjId + 1, a)]) (w.nextObjId + 1) = w.table ↔ w.CanUndo := by
  unfold eraseEntry CanUndo
  by_cases hv : w.nextObjId + 1 = vaInvalidId
  · simp [hv]
  · rw [if_neg hv]
    by_cases hf : w.FreshId
    · have hn : ∀ e ∈ w.table, ¬decide (e.2.1 = w.nextObjId + 1) := by
        intro e he
        obtain ⟨o, ho, rfl⟩ := List.mem_map.mp he
        simpa using hf o ho
      rw [List.eraseP_append_right _ hn]
      simp [hf, hv]
    · -- an older object goes, and the new one stays
      have hold : ∃ e ∈ w.table, decide (e.2.1 = w.nextObjId + 1) := by
        unfold FreshId at hf
        push Not at hf
        obtain ⟨o, ho, hid⟩ := hf
        exact ⟨_, List.mem_map.mpr ⟨o, ho, rfl⟩, by simpa using hid⟩
      obtain ⟨e, he, hid⟩ := hold
      rw [List.eraseP_append_left (p := fun e : TableEntry => e.2.1 = w.nextObjId + 1) hid _ he]
      refine iff_of_false (fun h => ?_) fun h => hf h.1
      have hnew : (t, w.nextObjId + 1, a) ∉ w.table := ha.not_mem_table
      rw [← h] at hnew
      simp at hnew

theorem table_undo {w' : World} (ha : w'.Fresh a) (ht : w'.table = w.table)
    (hn : w'.nextObjId = w.nextObjId) :
    ((w'.allocate a payload).deleteObject (w'.nextObjId + 1)).table = w.table ↔ w.CanUndo := by
  rw [table_deleteObject, table_allocate, ← ht, eraseEntry_allocate ha, canUndo_congr ht hn]

end World

/-! ## When an object stays -/

/-- The NVENC calls that `nvCreateContext` makes succeed. -/
def ContextResults.SessionOk (r : ContextResults) (profile : VAProfile) : Prop :=
  r.openEncodeSession = .success ∧ r.getPresetConfig = .success ∧ r.initializeEncoder = .success ∧
    ∀ i < (NVContext.encoder profile r.ioDepth).nvencIoBufferCount,
      r.createInputBuffer i = .success ∧ r.createBitstreamBuffer i = .success

namespace ApiCall

def Creates : ApiCall → Bool
  | .createConfig .. | .createSurfaces .. | .createContext .. | .createBuffer .. => true
  | _ => false

/-- In encode mode the context is in the table before the first call that can fail. -/
def LeavesEncoder (w : World) (cfg : NVConfig) (width height : Int32) (r : ContextResults) : Prop :=
  w.info.nvencAvailable ∧ 0 < width ∧ 0 < height ∧
    ((profileToNvencGuids cfg.profile).isSome ∧ (!r.pushed ∨ r.SessionOk cfg.profile) ∨ ¬w.CanUndo)

/-- In decode mode only the thread can fail after that. -/
def LeavesDecoder (w : World) (cfg : NVConfig) (renderTargets : List VAGenericID)
    (r : ContextResults) : Prop :=
  (vaToCuCodec cfg.profile).isSome ∧ (renderTargets.head?.all fun id => (w.getSurface id).isSome) ∧
    r.pushed ∧ r.createDecoder ∧ r.popped ∧ ¬w.CanUndo

/-- The call leaves an object in the table if it fails. -/
def LeavesObject (w : World) : ApiCall → Prop
  | .createSurfaces format _ _ allocs pushed _ =>
    (surfaceFormats format).isSome ∧ allocs ≠ [] ∧ pushed
  | .createContext config width height renderTargets r =>
    ∃ a cfg, w.getConfig config = some (a, cfg) ∧
      if cfg.isEncode then LeavesEncoder w cfg width height r
      else LeavesDecoder w cfg renderTargets r
  | .createBuffer context _ _ _ _ _ => (context = 0 ∨ (w.getContext context).isSome) ∧ ¬w.CanUndo
  | _ => False

end ApiCall

/-- A call that returns an error leaves the table as it was exactly if not `c`. -/
def World.FailsClean (w : World) (c : Prop) (status : VAStatus) (w' : World) : Prop :=
  status ≠ .success → (w'.table = w.table ↔ ¬c)

section Creations

variable {w : World}

theorem nvCreateConfig_fails (profile : VAProfile) (entrypoint : VAEntrypoint)
    (attribs : List VAConfigAttrib) (addr : Addr) :
    (nvCreateConfig profile entrypoint attribs addr).Returns w (w.FailsClean False) := by
  unfold Prog.Returns nvCreateConfig World.FailsClean
  cases vaToCuCodec profile <;> simp

theorem nvCreateBuffer_fails (context : VAGenericID) (type : BufferType) (size numElements : UInt32)
    (dataLow : Fin 16) (a : BufferAlloc) :
    (nvCreateBuffer context type size numElements dataLow a).Returns w
      (w.FailsClean ((context = 0 ∨ (w.getContext context).isSome) ∧ ¬w.CanUndo)) := by
  have hctx : context ≠ 0 ∧ ((w.getContext context).map Prod.snd).isNone →
      ¬(context = 0 ∨ (w.getContext context).isSome) := by
    rintro ⟨h0, hn⟩
    simpa [h0] using hn
  unfold Prog.Returns nvCreateBuffer
  rw [Prog.ensures_bind, Prog.ensures_read]
  simp only [Prog.ensures_ite, Prog.ensures_bind, Prog.ensures_leave, ensures_allocateObject]
  refine ⟨fun hc _ => iff_of_true rfl fun h => hctx hc h.1, fun hc ha => ?_⟩
  cases a.memory with
  | none =>
    intro _
    have hcond : context = 0 ∨ (w.getContext context).isSome := by
      by_contra h
      push Not at h
      exact hc ⟨h.1, by simpa using h.2⟩
    exact (World.table_undo ha rfl rfl).trans (by simp [hcond])
  | some p =>
    simp only [Prog.ensures_ite, Prog.ensures_bind, Prog.ensures_wait, Prog.ensures_update,
      Prog.ensures_pure]
    exact fun _ => ⟨fun _ h => absurd rfl h, fun _ h => absurd rfl h⟩

theorem createSurface_table (sf : NVSurface) (popped : Bool) (a : SurfaceAlloc) :
    (createSurface sf popped a).Ensures w (fun _ w' => w'.table.length = w.table.length + 1)
      fun _ w' => w'.table.length = w.table.length + 1 := by
  simp only [createSurface, Prog.ensures_bind, ensures_allocateObject,
    ensures_ensureSurfaceHostBuffer]
  intro _ _ _
  refine ⟨fun _ => by simp, fun _ => ⟨fun _ => ?_, fun p _ _ => by simp⟩⟩
  cases popped <;> simp

theorem forEach_createSurface_table (sf : NVSurface) (popped : Bool) (allocs : List SurfaceAlloc) :
    (Prog.forEach allocs (createSurface sf popped)).Ensures w
      (fun _ w' => w'.table.length = w.table.length + allocs.length) fun _ w' =>
        w.table.length < w'.table.length := by
  induction allocs generalizing w with
  | nil => simp
  | cons a allocs ih =>
    rw [Prog.ensures_forEach_cons]
    refine (createSurface_table sf popped a).mono (fun _ w₁ h₁ => ?_) fun _ w₁ h₁ => by omega
    refine ih.mono (fun _ w₂ h₂ => ?_) fun _ w₂ h₂ => by omega
    rw [List.length_cons]
    omega

theorem nvCreateSurfaces2_fails (format width height : UInt32) (allocs : List SurfaceAlloc)
    (pushed popped : Bool) : (nvCreateSurfaces2 format width height allocs pushed popped).Returns w
      (w.FailsClean ((surfaceFormats format).isSome ∧ allocs ≠ [] ∧ pushed)) := by
  unfold Prog.Returns nvCreateSurfaces2
  cases surfaceFormats format with
  | none => simp [World.FailsClean]
  | some f =>
    simp only [Prog.ensures_bind, ensures_pushContext]
    refine ⟨fun h => by simp [World.FailsClean, h], fun hpush => ?_⟩
    cases allocs with
    | nil => simp [World.FailsClean]
    | cons a allocs =>
      have hleft {w' : World} (h : w.table.length < w'.table.length) {status : VAStatus} :
          w.FailsClean ((some f).isSome ∧ a :: allocs ≠ [] ∧ pushed) status w' :=
        fun _ => iff_of_false (fun e => by simp [e] at h) fun h => h ⟨rfl, by simp, hpush⟩
      refine (forEach_createSurface_table _ popped _).mono (fun _ w' hw => ?_) fun _ w' hw =>
        hleft hw
      simp only [ensures_popContext, Prog.ensures_pure]
      rw [World.table_push, List.length_cons] at hw
      exact ⟨fun _ => hleft (by omega), fun _ => hleft (by rw [World.table_pop]; omega)⟩

/-! ### Contexts -/

theorem createDecodeContext_fails (cfgAddr : Addr) (cfg : NVConfig)
    (renderTargets : List VAGenericID) (r : ContextResults) :
    (createDecodeContext cfgAddr cfg renderTargets r).Returns w
      (w.FailsClean (ApiCall.LeavesDecoder w cfg renderTargets r)) := by
  unfold Prog.Returns createDecodeContext ApiCall.LeavesDecoder
  cases vaToCuCodec cfg.profile with
  | none => simp [World.FailsClean]
  | some codec =>
    have ht : (useRenderTarget cfgAddr renderTargets).Ensures w
        (fun _ w' => (renderTargets.head?.all fun id => (w.getSurface id).isSome) ∧
          w'.table = w.table ∧ w'.nextObjId = w.nextObjId)
        fun _ w' => ¬(renderTargets.head?.all fun id => (w.getSurface id).isSome) ∧
          w'.table = w.table := by
      unfold useRenderTarget
      cases renderTargets with
      | nil => simp
      | cons id _ => cases hs : w.getSurface id <;> simp [hs, World.modifyConfig]
    rw [Prog.ensures_bind]
    refine ht.mono (fun _ w' ⟨hr, hw, hn⟩ => ?_) fun _ w' ⟨hr, hw⟩ _ =>
      iff_of_true hw fun h => hr h.2.1
    simp only [Prog.ensures_bind, Prog.ensures_ite, Prog.ensures_leave, Prog.ensures_pure,
      ensures_pushContext, ensures_popContext, ensures_allocateObject, ensures_deleteObject]
    refine ⟨fun h _ => iff_of_true hw (by simp [h]),
      fun hpush => ⟨fun h _ => iff_of_true hw (by simp_all),
      fun hdec => ⟨fun h _ => iff_of_true hw (by simp [h]),
        fun hpop ha => ⟨fun _ _ => ?_, fun _ h => absurd rfl h⟩⟩⟩⟩
    exact (World.table_undo ha hw hn).trans (by simp_all)

/-- What stays when the context of an encoder is deleted again. -/
theorem failContext_table (r : ContextResults) (id : VAGenericID) (status : NvencStatus)
    {Q : Unit → World → Prop} :
    (failContext r id status).Ensures w Q fun _ w' => w'.table = World.eraseEntry w.table id := by
  rw [ensures_failContext, World.table_deleteObject]
  cases r.popped <;> simp

theorem createIoBuffers_table (r : ContextResults) (id : VAGenericID) (i : Nat) :
    (createIoBuffers r id i).Ensures w
      (fun _ w' => w'.table = w.table ∧ r.createInputBuffer i = .success ∧
        r.createBitstreamBuffer i = .success)
      fun _ w' => w'.table = World.eraseEntry w.table id ∧
        ¬(r.createInputBuffer i = .success ∧ r.createBitstreamBuffer i = .success) := by
  have hf {w' : World} (hw : w'.table = w.table) {status : NvencStatus} {Q : Unit → World →
      Prop} {c : Prop}
      (hc : c) : (failContext r id status).Ensures w' Q fun _ w'' =>
        w''.table = World.eraseEntry w.table id ∧ c :=
    (failContext_table r id status).mono (fun _ _ h => h) fun _ _ h => ⟨hw ▸ h, hc⟩
  simp only [createIoBuffers, Prog.ensures_bind, Prog.ensures_ite, Prog.ensures_update]
  refine ⟨fun h => hf rfl fun h' => h h'.1,
    fun h => ⟨fun h' => hf (by simp) fun h'' => h' h''.2, fun h' => ?_⟩⟩
  push Not at h h'
  exact ⟨by simp, h, h'⟩

theorem forEach_createIoBuffers_table (r : ContextResults) (id : VAGenericID) (is : List Nat) :
    (Prog.forEach is (createIoBuffers r id)).Ensures w
      (fun _ w' => w'.table = w.table ∧
        ∀ i ∈ is, r.createInputBuffer i = .success ∧ r.createBitstreamBuffer i = .success)
      fun _ w' => w'.table = World.eraseEntry w.table id ∧
        ¬∀ i ∈ is, r.createInputBuffer i = .success ∧ r.createBitstreamBuffer i = .success := by
  induction is generalizing w with
  | nil => simp
  | cons i is ih =>
    rw [Prog.ensures_forEach_cons]
    refine (createIoBuffers_table r id i).mono (fun _ w₁ ⟨h₁, hi⟩ => ?_) fun _ w₁ ⟨h₁, hi⟩ => ?_
    · refine ih.mono (fun _ w₂ ⟨h₂, his⟩ => ?_) fun _ w₂ ⟨h₂, his⟩ => ?_
      · exact ⟨h₂.trans h₁, List.forall_mem_cons.mpr ⟨hi, his⟩⟩
      · exact ⟨h₁ ▸ h₂, fun h => his (List.forall_mem_cons.mp h).2⟩
    · exact ⟨h₁, fun h => hi (List.forall_mem_cons.mp h).1⟩

section Encoder

variable {cfg : NVConfig} {width height : Int32} {r : ContextResults} {w' : World}
  {status : VAStatus}

/-- The table with the context of an encoder. -/
def withEncoder (w : World) (r : ContextResults) : List TableEntry :=
  w.table ++ [(.context, w.nextObjId + 1, r.addr)]

theorem encoder_stays (hw : w'.table = withEncoder w r)
    (hc : ApiCall.LeavesEncoder w cfg width height r) :
    w.FailsClean (ApiCall.LeavesEncoder w cfg width height r) status w' :=
  fun _ => iff_of_false (by simp [hw, withEncoder]) fun h => h hc

theorem encoder_undone (ha : w.Fresh r.addr)
    (hw : w'.table = World.eraseEntry (withEncoder w r) (w.nextObjId + 1))
    (hc : ApiCall.LeavesEncoder w cfg width height r ↔ ¬w.CanUndo) :
    w.FailsClean (ApiCall.LeavesEncoder w cfg width height r) status w' := by
  intro _
  rw [hw, hc, not_not]
  exact World.eraseEntry_allocate ha .context

theorem createEncodeContext_fails (cfg : NVConfig) (width height : Int32) (r : ContextResults) :
    (createEncodeContext cfg width height r).Returns w
      (w.FailsClean (ApiCall.LeavesEncoder w cfg width height r)) := by
  unfold Prog.Returns createEncodeContext
  simp only [Prog.ensures_bind, Prog.ensures_read, Prog.ensures_ite, Prog.ensures_leave,
    ensures_allocateObject]
  refine ⟨fun h _ => iff_of_true rfl fun hl => ?_,
    fun havail => ⟨fun h _ => iff_of_true rfl fun hl => ?_, fun hsize ha => ?_⟩⟩
  · simp [hl.1] at h
  · exact h.elim (fun h => Int32.not_lt.mpr h hl.2.1) fun h => Int32.not_lt.mpr h hl.2.2.1
  have hsize : 0 < width ∧ 0 < height := by simpa using hsize
  have havail : w.info.nvencAvailable := by simpa using havail
  cases hg : profileToNvencGuids cfg.profile with
  | none =>
    refine encoder_undone ha (by simp [World.table_deleteObject, withEncoder]; rfl) ?_
    simp [ApiCall.LeavesEncoder, havail, hsize, hg]
  | some encIsHevc =>
    have hfail {w' : World} (hw : w'.table = withEncoder w r) (hpush : r.pushed)
        (hc : ¬r.SessionOk cfg.profile)
        {status : NvencStatus} {Q : Unit → World → Prop} :
          (failContext r (w.nextObjId + 1) status).Ensures w' Q
          (w.FailsClean (ApiCall.LeavesEncoder w cfg width height r)) := by
      refine (failContext_table r _ status).mono (fun _ _ h => h) fun _ w'' h =>
        encoder_undone ha (hw ▸ h) ?_
      simp [ApiCall.LeavesEncoder, havail, hsize, hg, hpush, hc]
    simp only [Prog.ensures_bind, Prog.ensures_ite, Prog.ensures_update, ensures_pushContext]
    refine ⟨fun h => encoder_stays (by simp [withEncoder, Payload.type]) ?_, fun hpush => ?_⟩
    · exact ⟨havail, hsize.1, hsize.2, .inl ⟨by simp [hg], .inl (by simp [h])⟩⟩
    refine ⟨fun h => hfail (by simp [withEncoder, Payload.type]) hpush fun hs => h hs.1,
      fun h₁ => ?_⟩
    refine ⟨fun h => hfail (by simp [withEncoder, Payload.type]) hpush fun hs => h hs.2.1,
      fun h₂ => ?_⟩
    refine ⟨fun h => hfail (by simp [withEncoder, Payload.type]) hpush fun hs => h hs.2.2.1,
      fun h₃ => ?_⟩
    push Not at h₁ h₂ h₃
    refine (forEach_createIoBuffers_table r _ _).mono (fun _ w' hdone => ?_) fun _ w' hleft => ?_
    · obtain ⟨hw, hio⟩ := hdone
      have hok : r.SessionOk cfg.profile := ⟨h₁, h₂, h₃, fun i hi => hio i (List.mem_range.mpr hi)⟩
      simp only [ensures_popContext, Prog.ensures_pure]
      refine ⟨fun _ => encoder_stays ?_ ?_, fun _ h => absurd rfl h⟩
      · exact hw.trans (by simp [withEncoder, Payload.type])
      · exact ⟨havail, hsize.1, hsize.2, .inl ⟨by simp [hg], .inr hok⟩⟩
    · obtain ⟨hw, hio⟩ := hleft
      refine encoder_undone ha (hw.trans (by simp [withEncoder, Payload.type])) ?_
      have hbad : ¬r.SessionOk cfg.profile :=
        fun h => hio fun i hi => h.2.2.2 i (List.mem_range.mp hi)
      simp [ApiCall.LeavesEncoder, havail, hsize, hg, hpush, hbad]

end Encoder

theorem nvCreateContext_fails (config : VAGenericID) (width height : Int32)
    (renderTargets : List VAGenericID) (r : ContextResults) :
    (nvCreateContext config width height renderTargets r).Returns w
      (w.FailsClean
        (ApiCall.LeavesObject w (.createContext config width height renderTargets r))) := by
  unfold Prog.Returns nvCreateContext ApiCall.LeavesObject
  rw [Prog.ensures_bind, Prog.ensures_read]
  cases hg : w.getConfig config with
  | none => exact fun _ => iff_of_true rfl (by simp [hg])
  | some c =>
    obtain ⟨a, cfg⟩ := c
    rw [Prog.ensures_ite]
    refine ⟨fun he => ?_, fun he => ?_⟩
    · simpa [he, hg, Prog.Returns] using createEncodeContext_fails (w := w) cfg width height r
    · simpa [he, hg, Prog.Returns] using createDecodeContext_fails (w := w) a cfg renderTargets r

end Creations

/-- A creation that fails leaves the objects that were there exactly if it leaves no other one. -/
theorem failedCreation_iff {w w' : World} {call : ApiCall} {status : VAStatus} (hc : call.Creates)
    (h : call.entry.eval w = some (status, w')) (hs : status ≠ .success) :
    w'.table = w.table ↔ ¬call.LeavesObject w := by
  suffices hf : call.entry.Returns w (w.FailsClean (call.LeavesObject w)) from hf.eval h hs
  cases call with
  | createConfig profile entrypoint attribs addr => exact nvCreateConfig_fails _ _ _ _
  | createSurfaces format width height allocs pushed popped =>
    exact nvCreateSurfaces2_fails _ _ _ _ _ _
  | createContext config width height renderTargets r => exact nvCreateContext_fails _ _ _ _ _
  | createBuffer context type size numElements dataLow a => exact nvCreateBuffer_fails _ _ _ _ _ _
  | _ => cases hc

/-- A buffer without memory. -/
theorem failedCreation_iff_buffer : ∃ w' : World,
    (nvCreateBuffer 0 .sliceData 16 1 0 ⟨1, none⟩).eval (.init plainInfo 0 []) =
      some (.errorAllocationFailed, w') ∧
      w'.objects.length = 0 := by
  let call : ApiCall := .createBuffer 0 .sliceData 16 1 0 ⟨1, none⟩
  obtain ⟨w', h⟩ :
      ∃ w', call.entry.eval (.init plainInfo 0 []) = some (.errorAllocationFailed, w') := ⟨_, rfl⟩
  have hu : (World.init plainInfo 0 []).CanUndo := ⟨by simp [World.FreshId, World.init], by decide⟩
  have ht : w'.table = [] := (failedCreation_iff rfl h (by decide)).mpr fun hl => hl.2 hu
  exact ⟨w', h, by simpa [World.table] using ht⟩

/-- Two surfaces, of which the second one gets no host buffer. -/
theorem failedCreation_leaves :
    ∃ (w w' : World) (call : ApiCall) (status : VAStatus), objectSystem.Reach w ∧
    call.Creates ∧ call.entry.eval w = some (status, w') ∧ status ≠ .success ∧
    w'.table ≠ w.table := by
  let call : ApiCall := .createSurfaces rtFormatYuv420 16 16 [⟨1, some 2⟩, ⟨3, none⟩] true true
  obtain ⟨w', h, ht⟩ :
      ∃ w', call.entry.eval (.init plainInfo 0 []) = some (.errorAllocationFailed, w') ∧
      w'.table.length = 2 :=
    ⟨_, rfl, by decide⟩
  refine ⟨_, w', call, _, init_reach plainInfo 0 [], rfl, h, by decide, fun he => ?_⟩
  rw [he] at ht
  exact absurd ht (by decide)

end NvVaapi.Objects
