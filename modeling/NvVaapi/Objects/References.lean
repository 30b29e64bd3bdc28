import NvVaapi.Objects.WellFormed

/-!
# What objects refer to

* `Ref`: a pointer that an object holds to another one, or into what another one owns.
  `Payload.refs` are those of an object, `Payload.provides` says which ones are to it.
* `World.Sound`: every reference is to a live object. It also carries references that a function
  holds while it runs.
* `stable_sound`: the calls that only use what there is keep it.
* One lemma for each entrypoint that creates contexts, buffers and images, or works on a picture.
-/

namespace NvVaapi.Objects

/-- A pointer to a driver object, to a buffer's data or to a surface's host buffer. -/
inductive Ref where
  | context (a : Addr)
  | surface (a : Addr)
  | buffer (a : Addr)
  | slices (p : Addr)
  | hostData (surface : VAGenericID) (p : Addr)
  deriving DecidableEq

/-- The reference that a pointer is, unless it is NULL. -/
def pointer (r : Addr → Ref) (a : Addr) : List Ref := if a = 0 then [] else [r a]

/-- The references that an object holds. -/
def Payload.refs : Payload → List Ref
  | .config _ => []
  | .context ctx =>
    pointer .surface ctx.renderTarget ++ ctx.surfaceQueue.pending.map .surface ++
      pointer .slices ctx.lastSliceParams
  | .surface sf => pointer .context sf.context
  | .buffer buf => if buf.ownsPtr then [] else pointer (.hostData buf.surfaceId) buf.ptr
  | .image img => pointer .buffer img.imageBuffer

/-- The references that are to an object with the id `id` at `a`. -/
def Payload.provides (p : Payload) (id : VAGenericID) (a : Addr) : Ref → Bool
  | .context b => a = b ∧ p.context?.isSome
  | .surface b => a = b ∧ p.surface?.isSome
  | .buffer b => a = b ∧ p.buffer?.isSome
  | .slices q => q ≠ 0 ∧ p.buffer?.any fun buf => buf.ptr = q ∧ buf.bufferType = .sliceParameter
  | .hostData i q => q ≠ 0 ∧ id = i ∧ p.surface?.any fun sf => sf.hostData = q

namespace World

/-- The reference is to a live object. -/
def Live (w : World) (r : Ref) : Prop := ∃ o ∈ w.objects, o.obj.payload.provides o.id o.obj.addr r

/-- An object holds the reference. -/
def Refers (w : World) (r : Ref) : Prop := ∃ o ∈ w.objects, r ∈ o.obj.payload.refs

/-- Every reference that an object holds is to a live one, and so is each of `rs`. -/
structure Sound (rs : List Ref) (w : World) : Prop where
  wf : w.Wf
  refs : ∀ o ∈ w.objects, ∀ r ∈ o.obj.payload.refs, w.Live r
  live : ∀ r ∈ rs, w.Live r

variable {w w' : World} {a : Addr} {payload : Payload} {r : Ref} {rs : List Ref}

theorem Live.of_objects (h : w.Live r) (ho : w'.objects = w.objects) : w'.Live r := by
  rwa [Live, ho]

theorem Live.allocate (h : w.Live r) : (w.allocate a payload).Live r := by
  obtain ⟨o, ho, hp⟩ := h
  exact ⟨o, List.mem_append_left _ ho, hp⟩

theorem Live.modify (h : w.Live r) {g : Payload → Payload}
    (hg : ∀ o ∈ w.objects, o.obj.addr = a → o.obj.payload.provides o.id a r →
      (g o.obj.payload).provides o.id a r) : (w.modify a g).Live r := by
  obtain ⟨o, ho, hp⟩ := h
  refine ⟨_, mem_modify.mpr ⟨o, ho, rfl⟩, ?_⟩
  by_cases e : o.obj.addr = a
  · simpa [e] using hg o ho e (e ▸ hp)
  · simpa [e] using hp

theorem Live.deleteObject (h : w.Live r) {id : VAGenericID}
    (hu : ∀ o ∈ w.objects, o.id = id → ¬o.obj.payload.provides o.id o.obj.addr r) :
    (w.deleteObject id).Live r := by
  obtain ⟨o, ho, hp⟩ := h
  exact ⟨o, mem_eraseObject_of_ne ho fun e => hu o ho e hp, hp⟩

namespace Sound

theorem of_objects (h : w.Sound rs) (ho : w'.objects = w.objects) : w'.Sound rs where
  wf := h.wf.of_objects ho
  refs o hm r hr := (h.refs o (ho ▸ hm) r hr).of_objects ho
  live r hr := (h.live r hr).of_objects ho

theorem free (h : w.Sound rs) : (w.free a).Sound rs := h.of_objects rfl

theorem allocate (h : w.Sound rs) (ha : w.Fresh a) (hc : payload.CodedAlone)
    (hr : ∀ r ∈ payload.refs, w.Live r) : (w.allocate a payload).Sound rs where
  wf := h.wf.allocate ha hc
  refs o ho r hm := by
    simp only [allocate_objects, List.mem_append, List.mem_singleton] at ho
    obtain ho | rfl := ho
    · exact (h.refs o ho r hm).allocate
    · exact (hr r hm).allocate
  live r hm := (h.live r hm).allocate

/-- An object may go when nothing that stays refers to it. -/
theorem deleteObject (h : w.Sound []) {id : VAGenericID}
    (hu : ∀ o ∈ (w.deleteObject id).objects, ∀ r ∈ o.obj.payload.refs, ∀ x ∈ w.objects, x.id = id →
      ¬x.obj.payload.provides x.id x.obj.addr r) : (w.deleteObject id).Sound [] where
  wf := h.wf.deleteObject id
  refs o ho r hr := (h.refs o (mem_eraseObject ho) r hr).deleteObject (hu o ho r hr)
  live := by simp

/-- A write keeps it when what is there stays what others refer to, and refers to live objects. -/
theorem modify (h : w.Sound rs) {g : Payload → Payload}
    (hg : ∀ o ∈ w.objects, o.obj.addr = a → o.obj.payload.CodedAlone →
      (g o.obj.payload).type = o.obj.payload.type ∧ (g o.obj.payload).CodedAlone)
    (hp : ∀ o ∈ w.objects, o.obj.addr = a → ∀ r, w.Refers r ∨ r ∈ rs →
      o.obj.payload.provides o.id a r →
      (g o.obj.payload).provides o.id a r)
    (hr : ∀ o ∈ w.objects, o.obj.addr = a → ∀ r ∈ (g o.obj.payload).refs, w.Refers r ∨ r ∈ rs) :
    (w.modify a g).Sound rs := by
  have hl : ∀ r, w.Refers r ∨ r ∈ rs → (w.modify a g).Live r := by
    intro r hr
    have hw : w.Live r := hr.elim (fun ⟨o, ho, hm⟩ => h.refs o ho r hm) (h.live r)
    exact hw.modify fun o ho e => hp o ho e r hr
  refine ⟨h.wf.modify hg, fun o ho r hm => ?_, fun r hr => hl r (.inr hr)⟩
  obtain ⟨o', ho', rfl⟩ := mem_modify.mp ho
  by_cases e : o'.obj.addr = a
  · exact hl r (hr o' ho' e r (by simpa [e] using hm))
  · exact hl r (.inl ⟨o', ho', by simpa [e] using hm⟩)

theorem modifyConfig (h : w.Sound rs) (f : NVConfig → NVConfig) :
    (w.modifyConfig a f).Sound rs := by
  refine h.modify ?_ ?_ ?_
  · rintro ⟨_, _, _, p⟩ _ _ hc
    cases p <;> exact ⟨rfl, hc⟩
  · rintro ⟨_, _, _, p⟩ _ _ r _ hp
    cases p <;> cases r <;> exact hp
  · rintro ⟨_, _, a', p⟩ ho _ r hr
    cases p <;> exact .inl ⟨_, ho, hr⟩

theorem modifyContextAt (h : w.Sound rs) {f : NVContext → NVContext}
    (hf : ∀ o ∈ w.objects, ∀ ctx, o.obj = ⟨a, .context ctx⟩ →
      ∀ r ∈ (Payload.context (f ctx)).refs, r ∈ (Payload.context ctx).refs ∨ r ∈ rs) :
    (w.modifyContext a f).Sound rs := by
  refine h.modify ?_ ?_ ?_
  · rintro ⟨_, _, _, p⟩ _ _ hc
    cases p <;> exact ⟨rfl, hc⟩
  · rintro ⟨_, _, _, p⟩ _ _ r _ hp
    cases p <;> cases r <;> exact hp
  · rintro ⟨_, _, a', p⟩ ho rfl r hr
    cases p with
    | context ctx => exact (hf _ ho ctx rfl r hr).imp_left fun hr => ⟨_, ho, hr⟩
    | _ => exact .inl ⟨_, ho, hr⟩

theorem modifyContext (h : w.Sound rs) {f : NVContext → NVContext}
    (hf : ∀ ctx, ∀ r ∈ (Payload.context (f ctx)).refs, r ∈ (Payload.context ctx).refs ∨ r ∈ rs) :
    (w.modifyContext a f).Sound rs :=
  h.modifyContextAt fun _ _ ctx _ => hf ctx

theorem modifySurface (h : w.Sound rs) {f : NVSurface → NVSurface}
    (hh : ∀ sf, (f sf).hostData = sf.hostData)
    (hc : ∀ sf, ∀ r ∈ pointer .context (f sf).context, r ∈ pointer .context sf.context ∨ r ∈ rs) :
    (w.modifySurface a f).Sound rs := by
  refine h.modify ?_ ?_ ?_
  · rintro ⟨_, _, _, p⟩ _ _ hc
    cases p <;> exact ⟨rfl, hc⟩
  · rintro ⟨_, _, _, p⟩ _ _ r _ hp
    cases p with
    | surface sf =>
      cases r with
      | hostData i q => simpa [Payload.provides, Payload.surface?, hh] using hp
      | _ => exact hp
    | _ => cases r <;> exact hp
  · rintro ⟨_, _, a', p⟩ ho _ r hr
    cases p with
    | surface sf => exact (hc sf r hr).imp_left fun hr => ⟨_, ho, hr⟩
    | _ => exact .inl ⟨_, ho, hr⟩

theorem modifyBuffer (h : w.Sound rs) {f : NVBuffer → NVBuffer}
    (hf : ∀ o ∈ w.objects, ∀ buf, o.obj = ⟨a, .buffer buf⟩ → (Payload.buffer buf).CodedAlone →
      (Payload.buffer (f buf)).CodedAlone ∧
      (buf.bufferType = .sliceParameter →
        (f buf).bufferType = .sliceParameter ∧ (f buf).ptr = buf.ptr) ∧
      ∀ r ∈ (Payload.buffer (f buf)).refs, r ∈ (Payload.buffer buf).refs) :
    (w.modifyBuffer a f).Sound rs := by
  refine h.modify ?_ ?_ ?_
  · rintro ⟨_, _, a', p⟩ ho rfl hc
    cases p with
    | buffer buf => exact ⟨rfl, (hf _ ho buf rfl hc).1⟩
    | _ => exact ⟨rfl, hc⟩
  · rintro ⟨_, _, a', p⟩ ho rfl r _ hp
    cases p with
    | buffer buf =>
      have hs := (hf _ ho buf rfl (h.wf.coded _ ho)).2.1
      cases r with
      | slices q =>
        simp only [Payload.provides, Payload.buffer?, Option.any_some, decide_eq_true_eq] at hp ⊢
        obtain ⟨h0, hq, ht⟩ := hp
        exact ⟨h0, (hs ht).2.trans hq, (hs ht).1⟩
      | _ => exact hp
    | _ => cases r <;> exact hp
  · rintro ⟨_, _, a', p⟩ ho rfl r hr
    cases p with
    | buffer buf => exact .inl ⟨_, ho, (hf _ ho buf rfl (h.wf.coded _ ho)).2.2 r hr⟩
    | _ => exact .inl ⟨_, ho, hr⟩

/-- The fields that say what a buffer is and refers to stay. -/
theorem modifyFlags (h : w.Sound rs) {f : NVBuffer → NVBuffer}
    (hf : ∀ buf : NVBuffer, buf.SameData (f buf)) : (w.modifyBuffer a f).Sound rs := by
  refine h.modifyBuffer fun o ho buf _ hcoded => ?_
  obtain ⟨hp, hown, hid, hd, ht⟩ := hf buf
  refine ⟨?_, fun hs => ⟨ht.trans hs, hp⟩, fun r hr => ?_⟩
  · simpa [Payload.CodedAlone, hp, hd, ht] using hcoded
  · simpa [Payload.refs, hp, hown, hid] using hr

theorem modifyImage (h : w.Sound rs) {f : NVImage → NVImage}
    (hf : ∀ img, ∀ r ∈ (Payload.image (f img)).refs, r ∈ (Payload.image img).refs ∨ r ∈ rs) :
    (w.modifyImage a f).Sound rs := by
  refine h.modify ?_ ?_ ?_
  · rintro ⟨_, _, _, p⟩ _ _ hc
    cases p <;> exact ⟨rfl, hc⟩
  · rintro ⟨_, _, _, p⟩ _ _ r _ hp
    cases p <;> cases r <;> exact hp
  · rintro ⟨_, _, a', p⟩ ho _ r hr
    cases p with
    | image img => exact (hf img r hr).imp_left fun hr => ⟨_, ho, hr⟩
    | _ => exact .inl ⟨_, ho, hr⟩

/-- A surface without a host buffer gets one. -/
theorem setHost (h : w.Sound rs) {sf : NVSurface} (hs : w.surfaceAt a = some sf)
    (h0 : sf.hostData = 0) (p : Addr) :
    (w.modifySurface a fun sf => { sf with hostData := p }).Sound rs := by
  have hat : ∀ o ∈ w.objects, o.obj.addr = a → o.obj = ⟨a, .surface sf⟩ := by
    intro o ho ha
    obtain ⟨o', ho', hobj⟩ := surfaceAt_mem hs
    obtain rfl : o = o' := List.inj_on_of_nodup_map h.wf.addrs ho ho' (by rw [ha, hobj])
    exact hobj
  refine h.modify ?_ ?_ ?_
  · intro o ho ha _
    rw [hat o ho ha]
    exact ⟨rfl, trivial⟩
  · intro o ho ha r _ hp
    rw [hat o ho ha] at hp ⊢
    cases r with
    | hostData i q =>
      have hq : q ≠ 0 ∧ o.id = i ∧ sf.hostData = q := by
        simpa [Payload.provides, Payload.surface?] using hp
      exact absurd (hq.2.2.symm.trans h0) hq.1
    | _ => exact hp
  · intro o ho ha r hr
    rw [hat o ho ha] at hr
    exact .inl ⟨o, ho, by rw [hat o ho ha]; exact hr⟩

end Sound

end World

variable {rs : List Ref}

theorem stable_sound : World.Stable (World.Sound rs) where
  objects h ho := h.of_objects ho
  config cfg h ha := h.allocate ha trivial nofun
  surface h ha hc := h.allocate ha trivial (by simp [Payload.refs, pointer, hc])
  hostBuffer p h hs h0 := h.setHost hs h0 p
  modifyConfig f h := h.modifyConfig f
  modifySurface h hf := h.modifySurface (fun sf => (hf sf).1) fun sf r hr => .inl ((hf sf).2 ▸ hr)
  modifyContext h hf := by
    refine h.modifyContext fun ctx r hr => .inl ?_
    obtain ⟨ht, hq, hl⟩ := hf ctx
    simpa [Payload.refs, ht, hq, hl] using hr
  modifyBuffer h hf := h.modifyFlags hf
  shadow p n h hi := by
    refine h.modifyBuffer fun o ho buf hb hc => ?_
    have hi := hi o ho buf hb
    refine ⟨fun hne => ?_, fun ht => ?_, fun r hr => ?_⟩
    · simpa [hi] using (hc hne).2
    · simp [hi] at ht
    · simp [Payload.refs] at hr
  imageAt h hb hi := h.wf.imageAt hb hi

/-- A function that holds references to live objects. -/
theorem keeps_live {ε α : Type} {p : Prog World ε α} (hp : p.Keeps (World.Sound rs)) {w : World}
    (h : w.Sound []) (hl : ∀ r ∈ rs, w.Live r) :
    p.Ensures w (fun _ => World.Sound []) fun _ => World.Sound [] :=
  (hp w ⟨h.wf, h.refs, hl⟩).mono (fun _ _ h => ⟨h.wf, h.refs, nofun⟩) fun _ _ h =>
    ⟨h.wf, h.refs, nofun⟩

/-! ## Creating a context -/

/-- A context is there after the objects `l`, or it is not. -/
def World.AddsContext (l : List (Object Cell)) (id : VAGenericID) (a : Addr) (w : World) : Prop :=
  w.objects = l ∨ ∃ ctx : NVContext, (Payload.context ctx).refs = [] ∧
    w.objects = l ++ [⟨.context, id, a, .context ctx⟩]

section CreateContext

variable {l : List (Object Cell)} {id : VAGenericID} {r : ContextResults}

theorem pushContext_adds {ε : Type} {a : Addr} (ok : Bool) (e : ε) :
    (pushContext ok e).Keeps (World.AddsContext l id a) := by
  intro w h
  simpa using ⟨fun _ => h, fun _ => h⟩

theorem popContext_adds {ε : Type} {a : Addr} (ok : Bool) (e : ε) :
    (popContext ok e).Keeps (World.AddsContext l id a) := by
  intro w h
  simpa using ⟨fun _ => h, fun _ => h⟩

theorem modifyContext_adds {ε : Type} {a : Addr} (ha : ∀ o ∈ l, o.obj.addr ≠ a)
    {f : NVContext → NVContext}
    (hf : ∀ ctx, (Payload.context (f ctx)).refs = (Payload.context ctx).refs) :
    (Prog.update fun w => w.modifyContext a f : Prog World ε Unit).Keeps
      (World.AddsContext l id a) := by
  refine .update fun w h => ?_
  rcases h with h | ⟨ctx, hr, h⟩
  · left
    rw [← h]
    exact World.modify_of_ne (h ▸ ha)
  · right
    exact ⟨f ctx, (hf ctx).trans hr, World.modify_append h ha rfl⟩

theorem deleteObject_adds {ε : Type} {a : Addr} (hid : ∀ o ∈ l, o.id ≠ id) :
    (deleteObject id : Prog World ε Unit).Keeps (World.AddsContext l id a) := by
  rintro w (h | ⟨ctx, hr, h⟩)
  · left
    simp [h, World.eraseObject_of_not_mem hid]
  · by_cases hv : id = vaInvalidId
    · right
      exact ⟨ctx, hr, by simp [h, eraseObject, hv]⟩
    · left
      simpa [h] using World.eraseObject_append (o := ⟨.context, id, a, .context ctx⟩) hid hv

theorem failContext_adds (ha : ∀ o ∈ l, o.obj.addr ≠ r.addr) (hid : ∀ o ∈ l, o.id ≠ id)
    (status : NvencStatus) : (failContext r id status).Keeps (World.AddsContext l id r.addr) :=
  .bind (modifyContext_adds ha fun _ => rfl) fun _ => .bind (.update fun _ h => h) fun _ =>
    .bind (deleteObject_adds hid) fun _ => .leave _

theorem createIoBuffers_adds (ha : ∀ o ∈ l, o.obj.addr ≠ r.addr)
    (hid : ∀ o ∈ l, o.id ≠ id) (i : Nat) :
    (createIoBuffers r id i).Keeps (World.AddsContext l id r.addr) := by
  unfold createIoBuffers
  exact .exit (failContext_adds ha hid _) <| .bind (modifyContext_adds ha fun _ => rfl) fun _ =>
    .exit (failContext_adds ha hid _) <| modifyContext_adds ha fun _ => rfl

theorem createEncodeContext_adds (cfg : NVConfig) (width height : Int32) {w : World}
    (hid : w.FreshId) :
    (createEncodeContext cfg width height r).Returns w fun _ w' =>
      w'.objects = w.objects ∨ w.Fresh r.addr ∧
        w'.AddsContext w.objects (w.nextObjId + 1) r.addr := by
  rw [Prog.Returns, createEncodeContext, Prog.ensures_bind, Prog.ensures_read]
  simp only [Prog.ensures_ite, Prog.ensures_bind, Prog.ensures_leave, ensures_allocateObject]
  refine ⟨fun _ => .inl trivial, fun _ => ⟨fun _ => .inl trivial, fun _ ha => ?_⟩⟩
  have hadds : (w.allocate r.addr (.context (.encoder cfg.profile r.ioDepth))).AddsContext w.objects
      (w.nextObjId + 1) r.addr := .inr ⟨_, rfl, rfl⟩
  have hf := failContext_adds ha.ne_addr hid
  have hm := @modifyContext_adds _ (w.nextObjId + 1) VAStatus _ ha.ne_addr
  suffices hk : Prog.Keeps _ (World.AddsContext w.objects (w.nextObjId + 1) r.addr) from
    (hk _ hadds).mono (fun _ _ h => .inr ⟨ha, h⟩) fun _ _ h => .inr ⟨ha, h⟩
  split
  · exact .bind (deleteObject_adds hid) fun _ => .leave _
  · exact .bind (hm fun _ => rfl) fun _ => .bind (pushContext_adds _ _) fun _ => .exit (hf _) <|
      .bind (hm fun _ => rfl) fun _ => .exit (hf _) <| .exit (hf _) <|
      .bind (.forEach fun i _ => createIoBuffers_adds ha.ne_addr hid i) fun _ =>
      .bind (popContext_adds _ _) fun _ => .pure _

/-- What a call that adds a context keeps. -/
theorem World.AddsContext.sound {w w' : World} {a : Addr} (h : w.Sound []) (ha : w.Fresh a)
    (hw : w'.AddsContext w.objects (w.nextObjId + 1) a) : w'.Sound [] := by
  rcases hw with hw | ⟨ctx, hr, hw⟩
  · exact h.of_objects hw
  · have hs : (w.allocate a (.context ctx)).Sound [] := h.allocate ha trivial (by simp [hr])
    exact hs.of_objects hw

theorem createEncodeContext_sound (cfg : NVConfig) (width height : Int32) {w : World}
    (h : w.Sound []) (hid : w.FreshId) :
    (createEncodeContext cfg width height r).Returns w fun _ => World.Sound [] := by
  refine (createEncodeContext_adds cfg width height hid).mono fun _ w' hw => ?_
  rcases hw with hw | ⟨ha, hw⟩
  · exact h.of_objects hw
  · exact hw.sound h ha

theorem createDecodeContext_sound (a : Addr) (cfg : NVConfig)
    (renderTargets : List VAGenericID) {w : World} (h : w.Sound []) (hid : w.FreshId) :
    (createDecodeContext a cfg renderTargets r).Returns w fun _ => World.Sound [] := by
  -- the next id stays free until the allocation
  have ht : (useRenderTarget a renderTargets).Keeps fun w => w.Sound [] ∧ w.FreshId := by
    unfold useRenderTarget
    split
    · exact .pure _
    · refine .bind .read fun w => ?_
      split
      · exact .leave _
      · exact .update fun w h => ⟨h.1.modifyConfig _, h.2.modify⟩
  unfold Prog.Returns createDecodeContext
  cases vaToCuCodec cfg.profile with
  | none => exact h
  | some codec =>
    rw [Prog.ensures_bind]
    refine (ht w ⟨h, hid⟩).mono (fun _ w ⟨h, hid⟩ => ?_) fun _ _ h => h.1
    simp only [Prog.ensures_bind, Prog.ensures_ite, Prog.ensures_leave, Prog.ensures_pure,
      ensures_pushContext, ensures_popContext, ensures_allocateObject]
    refine ⟨fun _ => h, fun _ =>
      ⟨fun _ => h.of_objects rfl, fun _ => ⟨fun _ => h.of_objects rfl, fun _ ha => ?_⟩⟩⟩
    refine ⟨fun _ => ?_, fun _ => World.AddsContext.sound h ha (.inr ⟨_, rfl, rfl⟩)⟩
    rw [ensures_deleteObject]
    have hd : (deleteObject (w.nextObjId + 1) : Prog World VAStatus Unit).Keeps
        (World.AddsContext w.objects (w.nextObjId + 1) r.addr) := deleteObject_adds hid
    exact World.AddsContext.sound h ha (hd _ (.inr ⟨_, rfl, rfl⟩))

theorem nvCreateContext_sound (config : VAGenericID) (width height : Int32)
    (renderTargets : List VAGenericID) {w : World} (h : w.Sound []) (hid : w.FreshId) :
    (nvCreateContext config width height renderTargets r).Returns w fun _ => World.Sound [] := by
  rw [Prog.Returns, nvCreateContext, Prog.ensures_bind, Prog.ensures_read]
  split
  · exact h
  · split
    · exact createEncodeContext_sound _ _ _ h hid
    · exact createDecodeContext_sound _ _ _ h hid

end CreateContext

/-! ## Creating buffers and images -/

section CreateBuffer

variable {w : World}

theorem World.Sound.undo (h : w.Sound []) (hid : w.FreshId) {payload : Payload} {a : Addr}
    (ha : w.Fresh a) (hc : payload.CodedAlone) (hr : payload.refs = []) :
    ((w.allocate a payload).deleteObject (w.nextObjId + 1)).Sound [] := by
  by_cases hv : w.nextObjId + 1 = vaInvalidId
  · have hs : (w.allocate a payload).Sound [] := h.allocate ha hc (by simp [hr])
    refine hs.of_objects ?_
    simp [eraseObject, hv]
  · refine h.of_objects ?_
    simpa using World.eraseObject_append (o := ⟨payload.type, w.nextObjId + 1, a, payload⟩) hid hv

theorem nvCreateBuffer_sound (context : VAGenericID) (type : BufferType) (size numElements : UInt32)
    (dataLow : Fin 16) (a : BufferAlloc) (h : w.Sound []) (hid : w.FreshId) :
    (nvCreateBuffer context type size numElements dataLow a).Returns w fun _ => World.Sound [] := by
  unfold Prog.Returns nvCreateBuffer
  cases a.memory with
  | none =>
    simp only [Prog.ensures_bind, Prog.ensures_read, Prog.ensures_ite, Prog.ensures_leave,
      ensures_allocateObject, ensures_deleteObject]
    exact ⟨fun _ => h, fun _ ha => h.undo hid ha (by simp [Payload.CodedAlone]) rfl⟩
  | some p =>
    simp +contextual only [Prog.ensures_bind, Prog.ensures_read, Prog.ensures_ite,
      Prog.ensures_leave,
      Prog.ensures_wait, Prog.ensures_update, Prog.ensures_pure, ensures_allocateObject,
      World.modifyBuffer_allocate]
    refine ⟨fun _ => h, fun _ ha _ => ⟨fun _ => ?_, fun _ => ?_⟩⟩
    · exact h.allocate ha (by simp [Payload.CodedAlone]) (by simp [Payload.refs])
    · exact h.allocate ha (by simp [Payload.CodedAlone]) (by simp [Payload.refs])

theorem World.Live.of_allocate_buffer {a : Addr} {buf : NVBuffer} :
    (w.allocate a (.buffer buf)).Live (.buffer a) :=
  ⟨_, List.mem_append_right _ (List.mem_singleton.mpr rfl),
    by simp [Payload.provides, Payload.buffer?]⟩

/-- References that are to live objects may be counted. -/
theorem World.Sound.hold (h : w.Sound []) (rs : List Ref) (hl : ∀ r ∈ rs, w.Live r) : w.Sound rs :=
  ⟨h.wf, h.refs, hl⟩

theorem World.Sound.drop {rs : List Ref} (h : w.Sound rs) : w.Sound [] := ⟨h.wf, h.refs, nofun⟩

theorem nvCreateImage_sound (format : Option NVFormat) (width height : UInt32) (a : ImageAlloc)
    (h : w.Sound []) : (nvCreateImage format width height a).Returns w fun _ => World.Sound [] := by
  unfold Prog.Returns nvCreateImage
  cases format with
  | none => exact h
  | some format =>
    have hs {buf : NVBuffer} (ho : buf.ownsPtr) (hc : buf.codedData = 0) (ha : w.Fresh a.image)
        (hb : (w.allocate a.image (.image ⟨width, height, format, 0⟩)).Fresh a.buffer) :
        (((w.allocate a.image (.image ⟨width, height, format, 0⟩)).allocate a.buffer
          (.buffer buf)).modifyImage
          a.image fun img => { img with imageBuffer := a.buffer }).Sound [] := by
      have hi : (w.allocate a.image (.image ⟨width, height, format, 0⟩)).Sound [] :=
        h.allocate ha trivial nofun
      have hib :=
        hi.allocate hb (show (Payload.buffer buf).CodedAlone by simp [Payload.CodedAlone, hc])
        (by simp [Payload.refs, ho])
      refine ((hib.hold [.buffer a.buffer] ?_).modifyImage fun img r hr => .inr ?_).drop
      · simpa using World.Live.of_allocate_buffer
      · by_cases h0 : a.buffer = 0 <;> simp_all [Payload.refs, pointer]
    cases a.memory with
    | none =>
      simp +contextual only [Prog.ensures_bind, Prog.ensures_update, Prog.ensures_pure,
        ensures_allocateObject, World.modifyBuffer_allocate]
      exact fun ha hb => hs rfl rfl ha hb
    | some p =>
      simp +contextual only [Prog.ensures_bind, Prog.ensures_wait, Prog.ensures_update,
        Prog.ensures_pure, ensures_allocateObject, World.modifyBuffer_allocate]
      exact fun ha hb _ => hs rfl rfl ha hb

/-- The object with the id `id` is at `a`. -/
def World.At (w : World) (id : VAGenericID) (a : Addr) : Prop :=
  ∃ o ∈ w.objects, o.id = id ∧ o.obj.addr = a

theorem World.At.hostData (h : w.Wf) {id : VAGenericID} {a : Addr} (hat : w.At id a)
    {sf : NVSurface} (hs : w.surfaceAt a = some sf) (h0 : sf.hostData ≠ 0) :
    w.Live (.hostData id sf.hostData) := by
  obtain ⟨o, ho, hid, ha⟩ := hat
  obtain ⟨o', ho', hobj⟩ := World.surfaceAt_mem hs
  obtain rfl : o = o' := List.inj_on_of_nodup_map h.addrs ho ho' (by rw [ha, hobj])
  exact ⟨o, ho, by simp [Payload.provides, hobj, Payload.surface?, h0, hid]⟩

theorem World.At.modify {id : VAGenericID} {a b : Addr} {g : Payload → Payload} (h : w.At id a) :
    (w.modify b g).At id a := by
  obtain ⟨o, ho, hid, ha⟩ := h
  refine ⟨_, World.mem_modify.mpr ⟨o, ho, rfl⟩, ?_⟩
  by_cases e : o.obj.addr = b
  · rw [if_pos e]
    exact ⟨hid, e.symm.trans ha⟩
  · rw [if_neg e]
    exact ⟨hid, ha⟩

theorem ensureSurfaceHostBuffer_at {ε : Type} {id : VAGenericID} (a : Addr) (alloc : Option Addr) :
    (ensureSurfaceHostBuffer a alloc : Prog World ε Bool).Keeps fun w =>
      w.Sound [] ∧ w.At id a := by
  rintro w ⟨h, hat⟩
  rw [ensures_ensureSurfaceHostBuffer]
  exact fun sf hs => ⟨fun _ => ⟨h, hat⟩, fun h0 => ⟨fun _ => ⟨h, hat⟩, fun p _ _ =>
    ⟨h.setHost hs h0 p, hat.modify⟩⟩⟩

theorem nvDeriveImage_sound (surface : VAGenericID) (a : DeriveAlloc) (h : w.Sound []) :
    (nvDeriveImage surface a).Returns w fun _ => World.Sound [] := by
  rw [Prog.Returns, nvDeriveImage, Prog.ensures_bind, Prog.ensures_read]
  split
  · exact h
  · rename_i sa _ hs
    have hat : w.At surface sa := by
      obtain ⟨o, ho, hid, -, hobj⟩ := World.getSurface_mem hs
      exact ⟨o, ho, hid, by rw [hobj]⟩
    rw [Prog.ensures_bind]
    refine (ensureSurfaceHostBuffer_at sa a.host w ⟨h, hat⟩).mono (fun _ w ⟨h, hat⟩ => ?_)
      fun _ _ h => h.1
    simp only [Prog.ensures_bind, Prog.ensures_ite, Prog.ensures_leave, Prog.ensures_pure,
      Prog.ensures_read, Prog.ensures_need, ensures_allocateObject]
    refine ⟨fun _ => h, fun _ sf hsf hb hi => ?_⟩
    refine World.Sound.allocate (h.allocate hb (by simp [Payload.CodedAlone]) fun r hr =>
      ?_) hi trivial
      fun r hr => ?_
    · by_cases h0 : sf.hostData = 0
      · simp [Payload.refs, pointer, h0] at hr
      · obtain rfl : r = .hostData surface sf.hostData := by
          simpa [Payload.refs, pointer, h0] using hr
        exact hat.hostData h.wf hsf h0
    · obtain rfl : r = .buffer a.buffer := by simpa [Payload.refs, pointer, hb.1] using hr
      exact World.Live.of_allocate_buffer

end CreateBuffer

/-! ## Pictures -/

section Pictures

theorem World.live_context {w : World} {id : VAGenericID} {a : Addr} {ctx : NVContext}
    (h : w.getContext id = some (a, ctx)) : w.Live (.context a) := by
  obtain ⟨o, ho, -, -, hobj⟩ := World.getContext_mem h
  exact ⟨o, ho, by simp [Payload.provides, hobj, Payload.context?]⟩

theorem World.live_surface {w : World} {id : VAGenericID} {a : Addr} {sf : NVSurface}
    (h : w.getSurface id = some (a, sf)) : w.Live (.surface a) := by
  obtain ⟨o, ho, -, -, hobj⟩ := World.getSurface_mem h
  exact ⟨o, ho, by simp [Payload.provides, hobj, Payload.surface?]⟩

theorem World.live_surfaceAt {w : World} {a : Addr} {sf : NVSurface} (h : w.surfaceAt a = some sf) :
    w.Live (.surface a) := by
  obtain ⟨o, ho, hobj⟩ := World.surfaceAt_mem h
  exact ⟨o, ho, by simp [Payload.provides, hobj, Payload.surface?]⟩

theorem mem_pointer {r : Ref} {f : Addr → Ref} {a : Addr} (h : r ∈ pointer f a) : r = f a := by
  unfold pointer at h
  split at h
  · simp at h
  · simpa using h

theorem beginEncode_sound (surface : VAGenericID) (ca sa : Addr) (alloc : Option Addr) :
    (beginEncode surface ca sa alloc).Keeps (World.Sound [.context ca]) :=
  .bind (stable_sound.ensureSurfaceHostBuffer_keeps _ _) fun _ => .exit (.leave _) <|
    .bind (.update fun _ h => h.modifyContext fun _ _ hr => .inl hr) fun _ =>
    .bind (.update fun _ h => h.modifySurface (fun _ => rfl) fun _ _ hr =>
      .inr (by simp [mem_pointer hr])) fun _ =>
    .pure _

theorem beginDecode_sound (ca sa : Addr) :
    (beginDecode ca sa).Keeps (World.Sound [.context ca, .surface sa]) := by
  have hs {f : NVSurface → NVSurface} (hh : ∀ sf, (f sf).hostData = sf.hostData)
      (hc : ∀ sf, (f sf).context = sf.context) :
      (Prog.update fun w => w.modifySurface sa f : Prog World VAStatus Unit).Keeps
        (World.Sound [.context ca, .surface sa]) :=
    .update fun _ h => h.modifySurface hh fun sf r hr => .inl (hc sf ▸ hr)
  have hend : (do
      waitUnlocked sa
      Prog.update fun w => w.modifySurface sa fun sf => { sf with resolving := true }
      Prog.update fun w => w.modifyContext ca fun ctx =>
        { ctx with
          renderTarget := sa
          lastSliceParams := if ctx.codec = .jpeg then 0 else ctx.lastSliceParams }
      return .success : Entry).Keeps (World.Sound [.context ca, .surface sa]) := by
    refine .bind (World.Stable.waitUnlocked_keeps _) fun _ =>
      .bind (hs (fun _ => rfl) fun _ => rfl) fun _ =>
      .bind (.update fun _ h => h.modifyContext fun ctx r hr => ?_) fun _ => .pure _
    simp only [Payload.refs, List.mem_append] at hr ⊢
    rcases hr with (hr | hr) | hr
    · exact .inr (by simp [mem_pointer hr])
    · exact .inl (.inl (.inr hr))
    · split at hr
      · simp [pointer] at hr
      · exact .inl (.inr hr)
  refine .bind .read fun w => .bind (.need _) fun sf => .exit (hs (fun _ => rfl) fun _ => rfl) <|
    .bind .read fun w => .bind (.need _) fun ctx => .bind (.need _) fun sf => ?_
  refine .ite (.exit (.leave _) <| .bind (hs (fun _ => rfl) fun _ => rfl) fun _ =>
    .bind (.update fun _ h => h.modifyContext fun _ _ hr => .inl hr) fun _ => hend) hend

theorem nvBeginPicture_sound (context renderTarget : VAGenericID) (alloc : Option Addr) {w : World}
    (h : w.Sound []) : (nvBeginPicture context renderTarget alloc).Returns w fun _ =>
      World.Sound [] := by
  rw [Prog.Returns, nvBeginPicture, Prog.ensures_bind, Prog.ensures_read]
  split
  · exact h
  · exact h
  · rename_i ca ctx sa sf hc hs
    have hlc := World.live_context hc
    have hls := World.live_surface hs
    split
    · exact keeps_live (beginEncode_sound _ _ _ _) h (by simpa using hlc)
    · exact keeps_live (beginDecode_sound _ _) h (by simpa using ⟨hlc, hls⟩)

/-- The slice parameters are those of a live buffer. -/
theorem renderDecodeBuffer_sound (ca : Addr) (b : VAGenericID) :
    (renderDecodeBuffer ca b).Keeps (World.Sound []) := by
  intro w h
  rw [renderDecodeBuffer, Prog.ensures_bind, Prog.ensures_read]
  split
  · exact h
  · rename_i a buf hb
    simp only [Prog.ensures_ite, Prog.ensures_bind, Prog.ensures_wait, Prog.ensures_update,
      Prog.ensures_pure]
    refine ⟨fun hp _ => ⟨fun ht => ?_, fun _ => h⟩, fun _ => h⟩
    have hl : w.Live (.slices buf.ptr) := by
      obtain ⟨o, ho, -, -, hobj⟩ := World.getBuffer_mem hb
      exact ⟨o, ho, by simp [Payload.provides, hobj, Payload.buffer?, hp, ht]⟩
    refine ((h.hold [.slices buf.ptr] (by simpa using hl)).modifyContext fun ctx r hr => ?_).drop
    simp only [Payload.refs, List.mem_append] at hr ⊢
    exact hr.elim (fun hr => .inl (.inl hr)) fun hr => .inr (by simp [mem_pointer hr])

theorem nvRenderPicture_sound (context : VAGenericID)
    (buffers : List (VAGenericID × Option VAGenericID)) :
    (nvRenderPicture context buffers).Keeps (World.Sound []) := by
  refine .bind .read fun w => ?_
  split
  · exact .leave _
  · exact .ite (.bind (.forEach fun b _ => stable_sound.renderEncodeBuffer_keeps _ b)
      fun _ => .pure _)
      (.bind (.forEach fun b _ => renderDecodeBuffer_sound _ b.1) fun _ => .pure _)

/-- A full ring is empty after one more entry. -/
theorem mem_pending_enqueue {N : Nat} {q : RingBuffer N Addr} {a b : Addr}
    (h : b ∈ (q.enqueue a).pending) : b ∈ q.pending ∨ b = a := by
  by_cases hf : q.IsFull
  · simp [RingBuffer.pending_enqueue_full q a hf] at h
  · simpa [RingBuffer.pending_enqueue q a hf] using h

theorem endDecode_sound (ca : Addr) (ctx : NVContext) (r : EndResults) {w : World} (h : w.Sound [])
    (hc : w.Live (.context ca)) : (endDecode ca ctx r).Returns w fun _ => World.Sound [] := by
  simp only [Prog.Returns, endDecode, Prog.ensures_bind, Prog.ensures_ite, Prog.ensures_leave,
    Prog.ensures_read, Prog.ensures_need, Prog.ensures_update, Prog.ensures_pure,
      ensures_pushContext,
    ensures_popContext]
  refine ⟨fun _ => h, fun _ =>
    ⟨fun _ => h, fun _ => ⟨fun _ => h.of_objects rfl, fun _ sf hs => ?_⟩⟩⟩
  have h₁ : w.push.pop.Sound [.context ca, .surface ctx.renderTarget] := by
    refine (h.of_objects rfl).hold _ ?_
    simpa using ⟨hc.of_objects rfl, World.live_surfaceAt hs⟩
  have h₂ := h₁.modifySurface (a := ctx.renderTarget) (f := fun sf => { sf with context := ca })
    (fun _ => rfl) fun _ _ hr => .inr (by simp [mem_pointer hr])
  refine (h₂.modifyContext fun ctx' r hr => ?_).drop
  simp only [Payload.refs, List.mem_append, List.mem_map] at hr ⊢
  rcases hr with (hr | ⟨b, hb, rfl⟩) | hr
  · exact .inl (.inl (.inl hr))
  · exact (mem_pending_enqueue hb).elim (fun hb => .inl (.inl (.inr ⟨b, hb, rfl⟩)))
      fun hb => .inr (by simp [hb])
  · exact .inl (.inr hr)

theorem nvEndPicture_sound (context : VAGenericID) (r : EndResults) {w : World} (h : w.Sound []) :
    (nvEndPicture context r).Returns w fun _ => World.Sound [] := by
  rw [Prog.Returns, nvEndPicture, Prog.ensures_bind, Prog.ensures_read]
  split
  · exact h
  · rename_i ca ctx hc
    split
    · exact stable_sound.endEncode_keeps _ _ _ w h
    · exact endDecode_sound _ _ _ h (World.live_context hc)

/-- The resolve thread takes an entry that is there. -/
theorem resolveSurface_sound (ca : Addr) (notified : Bool) {w : World} (h : w.Sound []) :
    (resolveSurface ca notified).Returns w fun _ => World.Sound [] := by
  simp only [Prog.Returns, resolveSurface, Prog.ensures_bind, Prog.ensures_read, Prog.ensures_need,
    Prog.ensures_wait, Prog.ensures_update]
  intro ctx hc hne
  have h₁ : (w.modifyContext ca fun ctx =>
      { ctx with surfaceQueue := ctx.surfaceQueue.dequeue }).Sound [] := by
    refine h.modifyContextAt fun o ho ctx' hobj r hr => .inl ?_
    obtain ⟨o', ho', hobj'⟩ := World.contextAt_mem hc
    obtain rfl : o = o' := List.inj_on_of_nodup_map h.wf.addrs ho ho' (by rw [hobj, hobj'])
    obtain rfl : ctx' = ctx := by simpa using hobj.symm.trans hobj'
    simp only [Payload.refs, List.mem_append, RingBuffer.pending_dequeue _ hne.2, List.map_cons,
      List.mem_cons] at hr ⊢
    exact hr.imp_left fun hr => hr.imp_right .inr
  intro sf _
  simp only [Prog.ensures_ite, Prog.ensures_bind, Prog.ensures_update, Prog.ensures_pure]
  exact ⟨fun _ => h₁.modifySurface (fun _ => rfl) fun _ _ hr => .inl hr, fun _ => h₁⟩

end Pictures

end NvVaapi.Objects
