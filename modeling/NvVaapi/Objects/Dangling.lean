import NvVaapi.Objects.References

/-!
# Destroying what nothing refers to

* `ApiCall.Careful`: a call destroys nothing that another object refers to.
* One lemma for each entrypoint that destroys objects: such a call keeps every reference alive.
* `references_live`: so do all calls.
-/

namespace NvVaapi.Objects

/-- None of `stay` refers to an object with an id of `ids`. -/
def World.Unreferenced (w : World) (ids : List VAGenericID) (stay : List (Object Cell)) : Prop :=
  ∀ o ∈ stay, ∀ r ∈ o.obj.payload.refs, ∀ x ∈ w.objects, x.id ∈ ids →
    ¬x.obj.payload.provides x.id x.obj.addr r

/-- Each object of `w'` is one of `w`, with no more references from it or to it. -/
def World.Shrinks (w w' : World) : Prop :=
  ∀ o' ∈ w'.objects, ∃ o ∈ w.objects, o'.id = o.id ∧ o'.type = o.type ∧
    (∀ r ∈ o'.obj.payload.refs, r ∈ o.obj.payload.refs) ∧
    ∀ r, o'.obj.payload.provides o'.id o'.obj.addr r → o.obj.payload.provides o.id o.obj.addr r

section Destroy

variable {w w' w'' : World} {id : VAGenericID} {a : Addr}

theorem World.Shrinks.refl (w : World) : w.Shrinks w :=
  fun o ho => ⟨o, ho, rfl, rfl, fun _ h => h, fun _ h => h⟩

theorem World.Shrinks.trans (h : w.Shrinks w') (h' : w'.Shrinks w'') : w.Shrinks w'' := by
  intro o ho
  obtain ⟨o₁, h₁, hid₁, ht₁, hr₁, hp₁⟩ := h' o ho
  obtain ⟨o₂, h₂, hid₂, ht₂, hr₂, hp₂⟩ := h o₁ h₁
  exact ⟨o₂, h₂, hid₁.trans hid₂, ht₁.trans ht₂, fun r hr => hr₂ r (hr₁ r hr),
    fun r hr => hp₂ r (hp₁ r hr)⟩

theorem World.Shrinks.of_objects (h : w.Shrinks w') (ho : w''.objects = w'.objects) :
    w.Shrinks w'' :=
  fun o hm => h o (ho ▸ hm)

theorem World.Shrinks.deleteObject (h : w.Shrinks w') (id : VAGenericID) :
    w.Shrinks (w'.deleteObject id) :=
  fun o ho => h o (World.mem_eraseObject ho)

theorem World.Shrinks.modify (h : w.Shrinks w') {g : Payload → Payload}
    (hr : ∀ p, ∀ r ∈ (g p).refs, r ∈ p.refs)
    (hp : ∀ p id r, (g p).provides id a r → p.provides id a r) : w.Shrinks (w'.modify a g) := by
  intro o' ho'
  obtain ⟨o, ho, rfl⟩ := World.mem_modify.mp ho'
  obtain ⟨x, hx, hid, ht, hrefs, hprov⟩ := h o ho
  by_cases e : o.obj.addr = a
  · simp only [e, if_true]
    exact ⟨x, hx, hid, ht, fun r hm => hrefs r (hr _ r hm), fun r hm => hprov r (e ▸ hp _ _ r hm)⟩
  · simp only [e, if_false]
    exact ⟨x, hx, hid, ht, hrefs, hprov⟩

theorem World.Shrinks.modifySurface (h : w.Shrinks w') {f : NVSurface → NVSurface}
    (hh : ∀ sf, (f sf).hostData = sf.hostData ∨ (f sf).hostData = 0)
    (hc : ∀ sf, (f sf).context = sf.context) : w.Shrinks (w'.modifySurface a f) := by
  refine h.modify (fun p r hr => ?_) fun p id r hp => ?_
  · cases p with
    | surface sf => simpa [Payload.refs, hc] using hr
    | _ => exact hr
  · cases p with
    | surface sf =>
      cases r with
      | hostData i q =>
        have hq : q ≠ 0 ∧ id = i ∧ (f sf).hostData = q := by
          simpa [Payload.provides, Payload.surface?] using hp
        rcases hh sf with hh | hh
        · simpa [Payload.provides, Payload.surface?, ← hh] using hq
        · exact absurd (hq.2.2.symm.trans hh) hq.1
      | _ => exact hp
    | _ => exact hp

theorem World.Shrinks.modifyContext (h : w.Shrinks w') {f : NVContext → NVContext}
    (hf : ∀ ctx, (Payload.context (f ctx)).refs = (Payload.context ctx).refs) :
    w.Shrinks (w'.modifyContext a f) := by
  refine h.modify (fun p r hr => ?_) fun p id r hp => ?_
  · cases p with
    | context ctx => exact hf ctx ▸ hr
    | _ => exact hr
  · cases p <;> cases r <;> exact hp

theorem World.Shrinks.unmap (h : w.Shrinks w') :
    w.Shrinks (w'.modifyBuffer a fun buf => { buf with mappedSurfaceLock := false }) :=
  h.modify (fun p r hr => by cases p <;> exact hr) fun p id r hp => by
    cases p <;> cases r <;> exact hp

theorem World.Unreferenced.shrinks {ids : List VAGenericID} (h : w.Unreferenced ids w.objects)
    (hs : w.Shrinks w') : w'.Unreferenced ids w'.objects := by
  intro o ho r hr x hx hid hp
  obtain ⟨o₀, ho₀, -, -, hrefs, -⟩ := hs o ho
  obtain ⟨x₀, hx₀, hid₀, -, -, hprov⟩ := hs x hx
  exact h o₀ ho₀ r (hrefs r hr) x₀ hx₀ (hid₀ ▸ hid) (hprov r hp)

theorem deleteObject_sound (h : w.Sound []) (hu : w.Unreferenced [id] w.objects) :
    (w.deleteObject id).Sound [] :=
  h.deleteObject fun o ho r hr x hx hid => hu o (World.mem_eraseObject ho) r hr x hx (by simp [hid])

theorem nvDestroyConfig_sound (h : w.Sound []) (hu : w.Unreferenced [id] w.objects) :
    (nvDestroyConfig id).Returns w fun _ => World.Sound [] :=
  deleteObject_sound h hu

/-- Without its host buffer a surface to which nothing refers may go. -/
theorem destroySurface_sound (h : w.Sound [])
    (hu : (w.getSurface id).isSome → w.Unreferenced [id] w.objects) :
    (destroySurface id).Ensures w (fun _ w' => w'.Sound [] ∧ w.Shrinks w' ∧
      (w.getSurface id).isSome)
      fun _ => World.Sound [] := by
  rw [destroySurface, Prog.ensures_bind, Prog.ensures_read]
  split
  · exact h
  · rename_i a sf hs
    replace hu := hu (by simp [hs])
    simp only [Prog.ensures_bind, Prog.ensures_update, ensures_free, ensures_deleteObject, hs,
      Option.isSome_some, and_true]
    have hshr :
        w.Shrinks ((w.free sf.hostData).modifySurface a fun sf => { sf with hostData := 0 }) :=
      ((World.Shrinks.refl w).of_objects rfl).modifySurface (fun _ => .inr rfl) fun _ => rfl
    refine ⟨deleteObject_sound ?_ (hu.shrinks hshr), hshr.deleteObject id⟩
    refine (h.free (a := sf.hostData)).modify ?_ ?_ ?_
    · rintro ⟨_, _, _, p⟩ _ _ hc
      cases p <;> exact ⟨rfl, hc⟩
    · intro o ho ha r hr hp
      -- nothing refers to what the surface provides
      obtain ⟨o', ho', hid, -, hobj⟩ := World.getSurface_mem hs
      obtain rfl : o = o' := List.inj_on_of_nodup_map h.wf.addrs ho ho' (by rw [ha, hobj])
      obtain ⟨y, hy, hm⟩ := hr.resolve_right (by simp)
      exact absurd (ha ▸ hp) (hu y hy r hm o ho (by simp [hid]))
    · rintro ⟨_, _, _, p⟩ ho _ r hr
      cases p <;> exact .inl ⟨_, ho, hr⟩

/-- The surfaces of the list up to the first id that is not one. -/
def World.surfacesOf (w : World) (surfaces : List VAGenericID) : List VAGenericID :=
  surfaces.takeWhile fun id => (w.getSurface id).isSome

theorem forEach_destroySurface_sound {w₀ : World} (h₀ : w₀.Wf) {ids : List VAGenericID}
    (h : w.Sound []) (hs : w₀.Shrinks w)
    (hu : ∀ id ∈ w₀.surfacesOf ids, w₀.Unreferenced [id] w₀.objects) :
    (Prog.forEach ids destroySurface).Ensures w (fun _ => World.Sound []) fun _ =>
      World.Sound [] := by
  induction ids generalizing w with
  | nil => exact h
  | cons id ids ih =>
    have hsome (hw : (w.getSurface id).isSome) : (w₀.getSurface id).isSome := by
      rw [h.wf.getSurface_isSome] at hw
      rw [h₀.getSurface_isSome]
      obtain ⟨hv, o, ho, hid, ht⟩ := hw
      obtain ⟨x, hx, hxid, hxt, -⟩ := hs o ho
      exact ⟨hv, x, hx, hxid ▸ hid, hxt ▸ ht⟩
    have hhead (hw : (w.getSurface id).isSome) : id ∈ w₀.surfacesOf (id :: ids) := by
      simp [World.surfacesOf, hsome hw]
    rw [Prog.ensures_forEach_cons]
    refine (destroySurface_sound h fun hw => (hu id (hhead hw)).shrinks hs).mono ?_ fun _ _ h => h
    rintro _ w' ⟨h', hs', hw⟩
    refine ih h' (hs.trans hs') fun id' hid' => hu id' ?_
    simp only [World.surfacesOf, List.takeWhile_cons, hsome hw, if_true]
    exact List.mem_cons_of_mem _ hid'

theorem nvDestroySurfaces_sound {surfaces : List VAGenericID} (h : w.Sound [])
    (hu : ∀ id ∈ w.surfacesOf surfaces, w.Unreferenced [id] w.objects) :
    (nvDestroySurfaces surfaces).Returns w fun _ => World.Sound [] := by
  rw [Prog.Returns, nvDestroySurfaces, Prog.ensures_bind]
  exact forEach_destroySurface_sound h.wf h (.refl w) hu

theorem nvDestroyContext_sound (r : DestroyResults) (h : w.Sound [])
    (hu : (w.getContext id).isSome → w.Unreferenced [id] w.objects) :
    (nvDestroyContext id r).Returns w fun _ => World.Sound [] := by
  rw [Prog.Returns, nvDestroyContext, Prog.ensures_bind, Prog.ensures_read]
  split
  · exact h
  · rename_i a ctx hc
    replace hu := hu (by simp [hc])
    have hs {f : World → World} (hf : ∀ w, (f w).objects = w.objects) :
        (Prog.update f : Prog World Bool Unit).Keeps fun w' => w'.Sound [] ∧ w.Shrinks w' :=
      .update fun w' h => ⟨h.1.of_objects (hf w'), h.2.of_objects (hf w')⟩
    have hd : (destroyContext a ctx r).Keeps fun w' => w'.Sound [] ∧ w.Shrinks w' := by
      unfold destroyContext pushContext popContext
      refine .bind (hs fun _ => rfl) fun _ => .bind (.exit (.leave _) (hs fun _ => rfl)) fun _ =>
        .exit (.update fun w' h =>
          ⟨h.1.modifyContext fun _ _ hr => .inl hr, h.2.modifyContext fun _ => rfl⟩) <|
        .bind (.bind (hs fun _ => rfl) fun _ => .ite (.leave _) (.pure _)) fun _ => .pure _
    simp only [Prog.ensures_bind, Prog.ensures_call, ensures_deleteObject, Prog.ensures_pure]
    exact (hd w ⟨h, .refl w⟩).mono (fun _ w' h => deleteObject_sound h.1 (hu.shrinks h.2))
      fun _ w' h => deleteObject_sound h.1 (hu.shrinks h.2)

theorem nvDestroyBuffer_sound (h : w.Sound [])
    (hu : (w.getBuffer id).isSome → w.Unreferenced [id] w.objects) :
    (nvDestroyBuffer id).Returns w fun _ => World.Sound [] := by
  rw [Prog.Returns, nvDestroyBuffer, Prog.ensures_bind, Prog.ensures_read]
  split
  · exact h
  · rename_i a buf hb
    replace hu := hu (by simp [hb])
    have hd : (do deleteObject id; return .success : Entry).Keeps fun w' =>
        w'.Sound [] ∧ w.Shrinks w' :=
      fun w' h => ⟨deleteObject_sound h.1 (hu.shrinks h.2), h.2.deleteObject id⟩
    have hf (a : Addr) : (free a : Prog World VAStatus Unit).Keeps fun w' =>
        w'.Sound [] ∧ w.Shrinks w' :=
      fun w' h => ⟨h.1.free, h.2.of_objects rfl⟩
    have hb :
        (Prog.update fun w => w.modifyBuffer a fun buf => { buf with mappedSurfaceLock := false } :
        Prog World VAStatus Unit).Keeps fun w' => w'.Sound [] ∧ w.Shrinks w' :=
      .update fun w' h => ⟨h.1.modifyFlags fun _ => ⟨rfl, rfl, rfl, rfl, rfl⟩, h.2.unmap⟩
    have hkeeps {p : Entry} (hp : p.Keeps fun w' => w'.Sound [] ∧ w.Shrinks w') :
        p.Ensures w (fun _ => World.Sound []) fun _ => World.Sound [] :=
      (hp w ⟨h, .refl w⟩).mono (fun _ _ h => h.1) fun _ _ h => h.1
    apply hkeeps
    refine .exit (hf _) (.bind (hf _) fun _ => .ite ?_ hd)
    split
    · exact .bind hb fun _ => hd
    · refine .bind (.update fun w' h => ?_) fun _ => .bind hb fun _ => hd
      exact ⟨h.1.modifySurface (fun _ => rfl) fun _ _ hr => .inl hr,
        h.2.modifySurface (fun _ => .inl rfl) fun _ => rfl⟩

/-- The ids that `nvDestroyImage` deletes: that of the image's buffer and its own. -/
def World.imageIds (w : World) (image : VAGenericID) : List VAGenericID :=
  match w.getImage image with
  | none => []
  | some (_, img) => (w.getBufferByPtr img.imageBuffer).toList.map Prod.fst ++ [image]

def World.deleteObjects (w : World) (ids : List VAGenericID) : World :=
  ids.foldl World.deleteObject w

theorem World.Sound.deleteObjects {ids : List VAGenericID} (h : w.Sound [])
    (hu : w.Unreferenced ids (w.deleteObjects ids).objects) : (w.deleteObjects ids).Sound [] := by
  have hsub : ∀ ids (w : World), ∀ o ∈ (w.deleteObjects ids).objects, o ∈ w.objects := by
    intro ids
    induction ids with
    | nil => exact fun _ _ ho => ho
    | cons id ids ih => exact fun w o ho => World.mem_eraseObject (ih _ o ho)
  have hlive : ∀ (r : Ref) (ids) (w : World), w.Live r →
      (∀ x ∈ w.objects, x.id ∈ ids → ¬x.obj.payload.provides x.id x.obj.addr r) →
      (w.deleteObjects ids).Live r := by
    intro r ids
    induction ids with
    | nil => exact fun _ h _ => h
    | cons id ids ih =>
      intro w h hu
      refine ih _ (h.deleteObject fun x hx hid => hu x hx (by simp [hid])) fun x hx hid => ?_
      exact hu x (World.mem_eraseObject hx) (List.mem_cons_of_mem _ hid)
  have hwf : ∀ ids (w : World), w.Wf → (w.deleteObjects ids).Wf := by
    intro ids
    induction ids with
    | nil => exact fun _ h => h
    | cons id ids ih => exact fun w h => ih _ (h.deleteObject id)
  exact ⟨hwf ids w h.wf, fun o ho r hr =>
    hlive r ids w (h.refs o (hsub ids w o ho) r hr) (hu o ho r hr), nofun⟩

theorem nvDestroyImage_sound (h : w.Sound [])
    (hu : w.Unreferenced (w.imageIds id) (w.deleteObjects (w.imageIds id)).objects) :
    (nvDestroyImage id).Returns w fun _ => World.Sound [] := by
  have hd := h.deleteObjects hu
  rw [Prog.Returns, nvDestroyImage, Prog.ensures_bind, Prog.ensures_read]
  split
  · exact h
  · rename_i a img hi
    rw [World.imageIds, hi] at hd
    split
    · rename_i hb
      simpa [hb, World.deleteObjects] using hd
    · rename_i b buf hb
      have hd : ((w.deleteObject b).deleteObject id).Sound [] := by
        simpa [hb, World.deleteObjects] using hd
      simp only [Prog.ensures_bind, Prog.ensures_ite, ensures_free, ensures_deleteObject,
        Prog.ensures_pure]
      exact ⟨fun _ => hd.of_objects rfl, fun _ => hd⟩

end Destroy

/-! ## Any calls -/

/-- The call destroys no object that another one refers to, and the id of what it creates is
free. -/
def ApiCall.Careful (w : World) : ApiCall → Prop
  | .destroyConfig config => w.Unreferenced [config] w.objects
  | .destroySurfaces surfaces => ∀ id ∈ w.surfacesOf surfaces, w.Unreferenced [id] w.objects
  | .destroyContext context _ => (w.getContext context).isSome → w.Unreferenced [context] w.objects
  | .destroyBuffer buffer => (w.getBuffer buffer).isSome → w.Unreferenced [buffer] w.objects
  | .destroyImage image =>
    w.Unreferenced (w.imageIds image) (w.deleteObjects (w.imageIds image)).objects
  | .createContext .. | .createBuffer .. => w.FreshId
  | _ => True

theorem entry_sound {w : World} {call : ApiCall} (h : w.Sound []) (hc : call.Careful w) :
    call.entry.Returns w fun _ => World.Sound [] := by
  cases call with
  | destroyConfig config => exact nvDestroyConfig_sound h hc
  | destroySurfaces surfaces => exact nvDestroySurfaces_sound h hc
  | createContext config width height renderTargets r => exact nvCreateContext_sound _ _ _ _ h hc
  | destroyContext context r => exact nvDestroyContext_sound r h hc
  | createBuffer context type size numElements dataLow a =>
    exact nvCreateBuffer_sound _ _ _ _ _ _ h hc
  | destroyBuffer buffer => exact nvDestroyBuffer_sound h hc
  | beginPicture context renderTarget alloc => exact nvBeginPicture_sound _ _ _ h
  | renderPicture context buffers => exact nvRenderPicture_sound _ _ w h
  | endPicture context r => exact nvEndPicture_sound _ _ h
  | createImage format width height a => exact nvCreateImage_sound _ _ _ _ h
  | deriveImage surface a => exact nvDeriveImage_sound _ _ h
  | destroyImage image => exact nvDestroyImage_sound h hc
  | resolve context notified => exact resolveSurface_sound _ _ h
  | _ => exact stable_sound.entry rfl w h

theorem World.Sound.init (info : DriverInfo) (cudaContext : CUcontext)
    (cudaStack : List CUcontext) : (World.init info cudaContext cudaStack).Sound [] :=
  ⟨.init info cudaContext cudaStack, by simp [World.init], by simp⟩

/-- While no call destroys what another object refers to, every reference is to a live object. -/
theorem references_live {w : World} (h : objectSystem.ReachWhen (fun w call => call.Careful w) w) :
    ∀ r, w.Refers r → w.Live r := by
  have hs : w.Sound [] := by
    refine h.invariant (fun w ⟨_, _, _, hw⟩ => hw ▸ .init _ _ _) fun w call w' hw hc hstep => ?_
    exact step_returns (entry_sound hw hc) hstep
  rintro r ⟨o, ho, hr⟩
  exact hs.refs o ho r hr

instance (w : World) (ids : List VAGenericID) (stay : List (Object Cell)) :
    Decidable (w.Unreferenced ids stay) :=
  inferInstanceAs (Decidable (∀ o ∈ stay, ∀ r ∈ o.obj.payload.refs, ∀ x ∈ w.objects,
    x.id ∈ ids → ¬_))

instance (w : World) (r : Ref) : Decidable (w.Live r) :=
  inferInstanceAs (Decidable (∃ o ∈ w.objects, o.obj.payload.provides o.id o.obj.addr r))

instance (w : World) (r : Ref) : Decidable (w.Refers r) :=
  inferInstanceAs (Decidable (∃ o ∈ w.objects, r ∈ o.obj.payload.refs))

instance (w : World) (call : ApiCall) : Decidable (call.Careful w) :=
  match call with
  | .destroyConfig config => inferInstanceAs (Decidable (w.Unreferenced [config] w.objects))
  | .destroySurfaces surfaces => List.decidableBAll _ (w.surfacesOf surfaces)
  | .destroyContext context _ =>
    inferInstanceAs (Decidable (_ → w.Unreferenced [context] w.objects))
  | .destroyBuffer buffer => inferInstanceAs (Decidable (_ → w.Unreferenced [buffer] w.objects))
  | .destroyImage image => inferInstanceAs (Decidable (w.Unreferenced (w.imageIds image) _))
  | .createContext .. | .createBuffer .. => inferInstanceAs (Decidable w.FreshId)
  | .createConfig .. | .createSurfaces .. | .bufferSetNumElements .. | .mapBuffer ..
  | .unmapBuffer ..
  | .beginPicture .. | .renderPicture .. | .endPicture .. | .syncSurface .. | .createImage ..
  | .deriveImage .. | .getImage .. | .putImage .. | .lockSurface .. | .querySurfaceAttributes ..
  | .exportSurfaceHandle .. | .resolve .. => .isTrue trivial

/-- The results of calls that all succeed. -/
def EndResults.ok : EndResults where
  pushed := true
  popped := true
  decodePicture := true
  lockInputBuffer := .success
  unlockInputBuffer := .success
  encodePicture := .success
  otherSize := false
  reconfigureEncoder := none
  encodeAfterReconfigure := .success
  encodeAtContextSize := .success
  lockBitstream := .success
  unlockBitstream := .success

/-- A picture decoded into a surface. -/
def decodeOne : List ApiCall :=
  [.createConfig .h264High .vld [] 1, .createSurfaces rtFormatYuv420 16 16 [⟨2, some 3⟩] true true,
    .createContext 1 16 16 [2] (.ok 4), .beginPicture 3 2 none, .endPicture 3 .ok]

/-- Then the surface refers to the context. -/
theorem references_live_decoded :
    ∃ w : World, w.Refers (.context 4) ∧ ∀ r, w.Refers r → w.Live r := by
  obtain ⟨w, hr, hw⟩ : ∃ w, objectSystem.run (.init plainInfo 0 []) decodeOne = some w ∧
      w.Refers (.context 4) :=
    ⟨_, rfl, by decide⟩
  have h0 : objectSystem.ReachWhen (fun w call => call.Careful w) (.init plainInfo 0 []) :=
    .init ⟨_, _, _, rfl⟩
  exact ⟨w, hw, references_live (h0.run (by decide) hr)⟩

/-- And still does when the context is destroyed. -/
theorem references_dangle : ∃ w r, objectSystem.Reach w ∧ w.Refers r ∧ ¬w.Live r := by
  obtain ⟨w, hr, hw⟩ : ∃ w, objectSystem.run (.init plainInfo 0 [])
      (decodeOne ++ [.resolve 4 true, .destroyContext 3 ⟨true, true⟩]) = some w ∧
      w.Refers (.context 4) ∧ ¬w.Live (.context 4) :=
    ⟨_, rfl, by decide⟩
  exact ⟨w, _, (init_reach plainInfo 0 []).run hr, hw⟩

end NvVaapi.Objects
