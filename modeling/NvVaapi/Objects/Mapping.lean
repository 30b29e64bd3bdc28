import NvVaapi.Objects.WellFormed

/-!
# The mutex of a surface across calls

* `Payload.holds`: a buffer records that it holds the mutex of a surface.
* `World.Locks`: the mutex of a surface is held exactly while one buffer holds it.
* One lemma for each call on images, and `surface_locked_iff` for any sequence of them.
-/

namespace NvVaapi.Objects

/-- The buffer holds the mutex of the surface. -/
def Payload.holds (surface : VAGenericID) : Payload → Bool
  | .buffer buf => buf.mappedSurfaceLock && buf.surfaceId = surface
  | _ => false

namespace World

/-- How many buffers hold the mutex of the surface. -/
def holders (w : World) (surface : VAGenericID) : Nat :=
  w.objects.countP fun o => o.obj.payload.holds surface

/-- Not in strict mode, the mutex of the surface at `a` is held exactly while one buffer holds
it. -/
structure Locks (surface : VAGenericID) (a : Addr) (w : World) : Prop where
  valid : surface ≠ vaInvalidId
  wf : w.Wf
  ids : (w.objects.map Object.id).Nodup
  plain : w.info.encStrictMode = false
  images : ∀ o ∈ w.objects, ∀ buf, o.obj.payload = .buffer buf → buf.mappedSurfaceLock →
    buf.surfaceId = surface → buf.bufferType = .image
  held : ∃ o ∈ w.objects, ∃ sf, o.id = surface ∧ o.type = .surface ∧ o.obj = ⟨a, .surface sf⟩ ∧
    w.holders surface = sf.locked.toNat

variable {w : World} {a b : Addr} {surface : VAGenericID} {g : Payload → Payload} {o : Object Cell}

/-- A write to an object changes a count by what it changes there. -/
theorem countP_modify (h : w.Wf) (ho : o ∈ w.objects) (p : Object Cell → Bool) :
    (w.modify o.obj.addr g).objects.countP p + (p o).toNat =
      w.objects.countP p + (p { o with obj := ⟨o.obj.addr, g o.obj.payload⟩ }).toNat := by
  obtain ⟨l, r, hlr⟩ := List.append_of_mem ho
  have hn := h.addrs
  simp only [hlr, List.map_append, List.map_cons, List.nodup_append, List.nodup_cons] at hn
  have hl : ∀ x ∈ l, x.obj.addr ≠ o.obj.addr := fun x hx => by
    exact hn.2.2 _ (List.mem_map.mpr ⟨x, hx, rfl⟩) _ (by simp)
  have hr : ∀ x ∈ r, x.obj.addr ≠ o.obj.addr := fun x hx e =>
    hn.2.1.1 (e ▸ List.mem_map.mpr ⟨x, hx, rfl⟩)
  have hsame {m : List (Object Cell)} (hm : ∀ x ∈ m, x.obj.addr ≠ o.obj.addr) :
      (m.map fun x => if x.obj.addr =
        o.obj.addr then { x with obj := ⟨o.obj.addr, g x.obj.payload⟩ } else x) = m :=
    modify_of_ne (w := { w with objects := m }) hm
  simp only [modify, hlr, List.map_append, List.map_cons, hsame hl, hsame hr, if_true,
    List.countP_append, List.countP_cons]
  cases p o <;> cases p { o with obj := ⟨o.obj.addr, g o.obj.payload⟩ } <;> simp <;> omega

theorem countP_eraseObject {l : List (Object Cell)} {id : VAGenericID} {p : Object Cell → Bool}
    (h : ∀ x ∈ l, x.id = id → ¬p x) : (eraseObject l id).countP p = l.countP p := by
  unfold eraseObject
  split
  · rfl
  · obtain he | ⟨x, l₁, l₂, -, hx, rfl, he⟩ :=
      List.exists_or_eq_self_of_eraseP (fun o : Object Cell => o.id = id) l
    · rw [he]
    · have hp : p x = false := by simpa using h x (by simp) (by simpa using hx)
      simp [he, hp]

namespace Locks

theorem of_objects {w' : World} (h : w.Locks surface a) (ho : w'.objects = w.objects)
    (hi : w'.info = w.info) : w'.Locks surface a where
  valid := h.valid
  wf := h.wf.of_objects ho
  ids := ho ▸ h.ids
  plain := hi ▸ h.plain
  images := ho ▸ h.images
  held := by
    obtain ⟨o, hm, sf, hid, ht, hobj, hc⟩ := h.held
    exact ⟨o, ho ▸ hm, sf, hid, ht, hobj, by rw [holders, ho]; exact hc⟩

theorem allocate {payload : Payload} (h : w.Locks surface a) (hb : w.Fresh b) (hid : w.FreshId)
    (hc : payload.CodedAlone) (hn : ∀ buf, payload = .buffer buf → buf.mappedSurfaceLock = false) :
    (w.allocate b payload).Locks surface a where
  valid := h.valid
  wf := h.wf.allocate hb hc
  ids := by
    simp only [allocate_objects, List.map_append, List.map_cons, List.map_nil]
    refine List.nodup_append.mpr ⟨h.ids, by simp, ?_⟩
    simpa [FreshId] using hid
  plain := h.plain
  images := by
    simp only [allocate_objects, List.mem_append, List.mem_singleton]
    rintro o (ho | rfl) buf hbuf hl hs
    · exact h.images o ho buf hbuf hl hs
    · exact absurd hl (by simp [hn buf hbuf])
  held := by
    obtain ⟨o, hm, sf, hid, ht, hobj, hc⟩ := h.held
    refine ⟨o, List.mem_append_left _ hm, sf, hid, ht, hobj, ?_⟩
    have hp : payload.holds surface = false := by
      cases payload with
      | buffer buf => simp [Payload.holds, hn buf rfl]
      | _ => rfl
    simpa [holders, hp] using hc

/-- An object goes that is neither the surface nor holds its mutex. -/
theorem deleteObject (h : w.Locks surface a) {id : VAGenericID} (hs : id ≠ surface)
    (hn : ∀ x ∈ w.objects, x.id = id → x.obj.payload.holds surface = false) :
    (w.deleteObject id).Locks surface a where
  valid := h.valid
  wf := h.wf.deleteObject id
  ids := by
    refine h.ids.sublist (List.Sublist.map _ ?_)
    simp only [deleteObject_objects, eraseObject]
    split
    · exact List.Sublist.refl _
    · exact List.eraseP_sublist
  plain := h.plain
  images o ho := h.images o (mem_eraseObject ho)
  held := by
    obtain ⟨o, hm, sf, hid, ht, hobj, hc⟩ := h.held
    refine ⟨o, mem_eraseObject_of_ne hm (by rw [hid]; exact hs.symm), sf, hid, ht, hobj, ?_⟩
    rw [holders, deleteObject_objects, countP_eraseObject fun x hx he => by simp [hn x hx he]]
    exact hc

end Locks

@[simp] theorem holders_modifySurface (f : NVSurface → NVSurface) :
    (w.modifySurface b f).holders surface = w.holders surface := by
  simp only [holders, modifySurface, World.modify, List.countP_map]
  apply List.countP_congr
  rintro ⟨_, _, a', p⟩ _
  by_cases e : a' = b <;> cases p <;> simp [e, Payload.holds]

/-- The flag of a buffer of the surface counts. -/
theorem holders_modifyBuffer (s : VAGenericID) (h : w.Wf) {buf : NVBuffer} (ho : o ∈ w.objects)
    (hobj : o.obj = ⟨b, .buffer buf⟩) (v : Bool) :
    (w.modifyBuffer b fun buf => { buf with mappedSurfaceLock := v }).holders s +
        (buf.mappedSurfaceLock && buf.surfaceId = s).toNat =
      w.holders s + (v && buf.surfaceId = s).toNat := by
  have hc := countP_modify (g := fun
    | .buffer buf => .buffer { buf with mappedSurfaceLock := v }
    | p => p) h ho fun o => o.obj.payload.holds s
  simp only [hobj] at hc
  exact hc

namespace Locks

theorem modifySurface (h : w.Locks surface a) {f : NVSurface → NVSurface}
    (hf : b = a → ∀ sf, (f sf).locked = sf.locked) : (w.modifySurface b f).Locks surface a where
  valid := h.valid
  wf := h.wf.modifySurface f
  ids := by
    rw [World.modifySurface, modify_map fun id _ => id]
    exact h.ids
  plain := h.plain
  images := by
    intro o ho buf hbuf hl hs
    obtain ⟨⟨t, id, a', p⟩, ho', rfl⟩ := mem_modify.mp ho
    refine h.images _ ho' buf ?_ hl hs
    by_cases e : a' = b
    · cases p <;> simp_all
    · simpa [e] using hbuf
  held := by
    obtain ⟨⟨t, id, a', p⟩, hm, sf, hid, ht, hobj, hc⟩ := h.held
    obtain ⟨rfl, rfl⟩ : a' = a ∧ p = .surface sf := by simpa using hobj
    refine ⟨_, mem_modify.mpr ⟨_, hm, rfl⟩, ?_⟩
    by_cases e : a' = b
    · exact ⟨f sf, by simp [e, hid], by simp [e, ht], by simp [e], by
        rw [holders_modifySurface, hf e.symm]; exact hc⟩
    · exact ⟨sf, by simp [e, hid], by simp [e, ht], by simp [e], by
        rw [holders_modifySurface]; exact hc⟩

/-- A buffer takes the mutex of its surface, or gives it back. -/
theorem setLocked (h : w.Locks surface a) {t : VAGenericID} {sa : Addr} {sf : NVSurface}
    {buf : NVBuffer} {v : Bool} (hs : w.getSurface t = some (sa, sf)) (ho : o ∈ w.objects)
    (hobj : o.obj = ⟨b, .buffer buf⟩) (hid : buf.surfaceId = t)
    (hi : t = surface → buf.bufferType = .image) (hv : buf.mappedSurfaceLock = !v)
    (hl : t = surface → sf.locked = !v) :
    ((w.modifySurface sa fun sf => { sf with locked := v }).modifyBuffer b fun buf =>
      { buf with mappedSurfaceLock := v }).Locks surface a := by
  obtain ⟨x, hx, sf', hxid, hxt, hxobj, hc⟩ := h.held
  obtain ⟨y, hy, hyid, hyt, hyobj⟩ := getSurface_mem hs
  have hat {z : Object Cell} (hz : z ∈ w.objects) (hb : z.obj.addr = b) : z = o :=
    List.inj_on_of_nodup_map h.wf.addrs hz ho (by rw [hb, hobj])
  have hsa : sa ≠ b := by
    rintro rfl
    simp [hat hy (by rw [hyobj]), hobj] at hyobj
  have hab : a ≠ b := by
    rintro rfl
    simp [hat hx (by rw [hxobj]), hobj] at hxobj
  have hwf := h.wf.modifySurface (a := sa) fun sf => { sf with locked := v }
  have ho' : o ∈ (w.modifySurface sa fun sf => { sf with locked := v }).objects :=
    mem_modify.mpr ⟨o, ho, by simp [hobj, hsa.symm]⟩
  have hcount := holders_modifyBuffer surface hwf ho' hobj v
  rw [holders_modifySurface, hid, hv, hc] at hcount
  refine ⟨h.valid, hwf.modifyBuffer fun _ _ _ _ hc => hc, ?_, h.plain, ?_, ?_⟩
  · rw [World.modifyBuffer, modify_map fun id _ => id, World.modifySurface,
      modify_map fun id _ => id]
    exact h.ids
  · intro o₁ ho₁ buf₁ hbuf₁ hl₁ hs₁
    obtain ⟨o₂, ho₂, rfl⟩ := mem_modify.mp ho₁
    obtain ⟨o₃, ho₃, rfl⟩ := mem_modify.mp ho₂
    by_cases eb : o₃.obj.addr = b
    · obtain rfl := hat ho₃ eb
      obtain rfl : _ = buf₁ := by simpa [hobj, hsa.symm] using hbuf₁
      exact hi (hid.symm.trans hs₁)
    · refine h.images o₃ ho₃ buf₁ ?_ hl₁ hs₁
      by_cases es : o₃.obj.addr = sa
      · obtain rfl : o₃ = y := List.inj_on_of_nodup_map h.wf.addrs ho₃ hy (by rw [es, hyobj])
        simp [hyobj, hsa] at hbuf₁
      · simpa [eb, es] using hbuf₁
  · refine ⟨_, mem_modify.mpr ⟨_, mem_modify.mpr ⟨x, hx, rfl⟩, rfl⟩, ?_⟩
    by_cases e : t = surface
    · obtain rfl : x = y := List.inj_on_of_nodup_map h.ids hx hy (by rw [hxid, hyid, e])
      obtain ⟨rfl, rfl⟩ : a = sa ∧ sf' = sf := by simpa using hxobj.symm.trans hyobj
      refine ⟨{ sf' with locked := v }, ?_⟩
      simp only [e, decide_true, Bool.and_true, hl e] at hcount
      simpa [hxobj, hab, hxid, hxt] using Nat.add_right_cancel (hcount.trans (Nat.add_comm _ _))
    · have has : a ≠ sa := by
        rintro rfl
        obtain rfl : x = y := List.inj_on_of_nodup_map h.wf.addrs hx hy (by rw [hxobj, hyobj])
        exact e (hyid.symm.trans hxid)
      refine ⟨sf', ?_⟩
      simp only [e, decide_false, Bool.and_false, Bool.toNat_false, Nat.add_zero] at hcount
      simpa [hxobj, has, hab, hxid, hxt] using hcount

/-- A buffer of another surface, or of none, forgets its mutex. -/
theorem clearFlag (h : w.Locks surface a) {buf : NVBuffer} (ho : o ∈ w.objects)
    (hobj : o.obj = ⟨b, .buffer buf⟩) (hid : buf.surfaceId ≠ surface) :
    (w.modifyBuffer b fun buf => { buf with mappedSurfaceLock := false }).Locks surface a := by
  have hcount := holders_modifyBuffer surface h.wf ho hobj false
  refine ⟨h.valid, h.wf.modifyBuffer fun _ _ _ _ hc => hc, ?_, h.plain, ?_, ?_⟩
  · rw [World.modifyBuffer, modify_map fun id _ => id]
    exact h.ids
  · intro o₁ ho₁ buf₁ hbuf₁ hl₁ hs₁
    obtain ⟨⟨t, id, a', p⟩, ho₂, rfl⟩ := mem_modify.mp ho₁
    by_cases e : a' = b
    · cases p with
      | buffer buf₂ =>
        obtain rfl : _ = buf₁ := by simpa [e] using hbuf₁
        exact absurd hl₁ (by simp)
      | _ => simp [e] at hbuf₁
    · exact h.images _ ho₂ buf₁ (by simpa [e] using hbuf₁) hl₁ hs₁
  · obtain ⟨x, hx, sf, hxid, hxt, hxobj, hc⟩ := h.held
    have hab : a ≠ b := by
      rintro rfl
      obtain rfl : x = o := List.inj_on_of_nodup_map h.wf.addrs hx ho (by rw [hxobj, hobj])
      simp [hobj] at hxobj
    refine ⟨_, mem_modify.mpr ⟨x, hx, rfl⟩, sf, ?_⟩
    simpa [hxobj, hab, hxid, hxt, hid, hc] using hcount

/-- A buffer that holds the mutex of the surface is evidence that it is held. -/
theorem locked (h : w.Locks surface a) {sa : Addr} {sf : NVSurface}
    (hs : w.getSurface surface = some (sa, sf)) (ho : o ∈ w.objects)
    (hh : o.obj.payload.holds surface) : sf.locked := by
  obtain ⟨x, hx, sf', hxid, hxt, hxobj, hc⟩ := h.held
  obtain ⟨y, hy, hyid, hyt, hyobj⟩ := getSurface_mem hs
  obtain rfl : x = y := List.inj_on_of_nodup_map h.ids hx hy (hxid.trans hyid.symm)
  obtain ⟨-, rfl⟩ : a = sa ∧ sf' = sf := by simpa using hxobj.symm.trans hyobj
  by_contra hl
  simp only [Bool.not_eq_true] at hl
  rw [hl, holders, Bool.toNat_false, List.countP_eq_zero] at hc
  exact hc o ho hh

theorem getSurface_isSome (h : w.Locks surface a) : (w.getSurface surface).isSome := by
  obtain ⟨x, hx, sf, hid, ht, -, -⟩ := h.held
  exact h.wf.getSurface_isSome.mpr ⟨h.valid, x, hx, hid, ht⟩

/-- A buffer that does not hold the mutex goes. -/
theorem deleteBuffer (h : w.Locks surface a) {id : VAGenericID} {buf : NVBuffer}
    (ho : o ∈ w.objects) (hid : o.id = id) (hobj : o.obj.payload = .buffer buf)
    (hn : o.obj.payload.holds surface = false) : (w.deleteObject id).Locks surface a := by
  refine h.deleteObject (fun e => ?_) fun x hx hxid => ?_
  · obtain ⟨x, hx, sf, hxid, hxt, hxobj, hc⟩ := h.held
    obtain rfl : x = o := List.inj_on_of_nodup_map h.ids hx ho (by rw [hxid, hid, e])
    simp [hxobj] at hobj
  · obtain rfl : x = o := List.inj_on_of_nodup_map h.ids hx ho (by rw [hxid, hid])
    exact hn

end Locks

end World

/-! ## The calls -/

/-- The calls that derive, map, unmap and destroy images and their buffers. -/
def ApiCall.OnImages : ApiCall → Bool
  | .deriveImage .. | .mapBuffer .. | .unmapBuffer .. | .destroyBuffer .. | .destroyImage .. => true
  | _ => false

/-- The next two ids are not in use. -/
def World.FreshIds (w : World) : Prop :=
  ∀ o ∈ w.objects, o.id ≠ w.nextObjId + 1 ∧ o.id ≠ w.nextObjId + 1 + 1

/-- A buffer that goes with its image does not hold the mutex of the surface, and ids are not used
again. -/
def ApiCall.KeepsMutex (surface : VAGenericID) (w : World) : ApiCall → Prop
  | .deriveImage _ _ => w.FreshIds
  | .destroyImage image =>
    ¬((w.getImage image).bind fun i => w.getBufferByPtr i.2.imageBuffer).any fun b =>
      (Payload.buffer b.2).holds surface
  | _ => True

section Calls

variable {surface : VAGenericID} {a : Addr} {w : World}

/-- The steps of `ensureSurfaceHostBuffer` keep what a new host buffer keeps. -/
theorem ensureSurfaceHostBuffer_hold {ε : Type} {P : World → Prop} {sa : Addr}
    {alloc : Option Addr} (h : P w)
    (hp : ∀ p, P (w.modifySurface sa fun sf => { sf with hostData := p })) :
    (ensureSurfaceHostBuffer sa alloc : Prog World ε Bool).Ensures w (fun _ => P) fun _ => P := by
  rw [ensures_ensureSurfaceHostBuffer]
  exact fun sf _ => ⟨fun _ => h, fun _ => ⟨fun _ => h, fun p _ _ => hp p⟩⟩

theorem nvDeriveImage_locks (s : VAGenericID) (r : DeriveAlloc) (h : w.Locks surface a)
    (hid : w.FreshIds) : (nvDeriveImage s r).Returns w fun _ => World.Locks surface a := by
  rw [Prog.Returns, nvDeriveImage, Prog.ensures_bind, Prog.ensures_read]
  split
  · exact h
  · rename_i sa _ _
    rw [Prog.ensures_bind]
    have hp (p : Addr) : (w.modifySurface sa fun sf => { sf with hostData := p }).Locks surface a ∧
        (w.modifySurface sa fun sf => { sf with hostData := p }).FreshIds := by
      refine ⟨h.modifySurface fun _ _ => rfl, fun o ho => ?_⟩
      obtain ⟨o', ho', rfl⟩ := World.mem_modify.mp ho
      split <;> exact hid o' ho'
    refine (ensureSurfaceHostBuffer_hold (P := fun w' => w'.Locks surface a ∧ w'.FreshIds)
      ⟨h, hid⟩ hp).mono (fun _ w' hhold => ?_) fun _ _ h' => h'.1
    obtain ⟨h', hid'⟩ := hhold
    simp only [Prog.ensures_bind, Prog.ensures_ite, Prog.ensures_leave, Prog.ensures_pure,
      Prog.ensures_read, Prog.ensures_need, ensures_allocateObject]
    refine ⟨fun _ => h', fun _ sf _ hb hi => ?_⟩
    refine (h'.allocate hb (fun o ho => (hid' o ho).1) (by simp [Payload.CodedAlone]) ?_).allocate
      hi ?_ trivial (by simp)
    · rintro buf ⟨⟩
      rfl
    · simp only [World.FreshId, World.allocate_objects, List.mem_append, List.mem_singleton,
        World.allocate_nextObjId]
      rintro o (ho | rfl)
      · exact (hid' o ho).2
      · simp

/-- The buffer with the id is at `b`. -/
def World.Has (id : VAGenericID) (b : Addr) (buf : NVBuffer) (w : World) : Prop :=
  ∃ o ∈ w.objects, o.id = id ∧ o.obj = ⟨b, .buffer buf⟩

theorem World.Has.modifySurface {id : VAGenericID} {b sa : Addr} {buf : NVBuffer}
    (h : w.Has id b buf) (f : NVSurface → NVSurface) : (w.modifySurface sa f).Has id b buf := by
  obtain ⟨⟨t, id, a', p⟩, ho, rfl, hobj⟩ := h
  obtain ⟨rfl, rfl⟩ : a' = b ∧ p = .buffer buf := by simpa using hobj
  refine ⟨_, World.mem_modify.mpr ⟨_, ho, rfl⟩, ?_⟩
  by_cases e : a' = sa <;> simp [e]

theorem World.Has.modifyBuffer {id : VAGenericID} {b : Addr} {buf : NVBuffer} (h : w.Has id b buf)
    (f : NVBuffer → NVBuffer) : (w.modifyBuffer b f).Has id b (f buf) := by
  obtain ⟨o, ho, rfl, hobj⟩ := h
  exact ⟨_, World.mem_modify.mpr ⟨o, ho, rfl⟩, by simp [hobj], by simp [hobj]⟩

theorem World.Has.of_getBuffer {id : VAGenericID} {b : Addr} {buf : NVBuffer}
    (h : w.getBuffer id = some (b, buf)) : w.Has id b buf := by
  obtain ⟨o, ho, hid, -, hobj⟩ := World.getBuffer_mem h
  exact ⟨o, ho, hid, hobj⟩

theorem lockMapped_locks {id : VAGenericID} {b : Addr} {buf : NVBuffer}
    (h : w.Locks surface a ∧ w.Has id b buf) :
    (lockMapped b buf).Ensures w (fun _ => World.Locks surface a) fun _ =>
      World.Locks surface a := by
  obtain ⟨h, o, ho, -, hobj⟩ := h
  unfold lockMapped
  rw [Prog.ensures_ite]
  refine ⟨fun hc => ?_, fun _ => h⟩
  rw [Prog.ensures_bind, Prog.ensures_read]
  split
  · exact h
  · rename_i sa sf hs
    simp only [Prog.ensures_bind, Prog.ensures_update, ensures_waitUnlocked]
    intro sf' hsf' hl
    obtain ⟨y, hy, -, -, hyobj⟩ := World.getSurface_mem hs
    obtain rfl : sf' = sf := Option.some_inj.mp (hsf'.symm.trans (h.wf.surfaceAt hy hyobj))
    exact h.setLocked hs ho hobj rfl (fun _ => hc.1) (by simpa using hc.2.2) fun _ => hl

theorem unlockMapped_locks {id : VAGenericID} {b sa : Addr} {sf : NVSurface} {buf : NVBuffer}
    (h : w.Locks surface a ∧ w.Has id b buf)
    (hs : w.getSurface buf.surfaceId = some (sa, sf)) (hi : buf.bufferType = .image) :
    (unlockMapped b sa buf).Ensures w (fun _ => World.Locks surface a) fun _ =>
      World.Locks surface a := by
  obtain ⟨h, o, ho, -, hobj⟩ := h
  simp only [unlockMapped, Prog.ensures_bind, Prog.ensures_read, Prog.ensures_ite,
    Prog.ensures_update, ensures_waitUnlocked]
  refine ⟨fun hc => absurd hc.1 (by simp [h.plain]), fun _ => ⟨fun _ _ _ _ => h, fun hl => ?_⟩⟩
  have hl : buf.mappedSurfaceLock = true := by simpa using hl
  refine h.setLocked hs ho hobj rfl (fun _ => hi) (by simp [hl]) fun e => ?_
  rw [e] at hs
  simpa using h.locked hs ho (by simp [hobj, Payload.holds, hl, e])

/-- Not in strict mode nothing is copied. -/
theorem nvMapBuffer_locks (buffer : VAGenericID) (alloc : MapAlloc) (h : w.Locks surface a) :
    (nvMapBuffer buffer alloc).Returns w fun _ => World.Locks surface a := by
  rw [Prog.Returns, nvMapBuffer, Prog.ensures_bind, Prog.ensures_read]
  split
  · exact h
  · rename_i b buf hb
    have hhas : w.Has buffer b buf := .of_getBuffer hb
    have hl {w' : World} (h : w'.Locks surface a ∧ w'.Has buffer b buf) :
        (lockMapped b buf >>= fun _ => pure VAStatus.success : Entry).Ensures w' (fun _ =>
          World.Locks surface a)
          fun _ => World.Locks surface a := by
      rw [Prog.ensures_bind]
      exact lockMapped_locks h
    split
    · split
      · exact hl ⟨h, hhas⟩
      · rw [Prog.ensures_bind]
        refine (ensureSurfaceHostBuffer_hold (P := fun w' => w'.Locks surface a ∧
          w'.Has buffer b buf) ⟨h, hhas⟩ fun p =>
          ⟨h.modifySurface fun _ _ => rfl, hhas.modifySurface _⟩).mono (fun ok w' h' => ?_)
            fun _ _ h' => h'.1
        rw [Prog.ensures_ite]
        exact ⟨fun hc => absurd hc.2 (by simp [h.plain]), fun _ => hl h'⟩
    · exact hl ⟨h, hhas⟩

/-- The mutex is as it should be, and the buffer is there with the surface at `sa` that it is an
image of. -/
structure World.Unmaps (surface : VAGenericID) (a : Addr) (buffer : VAGenericID) (b : Addr)
    (buf : NVBuffer) (sa : Addr) (w : World) : Prop where
  locks : w.Locks surface a
  has : w.Has buffer b buf
  target : ∃ sf, w.getSurface buf.surfaceId = some (sa, sf)

theorem World.Unmaps.setHost {buffer : VAGenericID} {b sa : Addr} {buf : NVBuffer}
    (h : w.Unmaps surface a buffer b buf sa) (p : Addr) :
    (w.modifySurface sa fun sf => { sf with hostData := p }).Unmaps surface a buffer b buf sa := by
  obtain ⟨hl, hhas, sf, hs⟩ := h
  exact ⟨hl.modifySurface fun _ _ => rfl, hhas.modifySurface _, _,
    World.getSurface_modifySurface hs _⟩

theorem nvUnmapBuffer_locks (buffer : VAGenericID) (host : Option Addr) (h : w.Locks surface a) :
    (nvUnmapBuffer buffer host).Returns w fun _ => World.Locks surface a := by
  rw [Prog.Returns, nvUnmapBuffer, Prog.ensures_bind, Prog.ensures_read]
  split
  · exact h
  · rename_i b buf hb
    have hhas : w.Has buffer b buf := .of_getBuffer hb
    rw [Prog.ensures_ite]
    refine ⟨fun hc => ?_, fun _ => h⟩
    split
    · exact h
    · rename_i sa sf hs
      have hu : w.Unmaps surface a buffer b buf sa := ⟨h, hhas, sf, hs⟩
      rw [Prog.ensures_bind]
      refine (ensureSurfaceHostBuffer_hold hu hu.setHost).mono (fun ok w' hu' => ?_) fun _ _ hu' =>
        hu'.locks
      obtain ⟨h', hhas', sf', hs'⟩ := hu'
      simp only [Prog.ensures_ite, Prog.ensures_bind, Prog.ensures_pure]
      exact ⟨fun _ => unlockMapped_locks ⟨h', hhas'⟩ hs' hc.1, fun _ => h'⟩

/-- The mutex that the buffer holds is free when the buffer goes. -/
theorem releaseBuffer_locks {buffer : VAGenericID} {b : Addr} {buf : NVBuffer}
    (h : w.Locks surface a) (hhas : w.Has buffer b buf) :
    (do
      if buf.mappedSurfaceLock ∧ buf.surfaceId ≠ vaInvalidId then
        match w.getSurface buf.surfaceId with
        | none => pure ()
        | some (sa, _) =>
          Prog.update fun w => w.modifySurface sa fun sf => { sf with locked := false }
        Prog.update fun w => w.modifyBuffer b fun buf => { buf with mappedSurfaceLock := false }
      deleteObject buffer
      return .success : Entry).Ensures w (fun _ => World.Locks surface a) fun _ =>
        World.Locks surface a := by
  have hdelete {w' : World}
      {buf' : NVBuffer} (h' : w'.Locks surface a) (hhas' : w'.Has buffer b buf')
      (hn : (Payload.buffer buf').holds surface = false) :
        (w'.deleteObject buffer).Locks surface a := by
    obtain ⟨o, ho, hid, hobj⟩ := hhas'
    exact h'.deleteBuffer ho hid (by rw [hobj]) (by rw [hobj]; exact hn)
  have hhas₀ := hhas
  obtain ⟨o, ho, hid, hobj⟩ := hhas
  rw [Prog.ensures_ite]
  refine ⟨fun hc => ?_, fun hc => ?_⟩
  · split
    · rename_i hs
      have hid' : buf.surfaceId ≠ surface := by
        rintro rfl
        simpa [hs] using h.getSurface_isSome
      simp only [Prog.ensures_bind, Prog.ensures_update, ensures_deleteObject, Prog.ensures_pure]
      exact hdelete (h.clearFlag ho hobj hid') (hhas₀.modifyBuffer _) (by simp [Payload.holds])
    · rename_i sa sf hs
      simp only [Prog.ensures_bind, Prog.ensures_update, ensures_deleteObject, Prog.ensures_pure]
      refine hdelete (h.setLocked hs ho hobj rfl (fun e => ?_) (by simp [hc.1]) fun e => ?_)
        ((hhas₀.modifySurface _).modifyBuffer _) (by simp [Payload.holds])
      · exact h.images o ho buf (by rw [hobj]) hc.1 e
      · rw [e] at hs
        simpa using h.locked hs ho (by simp [hobj, Payload.holds, hc.1, e])
  · refine hdelete h hhas₀ ?_
    have hv := h.valid
    by_cases hl : buf.mappedSurfaceLock
    · have hi : buf.surfaceId = vaInvalidId := by simpa [hl] using hc
      simp [Payload.holds, hi, hv.symm]
    · simp [Payload.holds, hl]

theorem nvDestroyBuffer_locks (buffer : VAGenericID) (h : w.Locks surface a) :
    (nvDestroyBuffer buffer).Returns w fun _ => World.Locks surface a := by
  rw [Prog.Returns, nvDestroyBuffer, Prog.ensures_bind, Prog.ensures_read]
  split
  · exact h
  · rename_i b buf hb
    have hhas : w.Has buffer b buf := .of_getBuffer hb
    rw [Prog.ensures_ite]
    refine ⟨fun _ => ?_, fun _ => ?_⟩
    · rw [Prog.ensures_bind, ensures_free, Prog.ensures_bind, ensures_free]
      exact releaseBuffer_locks (w := (w.free buf.ptr).free buf.codedData)
        (h.of_objects rfl rfl) hhas
    · rw [Prog.ensures_bind, ensures_free]
      exact releaseBuffer_locks (w := w.free buf.codedData) (h.of_objects rfl rfl) hhas

theorem nvDestroyImage_locks (image : VAGenericID) (h : w.Locks surface a)
    (hm : (ApiCall.destroyImage image).KeepsMutex surface w) :
    (nvDestroyImage image).Returns w fun _ => World.Locks surface a := by
  rw [Prog.Returns, nvDestroyImage, Prog.ensures_bind, Prog.ensures_read]
  split
  · exact h
  · rename_i ia img hi
    obtain ⟨o, ho, hid, ht, hobj⟩ := World.getImage_mem hi
    -- the image is neither the surface nor a buffer
    have himage {w' : World} (h' : w'.Locks surface a) (hw : ∀ x ∈ w'.objects, x ∈ w.objects) :
        (w'.deleteObject image).Locks surface a := by
      have hx {x : Object Cell} (hx : x ∈ w'.objects) (hxid : x.id = image) : x = o :=
        List.inj_on_of_nodup_map h.ids (hw x hx) ho (hxid.trans hid.symm)
      refine h'.deleteObject (fun e => ?_) fun x hxm hxid => by rw [hx hxm hxid, hobj]; rfl
      obtain ⟨y, hy, sf, hyid, hyt, hyobj, -⟩ := h'.held
      obtain rfl := hx hy (hyid.trans e.symm)
      simp [hyt] at ht
    split
    · exact himage h fun _ hx => hx
    · rename_i id buf hb
      have hn : (Payload.buffer buf).holds surface = false := by
        simpa [ApiCall.KeepsMutex, hi, hb] using hm
      obtain ⟨o', ho', hid', hobj'⟩ := World.getBufferByPtr_mem hb
      have hd : ((w.deleteObject id).deleteObject image).Locks surface a :=
        himage (h.deleteBuffer ho' hid' (by rw [hobj']) (by rw [hobj']; exact hn)) fun x hx =>
          World.mem_eraseObject hx
      simp only [Prog.ensures_bind, Prog.ensures_ite, ensures_free, ensures_deleteObject,
        Prog.ensures_pure]
      exact ⟨fun _ => hd.of_objects rfl rfl, fun _ => hd⟩

theorem step_locks {w' : World} {call : ApiCall} (hi : call.OnImages) (h : w.Locks surface a)
    (hm : call.KeepsMutex surface w) (hs : objectSystem.step w call = some w') :
    w'.Locks surface a := by
  refine step_returns ?_ hs
  cases call with
  | deriveImage s r => exact nvDeriveImage_locks s r h hm
  | mapBuffer buffer alloc => exact nvMapBuffer_locks buffer alloc h
  | unmapBuffer buffer host => exact nvUnmapBuffer_locks buffer host h
  | destroyBuffer buffer => exact nvDestroyBuffer_locks buffer h
  | destroyImage image => exact nvDestroyImage_locks image h hm
  | _ => cases hi

end Calls

/-! ## Any sequence -/

/-- A live image buffer of the surface has `mappedSurfaceLock` set. -/
def World.Mapped (surface : VAGenericID) (w : World) : Prop :=
  ∃ o ∈ w.objects, o.obj.payload.buffer?.any fun buf =>
    buf.bufferType = .image && buf.surfaceId = surface && buf.mappedSurfaceLock

instance (surface : VAGenericID) (w : World) : Decidable (w.Mapped surface) :=
  inferInstanceAs (Decidable (∃ _ ∈ _, _))

theorem World.Locks.locked_iff {surface : VAGenericID} {a : Addr} {w : World}
    (h : w.Locks surface a) :
    ∃ sf, w.getSurface surface = some (a, sf) ∧ (sf.locked ↔ w.Mapped surface) := by
  obtain ⟨x, hx, sf, hxid, -, hxobj, hc⟩ := h.held
  obtain ⟨⟨a', sf'⟩, hs⟩ := Option.isSome_iff_exists.mp h.getSurface_isSome
  obtain ⟨y, hy, hyid, -, hyobj⟩ := World.getSurface_mem hs
  obtain rfl : x = y := List.inj_on_of_nodup_map h.ids hx hy (hxid.trans hyid.symm)
  obtain ⟨rfl, rfl⟩ : a = a' ∧ sf = sf' := by simpa using hxobj.symm.trans hyobj
  refine ⟨sf, hs, ?_⟩
  have hpos : sf.locked ↔ 0 < w.holders surface := by
    rw [hc]
    cases sf.locked <;> simp
  rw [hpos, World.holders, List.countP_pos_iff]
  refine ⟨fun ⟨o, ho, hh⟩ => ⟨o, ho, ?_⟩, fun ⟨o, ho, hh⟩ => ⟨o, ho, ?_⟩⟩
  · cases hp : o.obj.payload with
    | buffer buf =>
      obtain ⟨hl, hid⟩ : buf.mappedSurfaceLock ∧ buf.surfaceId = surface := by
        simpa [hp, Payload.holds] using hh
      simp [Payload.buffer?, h.images o ho buf hp hl hid, hl, hid]
    | _ => simp [hp, Payload.holds] at hh
  · cases hp : o.obj.payload <;> simp_all [Payload.buffer?, Payload.holds]

/-- A surface that no buffer has mapped, and whose mutex is free. -/
theorem World.Locks.start {surface : VAGenericID} {a : Addr} {w : World}
    {sf : NVSurface} (hwf : w.Wf) (hids : (w.objects.map Object.id).Nodup)
    (hstrict : w.info.encStrictMode = false) (hs : w.getSurface surface = some (a, sf))
    (hfree : sf.locked = false) (hnone : ∀ o ∈ w.objects, ¬o.obj.payload.holds surface) :
    w.Locks surface a where
  valid := (hwf.getSurface_isSome.mp (by simp [hs])).1
  wf := hwf
  ids := hids
  plain := hstrict
  images o ho buf hp hl hid := absurd (by simp [hp, Payload.holds, hl, hid]) (hnone o ho)
  held := by
    obtain ⟨o, ho, hid, ht, hobj⟩ := World.getSurface_mem hs
    refine ⟨o, ho, sf, hid, ht, hobj, ?_⟩
    rw [hfree, World.holders, Bool.toNat_false, List.countP_eq_zero]
    exact hnone

/-- From a surface that nothing has mapped on, its mutex is held exactly while an image is
mapped. -/
theorem surface_locked_iff {w₀ w : World} {surface : VAGenericID} {a : Addr} {sf : NVSurface}
    {calls : List ApiCall} (h₀ : objectSystem.Reach w₀) (hids : (w₀.objects.map Object.id).Nodup)
    (hstrict : w₀.info.encStrictMode = false) (hs : w₀.getSurface surface = some (a, sf))
    (hfree : sf.locked = false) (hnone : ∀ o ∈ w₀.objects, ¬o.obj.payload.holds surface)
    (himages : ∀ call ∈ calls, call.OnImages)
    (hm : objectSystem.Meets (fun w call => call.KeepsMutex surface w) w₀ calls)
    (hr : objectSystem.run w₀ calls = some w) :
    ∃ sf, w.getSurface surface = some (a, sf) ∧ (sf.locked ↔ w.Mapped surface) ∧
      ((∀ o ∈ w.objects, o.type ≠ .buffer) → sf.locked = false) := by
  have hw : w.Locks surface a :=
    Lts.run_invariant (fun call hc _ _ hi hok hst => step_locks (himages call hc) hi hok hst)
      (.start (reach_wf h₀) hids hstrict hs hfree hnone) hm hr
  obtain ⟨sf, hsf, hl⟩ := hw.locked_iff
  refine ⟨sf, hsf, hl, fun hb => ?_⟩
  by_contra h
  obtain ⟨o, ho, hp⟩ := hl.mp (by simpa using h)
  refine hb o ho ?_
  rw [hw.wf.typed o ho]
  cases hpay : o.obj.payload <;> simp_all [Payload.buffer?, Payload.type]

instance (w : World) : Decidable w.FreshIds := inferInstanceAs (Decidable (∀ _ ∈ _, _))

instance (surface : VAGenericID) (w : World) (call : ApiCall) :
    Decidable (call.KeepsMutex surface w) :=
  match call with
  | .deriveImage _ _ => inferInstanceAs (Decidable w.FreshIds)
  | .destroyImage _ => inferInstanceAs (Decidable (¬_))
  | .createConfig .. | .destroyConfig .. | .createSurfaces .. | .destroySurfaces ..
  | .createContext ..
  | .destroyContext .. | .createBuffer .. | .bufferSetNumElements .. | .mapBuffer ..
  | .unmapBuffer ..
  | .destroyBuffer .. | .beginPicture .. | .renderPicture .. | .endPicture .. | .syncSurface ..
  | .createImage .. | .getImage .. | .putImage .. | .lockSurface .. | .querySurfaceAttributes ..
  | .exportSurfaceHandle .. | .resolve .. => .isTrue trivial

/-- A surface with the id 1. -/
def createOne : ApiCall := .createSurfaces rtFormatYuv420 16 16 [⟨1, some 2⟩] true true

/-- Its image, which is mapped: the buffer has the id 2, the image the id 3. -/
def mapOne : List ApiCall := [.deriveImage 1 ⟨none, 3, 4⟩, .mapBuffer 2 ⟨none, none⟩]

/-- The mutex of a mapped surface is held. -/
theorem surface_locked_iff_mapped :
    ∃ (w : World) (sf : NVSurface), w.getSurface 1 = some (1, sf) ∧ w.Mapped 1 ∧
    sf.locked := by
  obtain ⟨w₀, w, sf, hr₀, hids, hstrict, hs, hfree, hnone, hm, hr, hmap⟩ : ∃ w₀ w sf,
      objectSystem.run (.init plainInfo 0 []) [createOne] = some w₀ ∧
        (w₀.objects.map Object.id).Nodup ∧
        w₀.info.encStrictMode = false ∧ w₀.getSurface 1 = some (1, sf) ∧ sf.locked = false ∧
        (∀ o ∈ w₀.objects, ¬o.obj.payload.holds 1) ∧
        objectSystem.Meets (fun w call => call.KeepsMutex 1 w) w₀ mapOne ∧
        objectSystem.run w₀ mapOne = some w ∧
        w.Mapped 1 :=
    ⟨_, _, _, rfl, by decide, rfl, rfl, rfl, by decide, by decide, rfl, by decide⟩
  obtain ⟨sf', hsf', hl, -⟩ :=
    surface_locked_iff ((init_reach plainInfo 0 []).run hr₀) hids hstrict hs hfree hnone
    (by decide) hm hr
  exact ⟨w, sf', hsf', hmap, hl.mpr hmap⟩

/-- It is still held when the image is destroyed, and nothing records that. -/
theorem surface_left_locked :
    ∃ (w₀ w : World) (a : Addr) (sf sf' : NVSurface) (calls : List ApiCall),
    objectSystem.Reach w₀ ∧ (w₀.objects.map Object.id).Nodup ∧ w₀.info.encStrictMode = false ∧
      w₀.getSurface 1 = some (a, sf) ∧ sf.locked = false ∧
      (∀ o ∈ w₀.objects, ¬o.obj.payload.holds 1) ∧
      (∀ call ∈ calls, call.OnImages) ∧ objectSystem.run w₀ calls = some w ∧
      w.getSurface 1 = some (a, sf') ∧ sf'.locked ∧ ¬w.Mapped 1 := by
  obtain ⟨w₀, hr₀, hrest⟩ : ∃ w₀, objectSystem.run (.init plainInfo 0 []) [createOne] = some w₀ ∧
      ∃ w sf sf', (w₀.objects.map Object.id).Nodup ∧ w₀.info.encStrictMode = false ∧
      w₀.getSurface 1 = some (1, sf) ∧
        sf.locked = false ∧ (∀ o ∈ w₀.objects, ¬o.obj.payload.holds 1) ∧
        objectSystem.run w₀ (mapOne ++ [.destroyImage 3]) = some w ∧
        w.getSurface 1 = some (1, sf') ∧ sf'.locked ∧
        ¬w.Mapped 1 :=
    ⟨_, rfl, _, _, _, by decide, rfl, rfl, rfl, by decide, rfl, rfl, rfl, by decide⟩
  obtain ⟨w, sf, sf', hids, hstrict, hs, hfree, hnone, hr, hs', hl, hm⟩ := hrest
  exact ⟨w₀, w, 1, sf, sf', _, (init_reach plainInfo 0 []).run hr₀, hids, hstrict, hs, hfree, hnone,
    by decide, hr, hs', hl, hm⟩

end NvVaapi.Objects
