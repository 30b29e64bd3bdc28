import NvVaapi.Objects.Calls

/-!
# What the shared steps do

* `World.allocate`, `World.push`, `World.pop`: the steps that go on always, as functions.
* What each function on worlds leaves alone, and what is in the table after it.
* A rule of `Prog.Ensures` for each step, and for the lookups of objects.
-/

namespace NvVaapi.Objects

namespace World

variable (w : World) (a : Addr) (id : VAGenericID) (payload : Payload) (g : Payload → Payload)

/-- The world after `allocateObject`. -/
def allocate : World :=
  { w with
    objects := w.objects ++ [⟨payload.type, w.nextObjId + 1, a, payload⟩]
    nextObjId := w.nextObjId + 1 }

def push : World := { w with cudaStack := w.cudaContext :: w.cudaStack }

def pop : World := { w with cudaStack := w.cudaStack.tail }

/-- The context at `a` without its encode session. -/
def endSession : World := w.modifyContext a fun ctx =>
  { ctx with
    nvencEncoder := false
    nvencInputBuffers := fun _ => false
    nvencOutputBuffers := fun _ => false }

@[simp] theorem modify_info : (w.modify a g).info = w.info := rfl
@[simp] theorem modify_nextObjId : (w.modify a g).nextObjId = w.nextObjId := rfl
@[simp] theorem modify_cudaContext : (w.modify a g).cudaContext = w.cudaContext := rfl
@[simp] theorem modify_cudaStack : (w.modify a g).cudaStack = w.cudaStack := rfl
@[simp] theorem modify_freed : (w.modify a g).freed = w.freed := rfl
@[simp] theorem modify_destroyed : (w.modify a g).destroyed = w.destroyed := rfl

@[simp] theorem deleteObject_info : (w.deleteObject id).info = w.info := rfl
@[simp] theorem deleteObject_nextObjId : (w.deleteObject id).nextObjId = w.nextObjId := rfl
@[simp] theorem deleteObject_cudaContext : (w.deleteObject id).cudaContext = w.cudaContext := rfl
@[simp] theorem deleteObject_cudaStack : (w.deleteObject id).cudaStack = w.cudaStack := rfl
@[simp] theorem deleteObject_freed : (w.deleteObject id).freed = w.freed := rfl
@[simp] theorem deleteObject_destroyed : (w.deleteObject id).destroyed = w.destroyed := rfl

@[simp] theorem free_info : (w.free a).info = w.info := rfl
@[simp] theorem free_objects : (w.free a).objects = w.objects := rfl
@[simp] theorem free_nextObjId : (w.free a).nextObjId = w.nextObjId := rfl
@[simp] theorem free_cudaContext : (w.free a).cudaContext = w.cudaContext := rfl
@[simp] theorem free_cudaStack : (w.free a).cudaStack = w.cudaStack := rfl
@[simp] theorem free_destroyed : (w.free a).destroyed = w.destroyed := rfl

@[simp] theorem allocate_info : (w.allocate a payload).info = w.info := rfl
@[simp] theorem allocate_nextObjId : (w.allocate a payload).nextObjId = w.nextObjId + 1 := rfl
@[simp] theorem allocate_cudaContext : (w.allocate a payload).cudaContext = w.cudaContext := rfl
@[simp] theorem allocate_cudaStack : (w.allocate a payload).cudaStack = w.cudaStack := rfl
@[simp] theorem allocate_freed : (w.allocate a payload).freed = w.freed := rfl

@[simp] theorem push_info : w.push.info = w.info := rfl
@[simp] theorem push_objects : w.push.objects = w.objects := rfl
@[simp] theorem push_nextObjId : w.push.nextObjId = w.nextObjId := rfl
@[simp] theorem push_cudaContext : w.push.cudaContext = w.cudaContext := rfl
@[simp] theorem push_cudaStack : w.push.cudaStack = w.cudaContext :: w.cudaStack := rfl
@[simp] theorem push_freed : w.push.freed = w.freed := rfl
@[simp] theorem push_destroyed : w.push.destroyed = w.destroyed := rfl

@[simp] theorem pop_info : w.pop.info = w.info := rfl
@[simp] theorem pop_objects : w.pop.objects = w.objects := rfl
@[simp] theorem pop_nextObjId : w.pop.nextObjId = w.nextObjId := rfl
@[simp] theorem pop_cudaContext : w.pop.cudaContext = w.cudaContext := rfl
@[simp] theorem pop_cudaStack : w.pop.cudaStack = w.cudaStack.tail := rfl
@[simp] theorem pop_freed : w.pop.freed = w.freed := rfl
@[simp] theorem pop_destroyed : w.pop.destroyed = w.destroyed := rfl

/-! ### What is in the table -/

@[simp] theorem allocate_objects :
    (w.allocate a payload).objects = w.objects ++ [⟨payload.type, w.nextObjId + 1, a, payload⟩] :=
  rfl

@[simp] theorem deleteObject_objects : (w.deleteObject id).objects = eraseObject w.objects id := rfl

variable {w a id payload g} {o : Object Cell}

theorem mem_eraseObject {l : List (Object Cell)} (h : o ∈ eraseObject l id) : o ∈ l := by
  unfold eraseObject at h
  split at h
  · exact h
  · exact List.mem_of_mem_eraseP h

theorem mem_eraseObject_of_ne {l : List (Object Cell)} (ho : o ∈ l)
    (hid : o.id ≠ id) : o ∈ eraseObject l id := by
  unfold eraseObject
  split
  · exact ho
  · exact (List.mem_eraseP_of_neg (by simpa using hid)).mpr ho

theorem mem_modify : o ∈ (w.modify a g).objects ↔ ∃ o' ∈ w.objects,
    o = if o'.obj.addr = a then { o' with obj := ⟨a, g o'.obj.payload⟩ } else o' := by
  simp only [modify, List.mem_map, eq_comm]

/-- The addresses and the ids stay. -/
theorem modify_map {β : Type} (f : VAGenericID → Addr → β) :
    (w.modify a g).objects.map (fun o => f o.id o.obj.addr) = w.objects.map fun o =>
      f o.id o.obj.addr := by
  simp only [modify, List.map_map]
  apply List.map_congr_left
  intro o _
  by_cases h : o.obj.addr = a <;> simp [h]

/-- A write to where there is no object. -/
theorem modify_of_ne (h : ∀ o ∈ w.objects, o.obj.addr ≠ a) :
    (w.modify a g).objects = w.objects := by
  simp only [modify]
  rw [List.map_congr_left (g := fun o => o), List.map_id']
  exact fun o ho => if_neg (h o ho)

/-- A write to where the last object is alone. -/
theorem modify_append {l : List (Object Cell)} {o : Object Cell} (hw : w.objects = l ++ [o])
    (h : ∀ o ∈ l, o.obj.addr ≠ a) (ho : o.obj.addr = a) :
    (w.modify a g).objects = l ++ [{ o with obj := ⟨a, g o.obj.payload⟩ }] := by
  have hl := modify_of_ne (w := { w with objects := l }) (g := g) h
  simp only [modify] at hl
  simp [modify, hw, hl, ho]

theorem Fresh.ne_addr (h : w.Fresh a) : ∀ o ∈ w.objects, o.obj.addr ≠ a :=
  fun o ho ha => h.2 (List.mem_flatMap.mpr ⟨o, ho, by simp [ha]⟩)

/-- A write to what was just allocated is as if it had been allocated so. -/
theorem modify_allocate (h : w.Fresh a) (hg : (g payload).type = payload.type) :
    (w.allocate a payload).modify a g = w.allocate a (g payload) := by
  have ho := modify_append (w := w.allocate a payload) (g := g) rfl h.ne_addr rfl
  simp only [modify, allocate] at ho ⊢
  simp [ho, hg]

theorem modifyBuffer_allocate (h : w.Fresh a) (buf : NVBuffer) (f : NVBuffer → NVBuffer) :
    (w.allocate a (.buffer buf)).modifyBuffer a f = w.allocate a (.buffer (f buf)) :=
  modify_allocate h rfl

/-- The id of the next object is not in use. -/
def FreshId (w : World) : Prop := ∀ o ∈ w.objects, o.id ≠ w.nextObjId + 1

instance (w : World) : Decidable w.FreshId := inferInstanceAs (Decidable (∀ _ ∈ _, _))

theorem FreshId.modify (h : w.FreshId) : (w.modify a g).FreshId := by
  intro o ho
  obtain ⟨o', ho', rfl⟩ := mem_modify.mp ho
  split
  · exact h o' ho'
  · exact h o' ho'

theorem eraseObject_append {l : List (Object Cell)} {o : Object Cell} (h : ∀ o' ∈ l, o'.id ≠ o.id)
    (hid : o.id ≠ vaInvalidId) : eraseObject (l ++ [o]) o.id = l := by
  rw [eraseObject, if_neg hid, List.eraseP_append_right _ (by simpa using h)]
  simp

theorem eraseObject_of_not_mem {l : List (Object Cell)} (h : ∀ o' ∈ l, o'.id ≠ id) :
    eraseObject l id = l := by
  unfold eraseObject
  split
  · rfl
  · exact List.eraseP_of_forall_not (by simpa using h)

/-! ### Lookups -/

theorem getObjectPtr_mem {type : ObjectType} {c : Cell} (h : w.getObjectPtr type id = some c) :
    ∃ o ∈ w.objects, o.id = id ∧ o.type = type ∧ o.obj = c := by
  obtain ⟨o, ho, rfl⟩ := Option.map_eq_some_iff.mp h
  unfold findObject at ho
  split at ho
  · simp at ho
  · have hp := List.find?_some ho
    simp only [decide_eq_true_eq] at hp
    exact ⟨o, List.mem_of_find?_eq_some ho, hp.1, hp.2, rfl⟩

theorem getConfig_mem {cfg : NVConfig} (h : w.getConfig id = some (a, cfg)) :
    ∃ o ∈ w.objects, o.id = id ∧ o.type = .config ∧ o.obj = ⟨a, .config cfg⟩ := by
  obtain ⟨⟨a', p⟩, hc, h⟩ := Option.bind_eq_some_iff.mp h
  cases p <;> simp_all [Payload.config?, getObjectPtr_mem]

theorem getContext_mem {ctx : NVContext} (h : w.getContext id = some (a, ctx)) :
    ∃ o ∈ w.objects, o.id = id ∧ o.type = .context ∧ o.obj = ⟨a, .context ctx⟩ := by
  obtain ⟨⟨a', p⟩, hc, h⟩ := Option.bind_eq_some_iff.mp h
  cases p <;> simp_all [Payload.context?, getObjectPtr_mem]

theorem getSurface_mem {sf : NVSurface} (h : w.getSurface id = some (a, sf)) :
    ∃ o ∈ w.objects, o.id = id ∧ o.type = .surface ∧ o.obj = ⟨a, .surface sf⟩ := by
  obtain ⟨⟨a', p⟩, hc, h⟩ := Option.bind_eq_some_iff.mp h
  cases p <;> simp_all [Payload.surface?, getObjectPtr_mem]

theorem getBuffer_mem {buf : NVBuffer} (h : w.getBuffer id = some (a, buf)) :
    ∃ o ∈ w.objects, o.id = id ∧ o.type = .buffer ∧ o.obj = ⟨a, .buffer buf⟩ := by
  obtain ⟨⟨a', p⟩, hc, h⟩ := Option.bind_eq_some_iff.mp h
  cases p <;> simp_all [Payload.buffer?, getObjectPtr_mem]

theorem getImage_mem {img : NVImage} (h : w.getImage id = some (a, img)) :
    ∃ o ∈ w.objects, o.id = id ∧ o.type = .image ∧ o.obj = ⟨a, .image img⟩ := by
  obtain ⟨⟨a', p⟩, hc, h⟩ := Option.bind_eq_some_iff.mp h
  cases p <;> simp_all [Payload.image?, getObjectPtr_mem]

theorem getBufferByPtr_mem {ptr : Addr} {buf : NVBuffer}
    (h : w.getBufferByPtr ptr = some (id, buf)) :
    ∃ o ∈ w.objects, o.id = id ∧ o.obj = ⟨ptr, .buffer buf⟩ := by
  unfold getBufferByPtr at h
  split at h
  · cases h
  · obtain ⟨⟨_, _, a', p⟩, ho, h⟩ := Option.bind_eq_some_iff.mp h
    have hp := List.find?_some ho
    refine ⟨_, List.mem_of_find?_eq_some ho, ?_⟩
    cases p <;> simp_all [Payload.buffer?]

theorem getObjectPtr_modify (type : ObjectType) : (w.modify a g).getObjectPtr type id =
    (w.getObjectPtr type id).map fun c => if c.addr = a then ⟨a, g c.payload⟩ else c := by
  unfold getObjectPtr findObject modify
  by_cases hv : id = vaInvalidId
  · simp [hv]
  · simp only [if_neg hv, List.find?_map, Option.map_map]
    have hp : ((fun o : Object Cell => decide (o.id = id ∧ o.type = type)) ∘ fun o : Object Cell =>
        if o.obj.addr = a then { o with obj := ⟨a, g o.obj.payload⟩ } else o) =
        fun o => decide (o.id = id ∧ o.type = type) := by
      funext o
      by_cases e : o.obj.addr = a <;> simp [e]
    rw [hp]
    congr 1
    funext o
    by_cases e : o.obj.addr = a <;> simp [e]

theorem getSurface_modifySurface {b : Addr} {sf : NVSurface} (h : w.getSurface id = some (a, sf))
    (f : NVSurface → NVSurface) :
    (w.modifySurface b f).getSurface id = some (a, if a = b then f sf else sf) := by
  obtain ⟨⟨a', p⟩, hc, h⟩ := Option.bind_eq_some_iff.mp h
  obtain ⟨rfl, rfl⟩ : a' = a ∧ p = .surface sf := by
    cases p <;> simp_all [Payload.surface?]
  rw [getSurface, modifySurface, getObjectPtr_modify, hc]
  by_cases e : a' = b <;> simp [e, Payload.surface?]

theorem contextAt_mem {ctx : NVContext} (h : w.contextAt a = some ctx) :
    ∃ o ∈ w.objects, o.obj = ⟨a, .context ctx⟩ := by
  obtain ⟨⟨_, _, a', p⟩, ho, h⟩ := Option.bind_eq_some_iff.mp h
  have hp := List.find?_some ho
  refine ⟨_, List.mem_of_find?_eq_some ho, ?_⟩
  cases p <;> simp_all [Payload.context?]

theorem surfaceAt_mem {sf : NVSurface} (h : w.surfaceAt a = some sf) :
    ∃ o ∈ w.objects, o.obj = ⟨a, .surface sf⟩ := by
  obtain ⟨⟨_, _, a', p⟩, ho, h⟩ := Option.bind_eq_some_iff.mp h
  have hp := List.find?_some ho
  refine ⟨_, List.mem_of_find?_eq_some ho, ?_⟩
  cases p <;> simp_all [Payload.surface?]

end World

/-! ## The rules of the steps -/

section Rules

variable {ε : Type} {w : World} {E : ε → World → Prop}

@[simp] theorem ensures_allocateObject (payload : Payload) (a : Addr)
    {Q : VAGenericID → World → Prop} :
    (allocateObject payload a).Ensures w Q E ↔
      (w.Fresh a → Q (w.nextObjId + 1) (w.allocate a payload)) := by
  simp [allocateObject, World.allocate]

variable {Q : Unit → World → Prop}

@[simp] theorem ensures_deleteObject (id : VAGenericID) :
    (deleteObject id).Ensures w Q E ↔ Q () (w.deleteObject id) := Iff.rfl

@[simp] theorem ensures_free (a : Addr) : (free a).Ensures w Q E ↔ Q () (w.free a) := Iff.rfl

@[simp] theorem ensures_popCurrent (ok : Bool) :
    (popCurrent ok).Ensures w Q E ↔ Q () (if ok then w.pop else w) := by
  cases ok <;> rfl

@[simp] theorem ensures_pushContext (ok : Bool) (e : ε) :
    (pushContext ok e).Ensures w Q E ↔ (ok = false → E e w) ∧ (ok = true → Q () w.push) := by
  cases ok <;> simp [pushContext, World.push]

@[simp] theorem ensures_popContext (ok : Bool) (e : ε) :
    (popContext ok e).Ensures w Q E ↔ (ok = false → E e w) ∧ (ok = true → Q () w.pop) := by
  cases ok <;> simp [popContext]

@[simp] theorem ensures_waitUnlocked (a : Addr) :
    (waitUnlocked a).Ensures w Q E ↔
      (∀ sf, w.surfaceAt a = some sf → sf.locked = false → Q () w) := by
  cases h : w.surfaceAt a <;> simp [waitUnlocked, h]

@[simp] theorem ensures_failContext (r : ContextResults) (id : VAGenericID) (status : NvencStatus)
    {E : VAStatus → World → Prop} : (failContext r id status).Ensures w Q E ↔
      E (nvencToVaStatus status)
        ((if r.popped then (w.endSession r.addr).pop else w.endSession r.addr).deleteObject
          id) := by
  simp [failContext, World.endSession]

@[simp] theorem ensures_failEncode (r : EndResults) (status : NvencStatus)
    {E : VAStatus → World → Prop} : (failEncode r status).Ensures w Q E ↔
      E (nvencToVaStatus status) (if r.popped then w.pop else w) := by
  simp [failEncode]

end Rules

/-- A surface gets a host buffer only when it has none. -/
theorem ensures_ensureSurfaceHostBuffer {ε : Type} {w : World} (a : Addr) (alloc : Option Addr)
    {Q : Bool → World → Prop} {E : ε → World → Prop} :
    (ensureSurfaceHostBuffer a alloc).Ensures w Q E ↔ ∀ sf, w.surfaceAt a = some sf →
      (sf.hostData ≠ 0 → Q true w) ∧
      (sf.hostData = 0 → (alloc = none → Q false w) ∧
        ∀ p, alloc = some p → w.Fresh p →
          Q true (w.modifySurface a fun sf => { sf with hostData := p })) := by
  cases alloc <;> simp [ensureSurfaceHostBuffer, and_comm]

end NvVaapi.Objects
