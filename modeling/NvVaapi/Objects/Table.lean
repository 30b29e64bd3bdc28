import NvVaapi.Objects.PtrArray
import NvVaapi.Lib.Lts
import Mathlib.Data.List.Nodup
import Mathlib.Logic.Function.Basic

/-!
# The object table

* `ObjectTable`: the array of objects and the counter of ids.
* `allocateObject`, `getObject`, `deleteObject`: the operations, as loops over the array. On its
  list they are appending, `findObject` and `eraseObject`.
* `Directory`: what the table is for. An object is known under the number of its allocation until it
  is deleted.
* `Refines`: the table knows what the directory knows, while the counter has not wrapped.
* `objectTable_exact`: the table after any calls.
-/

namespace NvVaapi

abbrev VAGenericID := UInt32

def vaInvalidId : VAGenericID := 0xffffffff

inductive ObjectType where
  | config
  | context
  | surface
  | buffer
  | image
  deriving DecidableEq

structure Object (α : Type) where
  type : ObjectType
  id : VAGenericID
  obj : α

/-! ## The operations on a list -/

section Lists

variable {α : Type}

/-- The first object with the type and the id. -/
def findObject (l : List (Object α)) (type : ObjectType) (id : VAGenericID) : Option (Object α) :=
  if id = vaInvalidId then none else l.find? fun o => o.id = id ∧ o.type = type

/-- The objects without the first one that has the id. -/
def eraseObject (l : List (Object α)) (id : VAGenericID) : List (Object α) :=
  if id = vaInvalidId then l else l.eraseP fun o => o.id = id

theorem eraseObject_sublist (l : List (Object α)) (id : VAGenericID) :
    (eraseObject l id).Sublist l := by
  unfold eraseObject
  split
  · exact .refl l
  · exact List.eraseP_sublist

end Lists

/-! ## The operations on the array -/

/-- The fields of `NVDriver` that hold the objects. -/
structure ObjectTable (α : Type) where
  objects : PtrArray (Object α)
  nextObjId : VAGenericID

namespace ObjectTable

variable {α : Type}

def empty : ObjectTable α := ⟨.empty, 0⟩

def allocateObject (t : ObjectTable α) (type : ObjectType) (obj : α) :
    Option (Object α × ObjectTable α) :=
  let newObj : Object α := ⟨type, t.nextObjId + 1, obj⟩
  (t.objects.addElement newObj).map fun objects => (newObj, ⟨objects, t.nextObjId + 1⟩)

/-- The index of the first object with `p` that `ARRAY_FOR_EACH` finds. -/
def indexOf (t : ObjectTable α) (p : Object α → Bool) : Option Nat :=
  (List.range t.objects.size.toNat).find? fun idx => (t.objects.get? idx).any p

def getObject (t : ObjectTable α) (type : ObjectType) (id : VAGenericID) : Option (Object α) :=
  if id = vaInvalidId then none
  else (t.indexOf fun o => o.id = id ∧ o.type = type).bind t.objects.get?

def getObjectPtr (t : ObjectTable α) (type : ObjectType) (id : VAGenericID) : Option α :=
  if id = vaInvalidId then none else (t.getObject type id).map Object.obj

def deleteObject (t : ObjectTable α) (id : VAGenericID) : ObjectTable α :=
  if id = vaInvalidId then t
  else
    match t.indexOf fun o => o.id = id with
    | none => t
    | some idx => { t with objects := t.objects.removeElementAt idx }

def toList (t : ObjectTable α) : List (Object α) := t.objects.toList

def ids (t : ObjectTable α) : List VAGenericID := t.toList.map Object.id

/-! ### On the array as on the list -/

theorem find?_range (l : List (Object α)) (p : Object α → Bool) :
    (List.range l.length).find? (fun idx => (l[idx]?).any p) = l.findIdx? p := by
  induction l with
  | nil => rfl
  | cons o l ih =>
    rw [List.length_cons, List.range_succ_eq_map, List.find?_cons, List.findIdx?_cons]
    cases hp : p o with
    | true => simp [hp]
    | false =>
      simp only [List.getElem?_cons_zero, Option.any_some, hp, List.find?_map, Bool.false_eq_true,
        if_false, ← ih]
      rfl

theorem indexOf_eq (t : ObjectTable α) (p : Object α → Bool) :
    t.indexOf p = t.toList.findIdx? p := by
  unfold indexOf toList
  rw [← find?_range, PtrArray.length_toList]
  simp only [PtrArray.get?_eq]

theorem findIdx?_bind (l : List (Object α)) (p : Object α → Bool) :
    (l.findIdx? p).bind (fun idx => l[idx]?) = l.find? p := by
  induction l with
  | nil => rfl
  | cons o l ih =>
    rw [List.findIdx?_cons, List.find?_cons]
    cases p o with
    | true => rfl
    | false =>
      rw [← ih]
      cases l.findIdx? p <;> rfl

theorem getObject_eq (t : ObjectTable α) (type : ObjectType) (id : VAGenericID) :
    t.getObject type id = findObject t.toList type id := by
  unfold getObject findObject
  rw [indexOf_eq, ← findIdx?_bind]
  congr 2
  funext idx
  exact t.objects.get?_eq idx

theorem deleteObject_toList (t : ObjectTable α) (id : VAGenericID) :
    (t.deleteObject id).toList = eraseObject t.toList id := by
  unfold deleteObject eraseObject
  split
  case isTrue => rfl
  case isFalse =>
    rw [indexOf_eq, List.eraseP_eq_eraseIdx]
    split
    case h_1 h => rw [h]
    case h_2 idx h =>
      rw [h]
      exact t.objects.removeElementAt_toList idx

theorem allocateObject_some {t t' : ObjectTable α} {type : ObjectType} {obj : α} {o : Object α}
    (h : t.allocateObject type obj = some (o, t')) :
    o = ⟨type, t.nextObjId + 1, obj⟩ ∧ t'.toList = t.toList ++ [o] ∧
      t'.nextObjId = t.nextObjId + 1 := by
  obtain ⟨objects, ha, he⟩ := Option.map_eq_some_iff.mp h
  cases he
  exact ⟨rfl, PtrArray.addElement_toList ha, rfl⟩

/-- An object is allocated while there are fewer than `2 ^ 31`. -/
theorem allocateObject_isSome (t : ObjectTable α) (type : ObjectType) (obj : α)
    (h : t.toList.length < 2 ^ 31) : (t.allocateObject type obj).isSome := by
  unfold allocateObject
  rw [Option.isSome_map]
  exact t.objects.addElement_isSome _ (by simpa [toList] using h)

end ObjectTable

/-! ## The system -/

inductive TableCall (α : Type) where
  | allocate (type : ObjectType) (obj : α)
  | delete (id : VAGenericID)

def ObjectTable.step {α : Type} (t : ObjectTable α) : TableCall α → Option (ObjectTable α)
  | .allocate type obj => (t.allocateObject type obj).map Prod.snd
  | .delete id => some (t.deleteObject id)

/-- The allocations and deletions of objects, in any order. -/
def objectTable (α : Type) : Lts (ObjectTable α) (TableCall α) where
  init t := t = .empty
  step := ObjectTable.step

/-! ## The directory -/

/-- The objects by the number of their allocation. -/
structure Directory (α : Type) where
  allocated : Nat
  live : Nat → Option (Object α)

namespace Directory

variable {α : Type} (d : Directory α)

def empty : Directory α := ⟨0, fun _ => none⟩

def step : TableCall α → Directory α
  | .allocate type obj =>
    let n := d.allocated + 1
    ⟨n, Function.update d.live n (some ⟨type, UInt32.ofNat n, obj⟩)⟩
  | .delete id => { d with live := Function.update d.live id.toNat none }

/-- The live object under `id`, if it has the type. -/
def lookup (type : ObjectType) (id : VAGenericID) : Option (Object α) :=
  (d.live id.toNat).filter fun o => o.type = type

end Directory

/-- What is known after the calls. -/
def directory {α : Type} (calls : List (TableCall α)) : Directory α :=
  calls.foldl Directory.step .empty

def TableCall.allocates {α : Type} : TableCall α → Bool
  | .allocate _ _ => true
  | .delete _ => false

def allocations {α : Type} (calls : List (TableCall α)) : Nat := calls.countP TableCall.allocates

section Directory

variable {α : Type} {d : Directory α} {calls : List (TableCall α)}

theorem foldl_allocated (d : Directory α) (calls : List (TableCall α)) :
    (calls.foldl Directory.step d).allocated = d.allocated + allocations calls := by
  induction calls generalizing d with
  | nil => rfl
  | cons call calls ih =>
    rw [List.foldl_cons, ih]
    cases call with
    | allocate type obj =>
      simp only [allocations, List.countP_cons, TableCall.allocates, if_true, Directory.step]
      omega
    | delete id => simp [allocations, TableCall.allocates, Directory.step]

theorem directory_allocated : (directory calls).allocated = allocations calls := by
  rw [directory, foldl_allocated]
  exact Nat.zero_add _

theorem directory_append (as bs : List (TableCall α)) :
    directory (as ++ bs) = bs.foldl Directory.step (directory as) :=
  List.foldl_append

/-- Under a number that was given out, nothing appears any more. -/
theorem foldl_live_none {n : Nat} (h : d.live n = none) (hn : n ≤ d.allocated) :
    (calls.foldl Directory.step d).live n = none := by
  induction calls generalizing d with
  | nil => exact h
  | cons call calls ih =>
    refine ih ?_ ?_
    · cases call with
      | allocate type obj =>
        show Function.update d.live (d.allocated + 1) _ n = none
        rw [Function.update_of_ne (by omega), h]
      | delete id =>
        show Function.update d.live id.toNat none n = none
        by_cases he : n = id.toNat
        · rw [he, Function.update_self]
        · rw [Function.update_of_ne he, h]
    · cases call with
      | allocate type obj =>
        show n ≤ d.allocated + 1
        omega
      | delete id => exact hn

/-- A deleted object is never known again. -/
theorem directory_deleted (as bs : List (TableCall α)) {id : VAGenericID}
    (h : id.toNat ≤ allocations as) :
    (directory (as ++ .delete id :: bs)).live id.toNat = none := by
  rw [directory_append, List.foldl_cons]
  refine foldl_live_none ?_ ?_
  · exact Function.update_self ..
  · show id.toNat ≤ (directory as).allocated
    rwa [directory_allocated]

end Directory

/-! ## Refinement -/

/-- The table knows what the directory knows. -/
structure Refines {α : Type} (t : ObjectTable α) (d : Directory α) : Prop where
  count : t.nextObjId.toNat = d.allocated
  sorted : t.ids.Pairwise (· < ·)
  given : ∀ o ∈ t.toList, 0 < o.id.toNat ∧ o.id.toNat ≤ d.allocated
  live : ∀ n, d.live n = t.toList.find? fun o => o.id.toNat = n

namespace Refines

variable {α : Type} {t t' : ObjectTable α} {d : Directory α}

theorem empty : Refines (.empty : ObjectTable α) .empty :=
  ⟨rfl, List.Pairwise.nil, nofun, fun _ => rfl⟩

/-- Two objects with one id are one. -/
theorem eq_of_id (h : Refines t d) {o o' : Object α} (ho : o ∈ t.toList) (ho' : o' ∈ t.toList)
    (he : o.id = o'.id) : o = o' := by
  have hinj : t.ids.Nodup := h.sorted.imp UInt32.ne_of_lt
  exact List.inj_on_of_nodup_map hinj ho ho' he

theorem allocate (h : Refines t d) {type : ObjectType} {obj : α} (hn : d.allocated + 1 < 2 ^ 32)
    (hs : t.step (.allocate type obj) = some t') : Refines t' (d.step (.allocate type obj)) := by
  obtain ⟨⟨o, t₁⟩, ha, rfl⟩ := Option.map_eq_some_iff.mp hs
  obtain ⟨rfl, hl, hc⟩ := ObjectTable.allocateObject_some ha
  have hid : (t.nextObjId + 1).toNat = d.allocated + 1 := by
    rw [UInt32.toNat_add, h.count]
    exact Nat.mod_eq_of_lt hn
  have hof : UInt32.ofNat (d.allocated + 1) = t.nextObjId + 1 :=
    UInt32.toNat_inj.mp (by rw [hid, UInt32.toNat_ofNat_of_lt' hn])
  refine ⟨by rw [hc, hid]; rfl, ?_, ?_, ?_⟩
  · rw [ObjectTable.ids, hl, List.map_append, List.pairwise_append]
    refine ⟨h.sorted, List.pairwise_singleton _ _, ?_⟩
    intro a ha b hb
    obtain ⟨o, ho, rfl⟩ := List.mem_map.mp ha
    obtain rfl := List.mem_singleton.mp hb
    have := (h.given o ho).2
    exact UInt32.lt_iff_toNat_lt.mpr (by rw [hid]; omega)
  · intro o ho
    rw [hl, List.mem_append, List.mem_singleton] at ho
    show _ ∧ o.id.toNat ≤ d.allocated + 1
    rcases ho with ho | rfl
    · have := h.given o ho
      omega
    · rw [hid]
      omega
  · intro n
    show Function.update d.live _ _ n = _
    rw [hl, List.find?_append, ← h.live n]
    by_cases he : n = d.allocated + 1
    · subst he
      have : d.live (d.allocated + 1) = none := by
        rw [h.live, List.find?_eq_none]
        intro o ho
        have := (h.given o ho).2
        simp only [decide_eq_true_eq]
        omega
      rw [Function.update_self, this, hof]
      simp [hid]
    · rw [Function.update_of_ne he]
      simp [hid, Ne.symm he]

theorem deleteObject_eq_filter (h : Refines t d) (id : VAGenericID)
    (hn : d.allocated < 2 ^ 32 - 1) :
    (t.deleteObject id).toList = t.toList.filter fun o => o.id ≠ id := by
  have hsub : t.toList.Pairwise fun o o' => o.id ≠ o'.id :=
    (List.pairwise_map.mp h.sorted).imp UInt32.ne_of_lt
  rw [ObjectTable.deleteObject_toList, eraseObject]
  split
  case isTrue hid =>
    rw [List.filter_eq_self.mpr]
    intro o ho
    have := (h.given o ho).2
    have : o.id ≠ id := by
      rintro rfl
      rw [hid] at this
      simp only [vaInvalidId, UInt32.reduceToNat] at this
      omega
    simpa using this
  case isFalse =>
    generalize t.toList = l at hsub
    induction l with
    | nil => rfl
    | cons o l ih =>
      obtain ⟨ho, hl⟩ := List.pairwise_cons.mp hsub
      by_cases he : o.id = id
      · rw [List.eraseP_cons_of_pos (by simpa using he),
          List.filter_cons_of_neg (by simpa using he), List.filter_eq_self.mpr]
        intro o' ho'
        simpa [he] using (ho o' ho').symm
      · rw [List.eraseP_cons_of_neg (by simpa using he),
          List.filter_cons_of_pos (by simpa using he), ih hl]

theorem delete (h : Refines t d) (hn : d.allocated < 2 ^ 32 - 1) (id : VAGenericID) :
    Refines (t.deleteObject id) (d.step (.delete id)) := by
  have hl := h.deleteObject_eq_filter id hn
  have hsub : (t.deleteObject id).toList.Sublist t.toList := by
    rw [hl]
    exact List.filter_sublist
  refine ⟨?_, h.sorted.sublist (hsub.map _), fun o ho => h.given o (hsub.mem ho), ?_⟩
  · show _ = d.allocated
    rw [← h.count]
    unfold ObjectTable.deleteObject
    split
    · rfl
    · split <;> rfl
  · intro n
    show Function.update d.live id.toNat none n = _
    rw [hl, List.find?_filter]
    by_cases he : n = id.toNat
    · subst he
      rw [Function.update_self, eq_comm, List.find?_eq_none]
      intro o _
      simp only [ne_eq, decide_not, Bool.not_eq_eq_eq_not, Bool.not_true, decide_eq_false_iff_not,
        decide_eq_true_eq, UInt32.toNat_inj, not_and]
      exact fun h => h
    · rw [Function.update_of_ne he, h.live]
      congr 1
      funext o
      by_cases ho : o.id.toNat = n
      · have : o.id ≠ id := by
          rintro rfl
          exact he ho.symm
        simp [ho, this]
      · simp [ho]

theorem step (h : Refines t d) {call : TableCall α} (hn : (d.step call).allocated < 2 ^ 32 - 1)
    (hs : t.step call = some t') : Refines t' (d.step call) := by
  cases call with
  | allocate type obj =>
    have hn : d.allocated + 1 < 2 ^ 32 - 1 := hn
    exact h.allocate (by omega) hs
  | delete id =>
    cases hs
    exact h.delete hn id

theorem run {calls : List (TableCall α)} (h : Refines t d)
    (hn : d.allocated + allocations calls < 2 ^ 32 - 1)
    (hr : (objectTable α).run t calls = some t') : Refines t' (calls.foldl Directory.step d) := by
  induction calls generalizing t d with
  | nil =>
    obtain rfl : t = t' := by simpa using hr
    exact h
  | cons call calls ih =>
    obtain ⟨t₁, hs, hr⟩ := Option.bind_eq_some_iff.mp hr
    have ha := foldl_allocated d (call :: calls)
    rw [List.foldl_cons, foldl_allocated] at ha
    exact ih (h.step (by omega) hs) (by omega) hr

theorem getObject (h : Refines t d) (hn : d.allocated < 2 ^ 32 - 1) (type : ObjectType)
    (id : VAGenericID) : t.getObject type id = d.lookup type id := by
  rw [ObjectTable.getObject_eq, findObject, Directory.lookup, h.live]
  split
  case isTrue hid =>
    rw [List.find?_eq_none.mpr]
    · rfl
    · intro o ho
      have := (h.given o ho).2
      simp only [hid, vaInvalidId, UInt32.reduceToNat, decide_eq_true_eq]
      omega
  case isFalse =>
    cases hf : t.toList.find? fun o => o.id.toNat = id.toNat with
    | none =>
      refine List.find?_eq_none.mpr fun o ho hp => ?_
      have hp : o.id = id ∧ o.type = type := by simpa using hp
      exact List.find?_eq_none.mp hf o ho (by simp [hp.1])
    | some o =>
      have hm := List.mem_of_find?_eq_some hf
      have hid : o.id = id := UInt32.toNat_inj.mp (by simpa using List.find?_some hf)
      by_cases ht : o.type = type
      · rw [Option.filter_some, if_pos (by simpa using ht), List.find?_eq_some_iff_append]
        obtain ⟨-, as, bs, hab, has⟩ := List.find?_eq_some_iff_append.mp hf
        refine ⟨by simpa using ⟨hid, ht⟩, as, bs, hab, fun a ha => ?_⟩
        have := has a ha
        simp only [Bool.not_eq_eq_eq_not, Bool.not_true, decide_eq_false_iff_not,
          UInt32.toNat_inj] at this ⊢
        exact fun hc => this hc.1
      · rw [Option.filter_some, if_neg (by simpa using ht), List.find?_eq_none]
        intro o' ho' hp
        simp only [decide_eq_true_eq] at hp
        exact ht (h.eq_of_id hm ho' (hid.trans hp.1.symm) ▸ hp.2)

end Refines

/-- The object table after any calls with fewer than `2 ^ 32 - 1` allocations. -/
theorem objectTable_exact {α : Type} {calls : List (TableCall α)} {t : ObjectTable α}
    (hr : (objectTable α).run .empty calls = some t) (hn : allocations calls < 2 ^ 32 - 1) :
    (t.ids.Nodup ∧ 0 ∉ t.ids ∧ vaInvalidId ∉ t.ids ∧ t.ids.Pairwise (· < ·)) ∧
      (∀ type id, t.getObject type id = (directory calls).lookup type id) ∧
      (∀ as bs id, calls = as ++ .delete id :: bs → id.toNat ≤ allocations as →
        ∀ type, t.getObject type id = none) ∧
      ∀ id, (t.deleteObject id).toList = t.toList.filter fun o => o.id ≠ id := by
  have h : Refines t (directory calls) := Refines.empty.run (by simpa [Directory.empty] using hn) hr
  have hd : (directory calls).allocated < 2 ^ 32 - 1 := by rwa [directory_allocated]
  refine ⟨⟨h.sorted.imp UInt32.ne_of_lt, ?_, ?_, h.sorted⟩, h.getObject hd, ?_,
    fun id => h.deleteObject_eq_filter id hd⟩
  · intro h0
    obtain ⟨o, ho, he⟩ := List.mem_map.mp h0
    have := (h.given o ho).1
    simp [he] at this
  · intro hi
    obtain ⟨o, ho, he⟩ := List.mem_map.mp hi
    have := (h.given o ho).2
    simp only [he, vaInvalidId, UInt32.reduceToNat] at this
    omega
  · rintro as bs id rfl ha type
    rw [h.getObject hd, Directory.lookup, directory_deleted as bs ha]
    rfl

/-- The calls have a result while there are at most `2 ^ 31` objects. -/
theorem objectTable_total {α : Type} {t : ObjectTable α} {calls : List (TableCall α)}
    (hn : t.toList.length + allocations calls ≤ 2 ^ 31) :
    ∃ t', (objectTable α).run t calls = some t' := by
  induction calls generalizing t with
  | nil => exact ⟨t, rfl⟩
  | cons call calls ih =>
    rw [allocations, List.countP_cons, ← allocations] at hn
    cases call with
    | allocate type obj =>
      have hn : t.toList.length + (allocations calls + 1) ≤ 2 ^ 31 := hn
      obtain ⟨⟨o, t₁⟩, ha⟩ :=
        Option.isSome_iff_exists.mp (t.allocateObject_isSome type obj (by omega))
      have hs : t.step (.allocate type obj) = some t₁ := congrArg (Option.map Prod.snd) ha
      have hlen : t₁.toList.length = t.toList.length + 1 := by
        rw [(ObjectTable.allocateObject_some ha).2.1, List.length_append, List.length_singleton]
      obtain ⟨t', hr⟩ := ih (t := t₁) (by omega)
      exact ⟨t', Option.bind_eq_some_iff.mpr ⟨t₁, hs, hr⟩⟩
    | delete id =>
      have hn : t.toList.length + allocations calls ≤ 2 ^ 31 := hn
      have hlen : (t.deleteObject id).toList.length ≤ t.toList.length := by
        rw [ObjectTable.deleteObject_toList]
        exact (eraseObject_sublist t.toList id).length_le
      exact ih (by omega)

/-- A surface and a buffer, of which the surface is deleted. -/
theorem objectTable_exact_two : ∃ t : ObjectTable Nat, t.ids = [2] ∧
    t.getObject .buffer 2 =
      (directory [.allocate .surface 7, .allocate .buffer 8, .delete 1]).lookup
      .buffer 2 := by
  obtain ⟨t, hr, hi⟩ : ∃ t, (objectTable Nat).run .empty
      [.allocate .surface 7, .allocate .buffer 8, .delete 1] = some t ∧ t.ids = [2] :=
    ⟨_, rfl, by decide⟩
  exact ⟨t, hi, (objectTable_exact hr (by decide)).2.1 .buffer 2⟩

end NvVaapi
