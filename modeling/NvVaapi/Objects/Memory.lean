import NvVaapi.Lib.Cells
import NvVaapi.Lib.Lts
import NvVaapi.Objects.PtrArray
import Mathlib.Data.List.Infix

/-!
# The pointer array and its block of memory

* `Memory.Array`: the block that `buf` leads to and the two 32-bit numbers, with no relation between
  them. A slot is `none` where it holds NULL. An access that is not inside the block has no result,
  and neither has a growth loop that does not end.
* `Represents`: the block holds the slots of a `PtrArray`, whose elements may be NULL here. The
  functions of `list.c` keep that.
* `arrayCalls_refine_list`: a run of the calls does to the array what it does to a list.

`realloc` does not fail. The pointers `fresh` are in the slots that it adds.
-/

namespace NvVaapi.Memory

structure Array (α : Type) where
  buf : Option (List (Option α))
  size : UInt32
  capacity : UInt32

namespace Array

variable {α : Type}

def zeroed : Array α := ⟨none, 0, 0⟩

/-- The slots of the block. -/
def slots (arr : Array α) : List (Option α) := arr.buf.getD []

/-- The slots below `size`. -/
def elements (arr : Array α) : List (Option α) := arr.slots.take arr.size.toNat

/-! ## The functions -/

def ensureCapacity (arr : Array α) (newCapacity : UInt32) (fresh : Nat → Option α) :
    Option (Array α) :=
  if newCapacity ≤ arr.capacity then some arr
  else do
    let capacity ← PtrArray.grownCapacity arr.capacity newCapacity
    let buf := Cells.resize fresh arr.slots capacity.toNat
    let buf ← Cells.write buf arr.capacity.toNat
        (List.replicate (capacity - arr.capacity).toNat none)
    some { buf := some buf, size := arr.size, capacity }

def addElement (arr : Array α) (element : Option α) (fresh : Nat → Option α) :
    Option (Array α) := do
  let arr ← arr.ensureCapacity (arr.size + 1) fresh
  let buf ← Cells.store (← arr.buf) arr.size.toNat element
  some { buf := some buf, size := arr.size + 1, capacity := arr.capacity }

/-- `element` is what `calloc` returns. -/
def allocAndAddElement (arr : Array α) (element : Option α) (fresh : Nat → Option α) :
    Option (Option α × Array α) := do
  let arr ← arr.ensureCapacity (arr.size + 1) fresh
  let buf ← Cells.store (← arr.buf) arr.size.toNat element
  some (element, { buf := some buf, size := arr.size + 1, capacity := arr.capacity })

/-- `for (; i < size; i++) buf[i] = buf[i+1]`, for `fuel` tests. -/
def shift (size : UInt32) : Nat → UInt32 → List (Option α) → Option (List (Option α))
  | 0, _, _ => none
  | fuel + 1, i, buf =>
    if i < size then do
      let buf ← Cells.store buf i.toNat (← buf[(i + 1).toNat]?)
      shift size fuel (i + 1) buf
    else some buf

/-- The condition of `remove_element_at` with its loop. -/
def closeGap (size index : UInt32) (buf : List (Option α)) : Option (List (Option α)) :=
  if index < size then shift size (2 ^ 32) index buf else some buf

def removeElementAt (arr : Array α) (index : UInt32) : Option (Array α) :=
  if index ≥ arr.size then some arr
  else do
    let size := arr.size - 1
    let buf ← closeGap size index (← arr.buf)
    let buf ← Cells.store buf size.toNat none
    some { buf := some buf, size, capacity := arr.capacity }

def getSize (arr : Array α) : UInt32 := arr.size

def getElementAt (arr : Array α) (index : UInt32) : Option (Option α) :=
  match arr.buf with
  | none => some none
  | some buf => if index ≥ arr.size then some none else buf[index.toNat]?

/-- The first result is the pointer that is freed. -/
def removeAndFreeElementAt (arr : Array α) (index : UInt32) : Option (Option α × Array α) := do
  let element ← arr.getElementAt index
  let arr ← arr.removeElementAt index
  some (element, arr)

/-! ## Sizes and indices -/

theorem toNat_pred {size : UInt32} (h : 0 < size.toNat) : (size - 1).toNat = size.toNat - 1 :=
  UInt32.toNat_sub_of_le _ _ (UInt32.le_iff_toNat_le.mpr h)

/-- Below another number nothing wraps. -/
theorem toNat_succ {i n : UInt32} (h : i.toNat < n.toNat) : (i + 1).toNat = i.toNat + 1 := by
  have hn := n.toNat_lt
  rw [UInt32.toNat_add]
  exact Nat.mod_eq_of_lt (show i.toNat + 1 < 2 ^ 32 by omega)

/-! ## The block holds the slots -/

structure Represents (arr : Array α) (p : PtrArray (Option α)) : Prop where
  slots : arr.slots = p.toList ++ List.replicate (p.capacity.toNat - p.size.toNat) none
  size : arr.size = p.size
  capacity : arr.capacity = p.capacity

section Represents

variable {arr : Array α} {p p' : PtrArray (Option α)}

theorem represents_zeroed : (zeroed : Array α).Represents .empty := ⟨rfl, rfl, rfl⟩

theorem Represents.length_slots (h : arr.Represents p) : arr.slots.length = arr.capacity.toNat := by
  have hle := p.size_le
  rw [h.slots, h.capacity, List.length_append, List.length_replicate, p.length_toList]
  omega

theorem Represents.elements (h : arr.Represents p) : arr.elements = p.toList := by
  rw [Array.elements, h.slots, h.size, ← p.length_toList, List.take_left]

/-- A slot behind the elements is NULL. -/
theorem Represents.getElem?_slots (h : arr.Represents p) {i : Nat} (hi : arr.size.toNat ≤ i)
    (hcap : i < arr.capacity.toNat) : arr.slots[i]? = some none := by
  rw [h.size, ← p.length_toList] at hi
  rw [h.capacity] at hcap
  rw [h.slots, List.getElem?_append_right hi, p.length_toList]
  apply List.getElem?_replicate_of_lt
  rw [p.length_toList] at hi
  omega

/-- A block with slots is there. -/
theorem buf_eq_some (h : 0 < arr.slots.length) : arr.buf = some arr.slots := by
  unfold slots at h ⊢
  cases hb : arr.buf with
  | none => simp [hb] at h
  | some buf => rfl

theorem Represents.ensureCapacity (h : arr.Represents p) {n : UInt32} (fresh : Nat → Option α)
    (hp : p.ensureCapacity n = some p') :
    ∃ arr', arr.ensureCapacity n fresh = some arr' ∧ arr'.Represents p' := by
  have hsize := (PtrArray.ensureCapacity_some hp).2
  have hlist := (PtrArray.ensureCapacity_some hp).1
  unfold PtrArray.ensureCapacity at hp
  unfold Array.ensureCapacity
  rw [h.capacity]
  split at hp
  case isTrue hle =>
    cases hp
    rw [if_pos hle]
    exact ⟨arr, rfl, h⟩
  case isFalse hlt =>
    rw [if_neg hlt]
    split at hp
    · cases hp
    case h_2 capacity hg =>
      have hle := (PtrArray.le_grownCapacity hg hlt p.grows).1
      have hnew : (capacity - p.capacity).toNat = capacity.toNat - p.capacity.toNat :=
        UInt32.toNat_sub_of_le _ _ (UInt32.le_iff_toNat_le.mpr hle)
      have hlen : arr.slots.length = p.capacity.toNat := by rw [h.length_slots, h.capacity]
      have hwrite : Cells.write (Cells.resize fresh arr.slots capacity.toNat) p.capacity.toNat
          (List.replicate (capacity - p.capacity).toNat none) =
          some (arr.slots ++ List.replicate (capacity - p.capacity).toNat none) := by
        rw [← hlen]
        apply Cells.write_resize
        rw [List.length_replicate, hnew]
        omega
      refine ⟨⟨some (arr.slots ++ List.replicate (capacity - p.capacity).toNat none), arr.size,
        capacity⟩, ?_, ?_⟩
      · rw [hg]
        show (Cells.write _ _ _).bind _ = _
        rw [hwrite]
        rfl
      · have hcap : p'.capacity = capacity := by
          cases hp
          rfl
        refine ⟨?_, h.size.trans hsize.symm, hcap.symm⟩
        show arr.slots ++ _ = _
        have hle' := p.size_le
        rw [h.slots, hlist, hsize, hcap, hnew, List.append_assoc, List.replicate_append_replicate]
        congr 2
        omega

/-- The first slot behind the elements. -/
theorem Represents.slots_of_room (h : arr.Represents p) (hroom : p.size.toNat < p.capacity.toNat) :
    arr.slots = p.toList ++ none ::
      List.replicate (p.capacity.toNat - (p.size.toNat + 1)) none := by
  rw [h.slots,
    show p.capacity.toNat - p.size.toNat = p.capacity.toNat - (p.size.toNat + 1) + 1 by omega,
    List.replicate_succ]

theorem Represents.addElement (h : arr.Represents p) {element : Option α} (fresh : Nat → Option α)
    (hp : p.addElement element = some p') :
    ∃ arr', arr.addElement element fresh = some arr' ∧ arr'.Represents p' := by
  obtain ⟨p₁, h₁, hroom, hsize, hcap⟩ := PtrArray.addElement_some hp
  have hlist : p'.toList = p₁.toList ++ [element] := by
    rw [PtrArray.addElement_toList hp, (PtrArray.ensureCapacity_some h₁).1]
  rw [← h.size] at h₁
  obtain ⟨arr₁, harr, hrep⟩ := h.ensureCapacity fresh h₁
  have hnext := toNat_succ hroom
  have hbuf : arr₁.buf = some arr₁.slots := by
    apply buf_eq_some
    rw [hrep.length_slots, hrep.capacity]
    omega
  obtain ⟨buf, hstore, hslots⟩ : ∃ buf, Cells.store arr₁.slots arr₁.size.toNat element = some buf ∧
      buf = p₁.toList ++ element ::
        List.replicate (p₁.capacity.toNat - (p₁.size.toNat + 1)) none := by
    refine ⟨_, ?_, rfl⟩
    rw [hrep.slots_of_room hroom, hrep.size, ← p₁.length_toList]
    apply Cells.store_append
  refine ⟨⟨some buf, arr₁.size + 1, arr₁.capacity⟩, ?_, ?_⟩
  · unfold Array.addElement
    rw [harr]
    show (arr₁.buf.bind fun buf => (Cells.store buf arr₁.size.toNat element).bind _) = _
    rw [hbuf, Option.bind_some, hstore]
    rfl
  · refine ⟨?_, ?_, hrep.capacity.trans hcap.symm⟩
    · show buf = _
      rw [hslots, hlist, hsize, hcap, hnext, List.append_assoc]
      rfl
    · rw [hsize]
      exact congrArg (· + 1) hrep.size

/-- The loop is `PtrArray.shiftDown`, which has no bound. -/
theorem shift_eq {size i : UInt32} {buf : List (Option α)} {n fuel : Nat}
    (hn : i.toNat + n = size.toNat) (hsize : size.toNat < buf.length) (hfuel : n < fuel) :
    shift size fuel i buf = some (PtrArray.shiftDown buf i.toNat n) := by
  obtain ⟨fuel, rfl⟩ : ∃ f, fuel = f + 1 := ⟨fuel - 1, by omega⟩
  unfold shift
  induction n generalizing i buf fuel with
  | zero =>
    have hend : ¬i < size := UInt32.not_lt.mpr (UInt32.le_iff_toNat_le.mpr (by omega))
    rw [if_neg hend]
    rfl
  | succ n ih =>
    have hlt : i < size := UInt32.lt_iff_toNat_lt.mpr (by omega)
    have hnext := toNat_succ (UInt32.lt_iff_toNat_lt.mp hlt)
    obtain ⟨fuel, rfl⟩ : ∃ f, fuel = f + 1 := ⟨fuel - 1, by omega⟩
    have hload : buf[i.toNat + 1]? = some buf[i.toNat + 1] := List.getElem?_eq_getElem (by omega)
    rw [if_pos hlt, hnext, hload, PtrArray.shiftDown, hload]
    show (Cells.store buf i.toNat buf[i.toNat + 1]).bind _ = _
    rw [Cells.store, if_pos (by omega), Option.bind_some]
    unfold shift
    rw [ih (by omega) (by rwa [List.length_set]) fuel (by omega), hnext]
    rfl

theorem closeGap_eq {size index : UInt32} {buf : List (Option α)}
    (hindex : index.toNat ≤ size.toNat) (hsize : size.toNat < buf.length) :
    closeGap size index buf =
      some (PtrArray.shiftDown buf index.toNat (size.toNat - index.toNat)) := by
  unfold closeGap
  split
  case isTrue hlt =>
    have := size.toNat_lt
    exact shift_eq (by omega) hsize (by omega)
  case isFalse hge =>
    have hle := UInt32.le_iff_toNat_le.mp (UInt32.not_lt.mp hge)
    rw [show size.toNat - index.toNat = 0 by omega, PtrArray.shiftDown]

theorem Represents.removeElementAt (h : arr.Represents p) (index : UInt32) :
    ∃ arr', arr.removeElementAt index = some arr' ∧
      arr'.Represents (p.removeElementAt index.toNat) := by
  unfold Array.removeElementAt
  rw [h.size]
  split
  case isTrue hge =>
    rw [PtrArray.removeElementAt_of_le (UInt32.le_iff_toNat_le.mp hge)]
    exact ⟨arr, rfl, h⟩
  case isFalse hlt =>
    have hindex : index.toNat < p.size.toNat := UInt32.lt_iff_toNat_lt.mp (UInt32.not_le.mp hlt)
    have hle := p.size_le
    have hlast : (p.size - 1).toNat = p.size.toNat - 1 := toNat_pred (by omega)
    have hlen : arr.slots.length = p.capacity.toNat := by rw [h.length_slots, h.capacity]
    have hbuf : arr.buf = some arr.slots := buf_eq_some (by omega)
    have hgap : closeGap (p.size - 1) index arr.slots =
        some (PtrArray.shiftDown arr.slots index.toNat (p.size.toNat - 1 - index.toNat)) := by
      rw [closeGap_eq (by omega) (by omega), hlast]
    obtain ⟨buf, hstore, hslots⟩ : ∃ buf,
        Cells.store (PtrArray.shiftDown arr.slots index.toNat (p.size.toNat - 1 - index.toNat))
          (p.size - 1).toNat
          none = some buf ∧
        buf = p.toList.eraseIdx index.toNat ++
          List.replicate (p.capacity.toNat - p.size.toNat + 1) none := by
      refine ⟨_, ?_, rfl⟩
      rw [Cells.store, if_pos (by rw [PtrArray.length_shiftDown]; omega), hlast, h.slots,
        ← p.length_toList, PtrArray.shiftDown_set_slots _ _ _ (by rwa [p.length_toList])]
    obtain ⟨hsize, hcap⟩ := PtrArray.removeElementAt_of_lt hindex
    refine ⟨⟨some buf, p.size - 1, arr.capacity⟩, ?_, ?_, hsize.symm, h.capacity.trans hcap.symm⟩
    · show (arr.buf.bind fun buf => (closeGap (p.size - 1) index buf).bind fun buf => _) = _
      rw [hbuf, Option.bind_some, hgap, Option.bind_some]
      show (Cells.store _ _ _).bind _ = _
      rw [hstore]
      rfl
    · show buf = _
      rw [hslots, PtrArray.removeElementAt_toList, hsize, hcap, hlast]
      congr 2
      omega

/-- The slot at an index, and NULL where there is no element. -/
theorem Represents.getElementAt (h : arr.Represents p) (index : UInt32) :
    arr.getElementAt index = some (p.toList[index.toNat]?).join := by
  have hlen := p.length_toList
  unfold Array.getElementAt
  split
  case h_1 hnull =>
    have hslots : arr.slots = [] := by rw [Array.slots, hnull, Option.getD_none]
    have hnil : p.toList = [] := (List.append_eq_nil_iff.mp (h.slots.symm.trans hslots)).1
    rw [hnil]
    rfl
  case h_2 buf hbuf =>
    have hslots : buf = arr.slots := by rw [Array.slots, hbuf, Option.getD_some]
    rw [h.size]
    split
    case isTrue hge =>
      have := UInt32.le_iff_toNat_le.mp hge
      rw [List.getElem?_eq_none (by omega)]
      rfl
    case isFalse hlt =>
      have hindex := UInt32.lt_iff_toNat_lt.mp (UInt32.not_le.mp hlt)
      rw [hslots, h.slots, List.getElem?_append_left (by omega),
        List.getElem?_eq_getElem (by omega)]
      rfl

theorem Represents.removeAndFreeElementAt (h : arr.Represents p) (index : UInt32) :
    ∃ arr', arr.removeAndFreeElementAt index = some ((p.toList[index.toNat]?).join, arr') ∧
      arr'.Represents (p.removeElementAt index.toNat) := by
  obtain ⟨arr', harr, hrep⟩ := h.removeElementAt index
  refine ⟨arr', ?_, hrep⟩
  unfold Array.removeAndFreeElementAt
  rw [h.getElementAt, harr]
  rfl

end Represents

theorem allocAndAddElement_eq (arr : Array α) (element : Option α) (fresh : Nat → Option α) :
    arr.allocAndAddElement element fresh = (arr.addElement element fresh).map (element, ·) := by
  simp [allocAndAddElement, addElement, Option.map_bind]

end Array

/-! ## The calls on one array -/

section Calls

variable {α : Type}

inductive ArrayCall (α : Type) where
  | addElement (element : Option α) (fresh : Nat → Option α)
  | allocAndAddElement (element : Option α) (fresh : Nat → Option α)
  | removeElementAt (index : UInt32)
  | removeAndFreeElementAt (index : UInt32)

def arrayCalls : Lts (Array α) (ArrayCall α) where
  init arr := arr = .zeroed
  step arr
    | .addElement element fresh => arr.addElement element fresh
    | .allocAndAddElement element fresh => (arr.allocAndAddElement element fresh).map Prod.snd
    | .removeElementAt index => arr.removeElementAt index
    | .removeAndFreeElementAt index => (arr.removeAndFreeElementAt index).map Prod.snd

/-- What a call does to a list: it appends, or erases an index that there is. -/
def ArrayCall.onList (l : List (Option α)) : ArrayCall α → List (Option α)
  | addElement element _ => l ++ [element]
  | allocAndAddElement element _ => l ++ [element]
  | removeElementAt index => if index.toNat < l.length then l.eraseIdx index.toNat else l
  | removeAndFreeElementAt index => if index.toNat < l.length then l.eraseIdx index.toNat else l

def listAfter (calls : List (ArrayCall α)) : List (Option α) := calls.foldl ArrayCall.onList []

theorem listAfter_concat (calls : List (ArrayCall α)) (call : ArrayCall α) :
    listAfter (calls ++ [call]) = call.onList (listAfter calls) := List.foldl_concat ..

/-- The array holds this list. -/
def Array.Holds (arr : Array α) (l : List (Option α)) : Prop := ∃ p, arr.Represents p ∧ p.toList = l

section Step

variable {arr : Array α} {l : List (Option α)}

theorem Array.Holds.addElement (h : arr.Holds l) (hfew : l.length < 2 ^ 31) (element : Option α)
    (fresh : Nat → Option α) :
    ∃ arr', arr.addElement element fresh = some arr' ∧ arr'.Holds (l ++ [element]) := by
  obtain ⟨p, hrep, rfl⟩ := h
  rw [p.length_toList] at hfew
  obtain ⟨p', hp⟩ := Option.isSome_iff_exists.mp (p.addElement_isSome element hfew)
  obtain ⟨arr', harr, hrep'⟩ := hrep.addElement fresh hp
  exact ⟨arr', harr, p', hrep', PtrArray.addElement_toList hp⟩

/-- An erased list, whether there is the index or not. -/
theorem removeElementAt_toList_ite (p : PtrArray (Option α)) (index : Nat) :
    (p.removeElementAt index).toList =
      if index < p.toList.length then p.toList.eraseIdx index else p.toList := by
  rw [p.removeElementAt_toList]
  split
  case isTrue => rfl
  case isFalse hge => exact List.eraseIdx_of_length_le (by omega)

/-- A call does to the array what it does to the list that it holds. -/
theorem Array.Holds.step (h : arr.Holds l) (call : ArrayCall α)
    (hfew : (call.onList l).length < 2 ^ 31) :
    ∃ arr', arrayCalls.step arr call = some arr' ∧ arr'.Holds (call.onList l) := by
  cases call with
  | addElement element fresh =>
    rw [ArrayCall.onList, List.length_append] at hfew
    exact h.addElement (by omega) element fresh
  | allocAndAddElement element fresh =>
    rw [ArrayCall.onList, List.length_append] at hfew
    obtain ⟨arr', harr, h'⟩ := h.addElement (by omega) element fresh
    refine ⟨arr', ?_, h'⟩
    show (arr.allocAndAddElement element fresh).map Prod.snd = _
    rw [Array.allocAndAddElement_eq, harr]
    rfl
  | removeElementAt index =>
    obtain ⟨p, hrep, rfl⟩ := h
    obtain ⟨arr', harr, hrep'⟩ := hrep.removeElementAt index
    exact ⟨arr', harr, _, hrep', removeElementAt_toList_ite p index.toNat⟩
  | removeAndFreeElementAt index =>
    obtain ⟨p, hrep, rfl⟩ := h
    obtain ⟨arr', harr, hrep'⟩ := hrep.removeAndFreeElementAt index
    refine ⟨arr', ?_, _, hrep', removeElementAt_toList_ite p index.toNat⟩
    show (arr.removeAndFreeElementAt index).map Prod.snd = _
    rw [harr]
    rfl

end Step

/-- From the zeroed array, as long as there are fewer than `2 ^ 31` elements, every call has a
result and the array holds the list: its elements in their order, and NULL behind them up to the
capacity. -/
theorem arrayCalls_refine_list {calls : List (ArrayCall α)}
    (hfew : ∀ done, done <+: calls → (listAfter done).length < 2 ^ 31) :
    ∀ done, done <+: calls → ∃ arr,
      arrayCalls.run .zeroed done = some arr ∧ arr.size ≤ arr.capacity ∧
      arr.slots.length = arr.capacity.toNat ∧
      (∀ i, arr.size.toNat ≤ i → i < arr.capacity.toNat → arr.slots[i]? = some none) ∧
      arr.elements = listAfter done ∧ arr.getSize.toNat = (listAfter done).length ∧
      ∀ index, arr.getElementAt index = some ((listAfter done)[index.toNat]?).join := by
  intro done hdone
  have hrun : ∃ arr, arrayCalls.run .zeroed done = some arr ∧ arr.Holds (listAfter done) := by
    apply @Lts.run_of_prefixes _ _ arrayCalls (· <+: calls) fun done arr =>
      arr.Holds (listAfter done)
    · exact ⟨.empty, Array.represents_zeroed, rfl⟩
    · intro before call arr hbefore h
      have hlength := hfew _ hbefore
      rw [listAfter_concat] at hlength ⊢
      exact h.step call hlength
    · intro before hbefore
      exact hbefore.trans hdone
  obtain ⟨arr, hr, p, hrep, hlist⟩ := hrun
  refine ⟨arr, hr, ?_, hrep.length_slots, fun i => hrep.getElem?_slots, ?_, ?_, ?_⟩
  · rw [hrep.size, hrep.capacity]
    exact UInt32.le_iff_toNat_le.mpr p.size_le
  · rw [hrep.elements, hlist]
  · rw [Array.getSize, hrep.size, ← p.length_toList, hlist]
  · intro index
    rw [hrep.getElementAt, hlist]

/-- Elements that are added and taken from the middle, from the end and from behind it. -/
def erasingCalls : List (ArrayCall Nat) :=
  [.addElement (some 5) fun _ => some 9, .allocAndAddElement (some 6) fun _ => none,
    .addElement none fun _ =>
      none, .removeAndFreeElementAt 0, .removeElementAt 7, .removeElementAt 1]

theorem arrayCalls_refine_list_erasing :
    ∃ arr, arrayCalls.run .zeroed erasingCalls = some arr ∧ arr.elements = [some 6] ∧
      arr.getElementAt 0 = some (some 6) ∧ arr.getElementAt 1 = some none := by
  have hfew : ∀ done, done <+: erasingCalls → (listAfter done).length < 2 ^ 31 := by
    intro done h
    have hall : ∀ done ∈ erasingCalls.inits, (listAfter done).length < 2 ^ 31 := by decide
    exact hall done ((List.mem_inits done erasingCalls).mpr h)
  obtain ⟨arr, hr, -, -, -, helements, -, hget⟩ := arrayCalls_refine_list hfew _ List.prefix_rfl
  exact ⟨arr, hr, helements, hget 0, hget 1⟩

end Calls

end NvVaapi.Memory
