import NvVaapi.Objects.WellFormed

/-!
# What `deleteAllObjects` leaves

* `CleanedUp`: nothing is left, and each context and each piece of memory went once.
* `deleteAllFrom_goes`: the loop ends. It takes the index on past an object that moved up, so from
  the second round on it leaves an object.
* `deleteAllObjects_cleans_iff`: it cleans up a table of no object, or of one, and no other.
-/

namespace NvVaapi.Objects

/-- What `deleteAllObjects` has to have done between `w` and `w'`. -/
structure CleanedUp (w w' : World) : Prop where
  empty : w'.objects = []
  contexts : ∀ o ∈ w.objects, ∀ ctx, o.obj.payload = .context ctx →
    w'.destroyed.count o.obj.addr = w.destroyed.count o.obj.addr + 1
  memory : ∀ o ∈ w.objects, ∀ p ∈ o.obj.payload.memory, p ≠ 0 →
    w'.freed.count p = w.freed.count p + 1

/-- `deleteAllObjects` cleans up after `w`. -/
def CleansUp (w : World) (r : Nat → DestroyResults) : Prop :=
  ∃ w', deleteAllObjects r w = .goes () w' ∧ CleanedUp w w'

/-! ## A round -/

/-- The contexts that a round destroys. -/
def Cell.toDestroy (c : Cell) : List Addr := if c.payload.context?.isSome then [c.addr] else []

theorem modify_ids (w : World) (a : Addr) (g : Payload → Payload) :
    (w.modify a g).objects.map Object.id = w.objects.map Object.id :=
  World.modify_map fun id _ => id

theorem destroyContext_returns (a : Addr) (ctx : NVContext) (r : DestroyResults) (w : World) :
    (destroyContext a ctx r).Returns w fun _ w' =>
      w'.objects.map Object.id = w.objects.map Object.id ∧
      w'.destroyed = a :: w.destroyed ∧ w'.freed = w.freed := by
  simp [Prog.Returns, destroyContext, World.modifyContext, modify_ids]

theorem destroyContext_ends (a : Addr) (ctx : NVContext) (r : DestroyResults) (w : World) :
    (destroyContext a ctx r).Ends w := by
  simp [destroyContext, pushContext, popContext, popCurrent]

/-- A round releases what its object owns, and the objects stay. -/
theorem releaseObject_ensures (o : Object Cell) (r : DestroyResults) (w : World) :
    (releaseObject o r).Ensures w (fun _ w' => w'.objects.map Object.id = w.objects.map Object.id ∧
      w'.destroyed = o.obj.toDestroy ++ w.destroyed ∧
      w'.freed = (o.obj.payload.memory.filter (· ≠ 0)).reverse ++ w.freed) fun _ _ => False := by
  obtain ⟨_, _, a, p⟩ := o
  cases p with
  | context ctx =>
    simp only [releaseObject, Prog.ensures_call, Prog.ensures_bind, Prog.ensures_pure]
    exact destroyContext_returns a ctx r w
  | buffer buf =>
    by_cases hp : buf.ptr = 0 <;> by_cases hc : buf.codedData = 0 <;> cases h : buf.ownsPtr <;>
      simp [releaseObject, Cell.toDestroy, Payload.memory, Payload.context?, World.free, h, hp, hc]
  | surface sf =>
    by_cases hh : sf.hostData = 0 <;>
      simp [releaseObject, Cell.toDestroy, Payload.memory, Payload.context?, World.modifySurface,
        modify_ids, World.free, hh]
  | config cfg => exact ⟨rfl, rfl, rfl⟩
  | image img => exact ⟨rfl, rfl, rfl⟩

theorem releaseObject_ends (o : Object Cell) (r : DestroyResults) (w : World) :
    (releaseObject o r).Ends w := by
  obtain ⟨_, _, a, p⟩ := o
  cases p with
  | context ctx => simp [releaseObject, destroyContext_ends]
  | _ => simp [releaseObject, free]

/-! ## The loop -/

theorem length_eraseObject_le (l : List (Object Cell)) (id : VAGenericID) :
    l.length ≤ (eraseObject l id).length + 1 := by
  unfold eraseObject
  split
  · omega
  · rw [List.length_eraseP]
    split <;> omega

/-- The loop ends. After its first round it leaves an object, if there is one then. -/
theorem deleteAllFrom_ensures (r : Nat → DestroyResults) (fuel idx : Nat) (w : World) :
    (deleteAllFrom r fuel idx).Ensures w
      (fun _ w' => 1 ≤ idx → w.objects ≠ [] → w'.objects ≠ []) fun _ _ => False := by
  induction fuel generalizing idx w with
  | zero => simp [deleteAllFrom]
  | succ fuel ih =>
    simp only [deleteAllFrom, Prog.ensures_bind, Prog.ensures_read]
    cases ho : w.objects[idx]? with
    | none => exact fun _ h => h
    | some o =>
      rw [Prog.ensures_bind]
      refine (releaseObject_ensures o (r idx) w).mono (fun _ w' hrelease => ?_) fun _ _ h => h
      obtain ⟨hids, -, -⟩ := hrelease
      simp only [Prog.ensures_bind, ensures_deleteObject]
      refine (ih (idx + 1) _).mono (fun _ w'' h hidx _ => h (by omega) ?_) fun _ _ h => h
      have hl : w'.objects.length = w.objects.length := by simpa using congrArg List.length hids
      have hlt := (List.getElem?_eq_some_iff.mp ho).1
      have := length_eraseObject_le w'.objects o.id
      exact List.ne_nil_of_length_pos (by simp only [World.deleteObject_objects]; omega)

theorem length_eraseObject_ge (l : List (Object Cell)) (id : VAGenericID) :
    (eraseObject l id).length ≤ l.length := by
  unfold eraseObject
  split
  · exact le_refl _
  · exact List.eraseP_sublist.length_le

theorem deleteAllFrom_ends (r : Nat → DestroyResults) (fuel idx : Nat) (w : World) (h0 : 0 < fuel)
    (h : w.objects.length < fuel + idx) : (deleteAllFrom r fuel idx).Ends w := by
  induction fuel generalizing idx w with
  | zero => omega
  | succ fuel ih =>
    simp only [deleteAllFrom, Prog.ends_bind, Prog.ends_read, Prog.ensures_read, true_and]
    cases ho : w.objects[idx]? with
    | none => simp
    | some o =>
      have hlt := (List.getElem?_eq_some_iff.mp ho).1
      rw [Prog.ends_bind]
      refine ⟨releaseObject_ends o (r idx) w, ?_⟩
      refine (releaseObject_ensures o (r idx) w).mono (fun _ w' hrelease => ?_) fun _ _ _ => trivial
      obtain ⟨hids, -, -⟩ := hrelease
      have hl : w'.objects.length = w.objects.length := by simpa using congrArg List.length hids
      have := length_eraseObject_ge w'.objects o.id
      rw [Prog.ends_bind]
      exact ⟨(fun h => by cases h),
        ih (idx + 1) _ (by omega) (by simp only [World.deleteObject_objects]; omega)⟩

theorem deleteAllObjects_goes (r : Nat → DestroyResults) (w : World) :
    ∃ w', deleteAllObjects r w = .goes () w' := by
  have he : (deleteAllObjects r).Ends w := by
    simpa [deleteAllObjects] using deleteAllFrom_ends r _ 0 w (by omega) (by omega)
  have hg : (deleteAllObjects r).Ensures w (fun _ _ => True) fun _ _ => False := by
    simp only [deleteAllObjects, Prog.ensures_bind, Prog.ensures_read]
    exact (deleteAllFrom_ensures r _ 0 w).mono (fun _ _ _ => trivial) fun _ _ h => h
  obtain ⟨_, w', hw, _⟩ := hg.goes he
  exact ⟨w', hw⟩

theorem eraseObject_head (o : Object Cell) (os : List (Object Cell)) :
    eraseObject (o :: os) o.id = [] ↔ os = [] ∧ o.id ≠ vaInvalidId := by
  unfold eraseObject
  by_cases h : o.id = vaInvalidId <;> simp [h]

/-- The table is empty in the end exactly when the first round has emptied it. -/
theorem deleteAllObjects_first (r : Nat → DestroyResults) {w : World} {o : Object Cell}
    {os : List (Object Cell)} (h : w.objects = o :: os) :
    (deleteAllObjects r).Ensures w (fun _ w' =>
      (w'.objects = [] ↔ os = [] ∧ o.id ≠ vaInvalidId) ∧
      (w'.objects = [] → w'.destroyed = o.obj.toDestroy ++ w.destroyed ∧
        w'.freed = (o.obj.payload.memory.filter (· ≠ 0)).reverse ++ w.freed)) fun _ _ => False := by
  rw [deleteAllObjects, Prog.ensures_bind, Prog.ensures_read, deleteAllFrom]
  simp only [Prog.ensures_bind, Prog.ensures_read, h, List.length_cons, List.getElem?_cons_zero]
  refine (releaseObject_ensures o (r 0) w).mono (fun _ w₁ hrelease => ?_) fun _ _ h => h
  obtain ⟨hids, hd, hf⟩ := hrelease
  rw [ensures_deleteObject]
  obtain ⟨o₁, os₁, h₁, ho, hos⟩ : ∃ o₁ os₁, w₁.objects = o₁ :: os₁ ∧ o₁.id = o.id ∧
      os₁.map Object.id = os.map Object.id := by
    rw [h, List.map_cons, List.map_eq_cons_iff] at hids
    exact hids
  have hnil : (w₁.deleteObject o.id).objects = [] ↔ os = [] ∧ o.id ≠ vaInvalidId := by
    rw [World.deleteObject_objects, h₁, ← ho, eraseObject_head, ← List.map_eq_nil_iff, hos,
      List.map_eq_nil_iff]
  by_cases he : (w₁.deleteObject o.id).objects = []
  · -- the second round finds nothing
    rw [deleteAllFrom, Prog.ensures_bind, Prog.ensures_read, he]
    exact ⟨iff_of_true he (hnil.mp he), fun _ => ⟨hd, hf⟩⟩
  · refine (deleteAllFrom_ensures r _ 1 _).mono (fun _ w' hw' => ?_) fun _ _ h => h
    have := hw' le_rfl he
    exact ⟨iff_of_false this (fun h => he (hnil.mpr h)), fun h => absurd h this⟩

/-! ## When it cleans up -/

/-- What an object owns is at different addresses. -/
theorem Payload.CodedAlone.count_memory {p : Payload} (h : p.CodedAlone) {a : Addr}
    (ha : a ∈ p.memory) (h0 : a ≠ 0) : (p.memory.filter (· ≠ 0)).count a = 1 := by
  cases p with
  | buffer buf =>
    by_cases hp : buf.ptr = 0 <;> by_cases hc : buf.codedData = 0 <;> cases ho : buf.ownsPtr <;>
      simp_all [Payload.memory, Payload.CodedAlone]
  | surface sf => 
    obtain rfl : a = sf.hostData := by simpa [Payload.memory] using ha
    simp [Payload.memory, h0]
  | _ => simp [Payload.memory] at ha

theorem cleansUp_one {w : World} {o : Object Cell} (r : Nat → DestroyResults)
    (h : w.objects = [o]) (hid : o.id ≠ vaInvalidId) (hc : o.obj.payload.CodedAlone) :
    CleansUp w r := by
  obtain ⟨w', hw⟩ := deleteAllObjects_goes r w
  have hf := deleteAllObjects_first r h
  simp only [Prog.Ensures, hw] at hf
  have he := hf.1.mpr ⟨trivial, hid⟩
  obtain ⟨hd, hm⟩ := hf.2 he
  refine ⟨w', hw, he, fun o' ho' ctx hctx => ?_, fun o' ho' p hp h0 => ?_⟩
  · obtain rfl : o' = o := by simpa [h] using ho'
    simp [hd, Cell.toDestroy, hctx, Payload.context?]
  · obtain rfl : o' = o := by simpa [h] using ho'
    rw [hm, List.count_append, List.count_reverse, hc.count_memory hp h0]
    omega

/-- `deleteAllObjects` cleans up exactly when there is at most one object. -/
theorem deleteAllObjects_cleans_iff {w : World} (hw : objectSystem.Reach w)
    (r : Nat → DestroyResults) :
    CleansUp w r ↔ w.objects = [] ∨ ∃ o, w.objects = [o] ∧ o.id ≠ vaInvalidId := by
  constructor
  · rintro ⟨w', hw', hclean⟩
    cases h : w.objects with
    | nil => exact .inl rfl
    | cons o os =>
      have hf := deleteAllObjects_first r h
      simp only [Prog.Ensures, hw'] at hf
      obtain ⟨rfl, hid⟩ := hf.1.mp hclean.empty
      exact .inr ⟨o, rfl, hid⟩
  · rintro (h | ⟨o, h, hid⟩)
    · obtain ⟨w', hw'⟩ := deleteAllObjects_goes r w
      have hf : (deleteAllObjects r).Ensures w (fun _ w' => w' = w) fun _ _ => False := by
        rw [deleteAllObjects, Prog.ensures_bind, Prog.ensures_read, deleteAllFrom,
          Prog.ensures_bind, Prog.ensures_read, h]
        rfl
      obtain rfl : w' = w := by simpa only [Prog.Ensures, hw'] using hf
      exact ⟨w', hw', h, by simp [h], by simp [h]⟩
    · exact cleansUp_one r h hid ((reach_wf hw).coded o (by simp [h]))

/-- A client that creates buffers of 16 bytes. -/
def createBufferAt (addr memory : Addr) : ApiCall :=
  .createBuffer 0 .sliceData 16 1 0 ⟨addr, some memory⟩

/-- A buffer alone. -/
theorem deleteAllObjects_cleans_iff_one :
    ∃ w, w.objects ≠ [] ∧ objectSystem.Reach w ∧ ∀ r, CleansUp w r := by
  obtain ⟨w, hr, ho⟩ : ∃ w, objectSystem.run (.init plainInfo 0 []) [createBufferAt 1 2] = some w ∧
      w.objects.map Object.id = [1] :=
    ⟨_, rfl, by decide⟩
  obtain ⟨o, h, hid⟩ := List.map_eq_singleton_iff.mp ho
  have hw := (init_reach plainInfo 0 []).run hr
  exact ⟨w, by simp [h], hw, fun r =>
    (deleteAllObjects_cleans_iff hw r).mpr (.inr ⟨o, h, by simp [hid, vaInvalidId]⟩)⟩

/-- Two buffers, of which the second one is left with its memory. -/
theorem deleteAllObjects_not_clean : ∃ w, objectSystem.Reach w ∧ ∀ r, ¬CleansUp w r := by
  obtain ⟨w, hr, hl⟩ : ∃ w, objectSystem.run (.init plainInfo 0 [])
      [createBufferAt 1 2, createBufferAt 3 4] = some w ∧ w.objects.length = 2 :=
    ⟨_, rfl, by decide⟩
  refine ⟨w, (init_reach plainInfo 0 []).run hr, ?_⟩
  rintro r ⟨w', hw', hclean⟩
  obtain ⟨o, o', h⟩ := List.length_eq_two.mp hl
  have hf := deleteAllObjects_first r h
  simp only [Prog.Ensures, hw'] at hf
  simpa using hf.1.mp hclean.empty

end NvVaapi.Objects
