import NvVaapi.Export.Pool
import NvVaapi.Objects.Memory

/-!
# The loop that destroys all backing images

* `forEachRev`: the loop of `ARRAY_FOR_EACH_REV`, whose counter wraps below 0. A loop that does not
  end has no result.
* `destroyAllBackingImage`: the loop of both backends, with what one backend does to an image as a
  parameter.
* `destroyAllBackingImage_visits`: it ends, visits the elements from the last to the first and
  leaves no element.
* `eglDestroyAllBackingImage_eq_sweep`: with the images of the EGL backend it is
  `eglDestroyAllBackingImage`.
-/

namespace NvVaapi.Memory

section Sweep

variable {α σ : Type}

/-- `ARRAY_FOR_EACH_REV` from `idx` on, for `fuel` tests. The body gets `it` and `it_idx`. -/
def forEachRev (body : Option α → UInt32 → Array α × σ → Option (Array α × σ)) :
    Nat → UInt32 → Array α × σ → Option (Array α × σ)
  | 0, _, _ => none
  | fuel + 1, idx, (arr, s) =>
    if idx < arr.size then do
      let it ← (← arr.buf)[idx.toNat]?
      let next ← body it idx (arr, s)
      forEachRev body fuel (idx - 1) next
    else some (arr, s)

def destroyAllBackingImage (destroyBackingImage : Option α → σ → σ) (fuel : Nat)
    (images : Array α) (drv : σ) : Option (Array α × σ) :=
  forEachRev
    (fun it idx (images, drv) => do
      let drv := destroyBackingImage it drv
      let images ← images.removeElementAt idx
      some (images, drv))
    fuel (images.size - 1) (images, drv)

/-! ## One turn -/

variable {arr : Array α}

/-- Removing the last element closes no gap. -/
theorem Array.removeElementAt_last (h0 : 0 < arr.size.toNat)
    (h : arr.size.toNat ≤ arr.slots.length) :
    ∃ it arr', arr.buf = some arr.slots ∧ arr.slots[(arr.size - 1).toNat]? = some it ∧
      arr.removeElementAt (arr.size - 1) = some arr' ∧ arr'.size = arr.size - 1 ∧
      arr'.slots.length = arr.slots.length ∧ arr.elements = arr'.elements ++ [it] := by
  have hlast := Array.toNat_pred h0
  have hbuf : arr.buf = some arr.slots := Array.buf_eq_some (by omega)
  have hlt : arr.size.toNat - 1 < arr.slots.length := by omega
  refine ⟨arr.slots[arr.size.toNat - 1],
    ⟨some (arr.slots.set (arr.size.toNat - 1) none), arr.size - 1, arr.capacity⟩,
    hbuf, ?_, ?_, rfl, List.length_set, ?_⟩
  · rw [hlast]
    exact List.getElem?_eq_getElem hlt
  · have hrange : ¬arr.size - 1 ≥ arr.size :=
      UInt32.not_le.mpr (UInt32.lt_iff_toNat_lt.mpr (by omega))
    unfold Array.removeElementAt
    rw [if_neg hrange, hbuf]
    show ((Array.closeGap _ _ _).bind fun buf => (Cells.store buf _ none).bind _) = _
    rw [Array.closeGap, if_neg (UInt32.lt_irrefl _), Option.bind_some, hlast,
      Cells.store, if_pos hlt]
    rfl
  · show arr.slots.take _ = (arr.slots.set _ none).take (arr.size - 1).toNat ++ _
    rw [hlast, List.take_set_of_le (Nat.le_refl _), ← List.take_succ_eq_append_getElem hlt,
      Nat.sub_add_cancel h0]

/-! ## The loop -/

/-- The loop ends after a turn for every element. The counter is the index of the last element, and
when there is none it wraps to an index that is out of range. -/
theorem destroyAllBackingImage_visits (destroyBackingImage : Option α → σ → σ)
    (h : arr.size.toNat ≤ arr.slots.length) (drv : σ) {fuel : Nat} (hfuel : arr.size.toNat < fuel) :
    ∃ arr', destroyAllBackingImage destroyBackingImage fuel arr drv =
        some (arr', arr.elements.reverse.foldl (fun drv it => destroyBackingImage it drv) drv) ∧
      arr'.size = 0 ∧ arr'.elements = [] := by
  unfold destroyAllBackingImage
  obtain ⟨fuel, rfl⟩ : ∃ f, fuel = f + 1 := ⟨fuel - 1, by omega⟩
  induction hn : arr.size.toNat generalizing arr drv fuel with
  | zero =>
    have hsize : arr.size = 0 := UInt32.toNat_inj.mp hn
    have hwrap : ¬arr.size - 1 < arr.size := by
      rw [hsize]
      decide
    have hnone : arr.elements = [] := by rw [Array.elements, hn, List.take_zero]
    refine ⟨arr, ?_, hsize, hnone⟩
    rw [forEachRev, if_neg hwrap, hnone]
    rfl
  | succ n ih =>
    obtain ⟨it, arr', hbuf, hit, hremove, hsize, hslots, helements⟩ :=
      Array.removeElementAt_last (by omega) h
    have hlast : (arr.size - 1).toNat = n := by
      rw [Array.toNat_pred (by omega), hn]
      rfl
    have hlt : arr.size - 1 < arr.size := UInt32.lt_iff_toNat_lt.mpr (by omega)
    obtain ⟨fuel, rfl⟩ : ∃ f, fuel = f + 1 := ⟨fuel - 1, by omega⟩
    have hn' : arr'.size.toNat = n := by rw [hsize, hlast]
    obtain ⟨last, hloop, hend⟩ :=
      @ih arr' (by omega) (destroyBackingImage it drv) fuel (by omega) hn'
    refine ⟨last, ?_, hend⟩
    rw [forEachRev, if_pos hlt, hbuf]
    show (arr.slots[(arr.size - 1).toNat]?).bind _ = _
    rw [hit, Option.bind_some]
    show Option.bind (Option.bind (arr.removeElementAt (arr.size - 1)) _) _ = _
    rw [hremove, helements, List.reverse_concat, List.foldl_cons, ← hloop, hsize]
    rfl

end Sweep

/-- Three images, and a slot that is free. -/
def threeImages : Array Nat := ⟨some [some 4, some 5, some 6, none], 3, 4⟩

/-- The last image is visited first. Without an image there is no turn. -/
theorem destroyAllBackingImage_visits_three :
    (∃ arr', destroyAllBackingImage (fun it seen => seen ++ [it]) 4 threeImages [] =
        some (arr', [some 6, some 5, some 4]) ∧ arr'.elements = []) ∧
      ∃ arr', destroyAllBackingImage (fun it seen => seen ++ [it]) 1 (Array.zeroed : Array Nat) [] =
        some (arr', []) ∧ arr'.elements = [] := by
  constructor
  · obtain ⟨arr', hloop, -, hnone⟩ := @destroyAllBackingImage_visits _ _ threeImages
      (fun it seen => seen ++ [it]) (by decide) [] 4 (by decide)
    exact ⟨arr', hloop, hnone⟩
  · obtain ⟨arr', hloop, -, hnone⟩ := @destroyAllBackingImage_visits _ _ (Array.zeroed : Array Nat)
      (fun it seen => seen ++ [it]) (by decide) [] 1 (by decide)
    exact ⟨arr', hloop, hnone⟩

end NvVaapi.Memory

/-! ## The images of the EGL backend -/

namespace NvVaapi.Export.ImagePool

variable {p : ImagePool}

def withImages (p : ImagePool) (images : List Nat) : ImagePool := { p with images }

/-- The turn for an image, without the list. -/
def destroyImage (arraysDestroyed : Nat → Bool) (a : Nat) (p : ImagePool) : ImagePool :=
  (p.eglDestroyBackingImage a (arraysDestroyed a)).2

/-- The destruction of an image does not look at the list. -/
theorem destroyImage_withImages (arraysDestroyed : Nat → Bool) (a : Nat) (p : ImagePool)
    (images : List Nat) :
    destroyImage arraysDestroyed a (p.withImages images) =
      (destroyImage arraysDestroyed a p).withImages images := by
  unfold destroyImage eglDestroyBackingImage withImages
  dsimp only
  cases (p.memory a).surface <;> cases arraysDestroyed a <;> rfl

theorem images_destroyImage (arraysDestroyed : Nat → Bool) (a : Nat) (p : ImagePool) :
    (destroyImage arraysDestroyed a p).images = p.images := by
  have hwith :
      destroyImage arraysDestroyed a p = (destroyImage arraysDestroyed a p).withImages p.images :=
    destroyImage_withImages arraysDestroyed a p p.images
  rw [hwith]
  rfl

theorem foldr_destroyImage_withImages (arraysDestroyed : Nat → Bool) (p : ImagePool)
    (images l : List Nat) :
    l.foldr (destroyImage arraysDestroyed) (p.withImages images) =
      (l.foldr (destroyImage arraysDestroyed) p).withImages images := by
  induction l with
  | nil => rfl
  | cons a l ih => rw [List.foldr_cons, List.foldr_cons, ih, destroyImage_withImages]

/-- The turns take the images from the list one by one, and the last turn leaves none. -/
theorem foldr_destroyLast (arraysDestroyed : Nat → Bool) {l : List Nat} (h : p.images = l) :
    l.foldr (destroyLast arraysDestroyed) p =
      (l.foldr (destroyImage arraysDestroyed) p).withImages [] := by
  induction l using List.reverseRecOn generalizing p with
  | nil =>
    show p = p.withImages []
    rw [← h]
    rfl
  | append_singleton l a ih =>
    have hturn :
        destroyLast arraysDestroyed a p = (destroyImage arraysDestroyed a p).withImages l := by
      show (destroyImage arraysDestroyed a p).withImages
          (destroyImage arraysDestroyed a p).images.dropLast = _
      rw [images_destroyImage, h, List.dropLast_concat]
    rw [List.foldr_concat, List.foldr_concat, hturn, ih rfl, foldr_destroyImage_withImages]
    rfl

/-- With the list of the images in an array, the loop is `eglDestroyAllBackingImage`. -/
theorem eglDestroyAllBackingImage_eq_sweep (p : ImagePool) (arraysDestroyed : Nat → Bool)
    {arr : Memory.Array Nat} (h : arr.size.toNat ≤ arr.slots.length)
    (himages : arr.elements = p.images.map some) {fuel : Nat} (hfuel : arr.size.toNat < fuel) :
    ∃ arr' q, Memory.destroyAllBackingImage (fun it q =>
      it.elim q (destroyImage arraysDestroyed · q)) fuel arr p =
        some (arr', q) ∧
      arr'.elements = [] ∧ q.withImages [] = p.eglDestroyAllBackingImage arraysDestroyed := by
  obtain ⟨arr', hloop, -, hnone⟩ := Memory.destroyAllBackingImage_visits
    (fun it q => it.elim q (destroyImage arraysDestroyed · q)) h p hfuel
  refine ⟨arr', _, hloop, hnone, ?_⟩
  rw [eglDestroyAllBackingImage, foldr_destroyLast arraysDestroyed rfl, himages, List.foldl_reverse,
    List.foldr_map]
  rfl

end NvVaapi.Export.ImagePool
