import Mathlib.Logic.Function.Basic
import Mathlib.Data.List.Basic
import Mathlib.Data.UInt

/-!
# Computations that index arrays

`Indexed ι α`: a result, with the indices under which the arrays `ι` were accessed on the way to it.
An array is a function without a bound, as in C; where it ends, `InRange` asks that no access goes
further.

* `access`, `read`, `write`: one access.
* `val_foldlM`, `inRange_foldlM_iff`: a loop over indices.
-/

namespace NvVaapi

/-- A result and the accesses on the way to it: the array and the index. -/
structure Indexed (ι α : Type) where
  val : α
  trace : List (ι × Nat)

namespace Indexed

variable {ι α β σ : Type}

/-- What a loop leaves that sets the elements below `n`, each from what it was. -/
theorem foldl_update_apply (g : Nat → α → α) (xs : Nat → α) (n j : Nat) :
    (List.range n).foldl (fun xs i => Function.update xs i (g i (xs i))) xs j =
      if j < n then g j (xs j) else xs j := by
  induction n generalizing j with
  | zero => simp
  | succ n ih =>
    rw [List.range_succ, List.foldl_append, List.foldl_cons, List.foldl_nil,
      Function.update_apply, ih]
    split
    · next hj => rw [hj, if_neg (Nat.lt_irrefl n), if_pos (Nat.lt_succ_self n)]
    · next hj =>
      rw [ih]
      exact if_congr (by omega) rfl rfl

/-- The same for an array that is a part of the loop's state. -/
theorem foldl_array_apply {f : σ → Nat → σ} {array : σ → Nat → α} (g : Nat → α → α)
    (h : ∀ s i, array (f s i) = Function.update (array s) i (g i (array s i))) (s : σ) (n j : Nat) :
    array ((List.range n).foldl f s) j = if j < n then g j (array s j) else array s j := by
  have hhom : (List.range n).foldl (fun xs i => Function.update xs i (g i (xs i))) (array s) =
      array ((List.range n).foldl f s) := List.foldl_hom array fun s i => (h s i).symm
  rw [← hhom, foldl_update_apply]

/-- What a loop leaves of a counter that some of its turns increase. -/
theorem foldl_counter {f : σ → β → σ} {count : σ → Nat} {p : β → Prop} [DecidablePred p]
    (h : ∀ s b, count (f s b) = count s + if p b then 1 else 0) (s : σ) (bs : List β) :
    count (bs.foldl f s) = count s + bs.countP p := by
  induction bs generalizing s with
  | nil => rfl
  | cons b bs ih =>
    rw [List.foldl_cons, ih, h, List.countP_cons, Nat.add_assoc, Nat.add_comm (bs.countP p)]
    simp

/-- A loop keeps what its turns keep. -/
theorem foldl_keeps {f : σ → β → σ} {g : σ → α} (h : ∀ s b, g (f s b) = g s) (s : σ) (bs : List β) :
    g (bs.foldl f s) = g s := by
  induction bs generalizing s with
  | nil => rfl
  | cons b bs ih => exact (ih (f s b)).trans (h s b)

instance : Monad (Indexed ι) where
  pure a := ⟨a, []⟩
  bind x f := ⟨(f x.val).val, x.trace ++ (f x.val).trace⟩

/-- The element `i` of the array `a` is accessed. -/
def access (a : ι) (i : Nat) : Indexed ι Unit := ⟨(), [(a, i)]⟩

def read (a : ι) (xs : Nat → α) (i : Nat) : Indexed ι α := do
  access a i
  return xs i

def write (a : ι) (xs : Nat → α) (i : Nat) (x : α) : Indexed ι (Nat → α) := do
  access a i
  return Function.update xs i x

/-- Every access is inside its array. -/
def InRange (size : ι → Nat) (x : Indexed ι α) : Prop := ∀ p ∈ x.trace, p.2 < size p.1

instance (size : ι → Nat) (x : Indexed ι α) : Decidable (x.InRange size) :=
  inferInstanceAs (Decidable (∀ p ∈ x.trace, _))

/-! ## Results -/

@[simp] theorem val_pure (a : α) : (pure a : Indexed ι α).val = a := rfl

@[simp] theorem val_bind (x : Indexed ι α) (f : α → Indexed ι β) :
    (x >>= f).val = (f x.val).val := rfl

@[simp] theorem val_read (a : ι) (xs : Nat → α) (i : Nat) : (read a xs i).val = xs i := rfl

@[simp] theorem val_write (a : ι) (xs : Nat → α) (i : Nat) (x : α) :
    (write a xs i x).val = Function.update xs i x := rfl

@[simp] theorem val_ite (c : Prop) [Decidable c] (x y : Indexed ι α) :
    (if c then x else y).val = if c then x.val else y.val := apply_ite val c x y

theorem val_foldlM (f : σ → β → Indexed ι σ) (s : σ) (bs : List β) :
    (bs.foldlM f s).val = bs.foldl (fun s b => (f s b).val) s := by
  induction bs generalizing s with
  | nil => rfl
  | cons b bs ih =>
    rw [List.foldlM_cons, val_bind, ih]
    rfl

/-! ## Ranges -/

section Ranges

variable {size : ι → Nat}

@[simp] theorem inRange_pure (a : α) : (pure a : Indexed ι α).InRange size := nofun

@[simp] theorem inRange_bind_iff {x : Indexed ι α} {f : α → Indexed ι β} :
    (x >>= f).InRange size ↔ x.InRange size ∧ (f x.val).InRange size := by
  simp only [InRange]
  exact List.forall_mem_append

@[simp] theorem inRange_access_iff {a : ι} {i : Nat} : (access a i).InRange size ↔ i < size a := by
  simp [InRange, access]

@[simp] theorem inRange_read_iff {a : ι} {xs : Nat → α} {i : Nat} :
    (read a xs i).InRange size ↔ i < size a := by
  simp [read]

@[simp] theorem inRange_write_iff {a : ι} {xs : Nat → α} {i : Nat} {x : α} :
    (write a xs i x).InRange size ↔ i < size a := by
  simp [write]

/-- A loop whose turns stay in range under a condition on the index only. -/
theorem inRange_foldlM_iff {f : σ → β → Indexed ι σ} (ok : β → Prop)
    (hf : ∀ s b, (f s b).InRange size ↔ ok b) (s : σ) (bs : List β) :
    (bs.foldlM f s).InRange size ↔ ∀ b ∈ bs, ok b := by
  induction bs generalizing s with
  | nil => simp
  | cons b bs ih => rw [List.foldlM_cons, inRange_bind_iff, hf, ih, List.forall_mem_cons]

theorem inRange_forM_iff {f : β → Indexed ι PUnit} {bs : List β} :
    (bs.forM f).InRange size ↔ ∀ b ∈ bs, (f b).InRange size := by
  induction bs with
  | nil => simp
  | cons b bs ih =>
    show (f b >>= fun _ => bs.forM f).InRange size ↔ _
    rw [inRange_bind_iff, ih, List.forall_mem_cons]

end Ranges

end Indexed

end NvVaapi
