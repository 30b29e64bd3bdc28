import NvVaapi.Lib.Bytes
import Mathlib.Logic.Function.Iterate

/-!
# The append buffers (`appendBuffer`, `freeBuffer`)

* `AppendableBuffer` carries what every operation keeps: a NULL buffer has size 0, the size is
  within the capacity, and the capacity is never 1.
* `growAllocated`: the growth loop. It gives no result exactly when the loop of the source does not
  end (`growAllocated_eq_none_iff`).
* `appendBuffer_isSome_iff`: an append returns unless the buffer has no capacity to grow from.
* `appendBuffer_bytes`, `appendBuffer_size`: what an append adds.

Allocation is taken to succeed and sizes to stay below 2^63, so that the 64-bit sums are exact.
-/

namespace NvVaapi

/-- One turn of the growth loop: `allocated += allocated >> 1`. -/
def growStep (allocated : Nat) : Nat := allocated + allocated >>> 1

/-- The growth loop `while (need > allocated)`, for at most `fuel` turns. -/
def growAllocated (need : Nat) : Nat → Nat → Option Nat
  | 0, allocated => if need ≤ allocated then some allocated else none
  | fuel + 1, allocated =>
    if need ≤ allocated then some allocated else growAllocated need fuel (growStep allocated)

theorem growStep_le (a : Nat) : a ≤ growStep a := Nat.le_add_right _ _

theorem growStep_lt {a : Nat} (h : 2 ≤ a) : a < growStep a := by
  rw [growStep, Nat.shiftRight_eq_div_pow]
  omega

theorem growStep_of_lt {a : Nat} (h : a < 2) : growStep a = a := by
  rw [growStep, Nat.shiftRight_eq_div_pow]
  omega

theorem growAllocated_of_le {need a : Nat} (fuel : Nat) (h : need ≤ a) :
    growAllocated need fuel a = some a := by
  cases fuel <;> simp [growAllocated, h]

theorem growAllocated_some {need fuel a a' : Nat} (h : growAllocated need fuel a = some a') :
    need ≤ a' ∧ a ≤ a' := by
  induction fuel generalizing a with
  | zero =>
    simp only [growAllocated] at h
    split at h <;> simp_all
  | succ fuel ih =>
    simp only [growAllocated] at h
    split at h
    · simp_all
    · have := growStep_le a
      obtain ⟨h₁, h₂⟩ := ih h
      exact ⟨h₁, by omega⟩

theorem growAllocated_ne_one {need fuel a a' : Nat} (ha : a ≠ 1)
    (h : growAllocated need fuel a = some a') : a' ≠ 1 := by
  induction fuel generalizing a with
  | zero =>
    simp only [growAllocated] at h
    split at h <;> simp_all
  | succ fuel ih =>
    simp only [growAllocated] at h
    split at h
    · simp_all
    · refine ih ?_ h
      rcases Nat.lt_or_ge a 2 with h2 | h2
      · rwa [growStep_of_lt h2]
      · have := growStep_lt h2
        omega

/-- From a capacity of at least 2 every turn gains, so `need` turns are enough. -/
theorem growAllocated_isSome {need fuel a : Nat} (ha : 2 ≤ a) (hf : need ≤ a + fuel) :
    (growAllocated need fuel a).isSome := by
  induction fuel generalizing a with
  | zero => rw [growAllocated_of_le 0 (by omega)]; rfl
  | succ fuel ih =>
    have hg := growStep_lt ha
    simp only [growAllocated]
    split
    · rfl
    · exact ih (by omega) (by omega)

/-- A capacity of 0 or 1 never grows. -/
theorem growAllocated_stuck {need a : Nat} (fuel : Nat) (ha : a < 2) (hn : a < need) :
    growAllocated need fuel a = none := by
  induction fuel with
  | zero => simp [growAllocated, hn]
  | succ fuel ih => simp [growAllocated, growStep_of_lt ha, ih, hn]

/-- `need` turns decide the loop: no result then means that it runs for ever. -/
theorem growAllocated_eq_none_iff (need a : Nat) :
    growAllocated need need a = none ↔ ∀ k, growStep^[k] a < need := by
  constructor
  · intro h k
    by_contra hk
    rcases Nat.lt_or_ge a 2 with ha | ha
    · have hfix : growStep^[k] a = a := Function.iterate_fixed (growStep_of_lt ha) k
      rw [growAllocated_of_le need (by omega)] at h
      cases h
    · simpa [h] using @growAllocated_isSome need need a ha (by omega)
  · intro h
    have h0 : a < need := h 0
    rcases Nat.lt_or_ge a 2 with ha | ha
    · exact growAllocated_stuck need ha h0
    · have hk : ∀ k, a + k ≤ growStep^[k] a := by
        intro k
        induction k with
        | zero => exact Nat.le_refl a
        | succ k ih =>
          rw [Function.iterate_succ_apply']
          have := growStep_lt (a := growStep^[k] a) (by omega)
          omega
      have h₁ := hk need
      have h₂ := h need
      omega

/-- `AppendableBuffer`. `buf` is `none` while it is NULL. -/
structure AppendableBuffer where
  buf : Option (Nat → UInt8)
  size : Nat
  allocated : Nat
  size_null : buf = none → size = 0
  size_le : size ≤ allocated
  allocated_ne_one : allocated ≠ 1

namespace AppendableBuffer

/-- A zeroed buffer, as `calloc` and `freeBuffer` leave it. -/
def empty : AppendableBuffer := ⟨none, 0, 0, fun _ => rfl, Nat.le_refl 0, by decide⟩

instance : Inhabited AppendableBuffer := ⟨empty⟩

/-- The bytes appended since the last reset. -/
def bytes (ab : AppendableBuffer) : List UInt8 := (ab.buf.map (Bytes.read · 0 ab.size)).getD []

/-- The buffer can grow: it is NULL, so that the next append allocates it, or its capacity is one
that the growth loop increases. -/
def Usable (ab : AppendableBuffer) : Prop := ab.buf = none ∨ 2 ≤ ab.allocated

instance (ab : AppendableBuffer) : Decidable ab.Usable :=
  decidable_of_iff (ab.buf.isNone ∨ 2 ≤ ab.allocated) (by simp [Usable])

/-- `size = 0`, as at the end of a picture. The capacity and the memory stay. -/
def reset (ab : AppendableBuffer) : AppendableBuffer :=
  { ab with size := 0, size_null := fun _ => rfl, size_le := Nat.zero_le _ }

end AppendableBuffer

/-- `appendBuffer`. No result models a growth loop that does not end. The bytes behind `size` are
whatever `memalign` returned, and nothing reads them. -/
def appendBuffer (ab : AppendableBuffer) (src : List UInt8) : Option AppendableBuffer :=
  match ab.buf with
  | none =>
    some
      { buf := some (Bytes.write (fun _ => 0) 0 src)
        size := src.length
        allocated := src.length * 2
        size_null := nofun
        size_le := by omega
        allocated_ne_one := by omega }
  | some m =>
    -- the `else if` of the source tests the condition of its loop, so it adds no case
    match h : growAllocated (ab.size + src.length) (ab.size + src.length) ab.allocated with
    | none => none
    | some allocated =>
      some
        { buf := some (Bytes.write m ab.size src)
          size := ab.size + src.length
          allocated := allocated
          size_null := nofun
          size_le := (growAllocated_some h).1
          allocated_ne_one := growAllocated_ne_one ab.allocated_ne_one h }

/-- `freeBuffer` -/
def freeBuffer (_ab : AppendableBuffer) : AppendableBuffer := .empty

namespace AppendableBuffer

variable {ab ab' : AppendableBuffer} {src : List UInt8}

@[simp] theorem reset_size (ab : AppendableBuffer) : ab.reset.size = 0 := rfl

@[simp] theorem reset_buf (ab : AppendableBuffer) : ab.reset.buf = ab.buf := rfl

@[simp] theorem reset_allocated (ab : AppendableBuffer) : ab.reset.allocated = ab.allocated := rfl

theorem bytes_of_size (h : ab.size = 0) : ab.bytes = [] := by
  unfold bytes
  cases ab.buf <;> simp [h]

@[simp] theorem reset_bytes (ab : AppendableBuffer) : ab.reset.bytes = [] := bytes_of_size rfl

@[simp] theorem bytes_empty : empty.bytes = [] := rfl

@[simp] theorem length_bytes (ab : AppendableBuffer) : ab.bytes.length = ab.size := by
  unfold bytes
  cases h : ab.buf with
  | none => simp [ab.size_null h]
  | some m => simp

end AppendableBuffer

variable {ab ab' : AppendableBuffer} {src : List UInt8}

/-- What an append leaves: the bytes, the size and the capacity. -/
theorem appendBuffer_spec (h : appendBuffer ab src = some ab') :
    ab'.bytes = ab.bytes ++ src ∧ ab'.buf.isSome ∧ ab.allocated ≤ ab'.allocated ∨
    ab.buf = none ∧ ab'.bytes = src ∧ ab'.buf.isSome ∧ ab'.allocated = src.length * 2 := by
  unfold appendBuffer at h
  split at h
  · next hb =>
    cases h
    refine .inr ⟨hb, ?_, rfl, rfl⟩
    simpa [AppendableBuffer.bytes] using Bytes.read_write_end (fun _ => 0) 0 src
  · next m hm =>
    split at h
    · cases h
    · next a ha =>
      cases h
      refine .inl ⟨?_, rfl, (growAllocated_some ha).2⟩
      simpa [AppendableBuffer.bytes, hm] using Bytes.read_write_end m ab.size src

theorem appendBuffer_bytes (h : appendBuffer ab src = some ab') : ab'.bytes = ab.bytes ++ src := by
  rcases appendBuffer_spec h with ⟨hb, -, -⟩ | ⟨hn, hb, -, -⟩
  · exact hb
  · rw [hb, AppendableBuffer.bytes_of_size (ab.size_null hn), List.nil_append]

theorem appendBuffer_size (h : appendBuffer ab src = some ab') :
    ab'.size = ab.size + src.length := by
  have := congrArg List.length (appendBuffer_bytes h)
  simpa using this

/-- An append returns unless it needs more room than a capacity that cannot grow has. -/
theorem appendBuffer_isSome_iff :
    (appendBuffer ab src).isSome ↔ ab.Usable ∨ ab.size + src.length ≤ ab.allocated := by
  unfold appendBuffer AppendableBuffer.Usable
  split
  · next hb => simp [hb]
  · next m hm =>
    rw [hm]
    constructor
    · intro h
      by_contra hc
      rw [not_or, not_or] at hc
      split at h
      · cases h
      · next a ha =>
        rw [growAllocated_stuck _ (by omega) (by omega)] at ha
        cases ha
    · intro h
      have hs :
          (growAllocated (ab.size + src.length) (ab.size + src.length) ab.allocated).isSome := by
        rcases h with (h | h) | h
        · cases h
        · exact growAllocated_isSome h (by omega)
        · rw [growAllocated_of_le _ h]
          rfl
      split
      · next hn =>
        rw [hn] at hs
        cases hs
      · rfl

/-- An append of something leaves the buffer usable. -/
theorem appendBuffer_usable (h : appendBuffer ab src = some ab') (hs : src ≠ []) : ab'.Usable := by
  have hp := List.length_pos_iff.mpr hs
  rcases appendBuffer_spec h with ⟨-, -, -⟩ | ⟨-, -, -, ha⟩
  · have h₁ := appendBuffer_size h
    have h₂ := ab'.size_le
    have h₃ := ab'.allocated_ne_one
    exact .inr (by omega)
  · exact .inr (by omega)

/-- An append to a usable buffer returns. -/
theorem appendBuffer_some (h : ab.Usable) (src : List UInt8) :
    ∃ ab', appendBuffer ab src = some ab' :=
  Option.isSome_iff_exists.mp (appendBuffer_isSome_iff.mpr (.inl h))

end NvVaapi
