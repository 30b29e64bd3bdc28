import Mathlib.Algebra.Order.Floor.Div
import Mathlib.Data.UInt

/-!
# Rounding up to a multiple

* `ceilTo s n`: the least multiple of `s` that is not below `n` (`ceilTo_le_iff`).
* `ceilTo_ceilTo`: rounding to a multiple of `s` first makes no difference.
* `ceilTo_mod_iff`: the same computation modulo `M` gives it exactly when the sum does not wrap
  around.
-/

variable {s t n m M : Nat}

def ceilTo (s n : Nat) : Nat := (n + s - 1) / s * s

theorem dvd_ceilTo (s n : Nat) : s ∣ ceilTo s n := Nat.dvd_mul_left s _

theorem ceilTo_le_iff (hs : 0 < s) (hm : s ∣ m) : ceilTo s n ≤ m ↔ n ≤ m := by
  obtain ⟨k, rfl⟩ := hm
  rw [ceilTo, ← Nat.ceilDiv_eq_add_pred_div, Nat.mul_comm, Nat.mul_le_mul_left_iff hs,
    ceilDiv_le_iff_le_mul hs]

theorem le_ceilTo (hs : 0 < s) (n : Nat) : n ≤ ceilTo s n :=
  (ceilTo_le_iff hs (dvd_ceilTo s n)).mp le_rfl

theorem ceilTo_mono (hs : 0 < s) (h : n ≤ m) : ceilTo s n ≤ ceilTo s m :=
  (ceilTo_le_iff hs (dvd_ceilTo s m)).mpr (h.trans (le_ceilTo hs m))

theorem ceilTo_ceilTo (hs : 0 < s) (ht : 0 < t) (h : s ∣ t) (n : Nat) :
    ceilTo t (ceilTo s n) = ceilTo t n := by
  refine Nat.le_antisymm ?_ (ceilTo_mono ht (le_ceilTo hs n))
  rw [ceilTo_le_iff ht (dvd_ceilTo t n), ceilTo_le_iff hs (h.trans (dvd_ceilTo t n))]
  exact le_ceilTo ht n

/-- A sum that wraps around is rounded to 0. -/
theorem ceilTo_mod_iff (hs : 0 < s) (hM : s ≤ M) (hn : n < M) :
    (n + s - 1) % M / s * s = ceilTo s n ↔ n + s - 1 < M := by
  refine ⟨fun h => ?_, fun h => by rw [Nat.mod_eq_of_lt h]; rfl⟩
  by_contra hwrap
  have hmod : (n + s - 1) % M = n + s - 1 - M := by
    rw [Nat.mod_eq_sub_mod (Nat.le_of_not_lt hwrap), Nat.mod_eq_of_lt (by omega)]
  rw [hmod, Nat.div_eq_of_lt (by omega), Nat.zero_mul] at h
  have hle := le_ceilTo hs n
  omega
