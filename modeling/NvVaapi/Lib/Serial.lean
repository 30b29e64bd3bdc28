import Mathlib.Data.Int.ModEq
import Mathlib.Data.Nat.Bitwise
import Mathlib.Data.List.MinMax
import Mathlib.Data.UInt

/-!
# Numbers that wrap

* `wrapDist k a b`: the signed distance of two counters that wrap at `2 ^ (k + 1)`.
* `eq_wrapDist_of_modEq`: it is the one number of its range that is the difference modulo
  `2 ^ (k + 1)`.
* `wrapDist_of_wrapDist`: where the distances to a third counter are close, their difference is the
  distance.
* `toInt_masked`: two masks compute it in 32 bits.
* `greatest`, `least`: the first of the greatest elements of a list, and of the least.
* `keep`: the turn of a loop that keeps the best element with a property. `foldl_keep_greatest` and
  `foldl_keep_least` say which one that is.
-/

namespace NvVaapi.Serial

/-! ## The distance -/

def wrapDist (k : Nat) (a b : Int) : Int := (a - b).bmod (2 ^ (k + 1))

theorem natCast_two_pow_succ (k : Nat) : ((2 ^ (k + 1) : Nat) : Int) = 2 * 2 ^ k := by
  rw [Nat.pow_succ']
  push_cast
  rfl

theorem le_wrapDist (k : Nat) (a b : Int) : -2 ^ k ≤ wrapDist k a b := by
  have h := Int.le_bmod (x := a - b) (Nat.two_pow_pos (k + 1))
  rw [natCast_two_pow_succ] at h
  unfold wrapDist
  omega

theorem wrapDist_lt (k : Nat) (a b : Int) : wrapDist k a b < 2 ^ k := by
  have h := Int.bmod_lt (x := a - b) (Nat.two_pow_pos (k + 1))
  rw [natCast_two_pow_succ] at h
  unfold wrapDist
  omega

/-- The distance is the difference, up to the turns of the counters. -/
theorem wrapDist_modEq (k : Nat) (a b : Int) : wrapDist k a b ≡ a - b [ZMOD 2 ^ (k + 1)] := by
  have hmod : wrapDist k a b % (2 ^ (k + 1) : Nat) = (a - b) % (2 ^ (k + 1) : Nat) := Int.bmod_emod
  push_cast at hmod
  exact hmod

/-- No other number of the range is. -/
theorem eq_wrapDist_of_modEq {k : Nat} {a b d : Int} (h : d ≡ a - b [ZMOD 2 ^ (k + 1)])
    (hle : -2 ^ k ≤ d) (hlt : d < 2 ^ k) : d = wrapDist k a b := by
  have hmod : d % (2 ^ (k + 1) : Nat) = (a - b) % (2 ^ (k + 1) : Nat) := by
    push_cast
    exact h
  have hpow := natCast_two_pow_succ k
  calc
    d = d.bmod (2 ^ (k + 1)) := (Int.bmod_eq_of_le (by omega) (by omega)).symm
    _ = (d % (2 ^ (k + 1) : Nat)).bmod (2 ^ (k + 1)) := (Int.emod_bmod ..).symm
    _ = wrapDist k a b := by rw [hmod, Int.emod_bmod, wrapDist]

/-- Counters less than half a turn apart are as far apart as the numbers. -/
theorem wrapDist_eq_sub {k : Nat} {a b : Int} (h : |a - b| < 2 ^ k) : wrapDist k a b = a - b := by
  obtain ⟨hlo, hhi⟩ := abs_lt.mp h
  exact (eq_wrapDist_of_modEq (Int.ModEq.refl _) (by omega) hhi).symm

/-- The distances to a third counter determine the distance, if they are close. -/
theorem wrapDist_of_wrapDist {k : Nat} {a b c : Int}
    (hle : -2 ^ k ≤ wrapDist k a c - wrapDist k b c)
    (hlt : wrapDist k a c - wrapDist k b c < 2 ^ k) :
    wrapDist k a b = wrapDist k a c - wrapDist k b c := by
  refine (eq_wrapDist_of_modEq ?_ hle hlt).symm
  have hsub := (wrapDist_modEq k a c).sub (wrapDist_modEq k b c)
  rwa [sub_sub_sub_cancel_right] at hsub

/-! ## The distance in 32 bits -/

theorem toInt_of_toNat {x : Int32} {n : Nat} (h : x.toBitVec.toNat = n) (hn : n < 2 ^ 31) :
    x.toInt = n := by
  rw [Int32.toInt, BitVec.toInt_eq_toNat_of_lt (by omega), h]

/-- The low bits of a difference less its bit `k`: the difference modulo `2 ^ (k + 1)`, as a signed
number. -/
theorem toInt_masked (x m : Int32) {k : Nat} (hk : k < 31) (hm : m.toBitVec.toNat = 2 ^ k)
    (hm1 : (m - 1).toBitVec.toNat = 2 ^ k - 1) :
    ((x &&& (m - 1)) - (x &&& m)).toInt = x.toInt.bmod (2 ^ (k + 1)) := by
  generalize hN : x.toBitVec.toNat = N
  have hpow : 2 ^ k < 2 ^ 31 := Nat.pow_lt_pow_right (by omega) hk
  have hpos : 0 < 2 ^ k := Nat.two_pow_pos k
  have hlow : (x &&& (m - 1)).toBitVec.toNat = N % 2 ^ k := by
    rw [Int32.toBitVec_and, BitVec.toNat_and, hm1, hN, Nat.and_two_pow_sub_one_eq_mod]
  have hbit : (x &&& m).toBitVec.toNat = 2 ^ k * (N / 2 ^ k % 2) := by
    rw [Int32.toBitVec_and, BitVec.toNat_and, hm, hN, Nat.and_two_pow,
      Nat.testBit_eq_decide_div_mod_eq, Nat.mul_comm]
    obtain h | h := Nat.mod_two_eq_zero_or_one (N / 2 ^ k) <;> simp [h]
  have hmod : N % 2 ^ (k + 1) = N % 2 ^ k + 2 ^ k * (N / 2 ^ k % 2) := by
    rw [Nat.pow_succ, Nat.mod_mul]
  have hlt : N % 2 ^ k < 2 ^ k := Nat.mod_lt _ hpos
  have hx : x.toInt.bmod (2 ^ (k + 1)) = (N : Int).bmod (2 ^ (k + 1)) := by
    rw [Int32.toInt, BitVec.toInt_eq_toNat_bmod, hN]
    exact Int.bmod_bmod_of_dvd (Nat.pow_dvd_pow 2 (by omega))
  have hbound : 2 ^ k * (N / 2 ^ k % 2) ≤ 2 ^ k := by
    obtain h | h := Nat.mod_two_eq_zero_or_one (N / 2 ^ k) <;> rw [h] <;> omega
  rw [hx, Int32.toInt_sub, toInt_of_toNat hlow (by omega), toInt_of_toNat hbit (by omega),
    Int.bmod_eq_of_le (by omega) (by omega), Int.bmod_def, ← Int.natCast_mod, hmod]
  -- the bit `k` says whether the low bits are a negative number
  obtain h | h := Nat.mod_two_eq_zero_or_one (N / 2 ^ k)
  · rw [h, if_pos (by push_cast; omega)]
    omega
  · rw [h, if_neg (by push_cast; omega)]
    push_cast
    omega

/-! ## Loops that keep the best element -/

section Keep

variable {α : Type}

/-- The first of the greatest elements. -/
def greatest (f : α → Int) (l : List α) : Option α :=
  @List.argmax α Int Int.instLinearOrder.toPreorder Int.decLt f l

/-- The first of the least elements. -/
def least (f : α → Int) (l : List α) : Option α :=
  @List.argmin α Int Int.instLinearOrder.toPreorder Int.decLt f l

/-- The turn of such a loop for `i`: it replaces what was kept when it is better. -/
def keep (p : α → Prop) [DecidablePred p] (better : α → α → Prop) [DecidableRel better]
    (kept : Option α) (i : α) : Option α :=
  if p i then List.argAux better kept i else kept

theorem foldl_keep (p : α → Prop) [DecidablePred p] (better : α → α → Prop) [DecidableRel better]
    (kept : Option α) (l : List α) :
    l.foldl (keep p better) kept = (l.filter p).foldl (List.argAux better) kept := by
  rw [List.foldl_filter]
  simp only [decide_eq_true_eq]
  rfl

theorem foldl_keep_greatest (p : α → Prop) [DecidablePred p] (f : α → Int) (l : List α) :
    l.foldl (keep p fun i j => f j < f i) none = greatest f (l.filter p) :=
  foldl_keep p _ none l

theorem foldl_keep_least (p : α → Prop) [DecidablePred p] (f : α → Int) (l : List α) :
    l.foldl (keep p fun i j => f i < f j) none = least f (l.filter p) :=
  foldl_keep p _ none l

theorem least_eq_none {f : α → Int} {l : List α} : least f l = none ↔ l = [] := List.argmin_eq_none

end Keep

end NvVaapi.Serial
