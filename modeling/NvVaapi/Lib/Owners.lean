import NvVaapi.Lib.Ledger
import Mathlib.Algebra.Order.BigOperators.Group.Finset
import Mathlib.Algebra.Order.Group.Multiset

/-!
# Who holds what

* `Ledger.OwnedBy`: what is held is what the owners hold together, and nothing else was released.
* `OwnedBy.insert_iff`: there is one owner more exactly when it holds what was acquired.
* `OwnedBy.releaseAll`: an owner that goes releases what it holds.
-/

namespace Ledger

variable {ι κ : Type} {l : Ledger κ} {s : Finset ι} {own own' : ι → Multiset κ} {a : ι}

/-- What is held is what the owners in `s` hold together. Nothing was released that was not held. -/
def OwnedBy (l : Ledger κ) (s : Finset ι) (own : ι → Multiset κ) : Prop := l = ⟨∑ i ∈ s, own i, 0⟩

/-- The ledger holds `ks` in addition. -/
def hold (l : Ledger κ) (ks : Multiset κ) : Ledger κ := ⟨ks + l.held, l.stray⟩

@[simp] theorem hold_held (ks : Multiset κ) : (l.hold ks).held = ks + l.held := rfl

@[simp] theorem hold_stray (ks : Multiset κ) : (l.hold ks).stray = l.stray := rfl

@[simp] theorem hold_zero : l.hold 0 = l := by
  simp [hold]

theorem hold_hold (ks ks' : Multiset κ) : (l.hold ks).hold ks' = l.hold (ks' + ks) := by
  simp [hold, add_assoc]

theorem acquire_eq_hold (k : κ) : l.acquire k = l.hold {k} := rfl

/-- What is held in addition and released again leaves the ledger. -/
theorem releaseAll_hold [DecidableEq κ] {ks : List κ} {ks' rest : Multiset κ}
    (h : ks' = ks + rest) : (l.hold ks').releaseAll ks = l.hold rest := by
  subst h
  rw [releaseAll_of_le]
  · simp [hold, add_assoc]
  · rw [hold_held, add_assoc]
    exact Multiset.le_add_right _ _

theorem held_releaseAll_le [DecidableEq κ] (l : Ledger κ) (ks : List κ) :
    (l.releaseAll ks).held ≤ l.held := by
  induction ks generalizing l with
  | nil => exact le_refl _
  | cons k ks ih =>
    refine (ih _).trans ?_
    unfold release
    split
    · exact Multiset.erase_le k _
    · exact le_refl _

namespace OwnedBy

@[simp] theorem empty_iff : l.OwnedBy ∅ own ↔ l = .empty := Iff.rfl

theorem congr (h : ∀ i ∈ s, own i = own' i) : l.OwnedBy s own ↔ l.OwnedBy s own' := by
  rw [OwnedBy, OwnedBy, Finset.sum_congr rfl h]

/-- Nothing is held exactly when no owner holds anything. -/
theorem eq_empty_iff (h : l.OwnedBy s own) : l = .empty ↔ ∀ i ∈ s, own i = 0 := by
  rw [h, Ledger.empty, Ledger.mk.injEq, and_iff_left rfl, Finset.sum_eq_zero_iff]

/-- The owners hold what they held exactly when nothing was acquired. -/
theorem hold_iff {ks : Multiset κ} (h : l.OwnedBy s own) : (l.hold ks).OwnedBy s own ↔ ks = 0 := by
  rw [OwnedBy, h, hold, Ledger.mk.injEq, and_iff_left rfl, add_eq_right]

variable [DecidableEq ι]

/-- A new owner holds what was acquired. -/
theorem insert_iff {ks : Multiset κ} (h : l.OwnedBy s own) (ha : a ∉ s) :
    (l.hold ks).OwnedBy (insert a s) own ↔ own a = ks := by
  rw [OwnedBy, h, hold, Finset.sum_insert ha, Ledger.mk.injEq, and_iff_left rfl,
    add_left_inj, eq_comm]

/-- An owner goes, with what it holds. -/
theorem releaseAll [DecidableEq κ] {ks : List κ} (h : l.OwnedBy s own) (ha : a ∈ s)
    (hk : own a = ks) : (l.releaseAll ks).OwnedBy (s.erase a) own := by
  have hheld : l.held = ks + ∑ i ∈ s.erase a, own i := by
    rw [h, ← hk]
    exact (Finset.add_sum_erase s own ha).symm
  have hle : (ks : Multiset κ) ≤ l.held := by
    rw [hheld]
    exact Multiset.le_add_right _ _
  rw [releaseAll_of_le hle, OwnedBy, hheld, add_tsub_cancel_left, h]

end OwnedBy

end Ledger
