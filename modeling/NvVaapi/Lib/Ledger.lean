import Mathlib.Data.Multiset.UnionInter
import Mathlib.Data.Multiset.AddSub

/-!
# What is held

* `Ledger`: what was acquired and not released, with what was released and was not held.
* `releaseAll_stray_iff`: a list of releases releases nothing else exactly when all of it is held.
* `releaseAll_of_le`: then it takes the list from what is held.
-/

/-- What is held, and what was released without being held. -/
@[ext] structure Ledger (κ : Type) where
  held : Multiset κ
  stray : Multiset κ

namespace Ledger

variable {κ : Type}

def empty : Ledger κ := ⟨0, 0⟩

def acquire (l : Ledger κ) (k : κ) : Ledger κ := { l with held := k ::ₘ l.held }

variable [DecidableEq κ]

def release (l : Ledger κ) (k : κ) : Ledger κ :=
  if k ∈ l.held then { l with held := l.held.erase k } else { l with stray := k ::ₘ l.stray }

def releaseAll (l : Ledger κ) (ks : List κ) : Ledger κ := ks.foldl release l

variable {l : Ledger κ} {k k' : κ} {ks ks' : List κ}

@[simp] theorem releaseAll_nil : l.releaseAll [] = l := rfl

@[simp] theorem releaseAll_cons : l.releaseAll (k :: ks) = (l.release k).releaseAll ks := rfl

theorem releaseAll_append : l.releaseAll (ks ++ ks') = (l.releaseAll ks).releaseAll ks' :=
  List.foldl_append

theorem release_of_mem (h : k ∈ l.held) : l.release k = ⟨l.held.erase k, l.stray⟩ := if_pos h

theorem release_of_notMem (h : k ∉ l.held) : l.release k = ⟨l.held, k ::ₘ l.stray⟩ := if_neg h

theorem stray_le_release (l : Ledger κ) (k : κ) : l.stray ≤ (l.release k).stray := by
  unfold release
  split
  · exact le_refl _
  · exact Multiset.le_cons_self _ _

theorem stray_le_releaseAll (l : Ledger κ) (ks : List κ) : l.stray ≤ (l.releaseAll ks).stray := by
  induction ks generalizing l with
  | nil => exact le_refl _
  | cons k ks ih => exact (stray_le_release l k).trans (ih _)

theorem cons_le_held_iff :
    (k : κ) ::ₘ (ks : Multiset κ) ≤ l.held ↔ k ∈ l.held ∧ (ks : Multiset κ) ≤ l.held.erase k := by
  constructor
  · intro h
    have hk := Multiset.mem_of_le h (Multiset.mem_cons_self k _)
    exact ⟨hk, by rwa [← Multiset.cons_le_cons_iff k, Multiset.cons_erase hk]⟩
  · rintro ⟨hk, h⟩
    rwa [← Multiset.cons_erase hk, Multiset.cons_le_cons_iff]

/-- What is held in full is taken from what is held. -/
theorem releaseAll_of_le (h : (ks : Multiset κ) ≤ l.held) :
    l.releaseAll ks = ⟨l.held - ks, l.stray⟩ := by
  induction ks generalizing l with
  | nil => simp
  | cons k ks ih =>
    rw [← Multiset.cons_coe] at h ⊢
    obtain ⟨hk, hle⟩ := cons_le_held_iff.mp h
    rw [releaseAll_cons, release_of_mem hk, ih hle, Multiset.sub_cons]

/-- The list is held in full exactly when releasing it releases nothing that is not held. -/
theorem releaseAll_stray_iff : (l.releaseAll ks).stray = l.stray ↔ (ks : Multiset κ) ≤ l.held := by
  induction ks generalizing l with
  | nil => exact iff_of_true rfl (Multiset.zero_le _)
  | cons k ks ih =>
    rw [← Multiset.cons_coe, cons_le_held_iff, releaseAll_cons]
    by_cases hk : k ∈ l.held
    · have hrest := ih (l := ⟨l.held.erase k, l.stray⟩)
      rw [release_of_mem hk, hrest, and_iff_right hk]
    · refine iff_of_false (fun h => ?_) fun h => hk h.1
      have hle := stray_le_releaseAll (l.release k) ks
      rw [h, release_of_notMem hk] at hle
      exact absurd (Multiset.card_le_card hle) (by simp)

end Ledger
