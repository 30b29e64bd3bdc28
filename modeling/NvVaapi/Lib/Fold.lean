import Mathlib.Data.List.Basic

/-!
# Loops that may fail

A loop over a list whose turns may fail is `List.foldlM` in `Option`.

* `List.foldlM_keeps`: what every turn keeps, the loop keeps.
* `List.foldlM_agree`: two runs of a loop keep the relation that its turns keep.
* `List.foldlM_congr_mem`: loops whose turns are the same for the elements of the list.
-/

namespace List

variable {α σ : Type*} {f g : σ → α → Option σ} {xs : List α}

theorem foldlM_keeps {P : σ → Prop} (hf : ∀ s x s', P s → f s x = some s' → P s')
    {s s' : σ} (h0 : P s) (h : xs.foldlM f s = some s') : P s' := by
  induction xs generalizing s with
  | nil =>
    obtain rfl := Option.some.inj h
    exact h0
  | cons x xs ih =>
    obtain ⟨s₁, h₁, h₂⟩ := Option.bind_eq_some_iff.mp h
    exact ih (hf s x s₁ h0 h₁) h₂

/-- Two runs of a loop with a relation that every turn keeps. -/
theorem foldlM_agree {R : σ → σ → Prop}
    (hf : ∀ s t x s' t', R s t → f s x = some s' → f t x = some t' → R s' t')
    {s t s' t' : σ} (h : R s t) (h₁ : xs.foldlM f s = some s') (h₂ : xs.foldlM f t = some t') :
    R s' t' := by
  induction xs generalizing s t with
  | nil =>
    cases h₁
    cases h₂
    exact h
  | cons x xs ih =>
    obtain ⟨s₁, hs₁, h₁⟩ := Option.bind_eq_some_iff.mp h₁
    obtain ⟨t₁, ht₁, h₂⟩ := Option.bind_eq_some_iff.mp h₂
    exact ih (hf _ _ _ _ _ h hs₁ ht₁) h₁ h₂

theorem foldlM_congr_mem (h : ∀ x ∈ xs, ∀ s, f s x = g s x) (s : σ) :
    xs.foldlM f s = xs.foldlM g s := by
  induction xs generalizing s with
  | nil => rfl
  | cons x xs ih =>
    rw [foldlM_cons, foldlM_cons, h x (by simp)]
    congr 1
    funext s'
    exact ih (fun y hy => h y (by simp [hy])) s'

end List
