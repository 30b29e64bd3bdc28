import Mathlib.Data.PEquiv
import Mathlib.Logic.Function.Basic

/-!
# Pointers and the pointers back

* `Linked f g`: `f a` points to `b` exactly when `g b` points to `a`.
* `Linked.attach`, `Linked.detach`: the two pointers are set, and taken back.
-/

variable {α β : Type*} {f : α → Option β} {g : β → Option α} {a a' : α} {b : β}

/-- What still points to `b` where a pointer was taken back. -/
theorem update_none_eq_some [DecidableEq α] :
    Function.update f a none a' = some b ↔ a' ≠ a ∧ f a' = some b := by
  by_cases ha : a' = a
  · subst ha
    simp
  · rw [Function.update_of_ne ha]
    exact (and_iff_right ha).symm

/-- `f` and `g` point to each other. -/
def Linked (f : α → Option β) (g : β → Option α) : Prop := ∀ a b, f a = some b ↔ g b = some a

theorem linked_none : Linked f (fun _ => none) ↔ ∀ a, f a = none := by
  refine ⟨fun h a => ?_, fun h a b => ?_⟩
  · exact Option.eq_none_iff_forall_not_mem.mpr fun b hb => nomatch (h a b).mp hb
  · exact iff_of_false (by simp [h a]) nofun

namespace Linked

/-- The pointers are a partial bijection. -/
def toPEquiv (h : Linked f g) : α ≃. β := ⟨f, g, fun a b => (h a b).symm⟩

theorem symm (h : Linked f g) : Linked g f := fun b a => (h a b).symm

theorem inj (h : Linked f g) (ha : f a = some b) (ha' : f a' = some b) : a = a' :=
  h.toPEquiv.inj ha ha'

/-- Nothing points to what does not point back. -/
theorem ne_of_none (h : Linked f g) (hb : g b = none) : f a ≠ some b := by
  intro ha
  rw [(h a b).mp ha] at hb
  cases hb

variable [DecidableEq α] [DecidableEq β]

theorem attach (h : Linked f g) (ha : f a = none) (hb : g b = none) :
    Linked (Function.update f a (some b)) (Function.update g b (some a)) := by
  intro x y
  by_cases hx : x = a
  · subst hx
    by_cases hy : y = b
    · subst hy
      simp
    · rw [Function.update_self, Function.update_of_ne hy]
      exact iff_of_false (fun hc => hy (Option.some.inj hc).symm) (h.symm.ne_of_none ha)
  · rw [Function.update_of_ne hx]
    by_cases hy : y = b
    · subst hy
      rw [Function.update_self]
      exact iff_of_false (h.ne_of_none hb) fun hc => hx (Option.some.inj hc).symm
    · rw [Function.update_of_ne hy]
      exact h x y

theorem detach (h : Linked f g) (hab : f a = some b) :
    Linked (Function.update f a none) (Function.update g b none) := by
  intro x y
  rw [update_none_eq_some, update_none_eq_some, ← h x y]
  refine and_congr_left fun hxy => not_congr ⟨?_, ?_⟩
  · rintro rfl
    exact Option.some.inj (hxy.symm.trans hab)
  · rintro rfl
    exact h.inj hxy hab

end Linked
