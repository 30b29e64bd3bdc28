import Mathlib.Logic.Function.Basic
import Mathlib.Data.Option.Basic

/-!
# Tables that match a record

* `Matches P f g`: what the table `f` has is what the record `g` has noted, in the sense of `P`.
* `Matches.update`, `Matches.set`, `Matches.erase`, `Matches.note`: an entry and its note change, or
  one of them.
-/

variable {α β γ : Type*} {P : β → γ → Prop} {f : α → Option β} {g : α → γ} {k : α}

def Matches (P : β → γ → Prop) (f : α → Option β) (g : α → γ) : Prop :=
  ∀ ⦃a b⦄, f a = some b → P b (g a)

namespace Matches

theorem empty (g : α → γ) : Matches P (fun _ => none) g := fun _ _ hb => by cases hb

variable [DecidableEq α]

theorem update (h : Matches P f g) {o : Option β} {x : γ} (ho : ∀ b, o = some b → P b x) :
    Matches P (Function.update f k o) (Function.update g k x) := by
  intro a b hb
  by_cases ha : a = k
  · subst ha
    rw [Function.update_self] at hb ⊢
    exact ho b hb
  · rw [Function.update_of_ne ha] at hb ⊢
    exact h hb

/-- The entry changes to one that matches its note. -/
theorem set (h : Matches P f g) {b : β} (hb : P b (g k)) :
    Matches P (Function.update f k (some b)) g := by
  have hset := h.update (k := k) (o := some b) (x := g k) fun b' hb' => Option.some.inj hb' ▸ hb
  rwa [Function.update_eq_self] at hset

theorem erase (h : Matches P f g) : Matches P (Function.update f k none) g := by
  have herase := h.update (k := k) (o := none) (x := g k) fun _ hb => by cases hb
  rwa [Function.update_eq_self] at herase

/-- A note for an entry that is not there. -/
theorem note (h : Matches P f g) (hk : f k = none) (x : γ) :
    Matches P f (Function.update g k x) := by
  have hnote := h.update (k := k) (o := none) (x := x) fun _ hb => by cases hb
  rwa [← hk, Function.update_eq_self] at hnote

end Matches
