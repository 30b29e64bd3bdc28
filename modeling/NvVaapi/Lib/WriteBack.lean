import Mathlib.Logic.Basic

/-!
# Write-back copies

A value that a device has, and a copy of it that is changed first. A change sets a dirty mark, and a
later flush hands the copy to the device.

* `WriteBack.Synced`: a clean copy is what the device has.
* `WriteBack.Marks`: changes of the copy that are marked. They compose (`Marks.trans`) and keep
  `Synced`.
* `WriteBack.forget`: the mark goes without a flush. `forget_synced_iff` says when the copy is still
  what the device has.
-/

structure WriteBack (κ : Type*) where
  pending : κ
  /-- What the device has. -/
  active : κ
  dirty : Bool

namespace WriteBack

variable {κ : Type*} {c c₁ c₂ : WriteBack κ}

def Synced (c : WriteBack κ) : Prop := c.dirty = false → c.pending = c.active

/-- From `c` to `c₁` the copy was only changed with a mark. -/
structure Marks (c c₁ : WriteBack κ) : Prop where
  active : c₁.active = c.active
  dirty : c.dirty = true → c₁.dirty = true
  pending : c₁.dirty = false → c₁.pending = c.pending

theorem Marks.refl (c : WriteBack κ) : Marks c c := ⟨rfl, id, fun _ => rfl⟩

/-- A copy that is dirty afterwards can be any. -/
theorem Marks.of_dirty (ha : c₁.active = c.active) (hd : c₁.dirty = true) : Marks c c₁ :=
  ⟨ha, fun _ => hd, fun h => by simp [h] at hd⟩

/-- The mark only goes up. -/
theorem Marks.clean (h : Marks c c₁) (hd : c₁.dirty = false) : c.dirty = false := by
  cases hc : c.dirty with
  | false => rfl
  | true => simp [h.dirty hc] at hd

theorem Marks.trans (h : Marks c c₁) (h' : Marks c₁ c₂) : Marks c c₂ where
  active := h'.active.trans h.active
  dirty hd := h'.dirty (h.dirty hd)
  pending hd := (h'.pending hd).trans (h.pending (h'.clean hd))

theorem Marks.synced (h : Marks c c₁) (hs : c.Synced) : c₁.Synced := by
  intro hd
  rw [h.pending hd, h.active]
  exact hs (h.clean hd)

/-- The mark goes, and the copy stays. -/
def forget (c : WriteBack κ) : WriteBack κ := { c with dirty := false }

theorem synced_of_eq (h : c.pending = c.active) : c.Synced := fun _ => h

/-- A copy whose change is forgotten is what the device has only if there was none. -/
theorem forget_synced_iff : c.forget.Synced ↔ c.pending = c.active := by
  simp [Synced, forget]

end WriteBack
