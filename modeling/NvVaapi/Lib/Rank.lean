import NvVaapi.Lib.Lts

/-!
# Progress in runs

* `Lts.run_rank`: where some of the actions bring a state nearer to a goal and none takes it away, a
  run with enough of them gets there.
-/

namespace Lts

variable {σ α : Type*} {M : Lts σ α} {ok : σ → α → Prop}

/-- Every `p`-action of the run lowers the rank by one, until it is 0, and no other action raises
it. -/
theorem run_rank {I : σ → Prop} {rank : σ → Nat} {p : α → Bool}
    (hs : ∀ s a s', I s → ok s a → M.step s a = some s' →
      I s' ∧ rank s' ≤ rank s - if p a then 1 else 0)
    {s s' : σ} {as : List α} (hi : I s) (hm : M.Meets ok s as) (hr : M.run s as = some s') :
    I s' ∧ rank s' ≤ rank s - as.countP p := by
  induction as generalizing s with
  | nil =>
    obtain rfl : s = s' := by simpa using hr
    exact ⟨hi, Nat.le_refl _⟩
  | cons a as ih =>
    obtain ⟨s₁, hst, hr⟩ := Option.bind_eq_some_iff.mp hr
    obtain ⟨hi₁, hle₁⟩ := hs s a s₁ hi hm.1 hst
    obtain ⟨hi', hle⟩ := ih hi₁ (hm.2 s₁ hst) hr
    refine ⟨hi', ?_⟩
    rw [List.countP_cons]
    omega

end Lts
