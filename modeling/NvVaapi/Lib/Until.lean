import Mathlib.Data.List.Basic

/-!
# A prefix until a mark

Something is written element by element. Each element gets a prefix until a marked element comes,
which has none any more.

* `Until.written mark pre body seen as`: what is written, where `seen` says that a mark came before.
* `Until.NoneMistaken`: no element before the first true mark is taken as one.
* `Until.written_eq_iff`: two notions of a mark, one weaker than the other, write the same exactly
  when no element is mistaken.
-/

namespace Until

variable {α β : Type*} {mark mark' : α → Bool} {pre body : α → List β}

/-- What is written for the elements, when a mark came before them or not. -/
def written (mark : α → Bool) (pre body : α → List β) : Bool → List α → List β
  | _, [] => []
  | seen, a :: as =>
    (if seen || mark a then [] else pre a) ++ body a ++ written mark pre body (seen || mark a) as

@[simp] theorem written_nil (seen : Bool) : written mark pre body seen [] = [] := rfl

theorem written_cons (seen : Bool) (a : α) (as : List α) : written mark pre body seen (a :: as) =
    (if seen || mark a then [] else pre a) ++ body a ++ written mark pre body (seen || mark a) as :=
      rfl

theorem written_append (seen : Bool) (as bs : List α) : written mark pre body seen (as ++ bs) =
    written mark pre body seen as ++ written mark pre body (seen || as.any mark) bs := by
  induction as generalizing seen with
  | nil => simp
  | cons a as ih => simp [written_cons, ih, Bool.or_assoc]

/-- No element before the first one with `mark` has `mark'` alone. -/
def NoneMistaken (mark mark' : α → Bool) (seen : Bool) (as : List α) : Prop :=
  seen = false → ∀ before a after, as = before ++ a :: after → (∀ b ∈ before, mark b = false) →
    mark' a = true → mark a = true

theorem noneMistaken_nil (seen : Bool) : NoneMistaken mark mark' seen [] := by
  rintro - before a after h
  cases before <;> cases h

theorem noneMistaken_cons {seen : Bool} {a : α} {as : List α} :
    NoneMistaken mark mark' seen (a :: as) ↔
    (seen = false → mark' a = true → mark a = true) ∧
      NoneMistaken mark mark' (seen || mark a) as := by
  constructor
  · intro h
    refine ⟨fun hs ha => h hs [] a as rfl nofun ha, fun hs before b after he hn hb => ?_⟩
    rw [Bool.or_eq_false_iff] at hs
    exact h hs.1 (a :: before) b after (congrArg (a :: ·) he)
      (List.forall_mem_cons.mpr ⟨hs.2, hn⟩) hb
  · rintro ⟨hhead, htail⟩ hs before b after he hn hb
    cases before with
    | nil =>
      obtain ⟨rfl, rfl⟩ := List.cons.inj he
      exact hhead hs hb
    | cons b' before =>
      obtain ⟨rfl, rfl⟩ := List.cons.inj he
      rw [List.forall_mem_cons] at hn
      exact htail (by rw [hs, hn.1]; rfl) before b after rfl hn.2 hb

instance decidableNoneMistaken :
    (seen : Bool) → (as : List α) → Decidable (NoneMistaken mark mark' seen as)
  | seen, [] => .isTrue (noneMistaken_nil seen)
  | seen, a :: as =>
    have : Decidable (NoneMistaken mark mark' (seen || mark a) as) := decidableNoneMistaken _ as
    decidable_of_iff _ noneMistaken_cons.symm

/-- A mark that is seen earlier leaves less to write. -/
theorem length_written_le (hm : ∀ a, mark a = true → mark' a = true) {seen seen' : Bool}
    (hs : seen = true → seen' = true) (as : List α) :
    (written mark' pre body seen' as).length ≤ (written mark pre body seen as).length := by
  induction as generalizing seen seen' with
  | nil => exact Nat.le_refl 0
  | cons a as ih =>
    have hnext : (seen || mark a) = true → (seen' || mark' a) = true := by
      rw [Bool.or_eq_true, Bool.or_eq_true]
      exact Or.imp hs (hm a)
    have htail := ih hnext
    simp only [written_cons, List.length_append]
    cases h : seen || mark a with
    | true =>
      rw [h] at htail
      rw [hnext h] at htail ⊢
      simpa using htail
    | false =>
      rw [h] at htail
      cases h' : seen' || mark' a <;> rw [h'] at htail <;> simp <;> omega

/-- Two notions of a mark write the same exactly when no element is mistaken. -/
theorem written_eq_iff (hm : ∀ a, mark a = true → mark' a = true) (hpre : ∀ a, pre a ≠ [])
    (seen : Bool) (as : List α) : written mark' pre body seen as = written mark pre body seen as ↔
      NoneMistaken mark mark' seen as := by
  induction as generalizing seen with
  | nil => exact iff_of_true rfl (noneMistaken_nil seen)
  | cons a as ih =>
    rw [noneMistaken_cons]
    by_cases hsame : (seen || mark' a) = (seen || mark a)
    · -- the element is no mistake, and the rest decides
      rw [written_cons, written_cons, hsame, List.append_cancel_left_eq, ih]
      refine (and_iff_right fun hs ha => ?_).symm
      simpa [hs, ha] using hsame.symm
    · -- the element loses its prefix, and nothing makes up for it
      obtain ⟨rfl, ha', ha⟩ : seen = false ∧ mark' a = true ∧ mark a = false := by
        cases seen <;> cases h' : mark' a <;> cases h : mark a <;> simp_all
      have hle :
          (written mark' pre body true as).length ≤ (written mark pre body false as).length :=
        length_written_le hm (fun h => absurd h Bool.false_ne_true) as
      have hpos := List.length_pos_iff.mpr (hpre a)
      refine iff_of_false (fun heq => ?_) fun h =>
        absurd (ha.symm.trans (h.1 rfl ha')) Bool.false_ne_true
      have hlen := congrArg List.length heq
      simp [written_cons, ha, ha'] at hlen
      omega

/-- When none is mistaken, the two notions have seen a mark in the same runs. -/
theorem NoneMistaken.any (hm : ∀ a, mark a = true → mark' a = true) {seen : Bool} {as : List α}
    (h : NoneMistaken mark mark' seen as) : (seen || as.any mark') = (seen || as.any mark) := by
  induction as generalizing seen with
  | nil => rfl
  | cons a as ih =>
    obtain ⟨hhead, htail⟩ := noneMistaken_cons.mp h
    have hsame : (seen || mark' a) = (seen || mark a) := by
      cases seen <;> cases h' : mark' a <;> cases h₁ : mark a <;> simp_all
    rw [List.any_cons, List.any_cons, ← Bool.or_assoc, ← Bool.or_assoc, hsame, ih htail]

end Until
