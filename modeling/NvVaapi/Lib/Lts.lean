import Mathlib.Data.List.Basic
import Mathlib.Data.List.Induction

/-!
# Labelled transition systems

* `Lts`: a system whose actions carry every choice of the environment, so that a step is a
  partial function. An action that is not enabled has no result.
* `Lts.run`: the state after a list of actions.
* `Lts.ReachWhen ok`: reachable by steps that each meet `ok` in the state they are taken in. With
  no condition it is `Lts.Reach`.
* `Lts.Meets ok`: every action of a run meets `ok` in its turn.
* `Lts.run_of_prefixes`: a run that goes on as long as its prefixes meet a condition.
* `Lts.run_simulates`: the runs of two systems whose steps keep their states related.
* `Lts.run_iff_meets`: a property that holds after a run exactly when the run meets a condition.
* `Lts.run_until`: what the steps of a run keep until one of them does something.
* `Lts.withGhost`: the system with a value that its steps update and do not depend on.
* `Lts.always_iff_meets`: a property that holds in every state of a run exactly when the run meets a
  condition.
* `Lts.ReachWhen.invariant`: what the initial states have and every step keeps holds in every
  reachable state.
-/

/-- A system with states `σ` and actions `α`. -/
structure Lts (σ α : Type*) where
  init : σ → Prop
  step : σ → α → Option σ

namespace Lts

variable {σ α : Type*} {M : Lts σ α} {ok ok' : σ → α → Prop}

/-- The state after the actions `as`, when each of them is enabled in its turn. -/
def run (M : Lts σ α) (s : σ) : List α → Option σ
  | [] => some s
  | a :: as => (M.step s a).bind fun s' => M.run s' as

@[simp] theorem run_nil (s : σ) : M.run s [] = some s := rfl

@[simp] theorem run_cons (s : σ) (a : α) (as : List α) :
    M.run s (a :: as) = (M.step s a).bind fun s' => M.run s' as := rfl

theorem run_append (s : σ) (as bs : List α) :
    M.run s (as ++ bs) = (M.run s as).bind fun s' => M.run s' bs := by
  induction as generalizing s with
  | nil => rfl
  | cons a as ih =>
    simp only [List.cons_append, run_cons]
    cases M.step s a with
    | none => rfl
    | some s' => exact ih s'

/-- A run has a result, with the invariant `I` of its history, if every prefix of it meets `ok` and
an action has one that meets `ok` together with what was before it. -/
theorem run_of_prefixes {ok : List α → Prop} {I : List α → σ → Prop} {s₀ : σ} (h0 : I [] s₀)
    (hs : ∀ done a s, ok (done ++ [a]) → I done s → ∃ s', M.step s a = some s' ∧ I (done ++ [a]) s')
    {as : List α} (hok : ∀ done, done <+: as → ok done) :
    ∃ s', M.run s₀ as = some s' ∧ I as s' := by
  induction as using List.reverseRecOn with
  | nil => exact ⟨s₀, rfl, h0⟩
  | append_singleton as a ih =>
    obtain ⟨s, hr, hi⟩ := ih fun done h => hok done (h.trans (List.prefix_append as [a]))
    obtain ⟨s', hst, hi'⟩ := hs as a s (hok _ List.prefix_rfl) hi
    refine ⟨s', ?_, hi'⟩
    rw [run_append, hr, Option.bind_some, run_cons, hst]
    rfl

/-- Reachable by steps that each meet `ok`. -/
inductive ReachWhen (M : Lts σ α) (ok : σ → α → Prop) : σ → Prop
  | init {s : σ} : M.init s → ReachWhen M ok s
  | step {s s' : σ} {a : α} : ReachWhen M ok s → ok s a → M.step s a = some s' → ReachWhen M ok s'

/-- Reachable by any steps. -/
def Reach (M : Lts σ α) : σ → Prop := M.ReachWhen fun _ _ => True

theorem Reach.init {s : σ} (h : M.init s) : M.Reach s := ReachWhen.init h

theorem Reach.step {s s' : σ} {a : α} (h : M.Reach s) (hs : M.step s a = some s') : M.Reach s' :=
  ReachWhen.step h trivial hs

theorem ReachWhen.mono (h : ∀ s a, ok s a → ok' s a) {s : σ} (hr : M.ReachWhen ok s) :
    M.ReachWhen ok' s := by
  induction hr with
  | init hi => exact .init hi
  | step _ hok hst ih => exact ih.step (h _ _ hok) hst

/-- The induction over a run: `I` holds at first and every step that meets `ok` keeps it. -/
theorem ReachWhen.invariant {I : σ → Prop} (h0 : ∀ s, M.init s → I s)
    (hs : ∀ s a s', I s → ok s a → M.step s a = some s' → I s') {s : σ}
    (h : M.ReachWhen ok s) : I s := by
  induction h with
  | init hi => exact h0 _ hi
  | step _ hok hst ih => exact hs _ _ _ ih hok hst

theorem Reach.invariant {I : σ → Prop} (h0 : ∀ s, M.init s → I s)
    (hs : ∀ s a s', I s → M.step s a = some s' → I s') {s : σ} (h : M.Reach s) : I s :=
  ReachWhen.invariant h0 (fun s a s' hi _ => hs s a s' hi) h

theorem Reach.run {s s' : σ} {as : List α} (h : M.Reach s) (hr : M.run s as = some s') :
    M.Reach s' := by
  induction as generalizing s with
  | nil =>
    obtain rfl : s = s' := by simpa using hr
    exact h
  | cons a as ih =>
    simp only [run_cons, Option.bind_eq_some_iff] at hr
    obtain ⟨s₁, hs, hr⟩ := hr
    exact ih (h.step hs) hr

/-- Every action of the run meets `ok` in its turn. -/
def Meets (M : Lts σ α) (ok : σ → α → Prop) (s : σ) : List α → Prop
  | [] => True
  | a :: as => ok s a ∧ ∀ s', M.step s a = some s' → M.Meets ok s' as

theorem meets_of_none {s : σ} {a : α} (as : List α) (h : M.step s a = none) :
    M.Meets ok s (a :: as) ↔ ok s a :=
  ⟨And.left, fun ha => ⟨ha, fun s' hs => by simp [h] at hs⟩⟩

theorem meets_of_some {s s' : σ} {a : α} (as : List α) (h : M.step s a = some s') :
    M.Meets ok s (a :: as) ↔ ok s a ∧ M.Meets ok s' as := by
  refine and_congr_right fun _ => ⟨fun hm => hm s' h, fun hm s₁ hs => ?_⟩
  obtain rfl : s' = s₁ := Option.some_inj.mp (h.symm.trans hs)
  exact hm

theorem Meets.mono (h : ∀ s a, ok s a → ok' s a) {s : σ} {as : List α} (hm : M.Meets ok s as) :
    M.Meets ok' s as := by
  induction as generalizing s with
  | nil => trivial
  | cons a as ih => exact ⟨h s a hm.1, fun s' hs => ih (hm.2 s' hs)⟩

theorem Meets.take {s : σ} {as : List α} (hm : M.Meets ok s as) (n : Nat) :
    M.Meets ok s (as.take n) := by
  induction as generalizing s n with
  | nil => simpa using hm
  | cons a as ih =>
    cases n with
    | zero => trivial
    | succ n => exact ⟨hm.1, fun s' hs => ih (hm.2 s' hs) n⟩

theorem meets_true (s : σ) (as : List α) : M.Meets (fun _ _ => True) s as := by
  induction as generalizing s with
  | nil => trivial
  | cons a as ih => exact ⟨trivial, fun s' _ => ih s'⟩

/-- Two conditions that are the same for a step from `I` are the same for a run, if the steps that
meet one of them keep `I`. -/
theorem meets_iff_meets {I : σ → Prop} (hok : ∀ s a, I s → (ok s a ↔ ok' s a))
    (hI : ∀ s a s', I s → ok s a → M.step s a = some s' → I s') {s : σ} (hi : I s) (as : List α) :
    M.Meets ok s as ↔ M.Meets ok' s as := by
  induction as generalizing s with
  | nil => exact Iff.rfl
  | cons a as ih =>
    constructor
    · rintro ⟨ha, hm⟩
      exact ⟨(hok s a hi).mp ha, fun s' hs => (ih (hI s a s' hi ha hs)).mp (hm s' hs)⟩
    · rintro ⟨ha, hm⟩
      have ha := (hok s a hi).mpr ha
      exact ⟨ha, fun s' hs => (ih (hI s a s' hi ha hs)).mpr (hm s' hs)⟩

instance [∀ s a, Decidable (ok s a)] (s : σ) (as : List α) : Decidable (M.Meets ok s as) :=
  let rec dec : (s : σ) → (as : List α) → Decidable (M.Meets ok s as)
    | _, [] => .isTrue trivial
    | s, a :: as =>
      match h : M.step s a with
      | none => decidable_of_iff _ (meets_of_none as h).symm
      | some s' =>
        have := dec s' as
        decidable_of_iff _ (meets_of_some as h).symm
  dec s as

theorem ReachWhen.run {s s' : σ} {as : List α} (h : M.ReachWhen ok s) (hm : M.Meets ok s as)
    (hr : M.run s as = some s') : M.ReachWhen ok s' := by
  induction as generalizing s with
  | nil =>
    obtain rfl : s = s' := by simpa using hr
    exact h
  | cons a as ih =>
    obtain ⟨s₁, hs, hr⟩ := Option.bind_eq_some_iff.mp hr
    exact ih (.step h hm.1 hs) (hm.2 s₁ hs) hr

/-- What the actions of a run keep, each met in its turn, holds after it. -/
theorem run_invariant {I : σ → Prop} {s s' : σ} {as : List α}
    (hs : ∀ a ∈ as, ∀ s s', I s → ok s a → M.step s a = some s' → I s') (hi : I s)
    (hm : M.Meets ok s as) (hr : M.run s as = some s') : I s' := by
  induction as generalizing s with
  | nil =>
    obtain rfl : s = s' := by simpa using hr
    exact hi
  | cons a as ih =>
    obtain ⟨s₁, hst, hr⟩ := Option.bind_eq_some_iff.mp hr
    have hnext := hs a List.mem_cons_self s s₁ hi hm.1 hst
    exact ih (fun b hb => hs b (List.mem_cons_of_mem _ hb)) hnext (hm.2 s₁ hst) hr

/-- A run that meets `ok` is simulated: each of its steps has one of the other system that keeps the
states related. -/
theorem run_simulates {σ' : Type*} {M' : Lts σ' α} {R : σ → σ' → Prop}
    (hs : ∀ s t a, R s t → ok s a → ∃ s' t', M.step s a = some s' ∧ M'.step t a = some t' ∧ R s' t')
    {s : σ} {t : σ'} {as : List α} (h : R s t) (hm : M.Meets ok s as) :
    ∃ s' t', M.run s as = some s' ∧ M'.run t as = some t' ∧ R s' t' := by
  induction as generalizing s t with
  | nil => exact ⟨s, t, rfl, rfl, h⟩
  | cons a as ih =>
    obtain ⟨s₁, t₁, hst, hst', h₁⟩ := hs s t a h hm.1
    obtain ⟨s', t', hr, hr', h'⟩ := ih h₁ (hm.2 s₁ hst)
    refine ⟨s', t', ?_, ?_, h'⟩
    · rw [run_cons, hst]
      exact hr
    · rw [run_cons, hst']
      exact hr'

/-- A property that a step keeps exactly when it meets `ok` holds after a run exactly when the run
meets `ok`. The invariant `I` may rely on the condition `ok'`. -/
theorem run_iff_meets {I P : σ → Prop}
    (hI : ∀ s a s', I s → ok' s a → M.step s a = some s' → I s')
    (hP : ∀ s a s', I s → ok' s a → M.step s a = some s' → (P s' ↔ P s ∧ ok s a))
    {s s' : σ} {as : List α} (hi : I s) (hm : M.Meets ok' s as) (hr : M.run s as = some s') :
    P s' ↔ P s ∧ M.Meets ok s as := by
  induction as generalizing s with
  | nil =>
    obtain rfl : s = s' := by simpa using hr
    exact (and_iff_left trivial).symm
  | cons a as ih =>
    obtain ⟨s₁, hs, hr⟩ := Option.bind_eq_some_iff.mp hr
    rw [ih (hI s a s₁ hi hm.1 hs) (hm.2 s₁ hs) hr, hP s a s₁ hi hm.1 hs,
      meets_of_some as hs, and_assoc]

/-- What each step keeps, or ends with `Q`, holds after a run, or a step of the run ended with
`Q`. -/
theorem run_until {P : σ → Prop} {Q : σ → σ → Prop}
    (hs : ∀ s a s', P s → ok s a → M.step s a = some s' → P s' ∨ Q s s') {s s' : σ}
    {as : List α} (hp : P s) (hm : M.Meets ok s as) (hr : M.run s as = some s') :
    P s' ∨ ∃ before a after s₁ s₂, as = before ++ a :: after ∧ M.run s before = some s₁ ∧ P s₁ ∧
      M.step s₁ a = some s₂ ∧ Q s₁ s₂ := by
  induction as generalizing s with
  | nil =>
    obtain rfl : s = s' := by simpa using hr
    exact .inl hp
  | cons a as ih =>
    obtain ⟨s₁, hst, hr⟩ := Option.bind_eq_some_iff.mp hr
    obtain hp₁ | hq := hs s a s₁ hp hm.1 hst
    · refine (ih hp₁ (hm.2 s₁ hst) hr).imp_right ?_
      rintro ⟨before, b, after, s₂, s₃, rfl, hb, hp₂, hst', hq⟩
      refine ⟨a :: before, b, after, s₂, s₃, rfl, ?_, hp₂, hst', hq⟩
      rw [run_cons, hst]
      exact hb
    · exact .inr ⟨[], a, as, s, s₁, rfl, rfl, hp, hst, hq⟩

/-- `P` holds in every state of the run. -/
def Always (M : Lts σ α) (P : σ → Prop) (s : σ) : List α → Prop
  | [] => P s
  | a :: as => P s ∧ ∀ s', M.step s a = some s' → M.Always P s' as

/-- It holds in the last state of the run. -/
theorem Always.last {P : σ → Prop} {s s' : σ} {as : List α} (h : M.Always P s as)
    (hr : M.run s as = some s') :
    P s' := by
  induction as generalizing s with
  | nil =>
    obtain rfl : s = s' := by simpa using hr
    exact h
  | cons a as ih =>
    obtain ⟨s₁, hs, hr⟩ := Option.bind_eq_some_iff.mp hr
    exact ih (h.2 s₁ hs) hr

/-- A property that a step from a state with it leads to exactly when it meets `ok` holds in every
state of a run exactly when the run meets `ok`. The invariant `I` may rely on the condition
`ok'`. -/
theorem always_iff_meets {I P : σ → Prop}
    (hI : ∀ s a s', I s → ok' s a → M.step s a = some s' → I s')
    (hP : ∀ s a s', I s → ok' s a → P s → M.step s a = some s' → (P s' ↔ ok s a))
    {s s' : σ} {as : List α} (hi : I s) (hp : P s) (hm : M.Meets ok' s as)
    (hr : M.run s as = some s') :
    M.Always P s as ↔ M.Meets ok s as := by
  induction as generalizing s with
  | nil => exact iff_of_true hp trivial
  | cons a as ih =>
    obtain ⟨s₁, hs, hr⟩ := Option.bind_eq_some_iff.mp hr
    have hok := hP s a s₁ hi hm.1 hp hs
    have hnext : M.Always P s (a :: as) ↔ M.Always P s₁ as := by
      refine ⟨fun h => h.2 s₁ hs, fun h => ⟨hp, fun s₂ hs₂ => ?_⟩⟩
      obtain rfl : s₁ = s₂ := Option.some_inj.mp (hs.symm.trans hs₂)
      exact h
    rw [hnext, meets_of_some as hs, ← hok]
    by_cases hp₁ : P s₁
    · rw [ih (hI s a s₁ hi hm.1 hs) hp₁ (hm.2 s₁ hs) hr]
      exact (and_iff_right hp₁).symm
    · -- the run has left `P` already
      refine iff_of_false (fun h => hp₁ ?_) fun h => hp₁ h.1
      cases as with
      | nil => exact h
      | cons _ _ => exact h.1

/-! ## Ghost values -/

section Ghost

variable {γ : Type*} {g₀ g : γ} {next : σ → α → γ → γ}

/-- The system with a ghost value, which the steps update and do not depend on. -/
def withGhost (M : Lts σ α) (g₀ : γ) (next : σ → α → γ → γ) : Lts (σ × γ) α where
  init x := M.init x.1 ∧ x.2 = g₀
  step x a := (M.step x.1 a).map fun s' => (s', next x.1 a x.2)

theorem withGhost_step_iff {s s' : σ} {g' : γ} {a : α} :
    (M.withGhost g₀ next).step (s, g) a = some (s', g') ↔
      M.step s a = some s' ∧ g' = next s a g := by
  rw [withGhost, Option.map_eq_some_iff]
  constructor
  · rintro ⟨s₁, hs, he⟩
    obtain ⟨rfl, rfl⟩ := Prod.mk.inj he
    exact ⟨hs, rfl⟩
  · rintro ⟨hs, rfl⟩
    exact ⟨s', hs, rfl⟩

/-- A run of the system is one with the ghost value. -/
theorem run_withGhost (g₀ g : γ) (next : σ → α → γ → γ) {s s' : σ} {as : List α}
    (hr : M.run s as = some s') :
    ∃ g', (M.withGhost g₀ next).run (s, g) as = some (s', g') := by
  induction as generalizing s g with
  | nil =>
    obtain rfl : s = s' := by simpa using hr
    exact ⟨g, rfl⟩
  | cons a as ih =>
    obtain ⟨s₁, hs, hr⟩ := Option.bind_eq_some_iff.mp hr
    obtain ⟨g', hg⟩ := ih (next s a g) hr
    refine ⟨g', ?_⟩
    rw [run_cons, withGhost_step_iff.mpr ⟨hs, rfl⟩]
    exact hg

end Ghost

end Lts
