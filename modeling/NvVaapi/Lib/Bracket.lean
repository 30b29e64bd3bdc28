import NvVaapi.Lib.Lts

/-!
# Brackets

Something is begun and ended. An end that fails leaves it open, and a begin opens it again.

* `Event.Closes`, `Open`: what is open after a list of events.
* `Bracketed`: an end that finds nothing open fails and submits nothing.
* `Lts.events`: the events of a run, and `Lts.tracked` the system that remembers what is open.
* `Lts.bracketed_iff_meets`: the events of a run are bracketed exactly when each call respects what
  is open when it is made.
-/

namespace Bracket

inductive Event where
  /-- There is something new, which is not open. -/
  | reset
  | begun
  | ended (success submitted : Bool)
  | other

/-- Nothing is open after the event. -/
def Event.Closes : Event → Prop
  | reset => True
  | ended success _ => success
  | _ => False

/-- There was a begin that nothing closed since. -/
def Open (es : List Event) : Prop := ∃ es₁ es₂, es = es₁ ++ .begun :: es₂ ∧ ∀ e ∈ es₂, ¬e.Closes

/-- An end that finds nothing open fails and submits nothing. -/
def Bracketed (es : List Event) : Prop := ∀ es₁ success submitted es₂,
  es = es₁ ++ .ended success submitted :: es₂ → ¬Open es₁ → success = false ∧ submitted = false

/-- Whether it is open after the event. -/
def next (isOpen : Bool) : Event → Bool
  | .reset => false
  | .begun => true
  | .ended success _ => isOpen && !success
  | .other => isOpen

/-- The event is allowed while it is open, or not. -/
def Respects (isOpen : Bool) : Event → Prop
  | .ended success submitted => isOpen = false → success = false ∧ submitted = false
  | _ => True

instance (isOpen : Bool) (e : Event) : Decidable (Respects isOpen e) := by
  unfold Respects
  split <;> infer_instance

theorem not_open_nil : ¬Open [] := by
  rintro ⟨es₁, es₂, he, -⟩
  cases es₁ <;> cases he

theorem open_begun (es : List Event) : Open (es ++ [.begun]) := ⟨es, [], rfl, by simp⟩

theorem open_concat {es : List Event} {e : Event} (he : e ≠ .begun) :
    Open (es ++ [e]) ↔ Open es ∧ ¬e.Closes := by
  constructor
  · rintro ⟨es₁, es₂, h, hc⟩
    obtain rfl | ⟨es₂, e', rfl⟩ := es₂.eq_nil_or_concat
    · exact absurd (List.append_inj' h rfl).2 (by simpa using he)
    · rw [List.concat_eq_append] at h hc
      rw [← List.cons_append, ← List.append_assoc] at h
      obtain ⟨rfl, he'⟩ := List.append_inj' h rfl
      obtain rfl : e = e' := by simpa using he'
      exact ⟨⟨es₁, es₂, rfl, fun e h => hc e (List.mem_append_left _ h)⟩, hc e (by simp)⟩
  · rintro ⟨⟨es₁, es₂, rfl, hc⟩, hn⟩
    refine ⟨es₁, es₂ ++ [e], by simp, fun e' h => ?_⟩
    obtain h | h := List.mem_append.mp h
    · exact hc e' h
    · obtain rfl := List.mem_singleton.mp h
      exact hn

/-- `next` follows what is open. -/
theorem next_iff {isOpen : Bool} {es : List Event} (h : isOpen = true ↔ Open es) (e : Event) :
    next isOpen e = true ↔ Open (es ++ [e]) := by
  cases e with
  | begun => exact iff_of_true rfl (open_begun es)
  | reset =>
    rw [open_concat (by simp)]
    exact iff_of_false (by simp [next]) fun hc => hc.2 trivial
  | other =>
    rw [open_concat (by simp), ← h]
    exact (and_iff_left id).symm
  | ended success submitted =>
    rw [open_concat (by simp), ← h]
    cases success <;> simp [next, Event.Closes]

end Bracket

namespace Lts

open Bracket

variable {σ α : Type*} (M : Lts σ α) (event : σ → α → Event)

/-- The events of a run. -/
def events (s : σ) : List α → List Event
  | [] => []
  | a :: as => event s a :: (M.step s a).elim [] fun s' => events s' as

/-- The system, with whether it is open. -/
def tracked : Lts (σ × Bool) α where
  init x := M.init x.1 ∧ x.2 = false
  step x a := (M.step x.1 a).map fun s' => (s', next x.2 (event x.1 a))

variable {M event}

theorem bracketed_cons {e : Event} {es pre : List Event} :
    (∀ es₁ success submitted es₂, e :: es = es₁ ++ .ended success submitted :: es₂ →
      ¬Open (pre ++ es₁) →
      success = false ∧ submitted = false) ↔
    (¬Open pre → ∀ success submitted, e = .ended success submitted →
      success = false ∧ submitted = false) ∧
      ∀ es₁ success submitted es₂, es = es₁ ++ .ended success submitted :: es₂ →
      ¬Open (pre ++ [e] ++ es₁) →
        success = false ∧ submitted = false := by
  constructor
  · intro h
    refine ⟨fun hn success submitted he => ?_, ?_⟩
    · exact h [] success submitted es (congrArg (· :: es) he) (by simpa using hn)
    intro es₁ success submitted es₂ he hn
    exact h (e :: es₁) success submitted es₂ (congrArg (e :: ·) he) (by simpa using hn)
  · rintro ⟨hhead, htail⟩ es₁ success submitted es₂ he hn
    cases es₁ with
    | nil =>
      obtain ⟨rfl, rfl⟩ := List.cons.inj he
      exact hhead (by simpa using hn) success submitted rfl
    | cons e' es₁ =>
      rw [List.cons_append, List.cons.injEq] at he
      obtain ⟨rfl, he⟩ := he
      exact htail es₁ success submitted es₂ he (by simpa using hn)

theorem respects_iff {isOpen : Bool} {pre : List Event} (h : isOpen = true ↔ Open pre) (e : Event) :
    Respects isOpen e ↔
      (¬Open pre → ∀ success submitted, e = .ended success submitted →
        success = false ∧ submitted = false) := by
  rw [← h, Bool.not_eq_true]
  cases e <;> simp [Respects]

/-- After the events `pre`, the events of a run go on to be bracketed exactly when each call
respects what is open. -/
theorem bracketed_iff_meets_from {isOpen : Bool} {pre : List Event} (h : isOpen = true ↔ Open pre)
    (s : σ) (as : List α) :
    (∀ es₁ success submitted es₂, M.events event s as = es₁ ++ .ended success submitted :: es₂ →
      ¬Open (pre ++ es₁) → success = false ∧ submitted = false) ↔
    (M.tracked event).Meets (fun x a => Respects x.2 (event x.1 a)) (s, isOpen) as := by
  induction as generalizing s isOpen pre with
  | nil => exact iff_of_true (fun es₁ _ _ _ he => by cases es₁ <;> cases he) trivial
  | cons a as ih =>
    rw [events, bracketed_cons, ← respects_iff h]
    have hnext := next_iff h (event s a)
    cases hs : M.step s a with
    | none =>
      rw [meets_of_none as (show (M.tracked event).step (s, isOpen) a = none by simp [tracked, hs])]
      refine and_iff_left ?_
      intro es₁ _ _ _ he
      cases es₁ <;> cases he
    | some s' =>
      rw [meets_of_some as (show (M.tracked event).step (s, isOpen) a = some (s',
        next isOpen (event s a)) by
        simp [tracked, hs])]
      exact and_congr_right fun _ => ih hnext s'

/-- The events of a run are bracketed exactly when each call respects what is open when it is
made. -/
theorem bracketed_iff_meets (s : σ) (as : List α) : Bracketed (M.events event s as) ↔
    (M.tracked event).Meets (fun x a => Respects x.2 (event x.1 a)) (s, false) as :=
  bracketed_iff_meets_from (show false = true ↔
    Open [] from iff_of_false (by simp) not_open_nil) s as

end Lts
