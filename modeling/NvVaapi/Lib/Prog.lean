import Mathlib.Logic.Basic
import Mathlib.Data.UInt

/-!
# Functions with early returns

* `Prog σ ε α`: a piece of a function over the state `σ`. It goes on with a value of `α`, or the
  function returns `ε` from inside it, or it is stuck: it never returns, or what it does has no
  meaning.
* `Prog.Ensures p s Q E`: from `s`, `p` can only go on in a state with `Q` or return in one with
  `E`.
* A `simp` rule of `Ensures` for each construct, so that it can be computed along a function, and
  `Ensures.forEach` for a loop with an invariant.
* `Prog.Ends p s`: from `s`, `p` is not stuck, so that a whole function returns (`Ends.returns`).
* `Prog.Keeps p I`: `p` ensures an invariant, given it. Its rules follow the construction of a
  function.
* `Prog.Returns f s R`: a whole function can only return what `R` says. `Prog.eval` is what it
  returns.
-/

inductive Prog.Outcome (σ ε α : Type) where
  | goes (a : α) (s : σ)
  | leaves (e : ε) (s : σ)
  | stuck

def Prog (σ ε α : Type) := σ → Prog.Outcome σ ε α

namespace Prog

variable {σ ε ρ α β ι : Type}

instance : Monad (Prog σ ε) where
  pure a := fun s => .goes a s
  bind p f := fun s =>
    match p s with
    | .goes a s => f a s
    | .leaves e s => .leaves e s
    | .stuck => .stuck

/-- The state. -/
def read : Prog σ ε σ := fun s => .goes s s

def update (f : σ → σ) : Prog σ ε Unit := fun s => .goes () (f s)

/-- `return e` -/
def leave (e : ε) : Prog σ ε α := fun s => .leaves e s

/-- Go on with the value, if there is one. -/
def need (o : Option α) : Prog σ ε α := fun s =>
  match o with
  | some a => .goes a s
  | none => .stuck

/-- Go on only if `c` holds of the state. -/
def wait (c : σ → Prop) [DecidablePred c] : Prog σ ε Unit :=
  fun s => if c s then .goes () s else .stuck

/-- Call a function, which goes on with what it returns. -/
def call (f : Prog σ ρ ρ) : Prog σ ε ρ := fun s =>
  match f s with
  | .goes r s => .goes r s
  | .leaves r s => .goes r s
  | .stuck => .stuck

/-- One turn after the other. -/
def forEach : List ι → (ι → Prog σ ε Unit) → Prog σ ε Unit
  | [], _ => pure ()
  | i :: is, f => do
    f i
    forEach is f

/-- What a function returns, with the state in which it does. -/
def eval (f : Prog σ ρ ρ) (s : σ) : Option (ρ × σ) :=
  match f s with
  | .goes r s => some (r, s)
  | .leaves r s => some (r, s)
  | .stuck => none

/-! ## What a piece ensures -/

/-- From `s`, `p` goes on only in `Q` and returns only in `E`. -/
def Ensures (p : Prog σ ε α) (s : σ) (Q : α → σ → Prop) (E : ε → σ → Prop) : Prop :=
  match p s with
  | .goes a s => Q a s
  | .leaves e s => E e s
  | .stuck => True

section Rules

variable {s : σ} {Q Q' : α → σ → Prop} {R : β → σ → Prop} {E E' : ε → σ → Prop}

@[simp] theorem ensures_pure (a : α) : (pure a : Prog σ ε α).Ensures s Q E ↔ Q a s := Iff.rfl

@[simp] theorem ensures_bind (p : Prog σ ε α) (f : α → Prog σ ε β) :
    (p >>= f).Ensures s R E ↔ p.Ensures s (fun a s' => (f a).Ensures s' R E) E := by
  show (match (match p s with
      | .goes a s => f a s | .leaves e s => .leaves e s | .stuck => .stuck) with
    | .goes b s => R b s | .leaves e s => E e s | .stuck => True) ↔ _
  unfold Ensures
  cases p s <;> rfl

@[simp] theorem ensures_map (p : Prog σ ε α) (f : α → β) :
    (f <$> p).Ensures s R E ↔ p.Ensures s (fun a s' => R (f a) s') E :=
  ensures_bind p fun a => pure (f a)

@[simp] theorem ensures_read {Q : σ → σ → Prop} :
    (read : Prog σ ε σ).Ensures s Q E ↔ Q s s := Iff.rfl

@[simp] theorem ensures_update (f : σ → σ) {Q : Unit → σ → Prop} :
    (update f : Prog σ ε Unit).Ensures s Q E ↔ Q () (f s) := Iff.rfl

@[simp] theorem ensures_leave (e : ε) : (leave e : Prog σ ε α).Ensures s Q E ↔ E e s := Iff.rfl

@[simp] theorem ensures_need (o : Option α) :
    (need o : Prog σ ε α).Ensures s Q E ↔ ∀ a, o = some a → Q a s := by
  unfold Ensures need
  cases o <;> simp

@[simp] theorem ensures_wait (c : σ → Prop) [DecidablePred c] {Q : Unit → σ → Prop} :
    (wait c : Prog σ ε Unit).Ensures s Q E ↔ (c s → Q () s) := by
  unfold Ensures wait
  by_cases h : c s <;> simp [h]

@[simp] theorem ensures_call (f : Prog σ ρ ρ) {Q : ρ → σ → Prop} :
    (call f : Prog σ ε ρ).Ensures s Q E ↔ f.Ensures s Q Q := by
  unfold Ensures call
  cases f s <;> rfl

@[simp] theorem ensures_ite (c : Prop) [Decidable c] (p q : Prog σ ε α) :
    (if c then p else q).Ensures s Q E ↔ (c → p.Ensures s Q E) ∧ (¬c → q.Ensures s Q E) := by
  by_cases h : c <;> simp [h]

@[simp] theorem ensures_forEach_nil (f : ι → Prog σ ε Unit) {Q : Unit → σ → Prop} :
    (forEach [] f).Ensures s Q E ↔ Q () s := Iff.rfl

@[simp] theorem ensures_forEach_cons (i : ι) (is : List ι) (f : ι → Prog σ ε Unit)
    {Q : Unit → σ → Prop} : (forEach (i :: is) f).Ensures s Q E ↔
      (f i).Ensures s (fun _ s' => (forEach is f).Ensures s' Q E) E :=
  ensures_bind (f i) fun _ => forEach is f

@[simp] theorem ensures_true (p : Prog σ ε α) : p.Ensures s (fun _ _ => True) fun _ _ => True := by
  unfold Ensures
  cases p s <;> trivial

theorem Ensures.mono {p : Prog σ ε α} (h : p.Ensures s Q E) (hq : ∀ a s', Q a s' → Q' a s')
    (he : ∀ e s', E e s' → E' e s') : p.Ensures s Q' E' := by
  unfold Ensures at *
  cases hp : p s with
  | goes a s' => exact hq a s' (by simpa [hp] using h)
  | leaves e s' => exact he e s' (by simpa [hp] using h)
  | stuck => trivial

theorem Ensures.and {p : Prog σ ε α} (h : p.Ensures s Q E) (h' : p.Ensures s Q' E') :
    p.Ensures s (fun a s' => Q a s' ∧ Q' a s') fun e s' => E e s' ∧ E' e s' := by
  unfold Ensures at *
  cases hp : p s with
  | goes a s' => exact ⟨by simpa [hp] using h, by simpa [hp] using h'⟩
  | leaves e s' => exact ⟨by simpa [hp] using h, by simpa [hp] using h'⟩
  | stuck => trivial

/-- A loop keeps what each of its turns keeps. -/
theorem Ensures.forEach {f : ι → Prog σ ε Unit} {I : σ → Prop} {is : List ι} (h0 : I s)
    (hf : ∀ i ∈ is, ∀ s', I s' → (f i).Ensures s' (fun _ => I) E) :
    (Prog.forEach is f).Ensures s (fun _ => I) E := by
  induction is generalizing s with
  | nil => exact h0
  | cons i is ih =>
    rw [ensures_forEach_cons]
    exact (hf i (by simp) s h0).mono (fun _ s' h => ih h fun j hj => hf j (by simp [hj]))
      fun _ _ h => h

end Rules

/-! ## Pieces that are not stuck -/

/-- From `s`, `p` goes on or returns. -/
def Ends (p : Prog σ ε α) (s : σ) : Prop := p s ≠ .stuck

section Ends

variable {s : σ}

@[simp] theorem ends_pure (a : α) : (pure a : Prog σ ε α).Ends s := nofun

@[simp] theorem ends_read : (read : Prog σ ε σ).Ends s := nofun

@[simp] theorem ends_update (f : σ → σ) : (update f : Prog σ ε Unit).Ends s := nofun

@[simp] theorem ends_leave (e : ε) : (leave e : Prog σ ε α).Ends s := nofun

@[simp] theorem ends_bind (p : Prog σ ε α) (f : α → Prog σ ε β) : (p >>= f).Ends s ↔
    p.Ends s ∧ p.Ensures s (fun a s' => (f a).Ends s') fun _ _ => True := by
  show (match p s with
    | .goes a s => f a s | .leaves e s => .leaves e s | .stuck => .stuck) ≠ .stuck ↔ _
  unfold Ends Ensures
  cases p s <;> simp

@[simp] theorem ends_call (f : Prog σ ρ ρ) : (call f : Prog σ ε ρ).Ends s ↔ f.Ends s := by
  unfold Ends call
  cases f s <;> simp

@[simp] theorem ends_ite (c : Prop) [Decidable c] (p q : Prog σ ε α) :
    (if c then p else q).Ends s ↔ (c → p.Ends s) ∧ (¬c → q.Ends s) := by
  by_cases h : c <;> simp [h]

/-- A loop ends when its turns do, from any state. -/
theorem ends_forEach {f : ι → Prog σ ε Unit} (h : ∀ i s, (f i).Ends s) (is : List ι) :
    (forEach is f).Ends s := by
  induction is generalizing s with
  | nil => exact ends_pure ()
  | cons i is ih =>
    refine (ends_bind _ _).mpr ⟨h i s, ?_⟩
    exact (ensures_true (f i)).mono (fun _ _ _ => ih) fun _ _ _ => trivial

/-- A piece that is not stuck and never returns goes on. -/
theorem Ensures.goes {p : Prog σ ε α} {Q : α → σ → Prop} (h : p.Ensures s Q fun _ _ => False)
    (he : p.Ends s) : ∃ a s', p s = .goes a s' ∧ Q a s' := by
  unfold Ensures Ends at *
  cases hp : p s with
  | goes a s' => exact ⟨a, s', rfl, by simpa [hp] using h⟩
  | leaves e s' => simp [hp] at h
  | stuck => exact absurd hp he

end Ends

/-! ## Invariants -/

section Invariants

variable {s : σ} {I : σ → Prop}

/-- `p` keeps `I`, whether it goes on or returns. -/
def Keeps (p : Prog σ ε α) (I : σ → Prop) : Prop := ∀ s, I s → p.Ensures s (fun _ => I) fun _ => I

/-- What follows on a piece that keeps `I` may rely on it. -/
theorem Keeps.ensures {p : Prog σ ε α} {Q : α → σ → Prop} (h : p.Keeps I) (hs : I s)
    (hq : ∀ a s', I s' → Q a s') : p.Ensures s Q fun _ => I :=
  (h s hs).mono hq fun _ _ hi => hi

theorem Keeps.pure (a : α) : (Pure.pure a : Prog σ ε α).Keeps I := fun _ hs => hs

theorem Keeps.leave (e : ε) : (leave e : Prog σ ε α).Keeps I := fun _ hs => hs

theorem Keeps.read : (read : Prog σ ε σ).Keeps I := fun _ hs => hs

theorem Keeps.update {f : σ → σ} (h : ∀ s, I s → I (f s)) : (update f : Prog σ ε Unit).Keeps I := h

theorem Keeps.need (o : Option α) : (need o : Prog σ ε α).Keeps I :=
  fun _ hs => (ensures_need o).mpr fun _ _ => hs

theorem Keeps.wait (c : σ → Prop) [DecidablePred c] : (wait c : Prog σ ε Unit).Keeps I :=
  fun _ hs => (ensures_wait c).mpr fun _ => hs

theorem Keeps.bind {p : Prog σ ε α} {f : α → Prog σ ε β} (hp : p.Keeps I)
    (hf : ∀ a, (f a).Keeps I) : (p >>= f).Keeps I :=
  fun _ hs => (ensures_bind p f).mpr (hp.ensures hs fun a s' hi => hf a s' hi)

/-- Nothing follows on an exit. -/
theorem Keeps.left (e : ε) (f : α → Prog σ ε β) : (Prog.leave e >>= f).Keeps I := fun _ hs => hs

/-- An early exit, and what follows when it is not taken. -/
theorem Keeps.exit {c : Prop} [Decidable c] {p : Prog σ ε Unit} {f : Unit → Prog σ ε β}
    (hp : p.Keeps I) (hf : (f ()).Keeps I) : (if c then p >>= f else f ()).Keeps I := by
  split
  · exact hp.bind fun _ => hf
  · exact hf

theorem Keeps.ite {c : Prop} [Decidable c] {p q : Prog σ ε α} (hp : p.Keeps I) (hq : q.Keeps I) :
    (if c then p else q).Keeps I := by
  split
  · exact hp
  · exact hq

theorem Keeps.forEach {f : ι → Prog σ ε Unit} {is : List ι} (h : ∀ i ∈ is, (f i).Keeps I) :
    (Prog.forEach is f).Keeps I :=
  fun _ hs => Ensures.forEach hs h

theorem Keeps.call {f : Prog σ ρ ρ} (h : f.Keeps I) : (call f : Prog σ ε ρ).Keeps I :=
  fun s hs => (ensures_call f).mpr (h s hs)

end Invariants

/-! ## Whole functions -/

section Functions

variable {f : Prog σ ρ ρ} {s s' : σ} {R R' : ρ → σ → Prop} {r : ρ}

/-- A function that is not stuck returns, and what it returns is what `R` says. -/
theorem Ends.returns {f : Prog σ ρ ρ} (h : f.Ends s) (hr : f.Ensures s R R) :
    ∃ r s', f.eval s = some (r, s') ∧ R r s' := by
  unfold Ends Ensures eval at *
  cases hf : f s with
  | goes r s' => exact ⟨r, s', rfl, by simpa [hf] using hr⟩
  | leaves r s' => exact ⟨r, s', rfl, by simpa [hf] using hr⟩
  | stuck => exact absurd hf h

/-- From `s`, the function returns only what `R` says. -/
def Returns (f : Prog σ ρ ρ) (s : σ) (R : ρ → σ → Prop) : Prop := f.Ensures s R R

theorem returns_iff : f.Returns s R ↔ ∀ r s', f.eval s = some (r, s') → R r s' := by
  unfold Returns Ensures eval
  cases f s <;> simp +contextual

theorem Returns.eval (h : f.Returns s R) (he : f.eval s = some (r, s')) : R r s' :=
  returns_iff.mp h r s' he

theorem Returns.mono (h : f.Returns s R) (hr : ∀ r s', R r s' → R' r s') : f.Returns s R' :=
  Ensures.mono h hr hr

end Functions

end Prog
