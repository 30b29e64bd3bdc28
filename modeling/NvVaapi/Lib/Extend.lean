import NvVaapi.Lib.Prog

/-!
# Functions on a larger state

* `Prog.onFst p`: the piece `p` on the first part of a state.
* `Prog.Extends p q`: `p` does to the first part of its state what `q` does, and goes on and returns
  with the same values. What it does to the second part is its own. The rules follow the
  construction of a function.
* `Extends.eval`: what a whole function returns.
-/

namespace Prog

variable {σ τ ε ρ α β : Type}

def onFst (p : Prog σ ε α) : Prog (σ × τ) ε α := fun s =>
  match p s.1 with
  | .goes a s' => .goes a (s', s.2)
  | .leaves e s' => .leaves e (s', s.2)
  | .stuck => .stuck

@[simp] theorem ensures_onFst (p : Prog σ ε α) {s : σ × τ} {Q : α → σ × τ → Prop}
    {E : ε → σ × τ → Prop} :
    p.onFst.Ensures s Q E ↔ p.Ensures s.1 (fun a s' => Q a (s', s.2)) fun e s' =>
      E e (s', s.2) := by
  unfold Ensures onFst
  cases p s.1 <;> rfl

/-- The outcome without the second part of the state. -/
def Outcome.fst : Outcome (σ × τ) ε α → Outcome σ ε α
  | .goes a s => .goes a s.1
  | .leaves e s => .leaves e s.1
  | .stuck => .stuck

def Extends (p : Prog (σ × τ) ε α) (q : Prog σ ε α) : Prop := ∀ s, (p s).fst = q s.1

namespace Extends

variable {p : Prog (σ × τ) ε α} {q : Prog σ ε α}

theorem onFst (q : Prog σ ε α) : (q.onFst : Prog (σ × τ) ε α).Extends q := by
  intro s
  unfold Prog.onFst
  cases q s.1 <;> rfl

theorem pure (a : α) : (Pure.pure a : Prog (σ × τ) ε α).Extends (Pure.pure a) := fun _ => rfl

theorem leave (e : ε) : (Prog.leave e : Prog (σ × τ) ε α).Extends (Prog.leave e) := fun _ => rfl

theorem bind {f : α → Prog (σ × τ) ε β} {k : α → Prog σ ε β} (hp : p.Extends q)
    (hf : ∀ a, (f a).Extends (k a)) : (p >>= f).Extends (q >>= k) := by
  intro s
  have hs := hp s
  unfold Bind.bind Monad.toBind instMonad
  dsimp only
  rw [← hs]
  cases p s with
  | goes a s' => exact hf a s'
  | leaves e s' => rfl
  | stuck => rfl

theorem ite {c : Prop} [Decidable c] {p' : Prog (σ × τ) ε α} {q' : Prog σ ε α} (hp : p.Extends q)
    (hp' : p'.Extends q') : (if c then p else p').Extends (if c then q else q') := by
  split
  · exact hp
  · exact hp'

/-- An early exit, and what follows when it is not taken. -/
theorem exit {c : Prop} [Decidable c] {p : Prog (σ × τ) ε Unit} {q : Prog σ ε Unit}
    {f : Unit → Prog (σ × τ) ε β} {k : Unit → Prog σ ε β} (hp : p.Extends q)
    (hf : (f ()).Extends (k ())) :
    (if c then p >>= f else f ()).Extends (if c then q >>= k else k ()) :=
  .ite (hp.bind fun _ => hf) hf

/-- A change of the second part only. -/
theorem after {f : σ × τ → σ × τ} (h : ∀ s, (f s).1 = s.1) (hp : p.Extends q) :
    (update f >>= fun _ => p).Extends q := by
  intro s
  show (p (f s)).fst = q s.1
  rw [hp, h]

/-- A whole function returns what the other one does. -/
theorem eval {p : Prog (σ × τ) ρ ρ} {q : Prog σ ρ ρ} (h : p.Extends q) (s : σ × τ) :
    (p.eval s).map (fun x => (x.1, x.2.1)) = q.eval s.1 := by
  have hs := h s
  unfold Prog.eval
  rw [← hs]
  cases p s <;> rfl

end Extends

end Prog
