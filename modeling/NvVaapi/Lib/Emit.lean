import Mathlib.Data.List.Basic
import Mathlib.Data.UInt

/-!
# Programs that fill a buffer

A program of `Emit.Prog ι α` writes one allocated buffer through a pointer that it moves forward,
reads regions named by `ι`, and may give up. The buffer is monitored: `written` is one past the
highest offset that was ever written, also by a piece that was abandoned, and `marks r` is how far
region `r` was ever read.

* `Does K m r bs w`: whatever the buffer, `m` gives `r`, adds `bs` to it, writes up to `w` bytes
  past the pointer it starts from, and reads within the bounds `K`. It composes (`Does.bind`,
  `Does.forM`, `Does.attempt`), so that a program is replaced by what it writes.
* `Reads K m r` is the case of a program that writes nothing: a checking loop is replaced by the
  plain loop that it computes (`Reads.foldlM`, `Reads.anyM`).
-/

namespace Emit

/-- A monitored buffer. `bytes` are the ones in front of the pointer, `cap` is the size of the
allocation. -/
structure Buf (ι : Type) where
  bytes : List UInt8
  cap : Nat
  written : Nat
  marks : ι → Nat
  length_le : bytes.length ≤ written

theorem length_nil_le : ([] : List UInt8).length ≤ 0 := Nat.le_refl 0

/-- Nothing is allocated, written or read yet. -/
def Buf.start {ι : Type} : Buf ι := ⟨[], 0, 0, fun _ => 0, length_nil_le⟩

/-- A program with a result of type `α`, or with none when it gives up. -/
def Prog (ι α : Type) : Type := Buf ι → Option α × Buf ι

namespace Prog

variable {ι α β : Type}

/-- `m`, and then `f` on its result. -/
protected def bind (m : Prog ι α) (f : α → Prog ι β) : Prog ι β := fun b =>
  match m b with
  | (some a, b') => f a b'
  | (none, b') => (none, b')

instance : Monad (Prog ι) where
  pure a := fun b => (some a, b)
  bind := Prog.bind

theorem bind_of_some {m : Prog ι α} {f : α → Prog ι β} {b b' : Buf ι} {a : α}
    (h : m b = (some a, b')) : (m >>= f) b = f a b' := by
  change Prog.bind m f b = _
  rw [Prog.bind, h]

theorem bind_of_none {m : Prog ι α} {f : α → Prog ι β} {b b' : Buf ι} (h : m b = (none, b')) :
    (m >>= f) b = (none, b') := by
  change Prog.bind m f b = _
  rw [Prog.bind, h]

end Prog

variable {ι α β σ : Type}

/-- Give up. -/
def fail : Prog ι α := fun b => (none, b)

/-- Allocate the buffer, with `n` bytes. -/
def alloc (n : Nat) : Prog ι Unit := fun b =>
  (some (), { b with bytes := [], cap := n, length_le := Nat.zero_le _ })

/-- The buffer after `bs` were added, when `w` bytes past the pointer were touched on the way. -/
def Buf.put (b : Buf ι) (bs : List UInt8) (w : Nat) : Buf ι :=
  { b with
    bytes := b.bytes ++ bs
    written := max b.written (b.bytes.length + max bs.length w)
    length_le := by rw [List.length_append]; omega }

/-- Write `bs` and move the pointer behind them. -/
def emit (bs : List UInt8) : Prog ι Unit := fun b => (some (), b.put bs 0)

/-- The buffer with other marks. -/
def Buf.mark (b : Buf ι) (marks : ι → Nat) : Buf ι := { b with marks := marks }

/-- Read the region `r` up to `n`. -/
def touch [DecidableEq ι] (r : ι) (n : Nat) : Prog ι Unit := fun b =>
  (some (), b.mark fun i => if i = r then max (b.marks i) n else b.marks i)

/-- The bytes in front of the pointer. -/
def sofar : Prog ι (List UInt8) := fun b => (some b.bytes, b)

/-- Run `m` on a copy of the pointer, which is taken over only when `m` succeeds. -/
def attempt (m : Prog ι Unit) : Prog ι Bool := fun b =>
  match m b with
  | (some (), b') => (some true, b')
  | (none, b') =>
    (some false, { b' with
      bytes := b.bytes
      written := max b.written b'.written
      length_le := Nat.le_trans b.length_le (Nat.le_max_left _ _) })

/-- Give up unless `c` holds. -/
def require (c : Prop) [Decidable c] : Prog ι Unit := if c then pure () else fail

/-! ## The buffer after a write -/

section Put

variable (b : Buf ι) (bs : List UInt8) (w : Nat)

@[simp] theorem Buf.put_bytes : (b.put bs w).bytes = b.bytes ++ bs := rfl

@[simp] theorem Buf.put_cap : (b.put bs w).cap = b.cap := rfl

@[simp] theorem Buf.put_written :
    (b.put bs w).written = max b.written (b.bytes.length + max bs.length w) := rfl

@[simp] theorem Buf.put_marks : (b.put bs w).marks = b.marks := rfl

@[simp] theorem Buf.mark_bytes (marks : ι → Nat) : (b.mark marks).bytes = b.bytes := rfl

@[simp] theorem Buf.mark_cap (marks : ι → Nat) : (b.mark marks).cap = b.cap := rfl

@[simp] theorem Buf.mark_written (marks : ι → Nat) : (b.mark marks).written = b.written := rfl

@[simp] theorem Buf.mark_marks (marks : ι → Nat) : (b.mark marks).marks = marks := rfl

end Put

theorem Buf.ext' {b b' : Buf ι} (hb : b.bytes = b'.bytes) (hc : b.cap = b'.cap)
    (hw : b.written = b'.written) (hm : b.marks = b'.marks) : b = b' := by
  cases b
  cases b'
  simp_all

theorem Buf.put_nil (b : Buf ι) : b.put [] 0 = b := by
  have := b.length_le
  exact Buf.ext' (by simp) rfl (by simp; omega) rfl

theorem Buf.put_put (b : Buf ι) (xs ys : List UInt8) (w w' : Nat) (marks marks' : ι → Nat) :
    (((b.put xs w).mark marks).put ys w').mark marks' =
      (b.put (xs ++ ys) (max w (xs.length + w'))).mark marks' := by
  refine Buf.ext' (by simp) rfl ?_ rfl
  have htouched : max (max xs.length w) (xs.length + max ys.length w') =
      max (xs.length + ys.length) (max w (xs.length + w')) := by omega
  simp only [Buf.mark_written, Buf.put_written, Buf.mark_bytes, Buf.put_bytes, List.length_append,
    Nat.max_assoc, Nat.add_assoc, Nat.add_max_add_left, htouched]

/-! ## What a program does -/

/-- Whatever the buffer, `m` gives `r` and adds `bs`. On the way it touches at most `w` bytes past
the pointer, besides the ones that it adds, and reads up to `K`. -/
def Does (K : ι → Nat) (m : Prog ι α) (r : Option α) (bs : List UInt8) (w : Nat) : Prop :=
  ∀ b : Buf ι, ∃ marks : ι → Nat, m b = (r, (b.put bs w).mark marks) ∧
    ∀ i, marks i ≤ max (b.marks i) (K i)

/-- `m` writes nothing, reads at most up to `K`, and gives `r`. -/
def Reads (K : ι → Nat) (m : Prog ι α) (r : Option α) : Prop := Does K m r [] 0

/-- `m` succeeds and writes `bs`. -/
def Writes (K : ι → Nat) (m : Prog ι Unit) (bs : List UInt8) : Prop := Does K m (some ()) bs 0

variable {K : ι → Nat}

namespace Does

theorem emit (bs : List UInt8) : Does K (emit bs : Prog ι Unit) (some ()) bs 0 :=
  fun b => ⟨b.marks, rfl, fun _ => Nat.le_max_left _ _⟩

theorem bind {m : Prog ι α} {f : α → Prog ι β} {a : α} {r : Option β} {xs ys : List UInt8}
    {w w' : Nat} (hm : Does K m (some a) xs w) (hf : Does K (f a) r ys w') :
    Does K (m >>= f) r (xs ++ ys) (max w (xs.length + w')) := by
  intro b
  obtain ⟨k₁, h₁, hk₁⟩ := hm b
  obtain ⟨k₂, h₂, hk₂⟩ := hf ((b.put xs w).mark k₁)
  refine ⟨k₂, ?_, fun i => ?_⟩
  · rw [Prog.bind_of_some h₁, h₂, Buf.put_put]
  · have ha := hk₁ i
    have hb := hk₂ i
    simp only [Buf.mark_marks] at hb
    omega

theorem bind_none {m : Prog ι α} {f : α → Prog ι β} {xs : List UInt8} {w : Nat}
    (hm : Does K m none xs w) : Does K (m >>= f) none xs w := by
  intro b
  obtain ⟨k, h, hk⟩ := hm b
  exact ⟨k, Prog.bind_of_none h, hk⟩

/-- More room on the way. -/
theorem congr {m : Prog ι α} {r : Option α} {xs ys : List UInt8} {w w' : Nat}
    (hm : Does K m r xs w) (hb : xs = ys) (hw : max xs.length w = max ys.length w') :
    Does K m r ys w' := by
  subst hb
  intro b
  obtain ⟨k, h, hk⟩ := hm b
  refine ⟨k, h.trans (congrArg _ ?_), hk⟩
  exact Buf.ext' rfl rfl (by simp only [Buf.mark_written, Buf.put_written, hw]) rfl

theorem of_eq {m : Prog ι α} {r r' : Option α} {xs : List UInt8} {w : Nat}
    (hm : Does K m r xs w) (hr : r = r') : Does K m r' xs w := hr ▸ hm

theorem mono {K' : ι → Nat} {m : Prog ι α} {r : Option α} {xs : List UInt8} {w : Nat}
    (hm : Does K m r xs w) (hK : ∀ i, K i ≤ K' i) : Does K' m r xs w := by
  intro b
  obtain ⟨k, h, hk⟩ := hm b
  refine ⟨k, h, fun i => ?_⟩
  have h₁ := hk i
  have h₂ := hK i
  omega

/-- An attempt that succeeds is the program. -/
theorem attempt_some {m : Prog ι Unit} {bs : List UInt8} {w : Nat}
    (hm : Does K m (some ()) bs w) : Does K (attempt m) (some true) bs w := by
  intro b
  obtain ⟨k, h, hk⟩ := hm b
  exact ⟨k, by rw [attempt, h], hk⟩

/-- An attempt that gives up adds nothing, but what it wrote was touched. -/
theorem attempt_none {m : Prog ι Unit} {bs : List UInt8} {w : Nat}
    (hm : Does K m none bs w) : Does K (attempt m) (some false) [] (max bs.length w) := by
  intro b
  obtain ⟨k, h, hk⟩ := hm b
  refine ⟨k, ?_, hk⟩
  have hw : max b.written (max b.written (b.bytes.length + max bs.length w)) =
      max b.written (b.bytes.length + max ([] : List UInt8).length (max bs.length w)) := by
    rw [List.length_nil]
    omega
  rw [attempt, h]
  exact congrArg (Prod.mk _) (Buf.ext' (by simp) rfl hw rfl)

end Does

namespace Reads

theorem pure (a : α) : Reads K (Pure.pure a : Prog ι α) (some a) := fun b =>
  ⟨b.marks, by rw [Buf.put_nil]; rfl, fun _ => Nat.le_max_left _ _⟩

theorem fail : Reads K (fail : Prog ι α) none := fun b =>
  ⟨b.marks, by rw [Buf.put_nil]; rfl, fun _ => Nat.le_max_left _ _⟩

theorem require (c : Prop) [Decidable c] :
    Reads K (require c : Prog ι Unit) (if c then some () else none) := by
  unfold Emit.require
  split
  · exact pure ()
  · exact fail

theorem touch [DecidableEq ι] {r : ι} {n : Nat} (h : n ≤ K r) :
    Reads K (touch r n : Prog ι Unit) (some ()) := by
  refine fun b => ⟨_, by rw [Buf.put_nil]; rfl, fun i => ?_⟩
  split
  · next hi =>
    subst hi
    omega
  · exact Nat.le_max_left _ _

theorem bind {m : Prog ι α} {f : α → Prog ι β} {r : Option α} {g : α → Option β}
    (hm : Reads K m r) (hf : ∀ a, r = some a → Reads K (f a) (g a)) :
    Reads K (m >>= f) (r.bind g) := by
  cases r with
  | none => exact Does.bind_none hm
  | some a => exact (Does.bind hm (hf a rfl)).congr rfl (by simp)

theorem of_eq {m : Prog ι α} {r r' : Option α} (hm : Reads K m r) (h : r = r') : Reads K m r' :=
  h ▸ hm

theorem bind_does {m : Prog ι α} {f : α → Prog ι β} {a : α} {r : Option β} {bs : List UInt8}
    {w : Nat} (hm : Reads K m (some a)) (hf : Does K (f a) r bs w) : Does K (m >>= f) r bs w :=
  (Does.bind hm hf).congr rfl (by simp)

theorem bind_some {m : Prog ι α} {f : α → Prog ι β} {a : α} {r : Option β}
    (hm : Reads K m (some a)) (hf : Reads K (f a) r) : Reads K (m >>= f) r :=
  bind_does hm hf

/-- A test, and then what runs when it holds. -/
theorem require_bind {c : Prop} [Decidable c] {f : Unit → Prog ι β} {r : Option β}
    (hf : c → Reads K (f ()) r) (hn : ¬ c → r = none) : Reads K (Emit.require c >>= f) r := by
  by_cases hc : c
  · exact bind_some ((require c).of_eq (if_pos hc)) (hf hc)
  · rw [hn hc]
    exact Does.bind_none ((require c).of_eq (if_neg hc))

theorem touch_bind [DecidableEq ι] {i : ι} {n : Nat} {f : Unit → Prog ι β} {r : Option β}
    (h : n ≤ K i) (hf : Reads K (f ()) r) : Reads K (Emit.touch i n >>= f) r :=
  bind_some (touch h) hf

/-- A loop that reads computes the loop of its results. -/
theorem foldlM {xs : List β} {f : σ → β → Prog ι σ} {g : σ → β → Option σ} (s : σ)
    (h : ∀ s, ∀ x ∈ xs, Reads K (f s x) (g s x)) :
    Reads K (xs.foldlM f s) (xs.foldlM g s) := by
  induction xs generalizing s with
  | nil => exact pure s
  | cons x xs ih =>
    rw [List.foldlM_cons, List.foldlM_cons]
    exact bind (h s x (List.mem_cons_self ..)) fun s' _ =>
      ih s' fun s x hx => h s x (List.mem_cons_of_mem _ hx)

/-- A search that reads finds what the plain search finds. -/
theorem anyM {xs : List β} {f : β → Prog ι Bool} {g : β → Bool}
    (h : ∀ x ∈ xs, Reads K (f x) (some (g x))) :
    Reads K (xs.anyM f) (some (xs.any g)) := by
  induction xs with
  | nil => exact pure false
  | cons x xs ih =>
    have hx := h x (List.mem_cons_self ..)
    have hxs := ih fun y hy => h y (List.mem_cons_of_mem _ hy)
    have hu : (x :: xs).anyM f = f x >>= fun c => if c then Pure.pure true else xs.anyM f := by
      simp only [List.anyM]
      congr 1
      funext c
      cases c <;> rfl
    rw [hu, List.any_cons]
    refine bind hx (g := fun c => some (c || xs.any g)) fun c _ => ?_
    cases c
    · exact hxs
    · exact pure true

end Reads

namespace Writes

theorem emit (bs : List UInt8) : Writes K (emit bs) bs := Does.emit bs

theorem nil : Writes K (pure () : Prog ι Unit) [] := Reads.pure ()

theorem bind {m : Prog ι Unit} {f : Unit → Prog ι Unit} {xs ys : List UInt8}
    (hm : Writes K m xs) (hf : Writes K (f ()) ys) : Writes K (m >>= f) (xs ++ ys) :=
  (Does.bind hm hf).congr rfl (by simp)

theorem bind_reads {m : Prog ι α} {f : α → Prog ι Unit} {a : α} {ys : List UInt8}
    (hm : Reads K m (some a)) (hf : Writes K (f a) ys) : Writes K (m >>= f) ys :=
  Reads.bind_does hm hf

theorem bind_does {m : Prog ι Unit} {f : Unit → Prog ι α} {r : Option α} {xs ys : List UInt8}
    {w : Nat} (hm : Writes K m xs) (hf : Does K (f ()) r ys w) :
    Does K (m >>= f) r (xs ++ ys) (xs.length + w) :=
  (Does.bind hm hf).congr rfl (by simp only [List.length_append]; omega)

theorem of_eq {m : Prog ι Unit} {xs ys : List UInt8} (hm : Writes K m xs) (h : xs = ys) :
    Writes K m ys := h ▸ hm

/-- A loop of writes. -/
theorem forM {xs : List α} {f : α → Prog ι Unit} {g : α → List UInt8}
    (h : ∀ x ∈ xs, Writes K (f x) (g x)) : Writes K (forM xs f) (xs.flatMap g) := by
  induction xs with
  | nil => exact nil
  | cons x xs ih =>
    rw [List.forM_cons, List.flatMap_cons]
    exact bind (h x (List.mem_cons_self ..)) (ih fun y hy => h y (List.mem_cons_of_mem _ hy))

end Writes

/-- A loop whose turns write or, where `p` fails, give up without writing. -/
theorem Does.forM_guard {xs : List α} {f : α → Prog ι Unit} {p : α → Prop} [DecidablePred p]
    {g : α → List UInt8} (ht : ∀ x ∈ xs, p x → Writes K (f x) (g x))
    (hf : ∀ x ∈ xs, ¬ p x → Reads K (f x) none) :
    Does K (ForM.forM xs f) (if ∀ x ∈ xs, p x then some () else none)
      ((xs.takeWhile p).flatMap g) 0 := by
  induction xs with
  | nil => exact Writes.nil
  | cons x xs ih =>
    have ih := ih (fun y hy => ht y (List.mem_cons_of_mem _ hy))
      fun y hy => hf y (List.mem_cons_of_mem _ hy)
    have hmem := List.mem_cons_self (a := x) (l := xs)
    rw [List.forM_cons]
    by_cases hx : p x
    · simp only [List.forall_mem_cons, hx, true_and, List.takeWhile_cons, decide_true, if_true,
        List.flatMap_cons]
      exact (Writes.bind_does (ht x hmem hx) ih).congr rfl (by simp)
    · simp only [List.forall_mem_cons, hx, false_and, List.takeWhile_cons, decide_false, if_false,
        List.flatMap_nil, Bool.false_eq_true]
      exact Does.bind_none (hf x hmem hx)

/-- Room that was touched by a piece without effect and is written over later. -/
theorem Writes.cover {m : Prog ι α} {f : α → Prog ι Unit} {a : α} {ys : List UInt8} {w : Nat}
    (hm : Does K m (some a) [] w) (hf : Writes K (f a) ys) (hw : w ≤ ys.length) :
    Writes K (m >>= f) ys :=
  (Does.bind hm hf).congr (List.nil_append ys) (by
    simp only [List.nil_append, List.length_nil]
    omega)

/-- `m` succeeds exactly when `p` holds, and either way it writes at most `n` bytes. -/
def AtMost (K : ι → Nat) (m : Prog ι Unit) (p : Prop) (n : Nat) : Prop :=
  ∃ r bs, Does K m r bs 0 ∧ (r = some () ↔ p) ∧ bs.length ≤ n

theorem AtMost.bind {m : Prog ι Unit} {f : Unit → Prog ι Unit} {p q : Prop} {a b : Nat}
    (hm : AtMost K m p a) (hf : AtMost K (f ()) q b) : AtMost K (m >>= f) (p ∧ q) (a + b) := by
  obtain ⟨r, xs, hm, hp, ha⟩ := hm
  obtain ⟨r', ys, hf, hq, hb⟩ := hf
  cases r with
  | none =>
    have hp : ¬ p := fun h => nomatch hp.mpr h
    exact ⟨none, xs, Does.bind_none hm, by simp [hp], by omega⟩
  | some u =>
    refine ⟨r', xs ++ ys, (Does.bind hm hf).congr rfl (by simp), ?_, ?_⟩
    · rw [hq, iff_and_self]
      exact fun _ => hp.mp rfl
    · rw [List.length_append]
      omega

theorem AtMost.forM {xs : List α} {f : α → Prog ι Unit} {p : α → Prop} {n : Nat}
    (h : ∀ x ∈ xs, AtMost K (f x) (p x) n) :
    AtMost K (ForM.forM xs f) (∀ x ∈ xs, p x) (xs.length * n) := by
  induction xs with
  | nil => exact ⟨some (), [], Writes.nil, by simp, by simp⟩
  | cons x xs ih =>
    obtain ⟨r, bs, hd, hr, hl⟩ := AtMost.bind (h x (List.mem_cons_self ..))
      (f := fun _ => ForM.forM xs f) (ih fun y hy => h y (List.mem_cons_of_mem _ hy))
    refine ⟨r, bs, ?_, by rwa [List.forall_mem_cons], by rw [List.length_cons, Nat.add_mul]; omega⟩
    rwa [List.forM_cons]

end Emit
