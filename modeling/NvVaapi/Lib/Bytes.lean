import Mathlib.Data.List.Basic
import Mathlib.Data.List.GetD
import Mathlib.Data.UInt

/-!
# Byte memories and 32-bit words

* A memory is a total function from offsets to bytes. `Bytes.read m off n` is the `n` bytes from
  `off` on, `Bytes.write m off bs` is the memory after a copy of `bs` to `off`.
* `read_write_end`: a copy right behind a prefix appends to what is read.
* `le32`, `words`: a 32-bit word as four bytes, least significant first, and the words of a list of
  bytes. `words` inverts the concatenation of `le32` (`words_flatMap_le32`).
* `cutAt bs offs`: the pieces of `bs` that start at the offsets `offs`. Cutting a concatenation
  where its pieces start gives the pieces back (`cutAt_starts`).
-/

namespace Bytes

/-- The `n` bytes of `m` from `off` on. -/
def read (m : Nat → UInt8) (off n : Nat) : List UInt8 :=
  (List.range n).map fun i => m (off + i)

/-- `m` after a copy of `bs` to `off`. -/
def write (m : Nat → UInt8) (off : Nat) (bs : List UInt8) : Nat → UInt8 := fun i =>
  if off ≤ i ∧ i < off + bs.length then bs.getD (i - off) 0 else m i

@[simp] theorem length_read (m : Nat → UInt8) (off n : Nat) : (read m off n).length = n := by
  simp [read]

@[simp] theorem read_zero (m : Nat → UInt8) (off : Nat) : read m off 0 = [] := rfl

theorem read_congr {m m' : Nat → UInt8} {off n : Nat}
    (h : ∀ i, off ≤ i → i < off + n → m i = m' i) : read m off n = read m' off n := by
  refine List.map_congr_left fun i hi => ?_
  rw [List.mem_range] at hi
  exact h _ (by omega) (by omega)

theorem read_add (m : Nat → UInt8) (off a b : Nat) :
    read m off (a + b) = read m off a ++ read m (off + a) b := by
  simp only [read, List.range_add, List.map_append, List.map_map]
  congr 1
  refine List.map_congr_left fun i _ => ?_
  simp [Nat.add_assoc]

theorem getElem?_read (m : Nat → UInt8) (off n i : Nat) :
    (read m off n)[i]? = if i < n then some (m (off + i)) else none := by
  by_cases h : i < n <;> simp [read, h]

theorem write_of_lt {m : Nat → UInt8} {off i : Nat} {bs : List UInt8} (h : i < off) :
    write m off bs i = m i := by
  simp [write, Nat.not_le.mpr h]

theorem read_write_before (m : Nat → UInt8) (off : Nat) (bs : List UInt8) :
    read (write m off bs) 0 off = read m 0 off :=
  read_congr fun _ _ h => write_of_lt (by omega)

theorem read_write_same (m : Nat → UInt8) (off : Nat) (bs : List UInt8) :
    read (write m off bs) off bs.length = bs := by
  refine List.ext_getElem (by simp) fun i h₁ h₂ => ?_
  simp [read, write, h₂]

/-- A copy right behind the first `off` bytes appends to them. -/
theorem read_write_end (m : Nat → UInt8) (off : Nat) (bs : List UInt8) :
    read (write m off bs) 0 (off + bs.length) = read m 0 off ++ bs := by
  rw [read_add, read_write_before, Nat.zero_add, read_write_same]

/-- A copy of the first `n` bytes of another memory. -/
theorem write_read_apply (m m' : Nat → UInt8) (n i : Nat) :
    write m 0 (read m' 0 n) i = if i < n then m' i else m i := by
  unfold write
  rw [length_read, Nat.zero_add]
  by_cases h : i < n
  · rw [if_pos ⟨Nat.zero_le i, h⟩, if_pos h, List.getD_eq_getElem?_getD,
      getElem?_read, Nat.sub_zero, Nat.zero_add, if_pos h]
    rfl
  · rw [if_neg fun hi => h hi.2, if_neg h]

/-- A write among the bytes that are copied can be made before the copy. -/
theorem write_write_read {m m' : Nat → UInt8} {n off : Nat} {bs : List UInt8}
    (h : off + bs.length ≤ n) :
    write (write m 0 (read m' 0 n)) off bs = write m 0 (read (write m' off bs) 0 n) := by
  funext i
  rw [write_read_apply, write]
  by_cases hi : off ≤ i ∧ i < off + bs.length
  · rw [if_pos hi, if_pos (by omega), write, if_pos hi]
  · rw [if_neg hi, write_read_apply, write, if_neg hi]

/-- A copy of a copy. -/
theorem write_read_write (m m' : Nat → UInt8) (n : Nat) :
    write m 0 (read (write m' 0 (read m 0 n)) 0 n) = m := by
  funext i
  rw [write_read_apply, write_read_apply]
  split <;> rfl

/-! ## Words -/

/-- The four bytes of `v`, least significant first. -/
def le32 (v : UInt32) : List UInt8 :=
  [v.toUInt8, (v >>> 8).toUInt8, (v >>> 16).toUInt8, (v >>> 24).toUInt8]

/-- The word of four bytes. -/
def ofLe32 (a b c d : UInt8) : UInt32 :=
  a.toUInt32 ||| b.toUInt32 <<< 8 ||| c.toUInt32 <<< 16 ||| d.toUInt32 <<< 24

/-- The whole words that a list of bytes holds. -/
def words : List UInt8 → List UInt32
  | a :: b :: c :: d :: rest => ofLe32 a b c d :: words rest
  | _ => []

@[simp] theorem length_le32 (v : UInt32) : (le32 v).length = 4 := rfl

theorem ofLe32_le32 (v : UInt32) :
    ofLe32 v.toUInt8 (v >>> 8).toUInt8 (v >>> 16).toUInt8 (v >>> 24).toUInt8 = v := by
  apply UInt32.toBitVec_inj.mp
  refine BitVec.eq_of_getLsbD_eq fun i hi => ?_
  simp only [ofLe32, UInt32.toBitVec_or, UInt32.toBitVec_shiftLeft, UInt8.toBitVec_toUInt32,
    UInt32.toBitVec_toUInt8, UInt32.toBitVec_shiftRight]
  simp
  grind

@[simp] theorem words_nil : words [] = [] := rfl

@[simp] theorem words_le32_append (v : UInt32) (bs : List UInt8) :
    words (le32 v ++ bs) = v :: words bs := by
  simp [le32, words, ofLe32_le32]

/-- `words` inverts writing words one after the other. -/
theorem words_flatMap_le32 (vs : List UInt32) : words (vs.flatMap le32) = vs := by
  induction vs with
  | nil => rfl
  | cons v vs ih => simp [ih]

/-! ## Cutting a list at offsets -/

variable {α : Type*}

/-- The pieces of `bs` that start at the given offsets, each up to the next one. -/
def cutAt (bs : List α) : List Nat → List (List α)
  | [] => []
  | [o] => [bs.drop o]
  | o :: o' :: os => (bs.take o').drop o :: cutAt bs (o' :: os)

/-- Where the pieces of a concatenation start, the first one at `base`. -/
def starts (base : Nat) : List (List α) → List Nat
  | [] => []
  | p :: ps => base :: starts (base + p.length) ps

@[simp] theorem length_starts (base : Nat) (ps : List (List α)) :
    (starts base ps).length = ps.length := by
  induction ps generalizing base with
  | nil => rfl
  | cons p ps ih => simp [starts, ih]

theorem starts_append (base : Nat) (ps qs : List (List α)) :
    starts base (ps ++ qs) = starts base ps ++ starts (base + ps.flatten.length) qs := by
  induction ps generalizing base with
  | nil => simp [starts]
  | cons p ps ih => simp only [List.cons_append, starts, ih, List.flatten_cons, List.length_append,
      Nat.add_assoc]

theorem starts_le {base : Nat} {ps : List (List α)} {o : Nat} (h : o ∈ starts base ps) :
    o ≤ base + ps.flatten.length := by
  induction ps generalizing base with
  | nil => simp [starts] at h
  | cons p ps ih =>
    simp only [List.flatten_cons, List.length_append]
    rcases List.mem_cons.mp h with rfl | h
    · omega
    · have := ih h
      omega

/-- Cutting where the pieces start gives the pieces back. -/
theorem cutAt_starts (pre : List α) (ps : List (List α)) :
    cutAt (pre ++ ps.flatten) (starts pre.length ps) = ps := by
  induction ps generalizing pre with
  | nil => rfl
  | cons p ps ih =>
    have h := ih (pre ++ p)
    rw [List.length_append, List.append_assoc] at h
    cases ps with
    | nil => simp [starts, cutAt]
    | cons q qs =>
      simp only [starts, List.flatten_cons] at h ⊢
      rw [cutAt, h, ← List.append_assoc, ← List.length_append, List.take_left, List.drop_left]

/-! ## Ranges -/

/-- Where the pieces of a concatenation begin and end, the first one at `base`. -/
def spans (base : Nat) : List (List α) → List (Nat × Nat)
  | [] => []
  | p :: ps => (base, base + p.length) :: spans (base + p.length) ps

@[simp] theorem length_spans (base : Nat) (ps : List (List α)) :
    (spans base ps).length = ps.length := by
  induction ps generalizing base with
  | nil => rfl
  | cons p ps ih => simp [spans, ih]

theorem spans_append (base : Nat) (ps qs : List (List α)) :
    spans base (ps ++ qs) = spans base ps ++ spans (base + ps.flatten.length) qs := by
  induction ps generalizing base with
  | nil => simp [spans]
  | cons p ps ih =>
    simp only [List.cons_append, spans, ih, List.flatten_cons, List.length_append, Nat.add_assoc]

theorem spans_le {base : Nat} {ps : List (List α)} {s : Nat × Nat} (h : s ∈ spans base ps) :
    s.1 ≤ s.2 ∧ s.2 ≤ base + ps.flatten.length := by
  induction ps generalizing base with
  | nil => cases h
  | cons p ps ih =>
    rw [List.flatten_cons, List.length_append]
    rcases List.mem_cons.mp h with rfl | h
    · dsimp only
      omega
    · have := ih h
      omega

/-- The ranges hold the pieces. -/
theorem extract_spans (pre : List α) (ps : List (List α)) :
    (spans pre.length ps).map (fun s => (pre ++ ps.flatten).extract s.1 s.2) = ps := by
  induction ps generalizing pre with
  | nil => rfl
  | cons p ps ih =>
    have h := ih (pre ++ p)
    rw [List.length_append, List.append_assoc] at h
    rw [spans, List.map_cons, List.flatten_cons, h]
    simp

/-- The last range ends where the pieces end. -/
theorem getLast?_spans {base : Nat} {ps : List (List α)} {s : Nat × Nat}
    (h : (spans base ps).getLast? = some s) : s.2 = base + ps.flatten.length := by
  induction ps generalizing base with
  | nil => cases h
  | cons p ps ih =>
    rw [List.flatten_cons, List.length_append]
    cases ps with
    | nil =>
      obtain rfl : (base, base + p.length) = s := Option.some_inj.mp h
      simp
    | cons q qs =>
      rw [spans, spans, List.getLast?_cons_cons] at h
      have := ih h
      omega

/-- The elements of a list, two by two. -/
def pairs : List α → List (α × α)
  | a :: b :: xs => (a, b) :: pairs xs
  | _ => []

/-- The words of ranges that are laid out in 32 bits. -/
theorem words_flatMap_spans (vs : List (UInt32 × UInt32)) :
    words (vs.flatMap fun v => le32 v.1 ++ le32 v.2) = vs.flatMap fun v => [v.1, v.2] := by
  induction vs with
  | nil => rfl
  | cons v vs ih => simp [ih]

theorem pairs_flatMap (vs : List (α × α)) : pairs (vs.flatMap fun v => [v.1, v.2]) = vs := by
  induction vs with
  | nil => rfl
  | cons v vs ih => simp [pairs, ih]

end Bytes
