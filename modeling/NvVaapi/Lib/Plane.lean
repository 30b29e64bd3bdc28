import NvVaapi.Lib.Bytes
import Mathlib.Tactic.SplitIfs

/-!
# Planes in a byte memory

A plane with pitch `p`: the byte at row `r` and column `x < p` is at `r * p + x`.

* `write_at`: a copy into a part of one row changes that part only.
* `writeRows`: a loop that copies one piece into each of several rows. `writeRows_at` is what it
  leaves at a row and a column.
* `memcpyRows`, `memsetRows`: such loops with the rows of another plane, and with one value.
* `memcpy_at`: whole rows copied in one piece.
* `memcpyRows_congr`, `readRows_congr`: such copies depend on the bytes of these rows only.
* `copyRows`: the rows of any picture. `copyRows_at` is for a plane that starts anywhere,
  `copyRows_before` and `copyRows_behind` for the addresses on both sides.
-/

namespace Plane

variable {p : Nat}

/-- Addresses in a part of one row have that row and a column in the part. -/
theorem in_row_iff {r c n r' x : Nat} (hn : c + n ≤ p) (hx : x < p) :
    (r * p + c ≤ r' * p + x ∧ r' * p + x < r * p + c + n) ↔ r' = r ∧ c ≤ x ∧ x < c + n := by
  rcases Nat.lt_trichotomy r r' with h | h | h
  · have hle : (r + 1) * p ≤ r' * p := Nat.mul_le_mul_right p h
    rw [Nat.succ_mul] at hle
    omega
  · subst h
    omega
  · have hle : (r' + 1) * p ≤ r * p := Nat.mul_le_mul_right p h
    rw [Nat.succ_mul] at hle
    omega

/-- The rows before row `n` are the addresses before it. -/
theorem row_lt_iff {n r x : Nat} (hx : x < p) : r * p + x < n * p ↔ r < n := by
  constructor
  · intro h
    by_contra hn
    have := Nat.mul_le_mul_right p (Nat.le_of_not_lt hn)
    omega
  · intro h
    have := Nat.mul_le_mul_right p h
    rw [Nat.succ_mul] at this
    omega

theorem write_at {m : Nat → UInt8} {bs : List UInt8} {r c r' x : Nat} (hn : c + bs.length ≤ p)
    (hx : x < p) : Bytes.write m (r * p + c) bs (r' * p + x) =
      if r' = r ∧ c ≤ x ∧ x < c + bs.length then bs.getD (x - c) 0 else m (r' * p + x) := by
  unfold Bytes.write
  by_cases h : r' = r ∧ c ≤ x ∧ x < c + bs.length
  · rw [if_pos h, if_pos ((in_row_iff hn hx).mpr h), h.1]
    congr 1
    omega
  · rw [if_neg h, if_neg fun hi => h ((in_row_iff hn hx).mp hi)]

/-- For each `y` of `ys` in turn, copy `row y` to `base + y * p`. -/
def writeRows (p base : Nat) (row : Nat → List UInt8) (ys : List Nat) (m : Nat → UInt8) :
    Nat → UInt8 :=
  ys.foldl (fun m y => Bytes.write m (base + y * p) (row y)) m

theorem writeRows_at {m : Nat → UInt8} {row : Nat → List UInt8} {ys : List Nat}
    {base r₀ c n r x : Nat} (hlen : ∀ y, (row y).length = n) (hb : base = r₀ * p + c)
    (hn : c + n ≤ p) (hx : x < p) :
    writeRows p base row ys m (r * p + x) =
      if r₀ ≤ r ∧ r - r₀ ∈ ys ∧ c ≤ x ∧ x < c + n then (row (r - r₀)).getD (x - c) 0
      else m (r * p + x) := by
  subst hb
  induction ys generalizing m with
  | nil => simp [writeRows]
  | cons y ys ih =>
    have hbase : r₀ * p + c + y * p = (r₀ + y) * p + c := by rw [Nat.add_mul]; omega
    have hw : Bytes.write m (r₀ * p + c + y * p) (row y) (r * p + x) =
        if r = r₀ + y ∧ c ≤ x ∧ x < c + n then (row y).getD (x - c) 0 else m (r * p + x) := by
      rw [hbase, write_at (by rw [hlen]; exact hn) hx, hlen]
    refine Eq.trans ih ?_
    beta_reduce
    rw [hw]
    by_cases hy : r = r₀ + y
    · subst hy
      simp only [Nat.add_sub_cancel_left, Nat.le_add_right, List.mem_cons, true_or, true_and]
      by_cases hcol : c ≤ x ∧ x < c + n <;> simp [hcol]
    · have hmem : r₀ ≤ r → (r - r₀ ∈ y :: ys ↔ r - r₀ ∈ ys) := by
        intro hr
        rw [List.mem_cons]
        exact or_iff_right (by omega)
      have hno : ¬(r = r₀ + y ∧ c ≤ x ∧ x < c + n) := fun h => hy h.1
      rw [if_neg hno]
      by_cases hr : r₀ ≤ r
      · simp only [hmem hr]
      · simp [hr]

/-- For each `y < rows`, copy `width` bytes from `srcBase + y * srcPitch` to `base + y * p`. -/
def memcpyRows (p base : Nat) (src : Nat → UInt8) (srcPitch srcBase width rows : Nat)
    (m : Nat → UInt8) : Nat → UInt8 :=
  writeRows p base (fun y => Bytes.read src (srcBase + y * srcPitch) width) (List.range rows) m

/-- For each `y` from `first` up to `last`, set `width` bytes from `base + y * p` on to `value`. -/
def memsetRows (p base : Nat) (value : UInt8) (width first last : Nat) (m : Nat → UInt8) :
    Nat → UInt8 :=
  writeRows p base (fun _ => List.replicate width value) (List.range' first (last - first)) m

section Loops

variable {m src : Nat → UInt8} {base r₀ c r x width : Nat}

theorem memcpyRows_at {srcPitch srcBase rows : Nat} (hb : base = r₀ * p + c) (hn : c + width ≤ p)
    (hx : x < p) :
    memcpyRows p base src srcPitch srcBase width rows m (r * p + x) =
      if r₀ ≤ r ∧ r < r₀ + rows ∧ c ≤ x ∧ x < c + width
      then src (srcBase + (r - r₀) * srcPitch + (x - c)) else m (r * p + x) := by
  rw [memcpyRows, writeRows_at (fun _ => Bytes.length_read _ _ _) hb hn hx]
  simp only [List.mem_range]
  split_ifs with h₁ h₂ h₂
  · rw [List.getD_eq_getElem?_getD, Bytes.getElem?_read, if_pos (by omega)]
    rfl
  · omega
  · omega
  · rfl

theorem memsetRows_at {value : UInt8} {first last : Nat} (hb : base = r₀ * p + c)
    (hn : c + width ≤ p) (hx : x < p) :
    memsetRows p base value width first last m (r * p + x) =
      if r₀ + first ≤ r ∧ r < r₀ + last ∧ c ≤ x ∧ x < c + width then value
      else m (r * p + x) := by
  rw [memsetRows, writeRows_at (fun _ => List.length_replicate) hb hn hx]
  simp only [List.mem_range'_1]
  split_ifs with h₁ h₂ h₂
  · rw [List.getD_eq_getElem?_getD, List.getElem?_replicate, if_pos (by omega)]
    rfl
  · omega
  · omega
  · rfl

/-- `rows` whole rows in one piece. -/
theorem memcpy_at {off r₀ rows : Nat} (hb : base = r₀ * p) (hx : x < p) :
    Bytes.write m base (Bytes.read src off (rows * p)) (r * p + x) =
      if r₀ ≤ r ∧ r < r₀ + rows then src (off + ((r - r₀) * p + x)) else m (r * p + x) := by
  have hfirst : r₀ * p ≤ r * p + x ↔ r₀ ≤ r := by
    have := not_congr (row_lt_iff (n := r₀) (r := r) hx)
    omega
  have hlast : r * p + x < r₀ * p + rows * p ↔ r < r₀ + rows := by
    rw [← Nat.add_mul]
    exact row_lt_iff hx
  subst hb
  unfold Bytes.write
  simp only [Bytes.length_read, hfirst, hlast]
  split
  · next h =>
    have hle : (r - r₀) * p + x < rows * p := (row_lt_iff hx).mpr (by omega)
    have hsub : (r - r₀) * p = r * p - r₀ * p := Nat.sub_mul r r₀ p
    have hmul : r₀ * p ≤ r * p := Nat.mul_le_mul_right p h.1
    rw [List.getD_eq_getElem?_getD, Bytes.getElem?_read, if_pos (by omega)]
    change src _ = src _
    congr 1
    omega
  · rfl

theorem memcpyRows_congr {src' : Nat → UInt8} {srcPitch srcBase rows : Nat}
    (h : ∀ y < rows, ∀ i < width,
      src (srcBase + y * srcPitch + i) = src' (srcBase + y * srcPitch + i)) :
    memcpyRows p base src srcPitch srcBase width rows m =
      memcpyRows p base src' srcPitch srcBase width rows m := by
  refine List.foldl_ext _ _ _ fun m y hy => ?_
  congr 1
  refine Bytes.read_congr fun a ha hlt => ?_
  obtain ⟨i, rfl⟩ := Nat.exists_eq_add_of_le ha
  exact h y (List.mem_range.mp hy) i (by omega)

theorem readRows_congr {src' : Nat → UInt8} {off rows : Nat}
    (h : ∀ y < rows, ∀ i < p, src (off + y * p + i) = src' (off + y * p + i)) :
    Bytes.read src off (rows * p) = Bytes.read src' off (rows * p) := by
  refine Bytes.read_congr fun a ha hlt => ?_
  obtain ⟨i, rfl⟩ := Nat.exists_eq_add_of_le ha
  have hi : i < rows * p := by omega
  have hp : 0 < p := Nat.pos_of_lt_mul_left hi
  have hrow := h (i / p) (Nat.div_lt_of_lt_mul (Nat.mul_comm rows p ▸ hi)) (i % p) (Nat.mod_lt i hp)
  rwa [Nat.add_assoc, Nat.mul_comm, Nat.div_add_mod] at hrow

end Loops

/-! ## Planes that start anywhere -/

section Offsets

variable {m : Nat → UInt8} {row : Nat → List UInt8} {ys : List Nat} {base off : Nat}

theorem write_add (bs : List UInt8) (a i : Nat) :
    Bytes.write m (off + a) bs (off + i) = Bytes.write (fun j => m (off + j)) a bs i := by
  unfold Bytes.write
  simp only [Nat.add_assoc, Nat.add_le_add_iff_left, Nat.add_lt_add_iff_left,
    Nat.add_sub_add_left]

theorem writeRows_add (i : Nat) : writeRows p (off + base) row ys m (off + i) =
    writeRows p base row ys (fun j => m (off + j)) i := by
  induction ys generalizing m with
  | nil => rfl
  | cons y ys ih =>
    refine Eq.trans ih ?_
    have hw : (fun j => Bytes.write m (off + base + y * p) (row y) (off + j)) =
        Bytes.write (fun j => m (off + j)) (base + y * p) (row y) := by
      funext j
      rw [Nat.add_assoc, write_add]
    rw [hw]
    rfl

theorem writeRows_before {a : Nat} (h : a < base) : writeRows p base row ys m a = m a := by
  induction ys generalizing m with
  | nil => rfl
  | cons y ys ih =>
    refine Eq.trans ih ?_
    exact Bytes.write_of_lt (by omega)

theorem writeRows_behind {a : Nat} (h : ∀ y ∈ ys, base + y * p + (row y).length ≤ a) :
    writeRows p base row ys m a = m a := by
  induction ys generalizing m with
  | nil => rfl
  | cons y ys ih =>
    refine (ih fun z hz => h z (List.mem_cons_of_mem _ hz)).trans ?_
    have hy := h y List.mem_cons_self
    exact if_neg (by omega)

/-- A byte after the copies is one of those that were copied, or stays as it was. -/
theorem writeRows_cases (a : Nat) : writeRows p base row ys m a = m a ∨
    ∃ y ∈ ys, ∃ i < (row y).length, a = base + y * p + i ∧
      writeRows p base row ys m a = (row y).getD i 0 := by
  induction ys generalizing m with
  | nil => exact .inl rfl
  | cons y ys ih =>
    have hcons : writeRows p base row (y :: ys) m =
        writeRows p base row ys (Bytes.write m (base + y * p) (row y)) := rfl
    rw [hcons]
    obtain heq | ⟨z, hz, i, hi, ha, heq⟩ := ih (m := Bytes.write m (base + y * p) (row y))
    · rw [heq]
      unfold Bytes.write
      split
      · next hin =>
        exact .inr ⟨y, List.mem_cons_self, a - (base + y * p), by omega, by omega, rfl⟩
      · exact .inl rfl
    · exact .inr ⟨z, List.mem_cons_of_mem _ hz, i, hi, ha, heq⟩

/-- For each `y < rows`, set the `width` bytes from `base + y * p` on to the row `y` of `pix`. -/
def copyRows (p base : Nat) (pix : Nat → Nat → UInt8) (width rows : Nat) (m : Nat → UInt8) :
    Nat → UInt8 :=
  writeRows p base (fun y => (List.range width).map (pix y)) (List.range rows) m

variable {pix : Nat → Nat → UInt8} {r₀ c r x width rows : Nat}

theorem memcpyRows_eq (src : Nat → UInt8) (srcPitch srcBase : Nat) :
    memcpyRows p base src srcPitch srcBase width rows m =
      copyRows p base (fun y i => src (srcBase + y * srcPitch + i)) width rows m := rfl

theorem copyRows_at (hb : base = off + (r₀ * p + c)) (hn : c + width ≤ p) (hx : x < p) :
    copyRows p base pix width rows m (off + (r * p + x)) =
      if r₀ ≤ r ∧ r < r₀ + rows ∧ c ≤ x ∧ x < c + width then pix (r - r₀) (x - c)
      else m (off + (r * p + x)) := by
  have hlen (y : Nat) : ((List.range width).map (pix y)).length = width := by simp
  rw [copyRows, hb, writeRows_add, writeRows_at hlen rfl hn hx]
  simp only [List.mem_range]
  split_ifs with h₁ h₂ h₂
  · rw [List.getD_eq_getElem?_getD, List.getElem?_map, List.getElem?_range (by omega)]
    rfl
  · omega
  · omega
  · rfl

theorem copyRows_before {a : Nat} (h : a < base) : copyRows p base pix width rows m a = m a :=
  writeRows_before h

/-- Behind the last row that the copy reaches. -/
theorem copyRows_behind {a : Nat} (hb : base = off + (r₀ * p + c)) (hn : c + width ≤ p)
    (ha : off + (r₀ + rows) * p ≤ a) : copyRows p base pix width rows m a = m a := by
  refine writeRows_behind fun y hy => ?_
  rw [List.mem_range] at hy
  have hle : (r₀ + y + 1) * p ≤ (r₀ + rows) * p := Nat.mul_le_mul_right p (by omega)
  rw [Nat.succ_mul, Nat.add_mul] at hle
  simp only [List.length_map, List.length_range]
  omega

theorem copyRows_cases (a : Nat) : copyRows p base pix width rows m a = m a ∨
    ∃ r < rows, ∃ i < width, a = base + r * p + i ∧
      copyRows p base pix width rows m a = pix r i := by
  unfold copyRows
  refine (writeRows_cases a).imp_right fun ⟨y, hy, i, hi, ha, heq⟩ => ?_
  have hi : i < width := by simpa using hi
  refine ⟨y, List.mem_range.mp hy, i, hi, ha, heq.trans ?_⟩
  simp [List.getElem?_range hi]

theorem copyRows_zero_width : copyRows p base pix 0 rows m = m := by
  funext a
  obtain heq | ⟨_, _, i, hi, _⟩ : copyRows p base pix 0 rows m a = m a ∨ _ := copyRows_cases a
  · exact heq
  · exact absurd hi (Nat.not_lt_zero i)

theorem copyRows_zero_rows : copyRows p base pix width 0 m = m := rfl

theorem copyRows_congr {pix' : Nat → Nat → UInt8}
    (h : ∀ y < rows, ∀ i < width, pix y i = pix' y i) :
    copyRows p base pix width rows m = copyRows p base pix' width rows m := by
  refine List.foldl_ext _ _ _ fun m y hy => ?_
  congr 1
  refine List.map_congr_left fun i hi => ?_
  exact h y (List.mem_range.mp hy) i (List.mem_range.mp hi)

end Offsets

end Plane
