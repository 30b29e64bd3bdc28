import NvVaapi.Buffer.Growth
import NvVaapi.Lib.Cells
import NvVaapi.Lib.Latest
import Mathlib.Data.List.Infix

/-!
# The append buffer and its block of memory

* `Memory.AppendableBuffer`: the block that the pointer leads to and the two 64-bit numbers, with no
  relation between them. `Memory.appendBuffer` allocates the blocks and copies between them. A copy
  that is not inside its blocks has no result, and neither has a growth loop that does not end.
* `Represents`: the block holds the bytes of an `AppendableBuffer`. The calls keep that
  (`Represents.append`, `Represents.reset`, `Represents.free`).
* `appendBuffer_concatenates`: the first bytes of the block are what was appended since the last
  reset.

`memalign` does not fail. The bytes `fresh` are in the block that it returns.
-/

namespace NvVaapi.Memory

structure AppendableBuffer where
  buf : Option (List UInt8)
  size : UInt64
  allocated : UInt64

namespace AppendableBuffer

def zeroed : AppendableBuffer := ⟨none, 0, 0⟩

/-- The first `size` bytes of the block. -/
def bytes (ab : AppendableBuffer) : List UInt8 := (ab.buf.map (List.take ab.size.toNat)).getD []

end AppendableBuffer

/-! ## The functions -/

/-- `while (need > allocated) allocated += allocated >> 1`, for `fuel` tests. There are no more
capacities than `2 ^ 64`, so a loop that needs more tests does not end. -/
def growAllocated (need : UInt64) : Nat → UInt64 → Option UInt64
  | 0, _ => none
  | fuel + 1, allocated =>
    if need > allocated then growAllocated need fuel (allocated + allocated >>> 1)
    else some allocated

/-- The first part of `appendBuffer`: a block with room for `size` more bytes. -/
def makeRoom (ab : AppendableBuffer) (size : UInt64) (fresh : Nat → UInt8) :
    Option AppendableBuffer :=
  match ab.buf with
  | none =>
    some { buf := some (Cells.alloc fresh (size * 2).toNat), size := 0, allocated := size * 2 }
  | some buf =>
    if ab.size + size > ab.allocated then do
      let allocated ← growAllocated (ab.size + size) (2 ^ 64) ab.allocated
      let nb ← Cells.write (Cells.alloc fresh allocated.toNat) 0 (← Cells.read buf 0 ab.size.toNat)
      some { buf := some nb, size := ab.size, allocated }
    else some ab

def appendBuffer (ab : AppendableBuffer) (buf : List UInt8) (size : UInt64) (fresh : Nat → UInt8) :
    Option AppendableBuffer := do
  let ab ← makeRoom ab size fresh
  let block ← Cells.write (← ab.buf) ab.size.toNat (← Cells.read buf 0 size.toNat)
  some { buf := some block, size := ab.size + size, allocated := ab.allocated }

def freeBuffer (ab : AppendableBuffer) : AppendableBuffer :=
  match ab.buf with
  | none => ab
  | some _ => .zeroed

/-! ## The block holds the bytes -/

structure Represents (ab : AppendableBuffer) (spec : NvVaapi.AppendableBuffer) : Prop where
  null : ab.buf = none ↔ spec.buf = none
  unallocated : ab.buf = none → ab.allocated = 0
  size : ab.size.toNat = spec.size
  allocated : ab.allocated.toNat = spec.allocated
  block : ∀ b, ab.buf = some b → b.length = spec.allocated ∧ b.take spec.size = spec.bytes

/-- The block holds these bytes, and it can be made larger. -/
def Holds (ab : AppendableBuffer) (bytes : List UInt8) : Prop :=
  ∃ spec, Represents ab spec ∧ spec.Usable ∧ spec.bytes = bytes

/-- The block has this many bytes, and these are at its front. -/
structure Room (ab : AppendableBuffer) (block : List UInt8) (capacity : Nat)
    (bytes : List UInt8) : Prop where
  buf : ab.buf = some block
  length : block.length = capacity
  allocated : ab.allocated.toNat = capacity
  size : ab.size.toNat = bytes.length
  front : block.take bytes.length = bytes

section Represents

variable {ab : AppendableBuffer} {spec spec' : NvVaapi.AppendableBuffer} {src : List UInt8}

theorem represents_zeroed : Represents .zeroed .empty :=
  ⟨iff_of_true rfl rfl, fun _ => rfl, rfl, rfl, nofun⟩

theorem toNat_length (h : src.length < 2 ^ 63) : (UInt64.ofNat src.length).toNat = src.length :=
  UInt64.toNat_ofNat_of_lt' (Nat.lt_trans h (by decide))

/-- Below `2 ^ 63` bytes an append does not wrap the size. -/
theorem toNat_add_length {size : UInt64} (h : size.toNat + src.length < 2 ^ 63) :
    (size + UInt64.ofNat src.length).toNat = size.toNat + src.length := by
  rw [UInt64.toNat_add, toNat_length (by omega)]
  exact Nat.mod_eq_of_lt (by omega)

theorem Represents.bytes (h : Represents ab spec) : ab.bytes = spec.bytes := by
  unfold AppendableBuffer.bytes
  cases hb : ab.buf with
  | none => exact (NvVaapi.AppendableBuffer.bytes_of_size (spec.size_null (h.null.mp hb))).symm
  | some b =>
    rw [Option.map_some, Option.getD_some, h.size]
    exact (h.block b hb).2

theorem Represents.size_le (h : Represents ab spec) : ab.size ≤ ab.allocated := by
  apply UInt64.le_iff_toNat_le.mpr
  rw [h.size, h.allocated]
  exact spec.size_le

/-- Below `2 ^ 63` bytes the numbers of the loop do not wrap. -/
theorem growAllocated_of_nat {need allocated : UInt64} {fuel fuel' n : Nat}
    (hneed : need.toNat < 2 ^ 63) (hfuel : fuel < fuel')
    (h : NvVaapi.growAllocated need.toNat fuel allocated.toNat = some n) :
    ∃ allocated', growAllocated need fuel' allocated = some allocated' ∧ allocated'.toNat = n := by
  obtain ⟨fuel', rfl⟩ : ∃ f, fuel' = f + 1 := ⟨fuel' - 1, by omega⟩
  induction fuel generalizing allocated fuel' with
  | zero =>
    unfold NvVaapi.growAllocated at h
    split at h
    case isTrue hle =>
      refine ⟨allocated, ?_, Option.some.inj h⟩
      rw [growAllocated, if_neg (UInt64.not_lt.mpr (UInt64.le_iff_toNat_le.mpr hle))]
    case isFalse => cases h
  | succ fuel ih =>
    unfold NvVaapi.growAllocated at h
    unfold growAllocated
    split at h
    case isTrue hle =>
      rw [if_neg (UInt64.not_lt.mpr (UInt64.le_iff_toNat_le.mpr hle))]
      exact ⟨allocated, rfl, Option.some.inj h⟩
    case isFalse hlt =>
      have hstep : (allocated + allocated >>> 1).toNat = growStep allocated.toNat := by
        have hhalf : (allocated >>> 1).toNat = allocated.toNat >>> 1 := rfl
        rw [UInt64.toNat_add, hhalf, growStep, Nat.shiftRight_eq_div_pow]
        omega
      rw [if_pos (UInt64.lt_iff_toNat_lt.mpr (by omega))]
      obtain ⟨fuel', rfl⟩ : ∃ f, fuel' = f + 1 := ⟨fuel' - 1, by omega⟩
      rw [← hstep] at h
      exact ih h fuel' (by omega)

/-- The first block has room for two of the first appends. -/
theorem makeRoom_first (hnull : ab.buf = none) (fresh : Nat → UInt8) (hfit : src.length < 2 ^ 63) :
    ∃ ab' block, makeRoom ab (UInt64.ofNat src.length) fresh = some ab' ∧
      Room ab' block (src.length * 2) [] := by
  have hdouble : (UInt64.ofNat src.length * 2).toNat = src.length * 2 := by
    rw [UInt64.toNat_mul, toNat_length hfit]
    exact Nat.mod_eq_of_lt (show src.length * 2 < 2 ^ 64 by omega)
  unfold Memory.makeRoom
  rw [hnull]
  refine ⟨_, _, rfl, rfl, ?_, hdouble, rfl, List.take_zero⟩
  rw [Cells.length_alloc, hdouble]

/-- A block that is there is used again, or its bytes are copied to a larger one. -/
theorem Represents.makeRoom_again (h : Represents ab spec) (fresh : Nat → UInt8)
    {b : List UInt8} {n : Nat} (hb : ab.buf = some b) (hfit : spec.size + src.length < 2 ^ 63)
    (hn : NvVaapi.growAllocated (spec.size + src.length) (spec.size + src.length) spec.allocated =
      some n) :
    ∃ ab' block, makeRoom ab (UInt64.ofNat src.length) fresh = some ab' ∧
      Room ab' block n spec.bytes := by
  obtain ⟨hblock, hbytes⟩ := h.block b hb
  have hsize := spec.length_bytes
  have hneed : (ab.size + UInt64.ofNat src.length).toNat = spec.size + src.length := by
    rw [toNat_add_length (by rwa [h.size]), h.size]
  unfold Memory.makeRoom
  rw [hb]
  dsimp only
  split
  case isTrue hgt =>
    have hle := spec.size_le
    have hroom := (growAllocated_some hn).1
    rw [← hneed, ← h.allocated] at hn
    obtain ⟨a, ha, rfl⟩ := growAllocated_of_nat (by omega) (by omega : _ < 2 ^ 64) hn
    obtain ⟨nb, hnb, hnblen, hfront⟩ :
        ∃ nb, Cells.write (Cells.alloc fresh a.toNat) 0 spec.bytes = some nb ∧
        nb.length = a.toNat ∧ nb.take spec.bytes.length = spec.bytes :=
          Cells.write_alloc fresh (by omega)
    refine ⟨{ buf := some nb, size := ab.size, allocated := a }, nb, ?_, rfl, hnblen,
      rfl, ?_, hfront⟩
    · rw [ha, h.size, Cells.read_front (by omega), hbytes]
      show (Cells.write (Cells.alloc fresh a.toNat) 0 spec.bytes).bind _ = _
      rw [hnb]
      rfl
    · rw [hsize]
      exact h.size
  case isFalse hle =>
    have hroom : spec.size + src.length ≤ spec.allocated := by
      have := UInt64.le_iff_toNat_le.mp (UInt64.not_lt.mp hle)
      rwa [hneed, h.allocated] at this
    rw [growAllocated_of_le _ hroom] at hn
    cases hn
    rw [← hsize] at hbytes
    exact ⟨ab, b, rfl, hb, hblock, h.allocated, h.size.trans hsize.symm, hbytes⟩

/-- The first part of an append leaves the bytes and has the room that the append needs. -/
theorem Represents.makeRoom (h : Represents ab spec) (fresh : Nat → UInt8)
    (hfit : spec.size + src.length < 2 ^ 63) (hs : NvVaapi.appendBuffer spec src = some spec') :
    ∃ ab' block, makeRoom ab (UInt64.ofNat src.length) fresh = some ab' ∧
      Room ab' block spec'.allocated spec.bytes := by
  unfold NvVaapi.appendBuffer at hs
  split at hs
  case h_1 hnull =>
    cases hs
    rw [NvVaapi.AppendableBuffer.bytes_of_size (spec.size_null hnull)]
    exact makeRoom_first (h.null.mpr hnull) fresh (by omega)
  case h_2 m hm =>
    split at hs
    case h_1 => cases hs
    case h_2 n hn =>
      cases hs
      obtain ⟨b, hb⟩ : ∃ b, ab.buf = some b := by
        apply Option.ne_none_iff_exists'.mp
        intro hnull
        cases hm.symm.trans (h.null.mp hnull)
      exact h.makeRoom_again fresh hb hfit hn

/-- An append to the block is one to the bytes. -/
theorem Represents.append (h : Represents ab spec) (fresh : Nat → UInt8)
    (hfit : spec.size + src.length < 2 ^ 63) (hs : NvVaapi.appendBuffer spec src = some spec') :
    ∃ ab', appendBuffer ab src (UInt64.ofNat src.length) fresh = some ab' ∧
      Represents ab' spec' := by
  obtain ⟨ab₁, block, hroom, hr⟩ := h.makeRoom fresh hfit hs
  have hlen := @toNat_length src (by omega)
  have hsize : ab₁.size.toNat = spec.size := hr.size.trans spec.length_bytes
  have hsize' := appendBuffer_size hs
  have hle := spec'.size_le
  have hblock := hr.length
  obtain ⟨b, hb, hblen, hbtake⟩ :
      ∃ b, Cells.write block spec.size src = some b ∧ b.length = block.length ∧
      b.take (spec.size + src.length) = block.take spec.size ++ src := Cells.write_spec (by omega)
  refine ⟨{ buf := some b, size := ab₁.size + UInt64.ofNat src.length, allocated := ab₁.allocated },
    ?_, ?_⟩
  · unfold appendBuffer
    rw [hroom, hlen, Cells.read_all]
    show (ab₁.buf.bind fun block => (Cells.write block ab₁.size.toNat src).bind _) = _
    rw [hr.buf, hsize, Option.bind_some, hb]
    rfl
  · constructor
    case null =>
      apply iff_of_false nofun
      intro hnull
      obtain ⟨-, hbuf, -⟩ | ⟨-, -, hbuf, -⟩ := appendBuffer_spec hs <;> simp [hnull] at hbuf
    case size => rw [toNat_add_length (by omega), hsize, hsize']
    case unallocated => exact nofun
    case allocated => exact hr.allocated
    case block =>
      rintro _ ⟨⟩
      have hfront := hr.front
      rw [spec.length_bytes] at hfront
      refine ⟨hblen.trans hblock, ?_⟩
      rw [hsize', hbtake, hfront, appendBuffer_bytes hs]

theorem Represents.reset (h : Represents ab spec) :
    Represents { ab with size := 0 } spec.reset := by
  refine ⟨h.null, h.unallocated, rfl, h.allocated, fun b hb => ⟨(h.block b hb).1, ?_⟩⟩
  rw [NvVaapi.AppendableBuffer.reset_bytes, NvVaapi.AppendableBuffer.reset_size, List.take_zero]

theorem Represents.free (h : Represents ab spec) :
    Represents (freeBuffer ab) (NvVaapi.freeBuffer spec) := by
  unfold freeBuffer
  split
  case h_1 hb =>
    have hnull := h.null.mp hb
    have hsize := h.size.trans (spec.size_null hnull)
    refine ⟨iff_of_true hb rfl, h.unallocated, hsize, ?_, fun b hb' => ?_⟩
    · rw [h.unallocated hb]
      rfl
    · cases hb.symm.trans hb'
  case h_2 => exact represents_zeroed

end Represents

/-! ## The calls on one buffer -/

/-- A call, and what `memalign` finds in a new block. -/
inductive BufferCall where
  | append (src : List UInt8) (fresh : Nat → UInt8)
  | reset
  | free

namespace BufferCall

def empties : BufferCall → Bool
  | append _ _ => false
  | reset => true
  | free => true

def src : BufferCall → Option (List UInt8)
  | append src _ => some src
  | reset => none
  | free => none

end BufferCall

def bufferCalls : Lts AppendableBuffer BufferCall where
  init ab := ab = .zeroed
  step ab
    | .append src fresh => appendBuffer ab src (UInt64.ofNat src.length) fresh
    | .reset => some { ab with size := 0 }
    | .free => some (freeBuffer ab)

/-- The inputs of the appends since the last reset. -/
def appendedSince (calls : List BufferCall) : List (List UInt8) :=
  (since BufferCall.empties calls).filterMap BufferCall.src

theorem appendedSince_append (calls : List BufferCall) (src : List UInt8) (fresh : Nat → UInt8) :
    appendedSince (calls ++ [.append src fresh]) = appendedSince calls ++ [src] := by
  have hkeeps : ¬(BufferCall.append src fresh).empties := nofun
  rw [appendedSince, since_concat, if_neg hkeeps, List.filterMap_append]
  rfl

theorem appendedSince_of_empties (calls : List BufferCall) {call : BufferCall} (h : call.empties) :
    appendedSince (calls ++ [call]) = [] := by
  rw [appendedSince, since_concat, if_pos h]
  rfl

/-- A call keeps that the block holds what was appended, if that stays below `2 ^ 63` bytes. -/
theorem step_holds {ab : AppendableBuffer} {done : List BufferCall} {call : BufferCall}
    (hne : ∀ src fresh, call = .append src fresh → src ≠ [])
    (hfit : (appendedSince (done ++ [call])).flatten.length < 2 ^ 63)
    (h : Holds ab (appendedSince done).flatten) :
    ∃ ab', bufferCalls.step ab call = some ab' ∧
      Holds ab' (appendedSince (done ++ [call])).flatten := by
  obtain ⟨spec, hrep, husable, hbytes⟩ := h
  cases call with
  | append src fresh =>
    rw [appendedSince_append, List.flatten_concat] at hfit ⊢
    have hsize : spec.size + src.length < 2 ^ 63 := by
      rwa [List.length_append, ← hbytes, NvVaapi.AppendableBuffer.length_bytes] at hfit
    obtain ⟨spec', hs⟩ := appendBuffer_some husable src
    obtain ⟨ab', hab, hrep'⟩ := hrep.append fresh hsize hs
    refine ⟨ab', hab, spec', hrep', appendBuffer_usable hs (hne src fresh rfl), ?_⟩
    rw [appendBuffer_bytes hs, hbytes]
  | reset =>
    rw [appendedSince_of_empties done rfl]
    exact ⟨_, rfl, spec.reset, hrep.reset, husable, spec.reset_bytes⟩
  | free =>
    rw [appendedSince_of_empties done rfl]
    exact ⟨_, rfl, .empty, hrep.free, .inl rfl, rfl⟩

/-- Appends of at least a byte that stay below `2 ^ 63` bytes between two resets: after every call
the block begins with what was appended since the last reset, whatever was in the blocks that it
went through. -/
theorem appendBuffer_concatenates {calls : List BufferCall}
    (hne : ∀ src fresh, .append src fresh ∈ calls → src ≠ [])
    (hfit : ∀ done, done <+: calls → (appendedSince done).flatten.length < 2 ^ 63) :
    ∀ done, done <+: calls → ∃ ab, bufferCalls.run .zeroed done = some ab ∧ ab.size ≤ ab.allocated ∧
      (∀ block, ab.buf = some block → block.length = ab.allocated.toNat) ∧
      ab.size.toNat = ((appendedSince done).map List.length).sum ∧
      ab.bytes = (appendedSince done).flatten := by
  intro done hdone
  have hrun : ∃ ab, bufferCalls.run .zeroed done = some ab ∧
      Holds ab (appendedSince done).flatten := by
    apply @Lts.run_of_prefixes _ _ bufferCalls (· <+: calls)
    · exact ⟨.empty, represents_zeroed, .inl rfl, rfl⟩
    · intro before call ab hbefore h
      apply step_holds _ (hfit _ hbefore) h
      rintro src fresh rfl
      exact hne src fresh (hbefore.subset (List.mem_append_right before List.mem_cons_self))
    · intro before hbefore
      exact hbefore.trans hdone
  obtain ⟨ab, hr, spec, hrep, -, hbytes⟩ := hrun
  refine ⟨ab, hr, hrep.size_le, fun block hb => ?_, ?_, hrep.bytes.trans hbytes⟩
  · rw [hrep.allocated]
    exact (hrep.block block hb).1
  · rw [hrep.size, ← spec.length_bytes, hbytes, List.length_flatten]

/-- The second append moves the bytes to a larger block, and the third one uses it again. -/
def movingCalls : List BufferCall :=
  [.append [1, 2] fun _ => 7, .append [3, 4, 5] fun _ => 8, .reset, .append [6] fun _ => 9]

theorem appendBuffer_concatenates_moved :
    (∃ ab, bufferCalls.run .zeroed (movingCalls.take 2) = some ab ∧ ab.size.toNat = 5 ∧
      ab.bytes = [1, 2, 3, 4, 5]) ∧
      ∃ ab, bufferCalls.run .zeroed movingCalls = some ab ∧ ab.size.toNat = 1 ∧ ab.bytes = [6] := by
  have hne : ∀ src fresh, .append src fresh ∈ movingCalls → src ≠ [] := by
    intro src fresh h
    grind [movingCalls]
  have hfit : ∀ done, done <+: movingCalls → (appendedSince done).flatten.length < 2 ^ 63 := by
    intro done h
    have hall : ∀ done ∈ movingCalls.inits, (appendedSince done).flatten.length < 2 ^ 63 := by
      decide
    exact hall done ((List.mem_inits done movingCalls).mpr h)
  constructor
  · obtain ⟨ab, hr, -, -, hsize, hbytes⟩ :=
      appendBuffer_concatenates hne hfit _ (List.take_prefix 2 movingCalls)
    exact ⟨ab, hr, hsize, hbytes⟩
  · obtain ⟨ab, hr, -, -, hsize, hbytes⟩ := appendBuffer_concatenates hne hfit _ List.prefix_rfl
    exact ⟨ab, hr, hsize, hbytes⟩

end NvVaapi.Memory
