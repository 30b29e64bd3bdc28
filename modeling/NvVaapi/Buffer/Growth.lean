import NvVaapi.Buffer
import NvVaapi.Lib.Lts

/-!
# The calls on one append buffer

* `bufferCalls`: the appends and the resets of one buffer, from the zeroed one on.
* `GrowthEnds`: the growth loop of an append ends. `appendBuffer_isSome_iff_growthEnds` says that
  these are the appends that have a result.
* `growthEnds_iff`: in a run every growth loop ends exactly when the first append has a byte, or
  none has.
-/

namespace NvVaapi

inductive BufferCall where
  | append (src : List UInt8)
  | reset

/-- The calls on one buffer. An append that does not return is not enabled. -/
def bufferCalls : Lts AppendableBuffer BufferCall where
  init ab := ab = .empty
  step ab
    | .append src => appendBuffer ab src
    | .reset => some ab.reset

/-- The growth loop of a call ends: some number of its turns makes the room. -/
def GrowthEnds (ab : AppendableBuffer) : BufferCall → Prop
  | .append src => ab.buf = none ∨ ∃ k, ab.size + src.length ≤ growStep^[k] ab.allocated
  | .reset => True

/-- The number of bytes that a call appends. -/
def BufferCall.appended : BufferCall → Option Nat
  | append src => some src.length
  | reset => none

/-- The sizes of the appends, in their order. -/
def appendSizes (calls : List BufferCall) : List Nat := calls.filterMap BufferCall.appended

@[simp] theorem appendSizes_append (src : List UInt8) (calls : List BufferCall) :
    appendSizes (.append src :: calls) = src.length :: appendSizes calls := rfl

/-! ## One call -/

section Call

variable {ab ab' : AppendableBuffer} {src : List UInt8}

/-- The appends that have a result are those whose growth loop ends. -/
theorem appendBuffer_isSome_iff_growthEnds :
    (appendBuffer ab src).isSome ↔ GrowthEnds ab (.append src) := by
  unfold appendBuffer GrowthEnds
  split
  · next hb => simp [hb]
  · next m hm =>
    have hends := growAllocated_eq_none_iff (ab.size + src.length) ab.allocated
    rw [hm]
    split
    · next hn =>
      apply iff_of_false (by simp)
      intro h
      obtain ⟨k, hk⟩ := h.resolve_left (Option.some_ne_none m)
      have := hends.mp hn k
      omega
    · next a ha =>
      refine iff_of_true rfl (.inr ?_)
      by_contra hc
      rw [not_exists] at hc
      have hn := hends.mpr fun k => Nat.lt_of_not_le (hc k)
      cases ha.symm.trans hn

theorem growthEnds_of_some (h : appendBuffer ab src = some ab') : GrowthEnds ab (.append src) :=
  appendBuffer_isSome_iff_growthEnds.mp (Option.isSome_of_eq_some h)

theorem meets_append (h : appendBuffer ab src = some ab') (calls : List BufferCall) :
    bufferCalls.Meets GrowthEnds ab (.append src :: calls) ↔
      bufferCalls.Meets GrowthEnds ab' calls :=
  (Lts.meets_of_some calls h).trans (and_iff_right (growthEnds_of_some h))

theorem meets_reset (ab : AppendableBuffer) (calls : List BufferCall) :
    bufferCalls.Meets GrowthEnds ab (.reset :: calls) ↔
      bufferCalls.Meets GrowthEnds ab.reset calls :=
  (Lts.meets_of_some calls rfl).trans (and_iff_right trivial)

/-- A buffer that has been allocated with some capacity. -/
def AppendableBuffer.Growing (ab : AppendableBuffer) : Prop := ab.buf.isSome ∧ 2 ≤ ab.allocated

/-- A buffer that has been allocated without any capacity, as an empty first append does. -/
def AppendableBuffer.Stuck (ab : AppendableBuffer) : Prop := ab.buf.isSome ∧ ab.allocated = 0

theorem AppendableBuffer.Stuck.size (h : ab.Stuck) : ab.size = 0 := by
  have := ab.size_le
  have := h.2
  omega

/-- The first append allocates twice its size. -/
theorem appendBuffer_of_null (h : ab.buf = none) (src : List UInt8) :
    ∃ ab', appendBuffer ab src = some ab' ∧ ab'.buf.isSome ∧ ab'.allocated = src.length * 2 := by
  unfold appendBuffer
  split
  · exact ⟨_, rfl, rfl, rfl⟩
  · next m hm => cases h.symm.trans hm

/-- An append to a growing buffer returns and leaves it growing. -/
theorem AppendableBuffer.Growing.append (h : ab.Growing) (src : List UInt8) :
    ∃ ab', appendBuffer ab src = some ab' ∧ ab'.Growing := by
  obtain ⟨ab', h'⟩ := appendBuffer_some (.inr h.2) src
  refine ⟨ab', h', ?_⟩
  obtain ⟨-, hb, ha⟩ | ⟨hn, -⟩ := appendBuffer_spec h'
  · exact ⟨hb, Nat.le_trans h.2 ha⟩
  · simp [AppendableBuffer.Growing, hn] at h

/-- A stuck buffer takes an empty append only. -/
theorem AppendableBuffer.Stuck.append_nil (h : ab.Stuck) :
    ∃ ab', appendBuffer ab [] = some ab' ∧ ab'.Stuck := by
  have hfit : ab.size + ([] : List UInt8).length ≤ ab.allocated := ab.size_le
  obtain ⟨ab', h'⟩ := Option.isSome_iff_exists.mp (appendBuffer_isSome_iff.mpr (.inr hfit))
  refine ⟨ab', h', ?_⟩
  unfold appendBuffer at h'
  split at h'
  · next hn => simp [AppendableBuffer.Stuck, hn] at h
  · split at h'
    · cases h'
    · next a ha =>
      cases h'
      rw [growAllocated_of_le _ hfit] at ha
      exact ⟨rfl, (Option.some_inj.mp ha).symm.trans h.2⟩

theorem AppendableBuffer.Stuck.append_none (h : ab.Stuck) (hs : src ≠ []) :
    appendBuffer ab src = none := by
  have hp := List.length_pos_iff.mpr hs
  have hsize := h.size
  have hcap := h.2
  have hn : ab.buf ≠ none := Option.isSome_iff_ne_none.mp h.1
  rw [← Option.not_isSome_iff_eq_none, appendBuffer_isSome_iff]
  rintro ((hnull | hroom) | hroom)
  · exact hn hnull
  · omega
  · omega

end Call

/-! ## The runs -/

section Runs

variable {ab : AppendableBuffer}

theorem AppendableBuffer.Growing.meets (h : ab.Growing) (calls : List BufferCall) :
    bufferCalls.Meets GrowthEnds ab calls := by
  induction calls generalizing ab with
  | nil => trivial
  | cons call calls ih =>
    cases call with
    | append src =>
      obtain ⟨ab', h', hg⟩ := h.append src
      exact (meets_append h' calls).mpr (ih hg)
    | reset => exact (meets_reset ab calls).mpr (ih h)

theorem AppendableBuffer.Stuck.meets_iff (h : ab.Stuck) (calls : List BufferCall) :
    bufferCalls.Meets GrowthEnds ab calls ↔ ∀ n ∈ appendSizes calls, n = 0 := by
  induction calls generalizing ab with
  | nil => exact iff_of_true trivial nofun
  | cons call calls ih =>
    cases call with
    | append src =>
      rw [appendSizes_append, List.forall_mem_cons]
      by_cases hs : src = []
      · subst hs
        obtain ⟨ab', h', hstuck⟩ := h.append_nil
        rw [meets_append h', ih hstuck]
        exact (and_iff_right rfl).symm
      · have hnone := h.append_none hs
        have hends : ¬GrowthEnds ab (.append src) := by
          rw [← appendBuffer_isSome_iff_growthEnds, hnone]
          exact nofun
        rw [Lts.meets_of_none calls hnone]
        exact iff_of_false hends fun h0 => hs (List.length_eq_zero_iff.mp h0.1)
    | reset => exact (meets_reset ab calls).trans (@ih ab.reset h)

/-- What an empty first append leads to. -/
theorem meets_append_nil (h : ab.buf = none) (calls : List BufferCall) :
    bufferCalls.Meets GrowthEnds ab (.append [] :: calls) ↔ ∀ n ∈ appendSizes calls, n = 0 := by
  obtain ⟨ab', h', hb, ha⟩ := appendBuffer_of_null h []
  have hstuck : ab'.Stuck := ⟨hb, ha⟩
  exact (meets_append h' calls).trans (hstuck.meets_iff calls)

end Runs

/-- Every growth loop of a run ends exactly when the first append has a byte, or no append has
one. -/
theorem growthEnds_iff (calls : List BufferCall) :
    bufferCalls.Meets GrowthEnds .empty calls ↔
      (appendSizes calls).head? ≠ some 0 ∨ ∀ n ∈ appendSizes calls, n = 0 := by
  suffices h : ∀ ab : AppendableBuffer, ab.buf = none → (bufferCalls.Meets GrowthEnds ab calls ↔
      (appendSizes calls).head? ≠ some 0 ∨ ∀ n ∈ appendSizes calls, n = 0) from h .empty rfl
  intro ab hn
  induction calls generalizing ab with
  | nil => exact iff_of_true trivial (.inl nofun)
  | cons call calls ih =>
    cases call with
    | append src =>
      by_cases hs : src = []
      · subst hs
        simp [meets_append_nil hn]
      · obtain ⟨ab', h', hb, ha⟩ := appendBuffer_of_null hn src
        have hp := List.length_pos_iff.mpr hs
        have hg : ab'.Growing := ⟨hb, by omega⟩
        refine iff_of_true ((meets_append h' calls).mpr (hg.meets calls)) (.inl fun h0 => ?_)
        have : src.length = 0 := Option.some_inj.mp h0
        omega
    | reset => exact (meets_reset ab calls).trans (ih ab.reset hn)

/-- An empty first append leaves a capacity of 0, from which the next one never gets its byte. -/
theorem not_growthEnds : ¬∀ calls : List BufferCall, bufferCalls.Meets GrowthEnds .empty calls := by
  intro h
  have hzero := (meets_append_nil rfl [.append [0]]).mp (h [.append [], .append [0]])
  exact absurd (hzero 1 List.mem_cons_self) (by decide)

end NvVaapi
