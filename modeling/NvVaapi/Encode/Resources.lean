import NvVaapi.Encode.Config

/-!
# The session and the buffers of an encode context

* `EncoderResources`: the NVENC session and the buffers of a context, with the calls that were made.
* `nvCreateContext`, `nvencDestroyIoBuffers`, `destroyContext`: how they are created and destroyed.
* `Holds`: the buffers that were created are in the arrays, and no other. Each turn of the loop that
  creates them keeps it.
* `resources_released`: a creation that fails destroys what it created, and so does
  `destroyContext`.
-/

namespace NvVaapi

open Objects (NvencStatus nvencToVaStatus nvencToVaStatus_ne_success)

/-! ## Calls -/

/-- A reply of `nvEncCreateInputBuffer` or `nvEncCreateBitstreamBuffer`. A buffer that was created
is not NULL. -/
structure BufferReply where
  nvs : NvencStatus
  buffer : Addr
  ne_zero : nvs = .success → buffer ≠ 0

inductive ResourceCall where
  | openEncodeSession (nvs : NvencStatus)
  | getPresetConfig (nvs : NvencStatus)
  | initializeEncoder (nvs : NvencStatus)
  | createInputBuffer (nvs : NvencStatus) (buffer : Addr)
  | createBitstreamBuffer (nvs : NvencStatus) (buffer : Addr)
  | destroyInputBuffer (buffer : Addr)
  | destroyBitstreamBuffer (buffer : Addr)
  | destroyEncoder
  | popCurrent
  | deleteObject
  deriving DecidableEq

namespace ResourceCall

/-- What an NVENC call that can fail returned. -/
def result : ResourceCall → NvencStatus
  | openEncodeSession nvs | getPresetConfig nvs | initializeEncoder nvs | createInputBuffer nvs _
  | createBitstreamBuffer nvs _ => nvs
  | _ => .success

/-- The input buffer that the call created. -/
def inputCreated : ResourceCall → Option Addr
  | createInputBuffer .success buffer => some buffer
  | _ => none

/-- The bitstream buffer that the call created. -/
def bitstreamCreated : ResourceCall → Option Addr
  | createBitstreamBuffer .success buffer => some buffer
  | _ => none

def inputDestroyed : ResourceCall → Option Addr
  | destroyInputBuffer buffer => some buffer
  | _ => none

def bitstreamDestroyed : ResourceCall → Option Addr
  | destroyBitstreamBuffer buffer => some buffer
  | _ => none

/-- The call destroys a buffer. -/
def DestroysBuffer : ResourceCall → Prop
  | destroyInputBuffer _ | destroyBitstreamBuffer _ => True
  | _ => False

/-- The call destroys something. -/
def Destroys : ResourceCall → Prop
  | destroyInputBuffer _ | destroyBitstreamBuffer _ | destroyEncoder | deleteObject => True
  | _ => False

end ResourceCall

/-! ## Contexts -/

/-- The part of an encode context that belongs to NVENC. The buffers are NULL or there. -/
structure EncoderResources where
  /-- `nvencEncoder` is not NULL. -/
  nvencEncoder : Bool
  nvencInputBuffers : Nat → Addr
  nvencOutputBuffers : Nat → Addr
  nvencIoBufferCount : Nat
  nvencIoBufferIndex : Nat
  /-- History: the calls, the first of them first. -/
  calls : List ResourceCall

/-- The results that `nvCreateContext` meets after `cuCtxPushCurrent`. -/
structure ContextReplies where
  openEncodeSession : NvencStatus
  getPresetConfig : NvencStatus
  initializeEncoder : NvencStatus
  createInputBuffer : Nat → BufferReply
  createBitstreamBuffer : Nat → BufferReply
  popped : Bool

namespace EncoderResources

/-- A context from `calloc`, with the environment's `NVD_ENC_IO_DEPTH`. -/
def created (ioDepth : Nat) : EncoderResources where
  nvencEncoder := false
  nvencInputBuffers := fun _ => 0
  nvencOutputBuffers := fun _ => 0
  nvencIoBufferCount := if ioDepth = 0 then 1 else min ioDepth nvencMaxIoBuffers
  nvencIoBufferIndex := 0
  calls := []

def log (st : EncoderResources) (call : ResourceCall) : EncoderResources :=
  { st with calls := st.calls ++ [call] }

variable {ρ : Type}

/-- A call that returns nothing that is looked at. -/
def call (c : ResourceCall) : Prog EncoderResources ρ Unit := Prog.update fun st => st.log c

/-- An NVENC call with its result. -/
def nvenc (c : NvencStatus → ResourceCall) (nvs : NvencStatus) :
    Prog EncoderResources ρ NvencStatus := do
  call (c nvs)
  return nvs

/-- The turn of `nvencDestroyIoBuffers` for a slot. -/
def destroySlot (i : Nat) : Prog EncoderResources ρ Unit := do
  let st ← Prog.read
  if st.nvencInputBuffers i ≠ 0 then do
    call (.destroyInputBuffer (st.nvencInputBuffers i))
    Prog.update fun st => { st with nvencInputBuffers := Function.update st.nvencInputBuffers i 0 }
  let st ← Prog.read
  if st.nvencOutputBuffers i ≠ 0 then do
    call (.destroyBitstreamBuffer (st.nvencOutputBuffers i))
    Prog.update fun st =>
      { st with nvencOutputBuffers := Function.update st.nvencOutputBuffers i 0 }

/-- The early return is the only one, so that it is a branch. -/
def nvencDestroyIoBuffers : Prog EncoderResources ρ Unit := do
  let st ← Prog.read
  if st.nvencEncoder then
    Prog.forEach (List.range nvencMaxIoBuffers) destroySlot
    Prog.update fun st => { st with nvencIoBufferCount := 0, nvencIoBufferIndex := 0 }

def nvEncDestroyEncoder : Prog EncoderResources ρ Unit := do
  call .destroyEncoder
  Prog.update fun st => { st with nvencEncoder := false }

/-- The end of each exit after a call of NVENC that failed. -/
def failContext (nvs : NvencStatus) : Prog EncoderResources Objects.VAStatus Unit := do
  call .popCurrent
  call .deleteObject
  Prog.leave (nvencToVaStatus nvs)

/-- An exit after the session was opened. -/
def failEncoder (nvs : NvencStatus) : Prog EncoderResources Objects.VAStatus Unit := do
  nvEncDestroyEncoder
  failContext nvs

/-- An exit from the loop that creates the buffers. -/
def failBuffers (nvs : NvencStatus) : Prog EncoderResources Objects.VAStatus Unit := do
  nvencDestroyIoBuffers
  failEncoder nvs

/-- The turn of `nvCreateContext` for a slot. -/
def createSlot (r : ContextReplies) (i : Nat) : Prog EncoderResources Objects.VAStatus Unit := do
  let input := r.createInputBuffer i
  let nvs ← nvenc (.createInputBuffer · input.buffer) input.nvs
  if nvs ≠ .success then
    failBuffers nvs
  Prog.update fun st =>
    { st with nvencInputBuffers := Function.update st.nvencInputBuffers i input.buffer }
  let output := r.createBitstreamBuffer i
  let nvs ← nvenc (.createBitstreamBuffer · output.buffer) output.nvs
  if nvs ≠ .success then
    failBuffers nvs
  Prog.update fun st =>
    { st with nvencOutputBuffers := Function.update st.nvencOutputBuffers i output.buffer }

/-- `nvCreateContext` in encode mode, after `cuCtxPushCurrent`. -/
def nvCreateContext (r : ContextReplies) :
    Prog EncoderResources Objects.VAStatus Objects.VAStatus := do
  let nvs ← nvenc .openEncodeSession r.openEncodeSession
  if nvs ≠ .success then
    failContext nvs
  Prog.update fun st => { st with nvencEncoder := true }
  let nvs ← nvenc .getPresetConfig r.getPresetConfig
  if nvs ≠ .success then
    failEncoder nvs
  let nvs ← nvenc .initializeEncoder r.initializeEncoder
  if nvs ≠ .success then
    failEncoder nvs
  let st ← Prog.read
  Prog.forEach (List.range st.nvencIoBufferCount) (createSlot r)
  call .popCurrent
  if !r.popped then
    Prog.leave .errorOperationFailed
  return .success

/-- `destroyContext` in encode mode, with the results of `cuCtxPushCurrent` and
`cuCtxPopCurrent`. -/
def destroyContext (pushed popped : Bool) : Prog EncoderResources Bool Bool := do
  if !pushed then
    Prog.leave false
  let st ← Prog.read
  if st.nvencEncoder then do
    nvencDestroyIoBuffers
    nvEncDestroyEncoder
  call .popCurrent
  if !popped then
    Prog.leave false
  return true

/-! ## Destroying buffers -/

variable {st st' : EncoderResources} {i n m : Nat}

/-- The calls that destroy the buffers of a slot. -/
def destroyedAt (st : EncoderResources) (i : Nat) : List ResourceCall :=
  (if st.nvencInputBuffers i ≠ 0 then [.destroyInputBuffer (st.nvencInputBuffers i)] else []) ++
    if st.nvencOutputBuffers i ≠ 0 then [.destroyBitstreamBuffer (st.nvencOutputBuffers i)] else []

theorem destroySlot_ensures : (destroySlot i : Prog EncoderResources ρ Unit).Ensures st
    (fun _ st' => st'.calls = st.calls ++ st.destroyedAt i ∧
      st'.nvencEncoder = st.nvencEncoder ∧ ∀ j, j ≠ i →
      st'.nvencInputBuffers j = st.nvencInputBuffers j ∧
      st'.nvencOutputBuffers j = st.nvencOutputBuffers j)
    fun _ _ => False := by
  unfold destroySlot call
  simp only [Prog.ensures_bind, Prog.ensures_read, Prog.ensures_ite, Prog.ensures_update,
    Prog.ensures_pure]
  unfold destroyedAt
  refine ⟨fun hi => ⟨fun ho => ?_, fun ho => ?_⟩, fun hi => ⟨fun ho => ?_, fun ho => ?_⟩⟩
  · change st.nvencOutputBuffers i ≠ 0 at ho
    rw [if_pos hi, if_pos ho]
    refine ⟨by simp [log], rfl, fun j hj => ⟨?_, ?_⟩⟩
    · exact Function.update_of_ne hj _ _
    · exact Function.update_of_ne hj _ _
  · change ¬st.nvencOutputBuffers i ≠ 0 at ho
    rw [if_pos hi, if_neg ho]
    exact ⟨by simp [log], rfl, fun j hj => ⟨Function.update_of_ne hj _ _, rfl⟩⟩
  · rw [if_neg hi, if_pos ho]
    exact ⟨by simp [log], rfl, fun j hj => ⟨rfl, Function.update_of_ne hj _ _⟩⟩
  · rw [if_neg hi, if_neg ho]
    exact ⟨by simp, trivial, fun _ _ => ⟨trivial, trivial⟩⟩

theorem destroySlots_ensures {slots : List Nat} (hn : slots.Nodup) :
    (Prog.forEach slots destroySlot : Prog EncoderResources ρ Unit).Ensures st
      (fun _ st' => st'.calls = st.calls ++ slots.flatMap st.destroyedAt ∧
        st'.nvencEncoder = st.nvencEncoder)
      fun _ _ => False := by
  induction slots generalizing st with
  | nil => exact ⟨by simp, rfl⟩
  | cons i slots ih =>
    obtain ⟨hi, hn⟩ := List.nodup_cons.mp hn
    rw [Prog.ensures_forEach_cons]
    refine destroySlot_ensures.mono (fun _ st₁ h => ?_) fun _ _ h => h
    obtain ⟨hcalls, henc, hkeep⟩ := h
    have hsame : slots.flatMap st₁.destroyedAt = slots.flatMap st.destroyedAt := by
      refine List.flatMap_congr fun j hj => ?_
      obtain ⟨hin, hout⟩ := hkeep j fun hc => hi (hc ▸ hj)
      unfold destroyedAt
      rw [hin, hout]
    refine (ih hn).mono (fun _ st₂ h => ⟨?_, h.2.trans henc⟩) fun _ _ h => h
    rw [h.1, hcalls, hsame, List.flatMap_cons, List.append_assoc]

/-- The calls that destroy all buffers. -/
def destroyed (st : EncoderResources) : List ResourceCall :=
  (List.range nvencMaxIoBuffers).flatMap st.destroyedAt

theorem nvencDestroyIoBuffers_ensures (h : st.nvencEncoder) :
    (nvencDestroyIoBuffers : Prog EncoderResources ρ Unit).Ensures st
      (fun _ st' => st'.calls = st.calls ++ st.destroyed) fun _ _ => False := by
  unfold nvencDestroyIoBuffers
  simp only [Prog.ensures_bind, Prog.ensures_read, Prog.ensures_ite, Prog.ensures_update,
    Prog.ensures_pure]
  refine ⟨fun _ => ?_, fun hn => absurd h hn⟩
  exact (destroySlots_ensures List.nodup_range).mono (fun _ _ h => h.1) fun _ _ h => h

/-! ## What was created -/

/-- The buffers in an array. -/
def stored (buffers : Nat → Addr) (n : Nat) : List Addr :=
  (List.range n).flatMap fun i => if buffers i ≠ 0 then [buffers i] else []

theorem stored_succ (buffers : Nat → Addr) :
    stored buffers (n + 1) = stored buffers n ++ if buffers n ≠ 0 then [buffers n] else [] := by
  unfold stored
  rw [List.range_succ, List.flatMap_append, List.flatMap_singleton]

theorem stored_congr {f f' : Nat → Addr} (h : ∀ j < n, f j = f' j) : stored f n = stored f' n := by
  refine List.flatMap_congr fun j hj => ?_
  rw [h j (List.mem_range.mp hj)]

/-- A buffer is stored behind the others. -/
theorem stored_update {f : Nat → Addr} {buffer : Addr} (hf : ∀ j, i ≤ j → f j = 0) (hb : buffer ≠ 0)
    (hi : i < n) :
    stored (Function.update f i buffer) n = stored f n ++ [buffer] := by
  induction n with
  | zero => omega
  | succ n ih =>
    rw [stored_succ, stored_succ, hf n (Nat.le_of_lt_succ hi), if_neg (not_not.mpr rfl),
      List.append_nil]
    obtain rfl | hlt := Nat.eq_or_lt_of_le (Nat.le_of_lt_succ hi)
    · rw [Function.update_self, if_pos hb,
        stored_congr fun j hj => Function.update_of_ne (Nat.ne_of_lt hj) _ _]
    · rw [Function.update_of_ne (Nat.ne_of_gt hlt), hf n (Nat.le_of_lt hlt),
        if_neg (not_not.mpr rfl), List.append_nil]
      exact ih hlt

/-- The session was created, and the buffers that were created are in the arrays. -/
structure Made (st : EncoderResources) : Prop where
  encoder : st.nvencEncoder
  opened : .openEncodeSession .success ∈ st.calls
  inputs :
    st.calls.filterMap ResourceCall.inputCreated = stored st.nvencInputBuffers nvencMaxIoBuffers
  outputs : st.calls.filterMap ResourceCall.bitstreamCreated =
    stored st.nvencOutputBuffers nvencMaxIoBuffers
  kept : ∀ call ∈ st.calls, ¬call.Destroys

/-- The buffers of `n` and `m` slots were created, and no call has failed. -/
structure Holds (st : EncoderResources) (n m : Nat) : Prop extends Made st where
  inputsFree : ∀ j, n ≤ j → st.nvencInputBuffers j = 0
  outputsFree : ∀ j, m ≤ j → st.nvencOutputBuffers j = 0
  succeeded : ∀ call ∈ st.calls, call.result = .success

/-- The calls `undone` destroy each buffer that the calls `made` created once, and `made` destroys
nothing. -/
structure Releases (made undone : List ResourceCall) : Prop where
  kept : ∀ call ∈ made, ¬call.Destroys
  destroys : ∀ call ∈ undone, call.DestroysBuffer
  inputs : undone.filterMap ResourceCall.inputDestroyed = made.filterMap ResourceCall.inputCreated
  outputs :
    undone.filterMap ResourceCall.bitstreamDestroyed = made.filterMap ResourceCall.bitstreamCreated

/-- What `nvencDestroyIoBuffers` destroys. -/
theorem Made.releases (h : Made st) : Releases st.calls st.destroyed := by
  refine ⟨h.kept, fun call hc => ?_, ?_, ?_⟩
  · obtain ⟨i, -, hc⟩ := List.mem_flatMap.mp hc
    unfold destroyedAt at hc
    obtain hc | hc := List.mem_append.mp hc
    · split at hc
      · obtain rfl := List.mem_singleton.mp hc
        trivial
      · cases hc
    · split at hc
      · obtain rfl := List.mem_singleton.mp hc
        trivial
      · cases hc
  · rw [h.inputs, destroyed, List.filterMap_flatMap]
    refine List.flatMap_congr fun i _ => ?_
    unfold destroyedAt
    split_ifs <;> rfl
  · rw [h.outputs, destroyed, List.filterMap_flatMap]
    refine List.flatMap_congr fun i _ => ?_
    unfold destroyedAt
    split_ifs <;> rfl

/-- A call that creates no buffer and destroys nothing. -/
theorem Made.log (h : Made st) {c : ResourceCall} (hi : c.inputCreated = none)
    (ho : c.bitstreamCreated = none)
    (hd : ¬c.Destroys) : Made (st.log c) := by
  refine ⟨h.encoder, List.mem_append_left _ h.opened, ?_, ?_, ?_⟩
  · show (st.calls ++ [c]).filterMap _ = _
    rw [List.filterMap_append, h.inputs, List.filterMap_cons_none hi]
    exact List.append_nil _
  · show (st.calls ++ [c]).filterMap _ = _
    rw [List.filterMap_append, h.outputs, List.filterMap_cons_none ho]
    exact List.append_nil _
  · show ∀ call ∈ st.calls ++ [c], ¬call.Destroys
    rw [List.forall_mem_append, List.forall_mem_singleton]
    exact ⟨h.kept, hd⟩

/-! ## Creation -/

theorem ensures_nvenc {c : NvencStatus → ResourceCall} {nvs : NvencStatus}
    {Q : NvencStatus → EncoderResources → Prop}
    {E : ρ → EncoderResources → Prop} : (nvenc c nvs).Ensures st Q E ↔ Q nvs (st.log (c nvs)) := by
  unfold nvenc call
  simp only [Prog.ensures_bind, Prog.ensures_update, Prog.ensures_pure]

theorem Holds.log (h : Holds st n m) {c : ResourceCall} (hi : c.inputCreated = none)
    (ho : c.bitstreamCreated = none) (hd : ¬c.Destroys) (hr : c.result = .success) :
    Holds (st.log c) n m :=
  { h.toMade.log hi ho hd with
    inputsFree := h.inputsFree
    outputsFree := h.outputsFree
    succeeded := List.forall_mem_append.mpr ⟨h.succeeded, List.forall_mem_singleton.mpr hr⟩ }

/-- An input buffer was created for the next slot. -/
theorem Holds.input (h : Holds st n m) (hn : n < nvencMaxIoBuffers) {buffer : Addr}
    (hb : buffer ≠ 0) :
    Holds { st.log (.createInputBuffer .success buffer) with
      nvencInputBuffers := Function.update st.nvencInputBuffers n buffer } (n + 1) m where
  encoder := h.encoder
  opened := List.mem_append_left _ h.opened
  inputs := by
    show (st.calls ++ [_]).filterMap _ = stored (Function.update _ _ _) _
    rw [List.filterMap_append, h.inputs, stored_update h.inputsFree hb hn]
    rfl
  outputs := by
    show (st.calls ++ [_]).filterMap _ = _
    rw [List.filterMap_append, h.outputs]
    exact List.append_nil _
  kept := List.forall_mem_append.mpr ⟨h.kept, List.forall_mem_singleton.mpr id⟩
  inputsFree j hj := by
    show Function.update _ _ _ j = _
    rw [Function.update_of_ne (by omega)]
    exact h.inputsFree j (by omega)
  outputsFree := h.outputsFree
  succeeded := List.forall_mem_append.mpr ⟨h.succeeded, List.forall_mem_singleton.mpr rfl⟩

/-- A bitstream buffer was created for the next slot. -/
theorem Holds.output (h : Holds st n m) (hm : m < nvencMaxIoBuffers) {buffer : Addr}
    (hb : buffer ≠ 0) :
    Holds { st.log (.createBitstreamBuffer .success buffer) with
      nvencOutputBuffers := Function.update st.nvencOutputBuffers m buffer } n (m + 1) where
  encoder := h.encoder
  opened := List.mem_append_left _ h.opened
  inputs := by
    show (st.calls ++ [_]).filterMap _ = _
    rw [List.filterMap_append, h.inputs]
    exact List.append_nil _
  outputs := by
    show (st.calls ++ [_]).filterMap _ = stored (Function.update _ _ _) _
    rw [List.filterMap_append, h.outputs, stored_update h.outputsFree hb hm]
    rfl
  kept := List.forall_mem_append.mpr ⟨h.kept, List.forall_mem_singleton.mpr id⟩
  inputsFree := h.inputsFree
  outputsFree j hj := by
    show Function.update _ _ _ j = _
    rw [Function.update_of_ne (by omega)]
    exact h.outputsFree j (by omega)
  succeeded := List.forall_mem_append.mpr ⟨h.succeeded, List.forall_mem_singleton.mpr rfl⟩

/-- An exit after a call of NVENC failed: each buffer that was created is destroyed once, and then
the session, if there is one. -/
def Undoes (vas : Objects.VAStatus) (st : EncoderResources) : Prop :=
  vas ≠ .success ∧ ∃ made undone, Releases made undone ∧ (∃ call ∈ made, call.result ≠ .success) ∧
    st.calls = made ++ undone ++
      (if .openEncodeSession .success ∈ made then [.destroyEncoder] else []) ++
      [.popCurrent, .deleteObject]

theorem failContext_undoes {nvs : NvencStatus} {made undone : List ResourceCall}
    {Q : Unit → EncoderResources → Prop}
    (hn : nvs ≠ .success) (hr : Releases made undone) (hf : ∃ call ∈ made, call.result ≠ .success)
    (hc : st.calls = made ++ undone ++
      if .openEncodeSession .success ∈ made then [.destroyEncoder] else []) :
    (failContext nvs).Ensures st Q Undoes := by
  unfold failContext call
  simp only [Prog.ensures_bind, Prog.ensures_update, Prog.ensures_leave]
  refine ⟨nvencToVaStatus_ne_success hn, made, undone, hr, hf, ?_⟩
  show st.calls ++ [_] ++ [_] = _
  rw [hc, List.append_assoc (_ ++ _)]
  rfl

/-- Without a buffer there is nothing to destroy but the session. -/
theorem failEncoder_undoes {nvs : NvencStatus} {call : ResourceCall}
    {Q : Unit → EncoderResources → Prop} (hn : nvs ≠ .success) (h : Holds st 0 0)
    (hi : call.inputCreated = none) (ho : call.bitstreamCreated = none) (hd : ¬call.Destroys)
    (hc : call.result = nvs) : (failEncoder nvs).Ensures (st.log call) Q Undoes := by
  have hmade := h.toMade.log hi ho hd
  have hfree : (st.log call).destroyed = [] := by
    refine List.flatMap_eq_nil_iff.mpr fun i _ => ?_
    have hin : (st.log call).nvencInputBuffers i = 0 := h.inputsFree i (Nat.zero_le _)
    have hout : (st.log call).nvencOutputBuffers i = 0 := h.outputsFree i (Nat.zero_le _)
    unfold destroyedAt
    rw [if_neg (not_not.mpr hin), if_neg (not_not.mpr hout)]
    rfl
  unfold failEncoder nvEncDestroyEncoder EncoderResources.call
  simp only [Prog.ensures_bind, Prog.ensures_update]
  refine failContext_undoes hn hmade.releases ⟨call,
    List.mem_append_right _ (List.mem_singleton_self _), ?_⟩ ?_
  · rwa [hc]
  · rw [hfree, if_pos hmade.opened, List.append_nil]
    rfl

theorem failBuffers_undoes {nvs : NvencStatus} {call : ResourceCall}
    {Q : Unit → EncoderResources → Prop} (hn : nvs ≠ .success) (h : Holds st n m)
    (hi : call.inputCreated = none) (ho : call.bitstreamCreated = none) (hd : ¬call.Destroys)
    (hc : call.result = nvs) : (failBuffers nvs).Ensures (st.log call) Q Undoes := by
  have hmade := h.toMade.log hi ho hd
  unfold failBuffers failEncoder nvEncDestroyEncoder EncoderResources.call
  simp only [Prog.ensures_bind, Prog.ensures_update]
  refine (nvencDestroyIoBuffers_ensures hmade.encoder).mono (fun _ st' hcalls => ?_) fun _ _ h =>
    h.elim
  refine failContext_undoes hn hmade.releases ⟨call,
    List.mem_append_right _ (List.mem_singleton_self _), ?_⟩ ?_
  · rwa [hc]
  · rw [if_pos hmade.opened, ← hcalls]
    rfl

/-- A turn of the loop creates both buffers of the slot, or what was created is destroyed. -/
theorem createSlot_ensures {r : ContextReplies} (h : Holds st i i) (hi : i < nvencMaxIoBuffers) :
    (createSlot r i).Ensures st (fun _ st' => Holds st' (i + 1) (i + 1)) Undoes := by
  have hnone {nvs : NvencStatus} (hn : nvs ≠ .success) (buffer : Addr) :
      (ResourceCall.createInputBuffer nvs buffer).inputCreated = none ∧
        (ResourceCall.createBitstreamBuffer nvs buffer).bitstreamCreated = none := by
    cases nvs with
    | success => exact absurd rfl hn
    | _ => exact ⟨rfl, rfl⟩
  unfold createSlot
  simp only [Prog.ensures_bind, ensures_nvenc, Prog.ensures_ite, Prog.ensures_update, not_not]
  refine ⟨fun hn => ?_, fun hn => ?_⟩
  · exact failBuffers_undoes hn h (hnone hn _).1 rfl id rfl
  have hinput := h.input hi ((r.createInputBuffer i).ne_zero hn)
  rw [← hn] at hinput
  refine ⟨fun hn' => ?_, fun hn' => ?_⟩
  · exact failBuffers_undoes hn' hinput rfl (hnone hn' _).2 id rfl
  · have houtput := hinput.output hi ((r.createBitstreamBuffer i).ne_zero hn')
    rw [← hn'] at houtput
    exact houtput

theorem createSlots_ensures {r : ContextReplies} (h : Holds st i i)
    (hn : i + n ≤ nvencMaxIoBuffers) :
    (Prog.forEach (List.range' i n) (createSlot r)).Ensures st (fun _ st' =>
      Holds st' (i + n) (i + n)) Undoes := by
  induction n generalizing st i with
  | zero => exact h
  | succ n ih =>
    rw [List.range'_succ, Prog.ensures_forEach_cons]
    refine (createSlot_ensures h (by omega)).mono (fun _ st' h' => ?_) fun _ _ h => h
    have hnext : i + (n + 1) = i + 1 + n := by omega
    rw [hnext]
    exact ih h' (by omega)

/-- `nvCreateContext` destroys what it created, or everything was created. -/
theorem nvCreateContext_ensures (ioDepth : Nat) (r : ContextReplies) :
    (nvCreateContext r).Returns (created ioDepth)
    fun vas st => Undoes vas st ∨ Made st ∧ ∀ call ∈ st.calls, call.result = .success := by
  unfold nvCreateContext Prog.Returns
  simp only [Prog.ensures_bind, ensures_nvenc, Prog.ensures_ite, Prog.ensures_update,
    Prog.ensures_read, not_not]
  refine ⟨fun hn => ?_, fun hn => ?_⟩
  · have hmade : Releases [.openEncodeSession r.openEncodeSession] [] :=
      ⟨List.forall_mem_singleton.mpr id, by simp, rfl, rfl⟩
    refine (failContext_undoes hn hmade ⟨_, List.mem_singleton_self _, hn⟩ ?_).mono (fun _ _ h => h)
      fun _ _ h => .inl h
    rw [if_neg (by simpa using fun hc => hn hc.symm)]
    rfl
  have hopen :
      Holds
        { (created ioDepth).log (.openEncodeSession r.openEncodeSession) with nvencEncoder := true }
      0 0 := by
    rw [hn]
    refine ⟨⟨rfl, List.mem_singleton_self _, rfl, rfl, List.forall_mem_singleton.mpr id⟩,
      ?_, ?_, ?_⟩
    · exact fun _ _ => rfl
    · exact fun _ _ => rfl
    · exact List.forall_mem_singleton.mpr rfl
  refine ⟨fun hn => ?_, fun hn => ?_⟩
  · exact (failEncoder_undoes hn hopen rfl rfl id rfl).mono (fun _ _ h => h) fun _ _ h => .inl h
  have hpreset := hopen.log (c := .getPresetConfig r.getPresetConfig) rfl rfl id hn
  refine ⟨fun hn' => ?_, fun hn' => ?_⟩
  · exact (failEncoder_undoes hn' hpreset rfl rfl id rfl).mono (fun _ _ h => h) fun _ _ h => .inl h
  have hinit := hpreset.log (c := .initializeEncoder r.initializeEncoder) rfl rfl id hn'
  have hcount : (created ioDepth).nvencIoBufferCount ≤ nvencMaxIoBuffers := by
    show (if ioDepth = 0 then 1 else min ioDepth nvencMaxIoBuffers) ≤ nvencMaxIoBuffers
    unfold nvencMaxIoBuffers
    split <;> omega
  rw [List.range_eq_range']
  refine (createSlots_ensures hinit (by rwa [Nat.zero_add])).mono (fun _ st' h => ?_) fun _ _ h =>
    .inl h
  unfold call
  simp only [Prog.ensures_update, Prog.ensures_leave, Prog.ensures_pure]
  have hpop := h.log (c := .popCurrent) rfl rfl id rfl
  exact ⟨fun _ => .inr ⟨hpop.toMade, hpop.succeeded⟩, fun _ => .inr ⟨hpop.toMade, hpop.succeeded⟩⟩

/-! ## Whole calls -/

theorem nvencDestroyIoBuffers_ends :
    (nvencDestroyIoBuffers : Prog EncoderResources ρ Unit).Ends st := by
  have hslot (i : Nat) (s : EncoderResources) :
      (destroySlot i : Prog EncoderResources ρ Unit).Ends s := by
    unfold destroySlot call
    simp
  unfold nvencDestroyIoBuffers
  simp [Prog.ends_forEach hslot]

theorem failEncoder_ends (nvs : NvencStatus) : (failEncoder nvs).Ends st := by
  unfold failEncoder nvEncDestroyEncoder failContext call
  simp

theorem createSlot_ends (r : ContextReplies) (i : Nat) : (createSlot r i).Ends st := by
  unfold createSlot failBuffers nvenc call
  simp [nvencDestroyIoBuffers_ends, failEncoder_ends]

theorem nvCreateContext_ends (r : ContextReplies) : (nvCreateContext r).Ends st := by
  unfold nvCreateContext nvenc failContext call
  simp [Prog.ends_forEach fun i s => createSlot_ends r i, failEncoder_ends]

theorem destroyContext_ends (pushed popped : Bool) : (destroyContext pushed popped).Ends st := by
  unfold destroyContext nvEncDestroyEncoder call
  simp [nvencDestroyIoBuffers_ends]

theorem destroyContext_ensures (h : st.nvencEncoder) (popped : Bool) :
    (destroyContext true popped).Returns st
    fun ok st' => ok = popped ∧
      st'.calls = st.calls ++ st.destroyed ++ [.destroyEncoder, .popCurrent] := by
  unfold destroyContext Prog.Returns nvEncDestroyEncoder call
  simp only [Prog.ensures_bind, Prog.ensures_ite, Prog.ensures_read, Prog.ensures_update,
    Prog.ensures_leave, Prog.ensures_pure]
  refine ⟨fun hp => absurd hp Bool.false_ne_true, fun _ => ⟨fun _ => ?_, fun hn => absurd h hn⟩⟩
  refine (nvencDestroyIoBuffers_ensures h).mono (fun _ st' hcalls => ?_) fun _ _ h => h.elim
  have hall : st'.calls ++ [ResourceCall.destroyEncoder] ++ [ResourceCall.popCurrent] =
      st.calls ++ st.destroyed ++ [ResourceCall.destroyEncoder, ResourceCall.popCurrent] := by
    rw [hcalls, List.append_assoc _ [_]]
    rfl
  cases popped with
  | true => exact ⟨fun hp => absurd hp Bool.false_ne_true, fun _ => ⟨rfl, hall⟩⟩
  | false => exact ⟨fun _ => ⟨rfl, hall⟩, fun hn => absurd rfl hn⟩

end EncoderResources

open EncoderResources

/-- A creation in which a call of NVENC fails undoes what it did, and what a successful one created
is destroyed by `destroyContext`, when the context can be pushed. -/
theorem resources_released (ioDepth : Nat) (r : ContextReplies) :
    ∃ vas st, (nvCreateContext r).eval (created ioDepth) = some (vas, st) ∧
      ((∃ call ∈ st.calls, call.result ≠ .success) → Undoes vas st) ∧
      (vas = .success → ∀ index popped, ∃ st' undone,
        (destroyContext true popped).eval { st with nvencIoBufferIndex := index } =
          some (popped, st') ∧
        Releases st.calls undone ∧
          st'.calls = st.calls ++ undone ++ [.destroyEncoder, .popCurrent]) := by
  obtain ⟨vas, st, heval, h⟩ :=
    Prog.Ends.returns (nvCreateContext_ends r) (nvCreateContext_ensures ioDepth r)
  refine ⟨vas, st, heval, ?_, ?_⟩
  · rintro ⟨call, hc, hfailed⟩
    obtain hundoes | ⟨-, hall⟩ := h
    · exact hundoes
    · exact absurd (hall call hc) hfailed
  · rintro rfl index popped
    obtain hundoes | ⟨hmade, -⟩ := h
    · exact absurd rfl hundoes.1
    have hthere : ({ st with nvencIoBufferIndex := index } : EncoderResources).nvencEncoder :=
      hmade.encoder
    obtain ⟨ok, st', heval', rfl, hcalls⟩ := Prog.Ends.returns (destroyContext_ends true popped)
      (destroyContext_ensures hthere popped)
    exact ⟨st', st.destroyed, heval', hmade.releases, hcalls⟩

/-- Without a session nothing of NVENC is destroyed, and neither is it when `destroyContext` cannot
push the context. -/
theorem resources_kept :
    let reply : BufferReply := ⟨.success, 1, fun _ => Nat.one_ne_zero⟩
    let failed : ContextReplies :=
      ⟨.outOfMemory, .success, .success, fun _ => reply, fun _ => reply, true⟩
    let good : ContextReplies := { failed with openEncodeSession := .success }
    (∃ vas st, (nvCreateContext failed).eval (created 1) = some (vas, st) ∧
      (∃ call ∈ st.calls, call.result ≠ .success) ∧ .destroyEncoder ∉ st.calls) ∧
    ∃ st, (nvCreateContext good).eval (created 1) = some (.success, st) ∧
      (destroyContext false true).eval st = some (false, st) ∧ .destroyEncoder ∉ st.calls := by
  intro reply failed good
  refine ⟨⟨_, _, rfl, ⟨_, List.mem_cons_self, nofun⟩, ?_⟩, ⟨_, rfl, rfl, ?_⟩⟩
  · decide
  · decide

end NvVaapi
