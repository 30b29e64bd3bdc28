import NvVaapi.Codec.Dispatch

/-!
# Renderings that stay in range

* `HandlerOk`, `TurnOk`, `CallOk`: the sizes with which an access is in range.
* `renders_inRange_iff`: in a run, all accesses are in range exactly when each call meets `CallOk`.
* `handler_lastSlices`: which handlers change the slice parameters that are remembered.
* `CallConsistent`: a client that keeps to its sizes when it renders. `Fits` is the invariant with
  which `callAccesses_inRange_of_consistent` shows that it is safe.
-/

namespace NvVaapi

/-! ## When the accesses are in range -/

section Handlers

variable {va : VAHeader} {c : Codec} {mem : Memory} {buf : NVBuffer}
  {st : PictureState} {limit : Nat}

/-- The slice `s` lies in the slice data, unless it is empty. -/
def SliceInside (c : Codec) (buf : NVBuffer) (s : VASliceParameterBuffer) : Prop :=
  s.sliceDataSize.toNat + c.extra buf = 0 ∨
    s.sliceDataOffset.toNat + (s.sliceDataSize.toNat + c.extra buf) ≤ buf.size

/-- The sizes with which a handler stays in the arrays. JPEG checks the slices itself. -/
def HandlerOk (va : VAHeader) (c : Codec) (mem : Memory) (buf : NVBuffer) (st : PictureState)
    (limit : Nat) : Prop :=
  match buf.bufferType with
  | .sliceParameter => c.readsFirst → va.sizeofSliceParam c ≤ buf.size
  | .sliceData => elementsRead c mem buf st * va.sizeofSliceParam c ≤ limit ∧
    (c ≠ .jpeg → ∀ i < st.lastSliceParamsCount.toNat,
      SliceInside c buf ((mem st.lastSliceParams).slices i))
  | _ => True

/-- A JPEG frame is copied only from slices that lie in the data. -/
theorem jpegSlice_inRange {pic : VAPictureParameterBufferJPEGBaseline}
    {s : VASliceParameterBufferJPEGBaseline} (hs : SliceOk pic (UInt32.ofNat buf.size) s)
    (hb : buf.size ≤ 2 ^ 32 - 1) :
    (⟨s.sliceDataOffset.toNat, s.sliceDataSize.toNat, buf.size⟩ : Access).InRange := by
  have hsize : (UInt32.ofNat buf.size).toNat = buf.size := by
    rw [UInt32.toNat_ofNat']
    omega
  have ho := UInt32.le_iff_toNat_le.mp hs.offset
  have hn := UInt32.le_iff_toNat_le.mp hs.size
  rw [UInt32.toNat_sub_of_le _ _ hs.offset, hsize] at hn
  rw [hsize] at ho
  rw [Access.inRange_iff]
  show _ ∨ s.sliceDataOffset.toNat + s.sliceDataSize.toNat ≤ buf.size
  omega

theorem slicesCopied_inRange_iff : (∀ a ∈ slicesCopied c mem buf st, a.InRange) ↔
    (c ≠ .jpeg → ∀ i < st.lastSliceParamsCount.toNat,
      SliceInside c buf ((mem st.lastSliceParams).slices i)) := by
  unfold slicesCopied
  split
  · next hc =>
    refine iff_of_true ?_ fun h => absurd hc h
    cases st.codecData with
    | none => simp
    | some jpegCtx =>
      dsimp only
      split
      · next hok =>
        intro a ha
        obtain ⟨s, hs, rfl⟩ := List.mem_map.mp ha
        exact jpegSlice_inRange (hok.1.slice s hs) hok.2
      · simp
  · next hc =>
    simp only [List.mem_map, List.mem_range, forall_exists_index, and_imp, forall_apply_eq_imp_iff₂,
      ne_eq, hc, not_false_eq_true, forall_const, Access.inRange_iff, sliceAccess,
        SliceInside, Codec.extra]

theorem handlerAccesses_inRange_iff :
    (∀ a ∈ handlerAccesses va c mem buf st limit, a.InRange) ↔ HandlerOk va c mem buf st limit := by
  unfold handlerAccesses HandlerOk
  cases buf.bufferType with
  | sliceParameter =>
    dsimp only
    split
    · next h =>
      rw [elementAccesses_inRange_iff, Nat.one_mul]
      exact ⟨fun hle _ => hle, fun hle => hle h⟩
    · next h => simp [h]
  | sliceData =>
    show (∀ a ∈ dataAccesses va c mem buf st limit, a.InRange) ↔ _
    unfold dataAccesses
    rw [List.forall_mem_append, elementAccesses_inRange_iff, slicesCopied_inRange_iff]
  | _ => simp

end Handlers

/-! ## Whole runs -/

namespace RenderWorld

variable (va : VAHeader) (c : Codec) (mem : Memory) (w : RenderWorld)

/-- The turn for the buffer `id` stays in the handler table, and its handler in the arrays. -/
def TurnOk (id : Nat) : Prop :=
  ∀ b, w.find id = some b → b.ptr ≠ 0 → b.type < va.vaBufferTypeMax ∧
    HandlerOk va c mem (b.toNVBuffer va) w.picture w.sliceParamsSize

/-- Each buffer meets `ok` in its turn. -/
def EachTurn (ok : RenderWorld → Nat → Prop) (w : RenderWorld) : List Nat → Prop
  | [] => True
  | id :: ids => ok w id ∧ ∀ w', w.renderTurn va c mem id = some w' → w'.EachTurn ok ids

/-- The accesses for the buffers. When a handler does not return, some of the last ones are not
made. -/
def renderAccesses (w : RenderWorld) : List Nat → List Access
  | [] => []
  | id :: ids => w.turnAccesses va c mem id ++
    match w.renderTurn va c mem id with
    | none => []
    | some w' => w'.renderAccesses ids

def callAccesses : RenderCall → List Access
  | .renderPicture mem ids => w.renderAccesses va c mem ids
  | _ => []

/-- What a rendering relies on. -/
def CallOk : RenderCall → Prop
  | .renderPicture mem ids => w.EachTurn va c mem (TurnOk va c mem) ids
  | _ => True

variable {va c mem w}

theorem turnAccesses_inRange_iff {id : Nat} :
    (∀ a ∈ w.turnAccesses va c mem id, a.InRange) ↔ w.TurnOk va c mem id := by
  unfold turnAccesses TurnOk
  cases w.find id with
  | none => simp
  | some b =>
    simp only [Option.some.injEq, forall_eq']
    split
    · next h0 => simp [h0]
    · next h0 =>
      rw [List.forall_mem_cons, handlerAccesses_inRange_iff, Access.inRange_iff]
      simp only [Nat.one_ne_zero, false_or, ne_eq, h0, not_false_eq_true, forall_const,
        Nat.succ_le_iff]

theorem renderAccesses_inRange_iff {ids : List Nat} :
    (∀ a ∈ w.renderAccesses va c mem ids, a.InRange) ↔
      w.EachTurn va c mem (TurnOk va c mem) ids := by
  induction ids generalizing w with
  | nil => simp [renderAccesses, EachTurn]
  | cons id ids ih =>
    unfold renderAccesses EachTurn
    rw [List.forall_mem_append, turnAccesses_inRange_iff]
    refine and_congr_right fun _ => ?_
    cases w.renderTurn va c mem id with
    | none => simp
    | some w' => simpa using ih

/-- Exactly when the call meets its condition, all of its accesses are in range. -/
theorem callAccesses_inRange_iff {call : RenderCall} :
    (∀ a ∈ w.callAccesses va c call, a.InRange) ↔ w.CallOk va c call := by
  cases call with
  | renderPicture mem ids => exact renderAccesses_inRange_iff
  | _ => simp [callAccesses, CallOk]

theorem renderTurn_accesses {w' : RenderWorld} {id : Nat} (h : w.renderTurn va c mem id = some w') :
    w'.accesses = w.accesses ++ w.turnAccesses va c mem id := by
  obtain ⟨st, -, rfl⟩ := Option.map_eq_some_iff.mp h
  rfl

theorem nvRenderPicture_accesses {w' : RenderWorld} {ids : List Nat}
    (h : w.nvRenderPicture va c mem ids = some w') :
    w'.accesses = w.accesses ++ w.renderAccesses va c mem ids := by
  induction ids generalizing w with
  | nil =>
    obtain rfl : w = w' := Option.some.inj h
    simp [renderAccesses]
  | cons id ids ih =>
    obtain ⟨w₁, h₁, h₂⟩ := Option.bind_eq_some_iff.mp h
    replace h₁ : w.renderTurn va c mem id = some w₁ := h₁
    rw [ih h₂, renderTurn_accesses h₁, List.append_assoc, renderAccesses, h₁]

/-- The history of a step. -/
theorem step_accesses {w' : RenderWorld} {call : RenderCall}
    (h : renderStep va c w call = some w') :
    w'.accesses = w.accesses ++ w.callAccesses va c call := by
  cases call with
  | createBuffer id a =>
    obtain ⟨-, h⟩ := Option.ite_none_right_eq_some.mp h
    obtain rfl := Option.some.inj h
    show (w.nvCreateBuffer va id a).accesses = _ ++ []
    rw [List.append_nil]
    unfold nvCreateBuffer
    cases a.alloc <;> rfl
  | bufferSetNumElements id n =>
    obtain rfl := Option.some.inj h
    exact (List.append_nil _).symm
  | beginPicture idx =>
    obtain rfl := Option.some.inj h
    exact (List.append_nil _).symm
  | renderPicture mem ids => exact nvRenderPicture_accesses h
  | endPicture decoder pushed =>
    obtain rfl := Option.some.inj h
    exact (List.append_nil _).symm

end RenderWorld

/-- In a run, and in a call after it that may not return, all accesses are in range exactly when
each call meets its condition. -/
theorem renders_inRange_iff {va : VAHeader} {c : Codec} {calls : List RenderCall}
    {w₀ w : RenderWorld} (h0 : (c.dispatching va).init w₀)
    (hr : (c.dispatching va).run w₀ calls = some w) (last : RenderCall) :
    (∀ a ∈ w.accesses ++ w.callAccesses va c last, a.InRange) ↔
      (c.dispatching va).Meets (fun w call => w.CallOk va c call) w₀ calls ∧
        w.CallOk va c last := by
  have hstep (w : RenderWorld) (call : RenderCall) (w' : RenderWorld)
      (hs : (c.dispatching va).step w call = some w') :
      (∀ a ∈ w'.accesses, a.InRange) ↔ (∀ a ∈ w.accesses, a.InRange) ∧ w.CallOk va c call := by
    rw [RenderWorld.step_accesses hs, List.forall_mem_append, RenderWorld.callAccesses_inRange_iff]
  have hrun := Lts.run_iff_meets (I := fun _ => True) (P := fun w => ∀ a ∈ w.accesses, a.InRange)
    (fun _ _ _ _ _ _ => trivial) (fun w call w' _ _ hs =>
      hstep w call w' hs) trivial (Lts.meets_true _ _) hr
  obtain ⟨width, height, rfl⟩ := h0
  rw [List.forall_mem_append, RenderWorld.callAccesses_inRange_iff, hrun]
  simp

/-! Renderings of MPEG-2. -/

/-- The header, as far as MPEG-2 needs it. -/
def plainHeader : VAHeader where
  vaBufferTypeMax := 61
  vaEncCodedBufferType := 21
  bufferType
    | 0 => .pictureParameter
    | 1 => .iqMatrix
    | 2 => .bitPlane
    | 4 => .sliceParameter
    | 5 => .sliceData
    | 12 => .huffmanTable
    | 13 => .probability
    | _ => .other
  sizeofSliceParam _ := 48

def createPlain (id type : Nat) (size numElements : UInt32) : RenderCall :=
  .createBuffer id ⟨.decode .mpeg2, type, size, numElements, 0, some (id * 4096)⟩

/-- Every slice has the given range. -/
def slicesAt (offset size : UInt32) : Memory := fun _ =>
  { (default : ClientData) with
    slices := fun _ =>
      { (default : VASliceParameterBuffer) with sliceDataOffset := offset, sliceDataSize := size } }

def plainWorld : RenderWorld := ⟨[], .init 16 16, []⟩

def accessesAfter (calls : List RenderCall) : Option (List Access) :=
  ((Codec.mpeg2.dispatching plainHeader).run plainWorld calls).map RenderWorld.accesses

theorem renders_inRange_iff_one : ∃ w, (Codec.mpeg2.dispatching plainHeader).run plainWorld
      [createPlain 1 4 48 1, createPlain 2 5 16 1, .renderPicture (slicesAt 4 12) [1, 2]] = some w ∧
    (Codec.mpeg2.dispatching plainHeader).Meets (fun w call =>
      w.CallOk plainHeader .mpeg2 call) plainWorld
      [createPlain 1 4 48 1, createPlain 2 5 16 1, .renderPicture (slicesAt 4 12) [1, 2]] := by
  obtain ⟨w, hr, ha⟩ : ∃ w, (Codec.mpeg2.dispatching plainHeader).run plainWorld
      [createPlain 1 4 48 1, createPlain 2 5 16 1, .renderPicture (slicesAt 4 12) [1, 2]] = some w ∧
      ∀ a ∈ w.accesses, a.InRange := ⟨_, rfl, by decide⟩
  exact ⟨w, hr, ((renders_inRange_iff ⟨16, 16, rfl⟩ hr (.bufferSetNumElements 1 2)).mp
    (by simpa [RenderWorld.callAccesses] using ha)).1⟩

/-- A type that is not in the header, an element that was added after the allocation, and a slice
that ends behind the data. -/
theorem renders_outOfRange :
    accessesAfter [createPlain 1 4096 16 1, .renderPicture default [1]] = some [⟨4096, 1, 61⟩] ∧
    accessesAfter [createPlain 1 4 48 1, createPlain 2 5 16 1, .bufferSetNumElements 1 2,
        .renderPicture (slicesAt 0 4) [1, 2]] =
      some [⟨4, 1, 61⟩, ⟨5, 1, 61⟩, ⟨0, 48, 48⟩, ⟨48, 48, 48⟩, ⟨0, 4, 16⟩, ⟨0, 4, 16⟩] ∧
    accessesAfter [createPlain 1 4 48 1, createPlain 2 5 16 1,
      .renderPicture (slicesAt 14 4) [1, 2]] =
      some [⟨4, 1, 61⟩, ⟨5, 1, 61⟩, ⟨0, 48, 48⟩, ⟨14, 4, 16⟩] ∧
    ¬(⟨4096, 1, 61⟩ : Access).InRange ∧ ¬(⟨48, 48, 48⟩ : Access).InRange ∧
    ¬(⟨14, 4, 16⟩ : Access).InRange := by
  decide

/-! ## Clients that keep to their sizes -/

/-- The slice parameters that were rendered last. -/
def PictureState.lastSlices (st : PictureState) : Ptr × UInt32 :=
  (st.lastSliceParams, st.lastSliceParamsCount)

theorem sliceData_lastSlices {c : Codec} {func : HandlerFunc} {mem : Memory} {buf : NVBuffer}
    {st st' : PictureState} (hf : c.nvCodec.handlers .sliceData = some func)
    (h : func mem buf st = some st') : st'.lastSlices = st.lastSlices := by
  by_cases hc : c ∈ sliceCodecs
  · obtain ⟨func', hf', heq⟩ := sliceData_eq hc
    obtain rfl : func' = func := Option.some.inj (hf'.symm.trans hf)
    rw [heq] at h
    have hstart : (c.startSlices mem buf st).lastSlices = st.lastSlices := by
      unfold Codec.startSlices
      split <;> rfl
    refine List.foldlM_keeps (P := fun st' =>
      st'.lastSlices = st.lastSlices) (fun st₁ i st₂ h₁ h₂ => ?_)
      hstart h
    obtain ⟨_, _, rfl, -⟩ := copySlice_some rfl h₂
    exact h₁
  · cases c with
    | av1 =>
      cases hf
      obtain ⟨⟨st₁, n⟩, h₁, h₂⟩ := Option.bind_eq_some_iff.mp h
      cases h₂
      refine List.foldlM_keeps (P := fun p : PictureState × UInt32 =>
        p.1.lastSlices = st.lastSlices)
        (fun p i p' hp h₃ => ?_) rfl h₁
      obtain ⟨_, -, h₃⟩ := Option.bind_eq_some_iff.mp h₃
      obtain ⟨_, -, h₃⟩ := Option.bind_eq_some_iff.mp h₃
      obtain ⟨_, -, h₃⟩ := Option.bind_eq_some_iff.mp h₃
      cases h₃
      exact hp
    | jpeg =>
      cases hf
      unfold copyJPEGSliceData at h
      split at h
      · cases h
        rfl
      · obtain ⟨st₁, h₁, h⟩ := Option.bind_eq_some_iff.mp h
        obtain ⟨_, -, h⟩ := Option.bind_eq_some_iff.mp h
        obtain ⟨_, rfl, -⟩ := appendOffset_some h₁
        cases h
        rfl
    | _ => exact absurd (by decide) hc

/-- Slice parameters are remembered with their number of elements, and only they. -/
theorem handler_lastSlices {c : Codec} {t : VABufferType} {func : HandlerFunc} {mem : Memory}
    {buf : NVBuffer} {st st' : PictureState} (hf : c.nvCodec.handlers t = some func)
    (h : func mem buf st = some st') :
    st'.lastSlices = if t = .sliceParameter then (buf.ptr, buf.elements) else st.lastSlices := by
  by_cases hd : t = .sliceData
  · subst hd
    exact sliceData_lastSlices hf h
  · cases c <;> cases t <;> first | exact absurd rfl hd | cases hf <;> cases h <;> rfl

namespace RenderWorld

variable (va : VAHeader) (c : Codec) (mem : Memory) (w : RenderWorld)

/-- The buffer that is rendered has a type of the header. Its elements, as they are counted now, fit
into it when it has slice parameters, and its slices when it has slice data. -/
def TurnConsistent (id : Nat) : Prop :=
  ∀ b, w.find id = some b → b.ptr ≠ 0 → b.type < va.vaBufferTypeMax ∧
    (va.typeOf b.type = .sliceParameter →
      va.sizeofSliceParam c ≤ b.size ∧ b.elements.toNat * va.sizeofSliceParam c ≤ b.size) ∧
    (va.typeOf b.type = .sliceData → ∀ i < w.picture.lastSliceParamsCount.toNat,
      SliceInside c (b.toNVBuffer va) ((mem w.picture.lastSliceParams).slices i))

def CallConsistent : RenderCall → Prop
  | .renderPicture mem ids => w.EachTurn va c mem (TurnConsistent va c mem) ids
  | _ => True

/-- The buffers' memory is their own, and the remembered elements fit into theirs. -/
structure Fits : Prop where
  unique : ∀ a ∈ w.buffers, ∀ b ∈ w.buffers, a.ptr = b.ptr → a.ptr ≠ 0 → a = b
  params : w.picture.lastSliceParamsCount.toNat * va.sizeofSliceParam c ≤ w.sliceParamsSize

variable {va c mem w}

theorem elementsRead_le {buf : NVBuffer} {st : PictureState} :
    elementsRead c mem buf st ≤ st.lastSliceParamsCount.toNat := by
  unfold elementsRead
  split
  · split
    · exact Nat.zero_le _
    · split
      · exact Nat.le_trans List.countP_le_length (by simp)
      · exact Nat.zero_le _
  · exact Nat.le_refl _

theorem TurnConsistent.turnOk {id : Nat} (h : w.TurnConsistent va c mem id) (hf : w.Fits va c) :
    w.TurnOk va c mem id := by
  intro b hb hp
  obtain ⟨ht, hparams, hdata⟩ := h b hb hp
  refine ⟨ht, ?_⟩
  unfold HandlerOk
  show match va.typeOf b.type with
    | .sliceParameter => _
    | .sliceData => _
    | _ => _
  cases hty : va.typeOf b.type with
  | sliceParameter => exact fun _ => (hparams hty).1
  | sliceData =>
    exact ⟨Nat.le_trans (Nat.mul_le_mul_right _ elementsRead_le) hf.params, fun _ => hdata hty⟩
  | _ => trivial

/-- The buffer with an id is the one that its memory belongs to. -/
theorem Fits.find_ptr (hf : w.Fits va c) {id : Nat} {b : ClientBuffer} (hb : w.find id = some b)
    (hp : b.ptr ≠ 0) : w.buffers.find? (fun b' => b'.ptr = b.ptr) = some b := by
  have hmem : b ∈ w.buffers := List.mem_of_find?_eq_some hb
  cases hfind : w.buffers.find? fun b' => b'.ptr = b.ptr with
  | none => simpa using List.find?_eq_none.mp hfind b hmem
  | some b' =>
    have hptr : b'.ptr = b.ptr := by simpa using List.find?_some hfind
    rw [hf.unique b' (List.mem_of_find?_eq_some hfind) b hmem hptr (hptr ▸ hp)]

/-- A turn changes what is remembered only when it is for slice parameters. -/
theorem renderTurn_fits {w' : RenderWorld} {id : Nat} (hf : w.Fits va c)
    (hc : w.TurnConsistent va c mem id) (h : w.renderTurn va c mem id = some w') :
    w'.Fits va c := by
  obtain ⟨st, hst, rfl⟩ := Option.map_eq_some_iff.mp h
  refine ⟨hf.unique, ?_⟩
  have hkeep (hl : st.lastSlices = w.picture.lastSlices) : st.lastSliceParamsCount.toNat *
      va.sizeofSliceParam c ≤ sliceParamsSize { w with picture := st } := by
    obtain ⟨hptr, hcount⟩ := Prod.mk.inj hl
    unfold sliceParamsSize
    rw [hptr, hcount]
    exact hf.params
  obtain rfl | ⟨buf, func, hbuf, hp, hfunc, hst⟩ := renderBuffer_cases hst
  · exact hkeep rfl
  · obtain ⟨b, hb, rfl⟩ := Option.map_eq_some_iff.mp hbuf
    have hl := handler_lastSlices hfunc hst
    split at hl
    · next hty =>
      obtain ⟨hptr, hcount⟩ := Prod.mk.inj hl
      show st.lastSliceParamsCount.toNat * _ ≤
          ((w.buffers.find? fun b' => b'.ptr = st.lastSliceParams).map
        ClientBuffer.size).getD 0
      rw [hptr, hcount]
      have hfind := hf.find_ptr hb hp
      show _ ≤ ((w.buffers.find? fun b' => b'.ptr = b.ptr).map ClientBuffer.size).getD 0
      rw [hfind]
      exact ((hc b hb hp).2.1 hty).2
    · exact hkeep hl

theorem eachTurn_ok {ids : List Nat} (hf : w.Fits va c)
    (hc : w.EachTurn va c mem (TurnConsistent va c mem) ids) :
    w.EachTurn va c mem (TurnOk va c mem) ids := by
  induction ids generalizing w with
  | nil => trivial
  | cons id ids ih =>
    exact ⟨hc.1.turnOk hf, fun w' h => ih (renderTurn_fits hf hc.1 h) (hc.2 w' h)⟩

theorem nvRenderPicture_fits {w' : RenderWorld} {ids : List Nat} (hf : w.Fits va c)
    (hc : w.EachTurn va c mem (TurnConsistent va c mem) ids)
    (h : w.nvRenderPicture va c mem ids = some w') : w'.Fits va c := by
  induction ids generalizing w with
  | nil =>
    obtain rfl := Option.some.inj h
    exact hf
  | cons id ids ih =>
    obtain ⟨w₁, h₁, h₂⟩ := Option.bind_eq_some_iff.mp h
    exact ih (renderTurn_fits hf hc.1 h₁) (hc.2 w₁ h₁) h₂

theorem nvCreateBuffer_fits {id : Nat} {a : CreateBuffer} (hf : w.Fits va c) (hfree : w.Free id a) :
    (w.nvCreateBuffer va id a).Fits va c := by
  unfold nvCreateBuffer
  cases ha : a.alloc with
  | none => exact hf
  | some alloc =>
    have hfresh := hfree.2 alloc ha
    refine ⟨?_, ?_⟩
    · simp only [List.mem_append, List.mem_singleton]
      rintro x (hx | rfl) y (hy | rfl) hptr h0
      · exact hf.unique x hx y hy hptr h0
      · dsimp only at hptr
        split at hptr
        · exact absurd hptr h0
        · exact absurd hptr (hfresh.2 x hx)
      · dsimp only at hptr h0
        split at hptr
        · next hcoded => simp [hcoded] at h0
        · exact absurd hptr.symm (hfresh.2 y hy)
      · rfl
    · have hparams := hf.params
      unfold sliceParamsSize at hparams ⊢
      rw [List.find?_append]
      cases hfind : w.buffers.find? fun b => b.ptr = w.picture.lastSliceParams with
      | some b => simpa [hfind] using hparams
      | none =>
        rw [hfind] at hparams
        exact Nat.le_trans hparams (Nat.zero_le _)

theorem setNumElements_fits {id : Nat} {n : UInt32} (hf : w.Fits va c) :
    (w.nvBufferSetNumElements id n).Fits va c := by
  refine ⟨?_, ?_⟩
  · simp only [nvBufferSetNumElements, List.mem_map]
    rintro _ ⟨x, hx, rfl⟩ _ ⟨y, hy, rfl⟩ hptr h0
    have hxy : x = y := by
      refine hf.unique x hx y hy ?_ ?_
      · split at hptr <;> split at hptr <;> exact hptr
      · split at h0 <;> exact h0
    rw [hxy]
  · have hsize : (w.nvBufferSetNumElements id n).sliceParamsSize = w.sliceParamsSize := by
      unfold sliceParamsSize nvBufferSetNumElements
      rw [List.find?_map]
      have hptr : ((fun b : ClientBuffer => decide (b.ptr = w.picture.lastSliceParams)) ∘
          fun b => if b.id = id then { b with elements := n } else b) =
          fun b => decide (b.ptr = w.picture.lastSliceParams) := by
        funext b
        show decide ((if b.id = id then { b with elements := n } else b).ptr = _) = _
        split <;> rfl
      show (((w.buffers.find? (_ ∘ _)).map _).map ClientBuffer.size).getD 0 = _
      rw [hptr]
      cases w.buffers.find? fun b => b.ptr = w.picture.lastSliceParams with
      | none => rfl
      | some b =>
        show ((if b.id = id then { b with elements := n } else b).size) = b.size
        split <;> rfl
    rw [hsize]
    exact hf.params

theorem fits_step {w' : RenderWorld} {call : RenderCall} (hf : w.Fits va c)
    (hc : w.CallConsistent va c call) (h : renderStep va c w call = some w') : w'.Fits va c := by
  cases call with
  | createBuffer id a =>
    obtain ⟨hfree, h⟩ := Option.ite_none_right_eq_some.mp h
    obtain rfl := Option.some.inj h
    exact nvCreateBuffer_fits hf hfree
  | bufferSetNumElements id n =>
    obtain rfl := Option.some.inj h
    exact setNumElements_fits hf
  | beginPicture idx =>
    obtain rfl := Option.some.inj h
    refine ⟨hf.unique, ?_⟩
    have hparams := hf.params
    unfold sliceParamsSize at hparams ⊢
    rw [beginPicture_cases]
    dsimp only
    split
    · simp [resetJPEGPictureState]
    · exact hparams
  | renderPicture mem ids => exact nvRenderPicture_fits hf hc h
  | endPicture decoder pushed =>
    obtain rfl := Option.some.inj h
    refine ⟨hf.unique, ?_⟩
    have hparams := hf.params
    unfold sliceParamsSize at hparams ⊢
    unfold endPicture
    split <;> exact hparams

/-- A client that keeps to its sizes is safe, whatever it does between its renderings: the elements
are counted when they are rendered, and their buffer does not change its size. -/
theorem callAccesses_inRange_of_consistent {call : RenderCall}
    (h : (c.dispatching va).ReachWhen (fun w call => w.CallConsistent va c call) w)
    (hc : w.CallConsistent va c call) : ∀ a ∈ w.callAccesses va c call, a.InRange := by
  have hf : w.Fits va c := h.invariant (I := fun w => w.Fits va c)
    (fun _ ⟨_, _, h0⟩ => h0 ▸ ⟨fun _ ha => by simp at ha, by simp [PictureState.init]⟩)
    fun _ _ _ hf hc hs => fits_step hf hc hs
  rw [callAccesses_inRange_iff]
  cases call with
  | renderPicture mem ids => exact eachTurn_ok hf hc
  | _ => trivial

end RenderWorld

end NvVaapi
