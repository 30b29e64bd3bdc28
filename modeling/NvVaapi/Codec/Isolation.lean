import NvVaapi.Codec.Slices
import NvVaapi.Jpeg.Frame
import Mathlib.Data.List.Induction

/-!
# Isolation of pictures

What the decoder gets at `nvEndPicture`, as a function of what was rendered since `nvBeginPicture`.

* `Agree`: two states that hand over the same picture, and go on doing so. `renderBuffer_agree` is
  one buffer, `renders_agree` all buffers of a picture.
* `Closed`: the pictures of a history were all ended before the next one began.
* `submission_isolated`: after closed histories the picture depends on the rendered buffers, on the
  JPEG tables and on the VP8 flag.
-/

namespace NvVaapi

/-- The two states hold the same picture. `seen` says that slice parameters were rendered. -/
structure Agree (c : Codec) (seen : Prop) (st₁ st₂ : PictureState) : Prop where
  bitstream : st₁.bitstreamBuffer.bytes = st₂.bitstreamBuffer.bytes
  sliceOffsets : st₁.sliceOffsets.bytes = st₂.sliceOffsets.bytes
  nNumSlices : st₁.pPicParams.nNumSlices = st₂.pPicParams.nNumSlices
  nBitstreamDataLen : st₁.pPicParams.nBitstreamDataLen = st₂.pPicParams.nBitstreamDataLen
  vp8FrameType : st₁.pPicParams.vp8FrameType = st₂.pPicParams.vp8FrameType
  lastSliceParams : seen → st₁.lastSliceParams = st₂.lastSliceParams
  lastSliceParamsCount : seen → st₁.lastSliceParamsCount = st₂.lastSliceParamsCount
  firstKeyframeValid : c = .vp8 → st₁.firstKeyframeValid = st₂.firstKeyframeValid
  jpegContext : c = .jpeg → getJPEGContext st₁ = getJPEGContext st₂

variable {c : Codec} {seen : Prop} {st₁ st₂ st₁' st₂' : PictureState}

theorem Agree.submission (h : Agree c seen st₁ st₂) : st₁.submission = st₂.submission := by
  rw [PictureState.submission, h.bitstream, h.sliceOffsets, h.nNumSlices, h.nBitstreamDataLen]
  rfl

theorem Agree.size (h : Agree c seen st₁ st₂) :
    st₁.bitstreamBuffer.size = st₂.bitstreamBuffer.size := by
  rw [← AppendableBuffer.length_bytes, h.bitstream, AppendableBuffer.length_bytes]

/-! ## Handlers that append nothing -/

/-- A handler other than the slice-data one. -/
theorem handler_agree {t : VABufferType} {func : HandlerFunc} {mem : Memory} {buf : NVBuffer}
    (ht : t ≠ .sliceData) (hf : c.nvCodec.handlers t = some func) (h : Agree c seen st₁ st₂)
    (h₁ : func mem buf st₁ = some st₁') (h₂ : func mem buf st₂ = some st₂') :
    Agree c (seen ∨ t = .sliceParameter) st₁' st₂' := by
  obtain ⟨hb, ho, hn, hl, hv, hp, hpc, hk, hj⟩ := h
  cases c <;> cases t <;> first
    | exact absurd rfl ht
    | cases hf <;> cases h₁ <;> cases h₂ <;>
        refine ⟨hb, ho, ?_, hl, ?_, ?_, ?_, ?_, ?_⟩ <;> first
        -- most fields are those of the states before
        | exact hn
        | exact hv
        | exact hk
        | exact hj
        | simp_all [rememberSlices, getJPEGContext]

theorem Agree.mono {seen' : Prop} (h : Agree c seen st₁ st₂) (hs : seen' → seen) :
    Agree c seen' st₁ st₂ :=
  { h with
    lastSliceParams := fun hp => h.lastSliceParams (hs hp)
    lastSliceParamsCount := fun hp => h.lastSliceParamsCount (hs hp) }

/-! ## The slice loops -/

/-- Only VP8 looks at the flag. -/
theorem slicePieces_congr {isKeyFrame v₁ v₂ : Bool} (hv : c = .vp8 → v₁ = v₂) (mem : Memory)
    (buf : NVBuffer) (s : VASliceParameterBuffer) :
    c.slicePieces isKeyFrame v₁ mem buf s = c.slicePieces isKeyFrame v₂ mem buf s := by
  cases c with
  | vp8 => rw [hv rfl]
  | _ => rfl

theorem copySlice_agree {mem : Memory} {buf : NVBuffer} {s : VASliceParameterBuffer}
    (h : Agree c seen st₁ st₂) (h₁ : c.copySlice mem buf s st₁ = some st₁')
    (h₂ : c.copySlice mem buf s st₂ = some st₂') : Agree c seen st₁' st₂' := by
  obtain ⟨so₁, bb₁, rfl, -, ho₁, hb₁⟩ := copySlice_some rfl h₁
  obtain ⟨so₂, bb₂, rfl, -, ho₂, hb₂⟩ := copySlice_some rfl h₂
  have hk := h.firstKeyframeValid
  have hv : c = .vp8 →
      c.keyframeValid (!st₂.pPicParams.vp8FrameType) st₁.firstKeyframeValid mem buf s =
      c.keyframeValid (!st₂.pPicParams.vp8FrameType) st₂.firstKeyframeValid mem buf s :=
    fun hc => by rw [hk hc]
  rw [h.vp8FrameType, slicePieces_congr hv] at hb₁
  refine { h with
    bitstream := ?_, sliceOffsets := ?_, nBitstreamDataLen := ?_, firstKeyframeValid := ?_ }
  · exact hb₁.trans (h.bitstream ▸ hb₂.symm)
  · exact ho₁.trans (h.sliceOffsets ▸ h.size ▸ ho₂.symm)
  · simp only [PictureState.addBytes, h.vp8FrameType, slicePieces_congr hv, h.nBitstreamDataLen]
  · intro hc
    simp only [PictureState.addBytes, h.vp8FrameType, hk hc]

theorem startSlices_agree (mem : Memory) (buf : NVBuffer) (h : Agree c seen st₁ st₂) :
    Agree c seen (c.startSlices mem buf st₁) (c.startSlices mem buf st₂) := by
  unfold Codec.startSlices
  split
  · exact ⟨h.bitstream, h.sliceOffsets, h.nNumSlices, h.nBitstreamDataLen, h.vp8FrameType,
      h.lastSliceParams, h.lastSliceParamsCount, h.firstKeyframeValid, h.jpegContext⟩
  · exact h

theorem forSlices_agree {mem : Memory} {buf : NVBuffer} (hs : seen) (h : Agree c seen st₁ st₂)
    (h₁ : forSlices mem (c.copySlice mem buf) st₁ = some st₁')
    (h₂ : forSlices mem (c.copySlice mem buf) st₂ = some st₂') : Agree c seen st₁' st₂' := by
  rw [forSlices, h.lastSliceParams hs, h.lastSliceParamsCount hs] at h₁
  rw [forSlices] at h₂
  refine List.foldlM_agree (R := Agree c seen) ?_ h h₁ h₂
  intro s t i s' t' h h₁ h₂
  exact copySlice_agree h h₁ h₂

theorem sliceCodec_agree (hc : c ∈ sliceCodecs) {func : HandlerFunc} {mem : Memory} {buf : NVBuffer}
    (hf : c.nvCodec.handlers .sliceData = some func) (hs : seen) (h : Agree c seen st₁ st₂)
    (h₁ : func mem buf st₁ = some st₁') (h₂ : func mem buf st₂ = some st₂') :
    Agree c seen st₁' st₂' := by
  obtain ⟨slice, hslice, hloop⟩ := sliceData_eq hc
  obtain rfl : slice = func := Option.some_inj.mp (hslice.symm.trans hf)
  rw [hloop] at h₁ h₂
  exact forSlices_agree hs (startSlices_agree mem buf h) h₁ h₂

theorem copyAV1SliceData_agree {mem : Memory} {buf : NVBuffer} (hs : seen)
    (h : Agree .av1 seen st₁ st₂) (h₁ : copyAV1SliceData mem buf st₁ = some st₁')
    (h₂ : copyAV1SliceData mem buf st₂ = some st₂') : Agree .av1 seen st₁' st₂' := by
  obtain ⟨⟨s₁, o₁⟩, hl₁, h₁⟩ := Option.bind_eq_some_iff.mp h₁
  obtain ⟨⟨s₂, o₂⟩, hl₂, h₂⟩ := Option.bind_eq_some_iff.mp h₂
  cases h₁
  cases h₂
  rw [h.lastSliceParams hs, h.lastSliceParamsCount hs, h.size] at hl₁
  have hend : Agree .av1 seen s₁ s₂ ∧ o₁ = o₂ := by
    refine List.foldlM_agree (R := fun p q => Agree .av1 seen p.1 q.1 ∧ p.2 = q.2) ?_
      ⟨h, rfl⟩ hl₁ hl₂
    rintro ⟨s, o⟩ ⟨t, o'⟩ i s' t' ⟨h, rfl⟩ h₁ h₂
    simp only [Option.bind_eq_bind, Option.bind_eq_some_iff] at h₁ h₂
    obtain ⟨bb₁, hb₁, so₁, ho₁, so₁', ho₁', h₁⟩ := h₁
    obtain ⟨bb₂, hb₂, so₂, ho₂, so₂', ho₂', h₂⟩ := h₂
    cases h₁
    cases h₂
    refine ⟨{ h with bitstream := ?_, sliceOffsets := ?_ }, rfl⟩
    · rw [appendBuffer_bytes hb₁, appendBuffer_bytes hb₂, h.bitstream]
    · rw [appendBuffer_bytes ho₁', appendBuffer_bytes ho₂', appendBuffer_bytes ho₁,
        appendBuffer_bytes ho₂, h.sliceOffsets]
  exact { hend.1 with nBitstreamDataLen := congrArg UInt32.ofNat hend.1.size }

/-! ## JPEG -/

/-- Without picture parameters no frame is built, so a missing context and a fresh one are alike. -/
theorem reconstructJPEG_zero (slices : Nat → VASliceParameterBufferJPEGBaseline) (n : UInt32)
    (d : Nat → UInt8) (size : UInt32) :
    (reconstructJPEG true .zero slices n d size Emit.Buf.start).1 = none := by
  have hno : ¬(FrameOk .zero (sliceList slices n) size ∧ true = true) :=
    fun h => absurd h.1.loaded.1 (by decide)
  obtain ⟨marks, h, -⟩ := reconstructJPEG_rejected (d := d) hno
  rw [h]

theorem jpegFrame_eq (mem : Memory) (buf : NVBuffer) (st : PictureState) :
    jpegFrame mem buf st =
      jpegFrame mem buf { st with codecData := some (getJPEGContext st) } := by
  cases hd : st.codecData with
  | some ctx => simp [jpegFrame, getJPEGContext, hd]
  | none => simp [jpegFrame, getJPEGContext, hd, reconstructJPEG_zero]

theorem jpegFrame_agree {mem : Memory} {buf : NVBuffer} (hs : seen) (h : Agree .jpeg seen st₁ st₂) :
    jpegFrame mem buf st₁ = jpegFrame mem buf st₂ := by
  rw [jpegFrame_eq, jpegFrame_eq mem buf st₂, h.jpegContext rfl]
  simp only [jpegFrame, h.lastSliceParams hs, h.lastSliceParamsCount hs, h.size]

theorem copyJPEGSliceData_agree {mem : Memory} {buf : NVBuffer} (hs : seen)
    (h : Agree .jpeg seen st₁ st₂) (h₁ : copyJPEGSliceData mem buf st₁ = some st₁')
    (h₂ : copyJPEGSliceData mem buf st₂ = some st₂') : Agree .jpeg seen st₁' st₂' := by
  simp only [copyJPEGSliceData, jpegFrame_agree hs h] at h₁ h₂
  cases hf : jpegFrame mem buf st₂ with
  | none =>
    rw [hf] at h₁ h₂
    cases h₁
    cases h₂
    exact h
  | some frame =>
    simp only [hf, Option.bind_eq_bind, Option.bind_eq_some_iff] at h₁ h₂
    obtain ⟨s₁, ho₁, bb₁, hb₁, h₁⟩ := h₁
    obtain ⟨s₂, ho₂, bb₂, hb₂, h₂⟩ := h₂
    obtain ⟨so₁, rfl, -, ho₁⟩ := appendOffset_some ho₁
    obtain ⟨so₂, rfl, -, ho₂⟩ := appendOffset_some ho₂
    cases h₁
    cases h₂
    have hb : bb₁.bytes = bb₂.bytes := by
      rw [appendBuffer_bytes hb₁, appendBuffer_bytes hb₂]
      exact congrArg (· ++ frame) h.bitstream
    have ho : so₁.bytes = so₂.bytes := by rw [ho₁, ho₂, h.sliceOffsets, h.size]
    have hl : bb₁.size = bb₂.size := by
      rw [← AppendableBuffer.length_bytes, hb, AppendableBuffer.length_bytes]
    exact { h with
      bitstream := hb
      sliceOffsets := ho
      nNumSlices := rfl
      nBitstreamDataLen := congrArg UInt32.ofNat hl }

/-! ## Pictures -/

/-- The slice-data handler, once slice parameters were rendered. -/
theorem sliceData_agree {func : HandlerFunc} {mem : Memory} {buf : NVBuffer}
    (hf : c.nvCodec.handlers .sliceData = some func) (hs : seen) (h : Agree c seen st₁ st₂)
    (h₁ : func mem buf st₁ = some st₁') (h₂ : func mem buf st₂ = some st₂') :
    Agree c seen st₁' st₂' := by
  cases c with
  | av1 =>
    cases hf
    exact copyAV1SliceData_agree hs h h₁ h₂
  | jpeg =>
    cases hf
    exact copyJPEGSliceData_agree hs h h₁ h₂
  | _ => exact sliceCodec_agree (by decide) hf hs h h₁ h₂

def IsSliceData (buf : NVBuffer) : Prop := buf.ptr ≠ 0 ∧ buf.bufferType = .sliceData

/-- Slice parameters are among the buffers. -/
def HasParams (bs : List (Option NVBuffer)) : Prop :=
  ∃ p, some p ∈ bs ∧ p.ptr ≠ 0 ∧ p.bufferType = .sliceParameter

/-- Every slice-data buffer comes after slice parameters. -/
def ParamsFirst (bs : List (Option NVBuffer)) : Prop :=
  ∀ pre buf post, bs = pre ++ some buf :: post → IsSliceData buf → HasParams pre

theorem ParamsFirst.left {pre post : List (Option NVBuffer)} (h : ParamsFirst (pre ++ post)) :
    ParamsFirst pre :=
  fun pre' buf post' he => h pre' buf (post' ++ post) (by simp [he])

/-- The codec's slice-data handler gets slice parameters that were rendered since `nvBeginPicture`,
or that this call has cleared. -/
def Covered (c : Codec) (bs : List (Option NVBuffer)) : Prop := c = .jpeg ∨ ParamsFirst bs

theorem hasParams_append {pre : List (Option NVBuffer)} {b : Option NVBuffer}
    (h : HasParams (pre ++ [b])) :
    HasParams pre ∨ ∃ p, b = some p ∧ p.ptr ≠ 0 ∧ p.bufferType = .sliceParameter := by
  obtain ⟨p, hp, hptr, ht⟩ := h
  rcases List.mem_append.mp hp with hp | hp
  · exact .inl ⟨p, hp, hptr, ht⟩
  · exact .inr ⟨p, (List.mem_singleton.mp hp).symm, hptr, ht⟩

theorem renderBuffer_agree {mem : Memory} {pre : List (Option NVBuffer)} {b : Option NVBuffer}
    (hc : Covered c (pre ++ [b])) (h : Agree c (c = .jpeg ∨ HasParams pre) st₁ st₂)
    (h₁ : renderBuffer c.nvCodec mem st₁ b = some st₁')
    (h₂ : renderBuffer c.nvCodec mem st₂ b = some st₂') :
    Agree c (c = .jpeg ∨ HasParams (pre ++ [b])) st₁' st₂' := by
  cases b with
  | none =>
    cases h₁
    cases h₂
    refine h.mono (Or.imp_right fun hp => (hasParams_append hp).resolve_right ?_)
    rintro ⟨p, hp, -⟩
    cases hp
  | some buf =>
    by_cases hptr : buf.ptr = 0
    · rw [renderBuffer_null hptr] at h₁ h₂
      cases h₁
      cases h₂
      refine h.mono (Or.imp_right fun hp => (hasParams_append hp).resolve_right ?_)
      rintro ⟨p, hp, hne, -⟩
      cases hp
      exact hne hptr
    · cases hf : c.nvCodec.handlers buf.bufferType with
      | none =>
        have ht : buf.bufferType ≠ .sliceParameter := by
          intro ht
          rw [ht] at hf
          cases c <;> cases hf
        simp only [renderBuffer, hptr, if_false, hf] at h₁ h₂
        cases h₁
        cases h₂
        refine h.mono (Or.imp_right fun hp => (hasParams_append hp).resolve_right ?_)
        rintro ⟨p, hp, -, hpt⟩
        cases hp
        exact ht hpt
      | some func =>
        rw [renderBuffer_handler hptr hf] at h₁ h₂
        by_cases ht : buf.bufferType = .sliceData
        · have hseen : c = .jpeg ∨ HasParams pre :=
            hc.imp_right fun hc => hc pre buf [] rfl ⟨hptr, ht⟩
          exact (sliceData_agree (ht ▸ hf) hseen h h₁ h₂).mono fun _ => hseen
        · refine (handler_agree ht hf h h₁ h₂).mono ?_
          rintro (hj | hp)
          · exact .inl (.inl hj)
          · rcases hasParams_append hp with hp | ⟨p, hp, -, hpt⟩
            · exact .inl (.inr hp)
            · cases hp
              exact .inr hpt

theorem nvRenderPicture_agree {mem : Memory} {pre bs : List (Option NVBuffer)}
    (hc : Covered c (pre ++ bs)) (h : Agree c (c = .jpeg ∨ HasParams pre) st₁ st₂)
    (h₁ : nvRenderPicture c.nvCodec mem bs st₁ = some st₁')
    (h₂ : nvRenderPicture c.nvCodec mem bs st₂ = some st₂') :
    Agree c (c = .jpeg ∨ HasParams (pre ++ bs)) st₁' st₂' := by
  induction bs generalizing pre st₁ st₂ with
  | nil =>
    cases h₁
    cases h₂
    simpa using h
  | cons b bs ih =>
    obtain ⟨s₁, hs₁, h₁⟩ := Option.bind_eq_some_iff.mp h₁
    obtain ⟨s₂, hs₂, h₂⟩ := Option.bind_eq_some_iff.mp h₂
    rw [List.append_cons] at hc ⊢
    exact ih hc (renderBuffer_agree (hc.imp_right ParamsFirst.left) h hs₁ hs₂) h₁ h₂

/-- The buffers that a call renders. -/
def PictureCall.buffers : PictureCall → List (Option NVBuffer)
  | .renderPicture _ bs => bs
  | _ => []

/-- The JPEG tables that a picture can reuse. -/
def jpegTables (st : PictureState) : JPEGContext :=
  { getJPEGContext st with picParams := default, hasPicParams := false }

theorem getJPEGContext_reset (st : PictureState) :
    getJPEGContext (resetJPEGPictureState st) = jpegTables st := by
  cases hd : st.codecData <;>
    simp only [jpegTables, getJPEGContext, resetJPEGPictureState, hd] <;> rfl

/-- `nvBeginPicture` clears the parameters, and for JPEG the slices and the frame header. -/
theorem beginPicture_agree {i j : Int}
    (hb : st₁.bitstreamBuffer.bytes = st₂.bitstreamBuffer.bytes)
    (ho : st₁.sliceOffsets.bytes = st₂.sliceOffsets.bytes)
    (hk : c = .vp8 → st₁.firstKeyframeValid = st₂.firstKeyframeValid)
    (hj : c = .jpeg → jpegTables st₁ = jpegTables st₂)
    (hl : c ≠ .jpeg → seen → st₁.lastSliceParams = st₂.lastSliceParams ∧
      st₁.lastSliceParamsCount = st₂.lastSliceParamsCount) :
    Agree c seen (beginPicture c.nvCodec i st₁) (beginPicture c.nvCodec j st₂) := by
  by_cases hc : c = .jpeg
  · subst hc
    refine ⟨hb, ho, rfl, rfl, rfl, fun _ => rfl, fun _ => rfl, nofun, fun _ => ?_⟩
    exact (getJPEGContext_reset _).trans ((hj rfl).trans (getJPEGContext_reset _).symm)
  · rw [beginPicture_cases, beginPicture_cases, if_neg hc, if_neg hc]
    exact ⟨hb, ho, rfl, rfl, rfl, fun hs => (hl hc hs).1, fun hs => (hl hc hs).2, hk,
      fun h => absurd h hc⟩

theorem endPicture_agree (h : Agree c seen st₁ st₂) (decoder pushed : Bool) :
    Agree c seen (endPicture decoder pushed st₁).1 (endPicture decoder pushed st₂).1 := by
  cases decoder with
  | false => exact h
  | true =>
    exact ⟨by simp [endPicture], by simp [endPicture], h.nNumSlices, h.nBitstreamDataLen,
      h.vp8FrameType, h.lastSliceParams, h.lastSliceParamsCount, h.firstKeyframeValid,
        h.jpegContext⟩

theorem Agree.tables (h : Agree c seen st₁ st₂) (hc : c = .jpeg) :
    jpegTables st₁ = jpegTables st₂ := by
  rw [jpegTables, h.jpegContext hc]
  rfl

/-- The same calls on two states that hold the same picture. -/
theorem run_agree {calls : List PictureCall} {pre : List (Option NVBuffer)}
    (hc : Covered c (pre ++ calls.flatMap PictureCall.buffers))
    (h : Agree c (c = .jpeg ∨ HasParams pre) st₁ st₂)
    (h₁ : c.decoding.run st₁ calls = some st₁') (h₂ : c.decoding.run st₂ calls = some st₂') :
    Agree c (c = .jpeg ∨ HasParams (pre ++ calls.flatMap PictureCall.buffers)) st₁' st₂' := by
  induction calls generalizing pre st₁ st₂ with
  | nil =>
    cases h₁
    cases h₂
    simpa using h
  | cons call calls ih =>
    obtain ⟨s₁, hs₁, h₁⟩ := Option.bind_eq_some_iff.mp h₁
    obtain ⟨s₂, hs₂, h₂⟩ := Option.bind_eq_some_iff.mp h₂
    rw [List.flatMap_cons, ← List.append_assoc] at hc ⊢
    refine ih hc ?_ h₁ h₂
    cases call with
    | beginPicture idx =>
      cases hs₁
      cases hs₂
      simpa [PictureCall.buffers] using beginPicture_agree h.bitstream h.sliceOffsets
        h.firstKeyframeValid h.tables fun _ hs => ⟨h.lastSliceParams hs, h.lastSliceParamsCount hs⟩
    | renderPicture mem bs =>
      exact nvRenderPicture_agree (hc.imp_right ParamsFirst.left) h hs₁ hs₂
    | endPicture decoder pushed =>
      cases hs₁
      cases hs₂
      simpa [PictureCall.buffers] using endPicture_agree h decoder pushed

/-! ## Histories -/

/-- The picture was ended after the last slice data: every call that rendered some is followed by an
`nvEndPicture` that finds the decoder. -/
def Closed (calls : List PictureCall) : Prop :=
  ∀ pre call post buf, calls = pre ++ call :: post → some buf ∈ call.buffers → IsSliceData buf →
    ∃ pushed, .endPicture true pushed ∈ post

theorem Closed.left {calls : List PictureCall} {call : PictureCall} (h : Closed (calls ++ [call]))
    (hc : ∀ pushed, call ≠ .endPicture true pushed) : Closed calls := by
  intro pre call' post buf he hbuf hs
  obtain ⟨pushed, hp⟩ := h pre call' (post ++ [call]) buf (by simp [he]) hbuf hs
  rcases List.mem_append.mp hp with hp | hp
  · exact ⟨pushed, hp⟩
  · exact absurd (List.mem_singleton.mp hp).symm (hc pushed)

theorem closed_nil : Closed [] := by
  intro pre call post buf he
  simp at he

theorem closed_ended (calls : List PictureCall) (pushed : Bool) :
    Closed (calls ++ [.endPicture true pushed]) := by
  intro pre call post buf he hbuf _
  rcases List.eq_nil_or_concat post with rfl | ⟨post', last, rfl⟩
  · obtain ⟨-, hcall⟩ := List.append_inj' he rfl
    obtain rfl := (List.cons.inj hcall).1
    cases hbuf
  · rw [List.concat_eq_append, ← List.cons_append, ← List.append_assoc] at he
    obtain ⟨-, hlast⟩ := List.append_inj' he rfl
    obtain rfl := (List.cons.inj hlast).1
    exact ⟨pushed, by simp⟩

/-- A call that renders no slice data appends nothing. -/
theorem nvRenderPicture_frame {mem : Memory} {bs : List (Option NVBuffer)}
    (hbs : ∀ buf, some buf ∈ bs → ¬IsSliceData buf)
    (h : nvRenderPicture c.nvCodec mem bs st₁ = some st₁') :
    st₁'.bitstreamBuffer = st₁.bitstreamBuffer ∧ st₁'.sliceOffsets = st₁.sliceOffsets := by
  induction bs generalizing st₁ with
  | nil =>
    cases h
    exact ⟨rfl, rfl⟩
  | cons b bs ih =>
    obtain ⟨s, hs, h⟩ := Option.bind_eq_some_iff.mp h
    obtain ⟨hb, ho⟩ := ih (fun buf hbuf => hbs buf (List.mem_cons_of_mem _ hbuf)) h
    rcases renderBuffer_cases hs with rfl | ⟨buf, func, rfl, hptr, hf, hs⟩
    · exact ⟨hb, ho⟩
    · have hframe := handlers_frame (fun ht => hbs buf List.mem_cons_self ⟨hptr, ht⟩) hf hs
      exact ⟨hb.trans hframe.1, ho.trans hframe.2⟩

/-- After a closed history the append buffers are empty. -/
theorem empty_of_closed {calls : List PictureCall} {w h : UInt32} (hcl : Closed calls)
    (hr : c.decoding.run (.init w h) calls = some st₁) :
    st₁.bitstreamBuffer.size = 0 ∧ st₁.sliceOffsets.size = 0 := by
  induction calls using List.reverseRecOn generalizing st₁ with
  | nil =>
    cases hr
    exact ⟨rfl, rfl⟩
  | append_singleton calls call ih =>
    rw [Lts.run_append, Option.bind_eq_some_iff] at hr
    obtain ⟨s, hr, hs⟩ := hr
    rw [Lts.run_cons, Option.bind_eq_some_iff] at hs
    obtain ⟨s', hs, he⟩ := hs
    cases he
    cases call with
    | beginPicture idx =>
      cases hs
      simpa using ih (hcl.left nofun) hr
    | renderPicture mem bs =>
      have hno : ∀ buf, some buf ∈ bs → ¬IsSliceData buf := by
        intro buf hbuf hsd
        obtain ⟨pushed, hp⟩ := hcl calls (.renderPicture mem bs) [] buf rfl hbuf hsd
        cases hp
      obtain ⟨hb, ho⟩ := nvRenderPicture_frame hno hs
      rw [hb, ho]
      exact ih (hcl.left nofun) hr
    | endPicture decoder pushed =>
      cases hs
      cases decoder with
      | false => exact ih (hcl.left fun _ => by simp) hr
      | true => exact ⟨rfl, rfl⟩

/-- What a picture may keep from the pictures before it: the JPEG tables, and for VP8 that a frame
header was seen. -/
structure SameKept (c : Codec) (st₁ st₂ : PictureState) : Prop where
  jpegTables : c = .jpeg → NvVaapi.jpegTables st₁ = NvVaapi.jpegTables st₂
  firstKeyframeValid : c = .vp8 → st₁.firstKeyframeValid = st₂.firstKeyframeValid

/-- After closed histories that keep the same, the same calls since `nvBeginPicture` hand the
decoder the same picture. -/
theorem submission_isolated {w₁ h₁ w₂ h₂ : UInt32}
    {hist₁ hist₂ calls : List PictureCall} {i j : Int}
    (hr₁ : c.decoding.run (.init w₁ h₁) hist₁ = some st₁)
    (hr₂ : c.decoding.run (.init w₂ h₂) hist₂ = some st₂) (hcl₁ : Closed hist₁)
    (hcl₂ : Closed hist₂) (hk : SameKept c st₁ st₂)
    (hc : Covered c (calls.flatMap PictureCall.buffers))
    (hp₁ : c.decoding.run st₁ (.beginPicture i :: calls) = some st₁')
    (hp₂ : c.decoding.run st₂ (.beginPicture j :: calls) = some st₂') :
    (endPicture true true st₁').2 = (endPicture true true st₂').2 := by
  have he₁ := empty_of_closed hcl₁ hr₁
  have he₂ := empty_of_closed hcl₂ hr₂
  have hb : Agree c (c = .jpeg ∨ HasParams []) (beginPicture c.nvCodec i st₁)
      (beginPicture c.nvCodec j st₂) := by
    refine beginPicture_agree ?_ ?_ hk.firstKeyframeValid hk.jpegTables ?_
    · rw [AppendableBuffer.bytes_of_size he₁.1, AppendableBuffer.bytes_of_size he₂.1]
    · rw [AppendableBuffer.bytes_of_size he₁.2, AppendableBuffer.bytes_of_size he₂.2]
    · rintro hc (hj | ⟨p, hp, -⟩)
      · exact absurd hj hc
      · cases hp
  exact congrArg some (@run_agree c _ _ _ _ calls [] hc hb hp₁ hp₂).submission

/-- A picture of one slice of `n` bytes. -/
def oneSliceCalls (n : UInt32) : List PictureCall :=
  [.renderPicture (oneSliceMemory n) [some oneSliceParams, some (oneSliceData n.toNat)]]

/-- A picture of one byte after a picture of two bytes, and on a new context. -/
theorem submission_isolated_h264 : ∃ st₁ st₁' st₂',
    Codec.h264.decoding.run (.init 16 16)
      (.beginPicture 0 :: oneSliceCalls 2 ++ [.endPicture true true]) = some st₁ ∧
    Codec.h264.decoding.run st₁ (.beginPicture 1 :: oneSliceCalls 1) = some st₁' ∧
    Codec.h264.decoding.run (.init 16 16) (.beginPicture 0 :: oneSliceCalls 1) = some st₂' ∧
    (endPicture true true st₁').2 = (endPicture true true st₂').2 := by
  have hc : Covered .h264 ((oneSliceCalls 1).flatMap PictureCall.buffers) := by
    refine .inr fun pre buf post he hs => ?_
    rcases pre with - | ⟨b, pre⟩
    · cases he
      exact absurd hs.2 (by decide)
    · obtain rfl := (List.cons.inj he).1
      exact ⟨oneSliceParams, by simp, by decide, rfl⟩
  obtain ⟨st₁, st₁', st₂', hr₁, hp₁, hp₂⟩ : ∃ st₁ st₁' st₂',
      Codec.h264.decoding.run (.init 16 16)
        (.beginPicture 0 :: oneSliceCalls 2 ++ [.endPicture true true]) = some st₁ ∧
      Codec.h264.decoding.run st₁ (.beginPicture 1 :: oneSliceCalls 1) = some st₁' ∧
      Codec.h264.decoding.run (.init 16 16) (.beginPicture 0 :: oneSliceCalls 1) = some st₂' :=
    ⟨_, _, _, rfl, rfl, rfl⟩
  exact ⟨st₁, st₁', st₂', hr₁, hp₁, hp₂,
    submission_isolated hr₁ rfl (closed_ended _ true) closed_nil
    ⟨nofun, nofun⟩ hc hp₁ hp₂⟩

/-- A VP8 client with one slice of eight bytes, which has the three bytes of the sync code of a
frame header. -/
def vp8Memory (keyFrame : Bool) : Memory := fun _ =>
  { oneSliceMemory 8 0 with
    bytes := fun i => if i = 3 then 0x9d else if i = 4 then 0x01 else if i = 5 then 0x2a else 0
    -- the field is 0 for a key frame
    picVP8 := ⟨16, 16, !keyFrame⟩ }

def vp8Calls (keyFrame : Bool) : List PictureCall :=
  [.renderPicture (vp8Memory keyFrame)
    [some ⟨1, 64, .pictureParameter, 3, 0⟩, some oneSliceParams, some (oneSliceData 8)]]

/-- An inter picture of VP8 is padded on a new context and not after a key frame. -/
theorem vp8_submission_differs :
    ¬∀ (c : Codec) (w h : UInt32) (hist₁ hist₂ calls : List PictureCall) (i : Int)
      (st₁ st₂ : PictureState),
      c.decoding.run (.init w h) (hist₁ ++ .beginPicture i :: calls) = some st₁ →
      c.decoding.run (.init w h) (hist₂ ++ .beginPicture i :: calls) = some st₂ →
      (endPicture true true st₁).2 = (endPicture true true st₂).2 := by
  intro h
  have he := h .vp8 16 16 [] (.beginPicture 0 :: vp8Calls true ++ [.endPicture true true])
    (vp8Calls false) 0 _ _ rfl rfl
  exact absurd he (by decide)

end NvVaapi
