import NvVaapi.Codec.Decode

/-!
# What the handlers do to the picture

One rule for each kind of handler, so that nothing after this module unfolds one.

* `sliceCodecs`: the codecs whose slice-data handlers take one slice after the other. `copySlice` is
  their turn for a slice, `sliceData_eq` the loop over the turns.
* `sliceParam_eq`: their slice-parameter handlers count the elements and remember them.
* `appendOffset_some`, `appendBitstream_some`: the appends, as equations between states.
-/

namespace NvVaapi

/-! ## The appends -/

section Appends

variable {st st' : PictureState} {pieces : List (List UInt8)}

theorem foldlM_appendBuffer {ab ab' : AppendableBuffer}
    (h : pieces.foldlM appendBuffer ab = some ab') : ab'.bytes = ab.bytes ++ pieces.flatten := by
  induction pieces generalizing ab with
  | nil => simp_all
  | cons p ps ih =>
    obtain ⟨ab₁, h₁, h₂⟩ := Option.bind_eq_some_iff.mp h
    rw [ih h₂, appendBuffer_bytes h₁, List.flatten_cons, List.append_assoc]

theorem appendOffset_some (h : appendOffset st = some st') :
    ∃ so, st' = { st with sliceOffsets := so } ∧ so.Usable ∧ so.bytes =
      st.sliceOffsets.bytes ++ Bytes.le32 (UInt32.ofNat st.bitstreamBuffer.size) := by
  obtain ⟨so, hso, h⟩ := Option.bind_eq_some_iff.mp h
  cases h
  exact ⟨so, rfl, appendBuffer_usable hso (by simp [Bytes.le32]), appendBuffer_bytes hso⟩

/-- The state after an append of `bytes` that leaves the bitstream `bb`. -/
def PictureState.addBytes (st : PictureState) (bb : AppendableBuffer) (n : Nat) : PictureState :=
  { st with
    bitstreamBuffer := bb
    pPicParams := { st.pPicParams with
      nBitstreamDataLen := st.pPicParams.nBitstreamDataLen + UInt32.ofNat n } }

theorem appendBitstream_some (h : appendBitstream pieces st = some st') :
    ∃ bb, st' = st.addBytes bb pieces.flatten.length ∧
      pieces.foldlM appendBuffer st.bitstreamBuffer = some bb := by
  obtain ⟨bb, hbb, h⟩ := Option.bind_eq_some_iff.mp h
  cases h
  exact ⟨bb, rfl, hbb⟩

/-- Appends return on a usable buffer that gets something first. -/
theorem foldlM_appendBuffer_isSome {ab : AppendableBuffer} (h : ab.Usable)
    (hp : ∀ p ∈ pieces, p ≠ []) :
    ∃ ab', pieces.foldlM appendBuffer ab = some ab' ∧ ab'.Usable := by
  induction pieces generalizing ab with
  | nil => exact ⟨ab, rfl, h⟩
  | cons p ps ih =>
    obtain ⟨ab₁, h₁⟩ := appendBuffer_some h p
    have hu := appendBuffer_usable h₁ (hp p (by simp))
    obtain ⟨ab₂, h₂, hu₂⟩ := ih hu fun q hq => hp q (by simp [hq])
    exact ⟨ab₂, by simp [h₁, h₂], hu₂⟩

/-- On an empty buffer that cannot grow nothing is appended. -/
theorem foldlM_appendBuffer_stuck {ab : AppendableBuffer} (h : ¬ab.Usable) (h0 : ab.size = 0)
    {p : List UInt8} (hp : p ≠ []) (ps : List (List UInt8)) :
    (p :: ps).foldlM appendBuffer ab = none := by
  have hn : appendBuffer ab p = none := by
    rw [← Option.not_isSome_iff_eq_none, appendBuffer_isSome_iff, not_or]
    refine ⟨h, ?_⟩
    have hl := List.length_pos_iff.mpr hp
    have ha := ab.allocated_ne_one
    have h2 : ab.allocated < 2 := Nat.lt_of_not_le fun h2 => h (.inr h2)
    omega
  rw [List.foldlM_cons, hn]
  rfl

end Appends

/-! ## The slice loops -/

def sliceCodecs : List Codec := [.h264, .hevc, .mpeg2, .vc1, .vp8, .vp9]

/-- Whether a frame header was seen, after the slice `s`. Only VP8 looks for one. -/
def Codec.keyframeValid (c : Codec) (isKeyFrame valid : Bool) (mem : Memory) (buf : NVBuffer)
    (s : VASliceParameterBuffer) : Bool :=
  valid || (c == .vp8 && isKeyFrame && vp8SyncCode mem buf s)

/-- What the slice `s` adds to the bitstream, its own bytes last. -/
def Codec.slicePieces (c : Codec) (isKeyFrame valid : Bool) (mem : Memory) (buf : NVBuffer)
    (s : VASliceParameterBuffer) : List (List UInt8) :=
  match c with
  | .h264 | .hevc => [[0, 0, 1], sliceBytes mem buf s 0]
  | .vp8 => vp8Padding valid isKeyFrame ++ [sliceBytes mem buf s buf.offset]
  | _ => [sliceBytes mem buf s 0]

/-- The turn of a slice-data handler for the slice `s`. -/
def Codec.copySlice (c : Codec) (mem : Memory) (buf : NVBuffer) (s : VASliceParameterBuffer)
    (st : PictureState) : Option PictureState := do
  let st ← appendOffset st
  let isKeyFrame := !st.pPicParams.vp8FrameType
  let valid := c.keyframeValid isKeyFrame st.firstKeyframeValid mem buf s
  appendBitstream (c.slicePieces isKeyFrame valid mem buf s) { st with firstKeyframeValid := valid }

/-- What a slice-data handler does in front of its loop. -/
def Codec.startSlices (c : Codec) (mem : Memory) (buf : NVBuffer) (st : PictureState) :
    PictureState :=
  if c = .vp8 then { st with pPicParams := { st.pPicParams with
    vp8ShowFrame := (mem buf.ptr).bytes 0 &&& 0x10 != 0 } }
  else st

theorem copySlices_eq {c : Codec} {header : List (List UInt8)} (hc : c ≠ .vp8)
    (hp : ∀ k v mem buf s, c.slicePieces k v mem buf s = header ++ [sliceBytes mem buf s 0])
    (mem : Memory) (buf : NVBuffer) (st : PictureState) :
    copySlices header mem buf st =
      forSlices mem (c.copySlice mem buf) (c.startSlices mem buf st) := by
  have hv : ∀ k v s, c.keyframeValid k v mem buf s = v := by simp [Codec.keyframeValid, hc]
  simp only [copySlices, Codec.startSlices, if_neg hc]
  congr 1
  funext s st
  simp only [Codec.copySlice, hp, hv]

/-- The VP8 handler sets the flag only while it is not set. -/
theorem vp8_flag_eq (mem : Memory) (buf : NVBuffer) (s : VASliceParameterBuffer)
    (st : PictureState) (isKeyFrame : Bool) :
    (if isKeyFrame && vp8SyncCode mem buf s && !st.firstKeyframeValid
      then { st with firstKeyframeValid := true } else st) =
    { st with
      firstKeyframeValid :=
        Codec.vp8.keyframeValid isKeyFrame st.firstKeyframeValid mem buf s } := by
  obtain ⟨width, height, p, bb, so, ptr, n, valid, data⟩ := st
  simp only [Codec.keyframeValid, beq_self_eq_true, Bool.true_and]
  cases valid <;> cases isKeyFrame && vp8SyncCode mem buf s <;> rfl

/-- The slice-data handlers, as loops over `copySlice`. -/
theorem sliceData_eq {c : Codec} (hc : c ∈ sliceCodecs) : ∃ func,
    c.nvCodec.handlers .sliceData = some func ∧ ∀ mem buf st,
      func mem buf st = forSlices mem (c.copySlice mem buf) (c.startSlices mem buf st) := by
  simp only [sliceCodecs, List.mem_cons, List.not_mem_nil, or_false] at hc
  rcases hc with rfl | rfl | rfl | rfl | rfl | rfl
  · exact ⟨copyH264SliceData, rfl, copySlices_eq (by decide) fun _ _ _ _ _ => rfl⟩
  · exact ⟨copyHEVCSliceData, rfl, copySlices_eq (by decide) fun _ _ _ _ _ => rfl⟩
  · exact ⟨copyMPEG2SliceData, rfl, copySlices_eq (by decide) fun _ _ _ _ _ => rfl⟩
  · exact ⟨copyVC1SliceData, rfl, copySlices_eq (by decide) fun _ _ _ _ _ => rfl⟩
  · refine ⟨copyVP8SliceData, rfl, fun mem buf st => ?_⟩
    simp only [copyVP8SliceData, Codec.startSlices, if_pos]
    congr 1
    funext s st
    simp only [Codec.copySlice, vp8_flag_eq]
    rfl
  · exact ⟨copyVP9SliceData, rfl, copySlices_eq (by decide) fun _ _ _ _ _ => rfl⟩

/-- The slice-parameter handlers: the elements are remembered and counted. -/
theorem sliceParam_eq {c : Codec} (hc : c ∈ sliceCodecs) : ∃ func,
    c.nvCodec.handlers .sliceParameter = some func ∧ ∀ mem buf st, ∃ p : CUVIDPICPARAMS,
      func mem buf st = some (rememberSlices buf { st with pPicParams := p }) ∧
      p.nNumSlices = st.pPicParams.nNumSlices ∧
      p.nBitstreamDataLen = st.pPicParams.nBitstreamDataLen ∧
      p.vp8FrameType = st.pPicParams.vp8FrameType := by
  simp only [sliceCodecs, List.mem_cons, List.not_mem_nil, or_false] at hc
  rcases hc with rfl | rfl | rfl | rfl | rfl | rfl
  · exact ⟨copyH264SliceParam, rfl, fun _ _ _ => ⟨_, rfl, rfl, rfl, rfl⟩⟩
  · exact ⟨copyHEVCSliceParam, rfl, fun _ _ st => ⟨st.pPicParams, rfl, rfl, rfl, rfl⟩⟩
  · exact ⟨copyMPEG2SliceParam, rfl, fun _ _ st => ⟨st.pPicParams, rfl, rfl, rfl, rfl⟩⟩
  · exact ⟨copyVC1SliceParam, rfl, fun _ _ st => ⟨st.pPicParams, rfl, rfl, rfl, rfl⟩⟩
  · exact ⟨copyVP8SliceParam, rfl, fun _ _ _ => ⟨_, rfl, rfl, rfl, rfl⟩⟩
  · exact ⟨copyVP9SliceParam, rfl, fun _ _ st => ⟨st.pPicParams, rfl, rfl, rfl, rfl⟩⟩

/-- Only the slice-data handlers append. -/
theorem handlers_frame {c : Codec} {t : VABufferType} {func : HandlerFunc} {mem : Memory}
    {buf : NVBuffer} {st st' : PictureState} (ht : t ≠ .sliceData)
    (hf : c.nvCodec.handlers t = some func) (h : func mem buf st = some st') :
    st'.bitstreamBuffer = st.bitstreamBuffer ∧ st'.sliceOffsets = st.sliceOffsets := by
  cases c <;> cases t <;> first | exact absurd rfl ht | cases hf <;> cases h <;> exact ⟨rfl, rfl⟩

/-- What the slice-data handler and the reset keep of the two append buffers holds in every run. -/
theorem appends_invariant {c : Codec} {I : AppendableBuffer → AppendableBuffer → Prop}
    (hempty : I .empty .empty) (hreset : ∀ bb so, I bb so → I bb.reset so.reset)
    (hdata : ∀ func, c.nvCodec.handlers .sliceData = some func → ∀ mem buf st st',
      I st.bitstreamBuffer st.sliceOffsets → func mem buf st = some st' →
      I st'.bitstreamBuffer st'.sliceOffsets)
    {st : PictureState} (h : c.decoding.Reach st) : I st.bitstreamBuffer st.sliceOffsets := by
  have hrender {mem : Memory} (st : PictureState) (b : Option NVBuffer) (st' : PictureState)
      (hst : I st.bitstreamBuffer st.sliceOffsets)
        (h : renderBuffer c.nvCodec mem st b = some st') :
      I st'.bitstreamBuffer st'.sliceOffsets := by
    rcases renderBuffer_cases h with rfl | ⟨buf, func, -, -, hf, h⟩
    · exact hst
    · by_cases ht : buf.bufferType = .sliceData
      · rw [ht] at hf
        exact hdata func hf mem buf st st' hst h
      · obtain ⟨hbb, hso⟩ := handlers_frame ht hf h
        rw [hbb, hso]
        exact hst
  refine h.invariant (I := fun st => I st.bitstreamBuffer st.sliceOffsets) ?_
    fun st call st' hst hstep => ?_
  · rintro _ ⟨width, height, rfl⟩
    exact hempty
  · cases call with
    | beginPicture idx =>
      obtain rfl := Option.some_inj.mp hstep
      rw [beginPicture_bitstreamBuffer, beginPicture_sliceOffsets]
      exact hst
    | renderPicture mem bs => exact nvRenderPicture_keeps hrender hst hstep
    | endPicture decoder pushed =>
      obtain rfl := Option.some_inj.mp hstep
      cases decoder with
      | false => exact hst
      | true => exact hreset _ _ hst

/-- What a turn for a slice leaves. -/
theorem copySlice_some {c : Codec} {mem : Memory} {buf : NVBuffer} {s : VASliceParameterBuffer}
    {st st' : PictureState} {valid : Bool}
    (hv : valid = c.keyframeValid (!st.pPicParams.vp8FrameType) st.firstKeyframeValid mem buf s)
    (h : c.copySlice mem buf s st = some st') : ∃ so bb,
      let pieces := c.slicePieces (!st.pPicParams.vp8FrameType) valid mem buf s
      st' = { st with
        sliceOffsets := so, firstKeyframeValid := valid }.addBytes bb pieces.flatten.length ∧
      so.Usable ∧ so.bytes =
        st.sliceOffsets.bytes ++ Bytes.le32 (UInt32.ofNat st.bitstreamBuffer.size) ∧
      bb.bytes = st.bitstreamBuffer.bytes ++ pieces.flatten := by
  obtain ⟨st₁, h₁, h₂⟩ := Option.bind_eq_some_iff.mp h
  obtain ⟨so, rfl, hu, hso⟩ := appendOffset_some h₁
  obtain ⟨bb, rfl, hbb⟩ := appendBitstream_some h₂
  subst hv
  exact ⟨so, bb, rfl, hu, hso, foldlM_appendBuffer hbb⟩

end NvVaapi
