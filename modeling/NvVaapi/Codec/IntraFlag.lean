import NvVaapi.Codec.Specs

/-!
# The intra flag of an H264 picture

`copyH264PicParam` sets `intra_pic_flag`. `copyH264SliceParam` runs once for a buffer and clears the
flag when the first entry of the buffer is not an I or SI slice.

* `H264Picture`: a picture-parameter buffer and the buffers that are rendered after it.
* `intraPicFlag_run`: after these buffers the flag tells whether every first entry is intra.
* `FirstEntriesTell`: the first entries of the buffers show whether a slice is not intra.
* `intraPicFlag_iff`: the flag tells whether every slice is intra exactly when this holds.
-/

namespace NvVaapi

/-- A slice of type I or SI. -/
def VASliceParameterBuffer.Intra (s : VASliceParameterBuffer) : Prop :=
  s.sliceType = 2 ∨ s.sliceType = 4

instance (s : VASliceParameterBuffer) : Decidable s.Intra := inferInstanceAs (Decidable (_ ∨ _))

/-- A buffer, and the client's memory when it is rendered. -/
structure RenderedBuffer where
  mem : Memory
  buf : NVBuffer

namespace RenderedBuffer

/-- The entry `i` of a slice-parameter buffer, and of the memory behind its elements. -/
def entry (r : RenderedBuffer) (i : Nat) : VASliceParameterBuffer := (r.mem r.buf.ptr).slices i

def elements (r : RenderedBuffer) : Nat := r.buf.elements.toNat

/-- The buffer is one that `copyH264SliceParam` gets. -/
def IsSliceParams (r : RenderedBuffer) : Prop := r.buf.bufferType = .sliceParameter ∧ r.buf.ptr ≠ 0

instance (r : RenderedBuffer) : Decidable r.IsSliceParams := inferInstanceAs (Decidable (_ ∧ _))

def call (r : RenderedBuffer) : PictureCall := .renderPicture r.mem [some r.buf]

end RenderedBuffer

/-- A picture-parameter buffer, and the buffers that are rendered after it. -/
structure H264Picture where
  params : RenderedBuffer
  params_type : params.buf.bufferType = .pictureParameter
  params_ptr : params.buf.ptr ≠ 0
  rest : List RenderedBuffer
  rest_type : ∀ r ∈ rest, r.buf.bufferType ≠ .pictureParameter

namespace H264Picture

def calls (p : H264Picture) : List PictureCall := p.params.call :: p.rest.map RenderedBuffer.call

/-- The slice-parameter buffers of the picture. -/
def sliceParams (p : H264Picture) : List RenderedBuffer := p.rest.filter fun r => r.IsSliceParams

/-- Every slice of the picture is of type I or SI. -/
def AllIntra (p : H264Picture) : Prop := ∀ r ∈ p.sliceParams, ∀ i < r.elements, (r.entry i).Intra

/-- When a slice behind the first of its buffer is not intra, neither is the first entry of some
buffer. When the first entry of a buffer without elements is not intra, neither is some slice. -/
structure FirstEntriesTell (p : H264Picture) : Prop where
  later : ∀ r ∈ p.sliceParams, ∀ i, 0 < i → i < r.elements → ¬(r.entry i).Intra →
    ∃ r' ∈ p.sliceParams, ¬(r'.entry 0).Intra
  empty : ∀ r ∈ p.sliceParams, r.elements = 0 → ¬(r.entry 0).Intra →
    ∃ r' ∈ p.sliceParams, ∃ i < r'.elements, ¬(r'.entry i).Intra

end H264Picture

/-! ## One buffer -/

section Buffer

variable {r : RenderedBuffer} {st st' : PictureState}

theorem decoding_step_call (c : Codec) (r : RenderedBuffer) (st : PictureState) :
    c.decoding.step st r.call = renderBuffer c.nvCodec r.mem st (some r.buf) :=
  Option.bind_fun_some _

theorem intraPicFlag_picParam (ht : r.buf.bufferType = .pictureParameter) (hp : r.buf.ptr ≠ 0)
    (st : PictureState) :
    ∃ st', Codec.h264.decoding.step st r.call = some st' ∧ st'.pPicParams.intraPicFlag = true := by
  have hf : h264Codec.handlers r.buf.bufferType = some copyH264PicParam := by rw [ht]; rfl
  rw [decoding_step_call, Codec.nvCodec, renderBuffer_handler hp hf]
  exact ⟨_, rfl, rfl⟩

theorem copyH264SliceParam_intraPicFlag (r : RenderedBuffer) (st : PictureState) :
    ∃ st', copyH264SliceParam r.mem r.buf st = some st' ∧
      (st'.pPicParams.intraPicFlag = true ↔
        st.pPicParams.intraPicFlag = true ∧ (r.entry 0).Intra) := by
  refine ⟨_, rfl, ?_⟩
  simp only [rememberSlices, RenderedBuffer.entry, VASliceParameterBuffer.Intra]
  split
  · next h => exact iff_of_false Bool.false_ne_true fun hi => hi.2.elim h.1 h.2
  · next h =>
    refine (and_iff_left ?_).symm
    by_contra hc
    exact h (not_or.mp hc)

/-- Rendering a slice-parameter buffer always returns. -/
theorem renderBuffer_sliceParams (h : r.buf.bufferType = .sliceParameter) (st : PictureState) :
    ∃ st', Codec.h264.decoding.step st r.call = some st' := by
  rw [decoding_step_call, Codec.nvCodec]
  by_cases hp : r.buf.ptr = 0
  · exact ⟨st, renderBuffer_null hp⟩
  · have hf : h264Codec.handlers r.buf.bufferType = some copyH264SliceParam := by rw [h]; rfl
    rw [renderBuffer_handler hp hf]
    exact ⟨_, rfl⟩

theorem copyH264SliceData_intraPicFlag {mem : Memory} {buf : NVBuffer}
    (h : copyH264SliceData mem buf st = some st') :
    st'.pPicParams.intraPicFlag = st.pPicParams.intraPicFlag := by
  obtain ⟨func, hf, hloop⟩ := sliceData_eq (c := .h264) (by decide)
  obtain rfl : copyH264SliceData = func := Option.some_inj.mp hf
  rw [hloop] at h
  refine List.foldlM_keeps (P := fun s =>
    s.pPicParams.intraPicFlag = st.pPicParams.intraPicFlag) ?_ rfl h
  intro s i s' hs hcopy
  obtain ⟨so, bb, rfl, -⟩ := copySlice_some rfl hcopy
  exact hs

/-- A buffer of another type leaves the flag. -/
theorem intraPicFlag_other (ht : r.buf.bufferType ≠ .pictureParameter) (hs : ¬r.IsSliceParams)
    (h : Codec.h264.decoding.step st r.call = some st') :
    st'.pPicParams.intraPicFlag = st.pPicParams.intraPicFlag := by
  rw [decoding_step_call] at h
  obtain rfl | ⟨buf, func, hb, hp, hf, h⟩ := renderBuffer_cases h
  · rfl
  · obtain rfl := Option.some_inj.mp hb
    cases hty : r.buf.bufferType with
    | pictureParameter => exact absurd hty ht
    | sliceParameter => exact absurd ⟨hty, hp⟩ hs
    | iqMatrix =>
      obtain rfl : copyH264IQMatrix = func := by simpa [Codec.nvCodec, h264Codec, hty] using hf
      obtain rfl := Option.some_inj.mp h
      rfl
    | sliceData =>
      obtain rfl : copyH264SliceData = func := by simpa [Codec.nvCodec, h264Codec, hty] using hf
      exact copyH264SliceData_intraPicFlag h
    | bitPlane | huffmanTable | probability | other => simp [Codec.nvCodec, h264Codec, hty] at hf

/-- Only the first entry of a slice-parameter buffer clears the flag. -/
theorem intraPicFlag_step (ht : r.buf.bufferType ≠ .pictureParameter)
    (h : Codec.h264.decoding.step st r.call = some st') :
    st'.pPicParams.intraPicFlag = true ↔
      st.pPicParams.intraPicFlag = true ∧ (r.IsSliceParams → (r.entry 0).Intra) := by
  by_cases hs : r.IsSliceParams
  · have hf : h264Codec.handlers r.buf.bufferType = some copyH264SliceParam := by rw [hs.1]; rfl
    rw [decoding_step_call, Codec.nvCodec, renderBuffer_handler hs.2 hf] at h
    obtain ⟨st₁, h₁, hflag⟩ := copyH264SliceParam_intraPicFlag r st
    obtain rfl : st' = st₁ := Option.some_inj.mp (h.symm.trans h₁)
    rw [hflag, imp_iff_right hs]
  · rw [intraPicFlag_other ht hs h]
    exact (and_iff_left fun h => absurd h hs).symm

end Buffer

/-! ## The picture -/

section Picture

variable {rs : List RenderedBuffer} {st st' : PictureState}

/-- After any buffers but picture parameters, the flag tells of the first entries. -/
theorem intraPicFlag_run (ht : ∀ r ∈ rs, r.buf.bufferType ≠ .pictureParameter)
    (h : Codec.h264.decoding.run st (rs.map RenderedBuffer.call) = some st') :
    st'.pPicParams.intraPicFlag = true ↔ st.pPicParams.intraPicFlag = true ∧
      ∀ r ∈ rs.filter fun r => r.IsSliceParams, (r.entry 0).Intra := by
  simp only [List.mem_filter, decide_eq_true_eq, and_imp]
  induction rs generalizing st with
  | nil =>
    obtain rfl : st = st' := by simpa using h
    exact (and_iff_left nofun).symm
  | cons r rs ih =>
    obtain ⟨st₁, h₁, h⟩ := Option.bind_eq_some_iff.mp h
    rw [List.forall_mem_cons] at ht
    rw [ih ht.2 h, intraPicFlag_step ht.1 h₁, List.forall_mem_cons, and_assoc]

theorem renderSliceParams_returns (ht : ∀ r ∈ rs, r.buf.bufferType = .sliceParameter)
    (st : PictureState) :
    ∃ st', Codec.h264.decoding.run st (rs.map RenderedBuffer.call) = some st' := by
  induction rs generalizing st with
  | nil => exact ⟨st, rfl⟩
  | cons r rs ih =>
    rw [List.forall_mem_cons] at ht
    obtain ⟨st₁, h₁⟩ := renderBuffer_sliceParams ht.1 st
    obtain ⟨st', h'⟩ := ih ht.2 st₁
    exact ⟨st', by rw [List.map_cons, Lts.run_cons, h₁]; exact h'⟩

end Picture

namespace H264Picture

variable {p : H264Picture}

/-- The first entries are intra exactly when all slices are, if and only if they tell of all
slices. -/
theorem firstEntries_iff :
    ((∀ r ∈ p.sliceParams, (r.entry 0).Intra) ↔ p.AllIntra) ↔ p.FirstEntriesTell := by
  constructor
  · intro h
    constructor
    · intro r hr i _ hi hn
      by_contra hc
      push Not at hc
      exact hn (h.mp hc r hr i hi)
    · intro r hr _ hn
      by_contra hc
      push Not at hc
      exact hn (h.mpr hc r hr)
  · rintro ⟨hlater, hempty⟩
    constructor
    · intro h0 r hr i hi
      by_contra hn
      rcases Nat.eq_zero_or_pos i with rfl | hpos
      · exact hn (h0 r hr)
      · obtain ⟨r', hr', hn'⟩ := hlater r hr i hpos hi hn
        exact hn' (h0 r' hr')
    · intro hall r hr
      by_contra hn
      rcases Nat.eq_zero_or_pos r.elements with hz | hpos
      · obtain ⟨r', hr', i, hi, hn'⟩ := hempty r hr hz hn
        exact hn' (hall r' hr' i hi)
      · exact hn (hall r hr 0 hpos)

end H264Picture

/-- After an H264 picture the flag tells whether every slice is of type I or SI, exactly when the
first entries of the buffers tell it. With slice-parameter buffers alone the rendering returns. -/
theorem intraPicFlag_iff (p : H264Picture) (st : PictureState) :
    ((∀ r ∈ p.rest, r.buf.bufferType = .sliceParameter) →
      ∃ st', Codec.h264.decoding.run st p.calls = some st') ∧
      ∀ st', Codec.h264.decoding.run st p.calls = some st' →
        ((st'.pPicParams.intraPicFlag = true ↔ p.AllIntra) ↔ p.FirstEntriesTell) := by
  obtain ⟨st₁, h₁, hflag⟩ := intraPicFlag_picParam p.params_type p.params_ptr st
  have hrun : Codec.h264.decoding.run st p.calls =
      Codec.h264.decoding.run st₁ (p.rest.map RenderedBuffer.call) := by
    rw [H264Picture.calls, Lts.run_cons, h₁]
    rfl
  rw [hrun]
  refine ⟨fun ht => renderSliceParams_returns ht st₁, fun st' h => ?_⟩
  rw [intraPicFlag_run p.rest_type h, hflag, and_iff_right rfl]
  exact H264Picture.firstEntries_iff

/-- A client whose slice-parameter buffer holds slices of the given types. -/
def slicesOfTypes (types : List UInt8) : Memory := fun _ =>
  { (default : ClientData) with slices := fun i => { (default : VASliceParameterBuffer) with
      sliceType := types.getD i 0 } }

/-- A picture with a slice-parameter buffer for each of the lists of slice types. -/
def pictureOfTypes (types : List (List UInt8)) : H264Picture where
  params := ⟨default, ⟨1, 0, .pictureParameter, 1, 0⟩⟩
  params_type := rfl
  params_ptr := by decide
  rest := types.map fun ts => ⟨slicesOfTypes ts, ⟨UInt32.ofNat ts.length, 0, .sliceParameter, 2, 0⟩⟩
  rest_type := by simp

/-- An I slice and a P slice in buffers of their own. -/
theorem intraPicFlag_iff_twoBuffers :
    ∃ st', Codec.h264.decoding.run (.init 16 16) (pictureOfTypes [[2], [0]]).calls = some st' ∧
      (st'.pPicParams.intraPicFlag = true ↔ (pictureOfTypes [[2], [0]]).AllIntra) := by
  obtain ⟨hreturns, hiff⟩ := intraPicFlag_iff (pictureOfTypes [[2], [0]]) (.init 16 16)
  obtain ⟨st', h⟩ := hreturns (by decide)
  have hone : ∀ r ∈ (pictureOfTypes [[2], [0]]).sliceParams, r.elements = 1 := by decide
  refine ⟨st', h, (hiff st' h).mpr ⟨fun r hr i hpos hi => ?_, fun r hr hz => ?_⟩⟩
  · have := hone r hr
    omega
  · have := hone r hr
    omega

/-- The flag stays set when the P slice follows the I slice in one buffer. -/
theorem not_intraPicFlag :
    ¬∀ (p : H264Picture) (st : PictureState), (∀ r ∈ p.rest, r.buf.bufferType = .sliceParameter) →
      (∀ r ∈ p.sliceParams, ∀ i < r.elements, (r.entry i).sliceType ≤ 4) →
      ∃ st', Codec.h264.decoding.run st p.calls = some st' ∧
        (st'.pPicParams.intraPicFlag = true ↔ p.AllIntra) := by
  intro h
  obtain ⟨st', hrun, hiff⟩ := h (pictureOfTypes [[2, 0]]) (.init 16 16) (by decide) (by decide)
  have hflag : (Codec.h264.decoding.run (.init 16 16) (pictureOfTypes [[2, 0]]).calls).map
      (·.pPicParams.intraPicFlag) = some true := rfl
  rw [hrun] at hflag
  have hall := hiff.mp (Option.some_inj.mp hflag)
  exact absurd (hall _ List.mem_cons_self 1 (by decide)) (by decide)

end NvVaapi
