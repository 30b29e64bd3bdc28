import NvVaapi.Codec.Specs
import Mathlib.Algebra.BigOperators.Group.List.Basic

/-!
# Pictures of slices

A picture of H264, HEVC, MPEG-2, VC-1, VP8 or VP9 that is rendered as pairs of a slice-parameter
and a slice-data buffer.

* `Codec.pieces`: what the decoder should get for each slice.
* `Assembled st ps`: the state holds the pieces `ps`: their bytes, where they start, and their
  length. `copySlice_assembled` is one slice, `copyAll_assembled` all of them.
* `renderPairs_iff`: the picture is assembled exactly when the bitstream buffer can grow and the
  bytes with the prefixes stay below 2^32.
-/

namespace NvVaapi

/-- A slice of a slice-data buffer. -/
structure SliceRef where
  mem : Memory
  buf : NVBuffer
  slice : VASliceParameterBuffer

/-- How far the range of a slice is extended. -/
def Codec.extra (c : Codec) (buf : NVBuffer) : Nat := if c = .vp8 then buf.offset else 0

/-- The length of the slice's range. -/
def SliceRef.length (c : Codec) (r : SliceRef) : Nat :=
  r.slice.sliceDataSize.toNat + c.extra r.buf

/-- A slice-parameter buffer and the slice-data buffer that goes with it. The slices are read when
the data is rendered. -/
structure SlicePair (c : Codec) where
  paramMem : Memory
  mem : Memory
  params : NVBuffer
  data : NVBuffer
  params_type : params.bufferType = .sliceParameter
  data_type : data.bufferType = .sliceData
  params_ptr : params.ptr ≠ 0
  data_ptr : data.ptr ≠ 0
  nonempty : ∀ i < params.elements.toNat, 0 < ((mem params.ptr).slices i).sliceDataSize.toNat
  inside : ∀ i < params.elements.toNat, let s := (mem params.ptr).slices i
    s.sliceDataOffset.toNat + s.sliceDataSize.toNat + c.extra data ≤ data.size

namespace SlicePair

variable {c : Codec}

/-- The slices of the pair. -/
def refs (p : SlicePair c) : List SliceRef :=
  (List.range p.params.elements.toNat).map fun i => ⟨p.mem, p.data, (p.mem p.params.ptr).slices i⟩

@[simp] theorem length_refs (p : SlicePair c) : p.refs.length = p.params.elements.toNat := by
  simp [refs]

theorem refs_nonempty (p : SlicePair c) {r : SliceRef} (h : r ∈ p.refs) :
    0 < r.slice.sliceDataSize.toNat := by
  obtain ⟨i, hi, rfl⟩ := List.mem_map.mp h
  exact p.nonempty i (List.mem_range.mp hi)

/-- Render the two buffers. -/
def render (p : SlicePair c) (st : PictureState) : Option PictureState := do
  let st ← nvRenderPicture c.nvCodec p.paramMem [some p.params] st
  nvRenderPicture c.nvCodec p.mem [some p.data] st

end SlicePair

def renderPairs {c : Codec} (pairs : List (SlicePair c)) (st : PictureState) :
    Option PictureState :=
  pairs.foldlM (fun st p => p.render st) st

/-- The slices of all pairs. -/
def allRefs {c : Codec} (pairs : List (SlicePair c)) : List SliceRef := pairs.flatMap SlicePair.refs

/-- The number of slices that the pairs announce. -/
def sliceCount {c : Codec} (pairs : List (SlicePair c)) : Nat :=
  (pairs.map fun p => p.params.elements.toNat).sum

/-- The total size of the slices. -/
def totalSize {c : Codec} (pairs : List (SlicePair c)) : Nat :=
  ((allRefs pairs).map (SliceRef.length c)).sum

/-- What the decoder should get for each slice: the codec's prefix and the bytes of its range. The
prefix of VP8 depends on whether a frame header was seen, which `valid` says of the slices
before. -/
def Codec.pieces (c : Codec) (isKeyFrame : Bool) : Bool → List SliceRef → List (List UInt8)
  | _, [] => []
  | valid, r :: rs =>
    let valid := c.keyframeValid isKeyFrame valid r.mem r.buf r.slice
    (c.slicePieces isKeyFrame valid r.mem r.buf r.slice).flatten :: c.pieces isKeyFrame valid rs

/-- Whether a frame header was seen, after the slices `rs`. -/
def Codec.validAfter (c : Codec) (isKeyFrame valid : Bool) (rs : List SliceRef) : Bool :=
  rs.foldl (fun valid r => c.keyframeValid isKeyFrame valid r.mem r.buf r.slice) valid

/-- The pieces of a picture that is rendered from the state `st` on. -/
def picturePieces {c : Codec} (st : PictureState) (pairs : List (SlicePair c)) :
    List (List UInt8) :=
  c.pieces (!st.pPicParams.vp8FrameType) st.firstKeyframeValid (allRefs pairs)

/-- The picture `st'` was assembled from `st` and the pairs: the counters and the offsets are right,
and cutting the bitstream at the offsets gives the pieces. -/
structure PictureAssembled {c : Codec} (st : PictureState) (pairs : List (SlicePair c))
    (st' : PictureState) : Prop where
  nNumSlices : st'.pPicParams.nNumSlices.toNat = sliceCount pairs
  sliceOffsets : (Bytes.words st'.sliceOffsets.bytes).length = sliceCount pairs
  nBitstreamDataLen : st'.pPicParams.nBitstreamDataLen.toNat = st'.bitstreamBuffer.size
  pieces : Bytes.cutAt st'.bitstreamBuffer.bytes
    ((Bytes.words st'.sliceOffsets.bytes).map UInt32.toNat) = picturePieces st pairs

/-! ## The pieces -/

section Pieces

variable {c : Codec} {isKeyFrame valid : Bool}

@[simp] theorem length_pieces (rs : List SliceRef) :
    (c.pieces isKeyFrame valid rs).length = rs.length := by
  induction rs generalizing valid with
  | nil => rfl
  | cons r rs ih => simp [Codec.pieces, ih]

theorem pieces_append (rs rs' : List SliceRef) :
    c.pieces isKeyFrame valid (rs ++ rs') =
      c.pieces isKeyFrame valid rs ++
        c.pieces isKeyFrame (c.validAfter isKeyFrame valid rs) rs' := by
  induction rs generalizing valid with
  | nil => rfl
  | cons r rs ih => simp [Codec.pieces, Codec.validAfter, ih]

@[simp] theorem length_allRefs (pairs : List (SlicePair c)) :
    (allRefs pairs).length = sliceCount pairs := by
  simp [allRefs, sliceCount, List.length_flatMap]

/-- A slice that is not empty adds no empty piece. -/
theorem slicePieces_ne_nil {mem : Memory} {buf : NVBuffer} {s : VASliceParameterBuffer}
    (h : 0 < s.sliceDataSize.toNat) {p : List UInt8}
    (hp : p ∈ c.slicePieces isKeyFrame valid mem buf s) : p ≠ [] := by
  have hb : ∀ extra, sliceBytes mem buf s extra ≠ [] := by
    intro extra he
    have := congrArg List.length he
    simp [sliceBytes] at this
    omega
  have hpad : ∀ q ∈ vp8Padding valid isKeyFrame, q ≠ [] := by
    cases valid <;> cases isKeyFrame <;> decide
  cases c <;> simp only [Codec.slicePieces, List.mem_append, List.mem_cons, List.not_mem_nil,
    or_false] at hp
  case h264 | hevc => rcases hp with rfl | rfl <;> simp [hb]
  case vp8 => exact hp.elim (hpad p) fun h => h ▸ hb _
  all_goals exact hp ▸ hb _

theorem slicePieces_cons (mem : Memory) (buf : NVBuffer) (s : VASliceParameterBuffer) :
    ∃ p ps, c.slicePieces isKeyFrame valid mem buf s = p :: ps := by
  refine List.exists_cons_of_ne_nil ?_
  cases c <;> simp [Codec.slicePieces]

end Pieces

/-! ## Assembling -/

/-- The state holds the pieces `ps`. -/
structure Assembled (st : PictureState) (ps : List (List UInt8)) : Prop where
  bitstream : st.bitstreamBuffer.bytes = ps.flatten
  offsets : st.sliceOffsets.bytes = ((Bytes.starts 0 ps).map UInt32.ofNat).flatMap Bytes.le32
  length : st.pPicParams.nBitstreamDataLen = UInt32.ofNat ps.flatten.length

/-- What the slice loops do besides assembling: nothing to the frame type and to the slice counter,
and the flag of VP8 looks at the slices `rs`. -/
structure Looped (c : Codec) (rs : List SliceRef) (st st' : PictureState) : Prop where
  vp8FrameType : st'.pPicParams.vp8FrameType = st.pPicParams.vp8FrameType
  nNumSlices : st'.pPicParams.nNumSlices = st.pPicParams.nNumSlices
  firstKeyframeValid : st'.firstKeyframeValid =
    c.validAfter (!st.pPicParams.vp8FrameType) st.firstKeyframeValid rs

/-- The turn of the slice-data handler for a slice. -/
def SliceRef.copy (c : Codec) (r : SliceRef) (st : PictureState) : Option PictureState :=
  c.copySlice r.mem r.buf r.slice st

def copyAll (c : Codec) (rs : List SliceRef) (st : PictureState) : Option PictureState :=
  rs.foldlM (fun st r => r.copy c st) st

section Assembling

/-- The slice loop runs over the remembered slices. -/
theorem forSlices_eq_copyAll (c : Codec) (mem : Memory) (buf : NVBuffer) (st : PictureState) :
    forSlices mem (c.copySlice mem buf) st =
      copyAll c ((List.range st.lastSliceParamsCount.toNat).map fun i =>
        ⟨mem, buf, (mem st.lastSliceParams).slices i⟩) st := by
  rw [copyAll, List.foldlM_map]
  rfl

variable {c : Codec} {st st' : PictureState} {ps : List (List UInt8)} {r : SliceRef}

theorem copySlice_assembled (ha : Assembled st ps) (h : r.copy c st = some st') :
    Assembled st' (ps ++ c.pieces (!st.pPicParams.vp8FrameType) st.firstKeyframeValid [r]) ∧
      Looped c [r] st st' := by
  obtain ⟨so, bb, rfl, -, hso, hbb⟩ := copySlice_some rfl h
  refine ⟨⟨?_, ?_, ?_⟩, rfl, rfl, rfl⟩
  · simpa [PictureState.addBytes, Codec.pieces, ha.bitstream] using hbb
  · have hsize : st.bitstreamBuffer.size = ps.flatten.length := by
      rw [← ha.bitstream, AppendableBuffer.length_bytes]
    simpa [PictureState.addBytes, Codec.pieces, Bytes.starts_append, Bytes.starts, ha.offsets,
      hsize] using hso
  · simp [PictureState.addBytes, Codec.pieces, ha.length]

theorem copyAll_assembled {rs : List SliceRef} (ha : Assembled st ps)
    (h : copyAll c rs st = some st') :
    Assembled st' (ps ++ c.pieces (!st.pPicParams.vp8FrameType) st.firstKeyframeValid rs) ∧
      Looped c rs st st' := by
  induction rs generalizing st ps with
  | nil =>
    obtain rfl : st = st' := by simpa [copyAll] using h
    exact ⟨by simpa [Codec.pieces] using ha, rfl, rfl, rfl⟩
  | cons r rs ih =>
    obtain ⟨st₁, h₁, h₂⟩ := Option.bind_eq_some_iff.mp h
    obtain ⟨ha₁, hl₁⟩ := copySlice_assembled ha h₁
    obtain ⟨ha₂, hl₂⟩ := ih ha₁ h₂
    rw [hl₁.firstKeyframeValid, hl₁.vp8FrameType, List.append_assoc, ← pieces_append] at ha₂
    refine ⟨ha₂, hl₂.vp8FrameType.trans hl₁.vp8FrameType, hl₂.nNumSlices.trans hl₁.nNumSlices, ?_⟩
    rw [hl₂.firstKeyframeValid, hl₁.firstKeyframeValid, hl₁.vp8FrameType]
    rfl

/-- The loop returns when it can begin. -/
theorem copyAll_isSome {rs : List SliceRef} (hr : ∀ r ∈ rs, 0 < r.slice.sliceDataSize.toNat)
    (hb : rs ≠ [] → st.bitstreamBuffer.Usable) (hs : st.sliceOffsets.Usable) :
    ∃ st', copyAll c rs st = some st' ∧ st'.sliceOffsets.Usable ∧
      (st.bitstreamBuffer.Usable → st'.bitstreamBuffer.Usable) := by
  induction rs generalizing st with
  | nil => exact ⟨st, rfl, hs, id⟩
  | cons r rs ih =>
    obtain ⟨so, hso⟩ :=
      appendBuffer_some hs (Bytes.le32 (UInt32.ofNat st.bitstreamBuffer.size))
    have h₁ : appendOffset st = some { st with sliceOffsets := so } := by
      simp [appendOffset, hso]
    let isKeyFrame := !st.pPicParams.vp8FrameType
    let valid := c.keyframeValid isKeyFrame st.firstKeyframeValid r.mem r.buf r.slice
    let pieces := c.slicePieces isKeyFrame valid r.mem r.buf r.slice
    have hne : ∀ p ∈ pieces, p ≠ [] := fun p hp => slicePieces_ne_nil (hr r (by simp)) hp
    obtain ⟨bb, hbb, hu⟩ := foldlM_appendBuffer_isSome (hb (by simp)) hne
    let st₁ := { st with sliceOffsets := so, firstKeyframeValid := valid }.addBytes bb
      pieces.flatten.length
    have hs₁ : st₁.sliceOffsets.Usable := appendBuffer_usable hso (by simp [Bytes.le32])
    obtain ⟨st', h', hs', hb'⟩ := @ih st₁ (fun q hq => hr q (by simp [hq])) (fun _ => hu) hs₁
    refine ⟨st', ?_, hs', fun _ => hb' hu⟩
    have h₂ : appendBitstream pieces { st with sliceOffsets := so, firstKeyframeValid := valid } =
        some st₁ := by
      simp [appendBitstream, hbb, st₁, PictureState.addBytes]
    simp only [copyAll, List.foldlM_cons, SliceRef.copy, Codec.copySlice, h₁]
    exact Option.bind_eq_some_iff.mpr ⟨st₁, h₂, h'⟩

/-- A bitstream buffer without capacity stops the first slice. -/
theorem copyAll_stuck {rs : List SliceRef} (hrs : rs ≠ [])
    (hr : ∀ r ∈ rs, 0 < r.slice.sliceDataSize.toNat) (hb : ¬st.bitstreamBuffer.Usable)
    (h0 : st.bitstreamBuffer.size = 0) : copyAll c rs st = none := by
  cases rs with
  | nil => exact absurd rfl hrs
  | cons r rs =>
    have hnone : r.copy c st = none := by
      rw [SliceRef.copy, Codec.copySlice, Option.bind_eq_bind, Option.bind_eq_none_iff]
      intro st₁ h₁
      obtain ⟨so, rfl, -, -⟩ := appendOffset_some h₁
      let isKeyFrame := !st.pPicParams.vp8FrameType
      let valid := c.keyframeValid isKeyFrame st.firstKeyframeValid r.mem r.buf r.slice
      obtain ⟨p, ps, hp⟩ := @slicePieces_cons c isKeyFrame valid r.mem r.buf r.slice
      have hne : p ≠ [] := slicePieces_ne_nil (hr r (by simp)) (hp ▸ List.mem_cons_self)
      have hnone : (c.slicePieces isKeyFrame valid r.mem r.buf r.slice).foldlM appendBuffer
          st.bitstreamBuffer = none := hp ▸ foldlM_appendBuffer_stuck hb h0 hne ps
      refine Option.bind_eq_none_iff.mpr fun bb hbb => ?_
      cases hnone.symm.trans hbb
    rw [copyAll, List.foldlM_cons, hnone]
    rfl

end Assembling

/-! ## Rendering the pairs -/

section Pairs

variable {c : Codec} {st st' : PictureState} {ps : List (List UInt8)} {pairs : List (SlicePair c)}

/-- The state in which the slice loop of a pair begins: `n` more slices are counted. -/
structure Counted (n : UInt32) (st st' : PictureState) : Prop where
  bitstreamBuffer : st'.bitstreamBuffer = st.bitstreamBuffer
  sliceOffsets : st'.sliceOffsets = st.sliceOffsets
  firstKeyframeValid : st'.firstKeyframeValid = st.firstKeyframeValid
  vp8FrameType : st'.pPicParams.vp8FrameType = st.pPicParams.vp8FrameType
  nBitstreamDataLen : st'.pPicParams.nBitstreamDataLen = st.pPicParams.nBitstreamDataLen
  nNumSlices : st'.pPicParams.nNumSlices = st.pPicParams.nNumSlices + n

theorem Counted.assembled {n : UInt32} (h : Counted n st st') (ha : Assembled st ps) :
    Assembled st' ps :=
  ⟨h.bitstreamBuffer ▸ ha.bitstream, h.sliceOffsets ▸ ha.offsets, h.nBitstreamDataLen ▸ ha.length⟩

/-- A pair is counted, and then its slices are copied. -/
theorem SlicePair.render_eq (hc : c ∈ sliceCodecs) (p : SlicePair c) (st : PictureState) :
    ∃ st₁, p.render st = copyAll c p.refs st₁ ∧ Counted p.params.elements st st₁ := by
  obtain ⟨param, hparam, heq⟩ := sliceParam_eq hc
  obtain ⟨slice, hslice, hloop⟩ := sliceData_eq hc
  obtain ⟨pp, hpp, hn, hl, ht⟩ := heq p.paramMem p.params st
  let st₁ := rememberSlices p.params { st with pPicParams := pp }
  refine ⟨c.startSlices p.mem p.data st₁, ?_, ?_⟩
  · have h₁ : nvRenderPicture c.nvCodec p.paramMem [some p.params] st = some st₁ := by
      rw [nvRenderPicture_cons, renderBuffer_handler p.params_ptr (p.params_type ▸ hparam), hpp]
      rfl
    have h₂ : nvRenderPicture c.nvCodec p.mem [some p.data] st₁ =
        forSlices p.mem (c.copySlice p.mem p.data) (c.startSlices p.mem p.data st₁) := by
      rw [nvRenderPicture_cons, renderBuffer_handler p.data_ptr (p.data_type ▸ hslice), hloop]
      exact Option.bind_fun_some _
    rw [SlicePair.render, h₁]
    refine Eq.trans h₂ ?_
    rw [forSlices_eq_copyAll]
    unfold Codec.startSlices
    split <;> rfl
  · unfold Codec.startSlices
    split <;> exact ⟨rfl, rfl, rfl, ht, hl, by simp [st₁, rememberSlices, hn]⟩

theorem renderPairs_assembled (hc : c ∈ sliceCodecs) (ha : Assembled st ps)
    (h : renderPairs pairs st = some st') :
    Assembled st' (ps ++ picturePieces st pairs) ∧
      st'.pPicParams.nNumSlices = st.pPicParams.nNumSlices + UInt32.ofNat (sliceCount pairs) := by
  induction pairs generalizing st ps with
  | nil =>
    obtain rfl : st = st' := by simpa [renderPairs] using h
    exact ⟨by simpa [picturePieces, allRefs, Codec.pieces] using ha, by simp [sliceCount]⟩
  | cons p pairs ih =>
    obtain ⟨st₂, h₁, h₂⟩ := Option.bind_eq_some_iff.mp h
    obtain ⟨st₁, heq, hcount⟩ := p.render_eq hc st
    obtain ⟨ha₂, hl⟩ := copyAll_assembled (hcount.assembled ha) (heq.symm.trans h₁)
    obtain ⟨ha', hn⟩ := ih ha₂ h₂
    constructor
    · rw [picturePieces, hl.firstKeyframeValid, hl.vp8FrameType, List.append_assoc, ← pieces_append,
        hcount.firstKeyframeValid, hcount.vp8FrameType] at ha'
      exact ha'
    · rw [hn, hl.nNumSlices, hcount.nNumSlices]
      simp [sliceCount, UInt32.add_assoc]

theorem renderPairs_isSome (hc : c ∈ sliceCodecs)
    (hb : allRefs pairs = [] ∨ st.bitstreamBuffer.Usable) (hs : st.sliceOffsets.Usable) :
    ∃ st', renderPairs pairs st = some st' := by
  induction pairs generalizing st with
  | nil => exact ⟨st, rfl⟩
  | cons p pairs ih =>
    obtain ⟨st₁, heq, hcount⟩ := p.render_eq hc st
    simp only [allRefs, List.flatMap_cons, List.append_eq_nil_iff] at hb
    rw [← hcount.bitstreamBuffer] at hb
    rw [← hcount.sliceOffsets] at hs
    obtain ⟨st₂, h₂, hs₂, hb₂⟩ := copyAll_isSome (c := c) (fun r => p.refs_nonempty)
      (fun hne => hb.resolve_left fun h => hne h.1) hs
    obtain ⟨st', h'⟩ := ih (hb.imp And.right hb₂) hs₂
    exact ⟨st', by simpa [renderPairs, heq, h₂] using h'⟩

theorem renderPairs_stuck (hc : c ∈ sliceCodecs) (hne : allRefs pairs ≠ [])
    (hb : ¬st.bitstreamBuffer.Usable) (h0 : st.bitstreamBuffer.size = 0) :
    renderPairs pairs st = none := by
  induction pairs generalizing st with
  | nil => exact absurd rfl hne
  | cons p pairs ih =>
    obtain ⟨st₁, heq, hcount⟩ := p.render_eq hc st
    rw [← hcount.bitstreamBuffer] at hb h0
    rw [renderPairs, List.foldlM_cons, heq]
    by_cases hp : p.refs = []
    · -- a pair without slices leaves the buffer as it is
      have : copyAll c p.refs st₁ = some st₁ := by rw [hp]; rfl
      rw [this]
      refine @ih st₁ (fun h => hne ?_) hb h0
      simp only [allRefs] at h
      simp [allRefs, hp, h]
    · rw [copyAll_stuck hp (fun r => p.refs_nonempty) hb h0]
      rfl

/-- Every slice has a byte, so there are no more slices than bytes. -/
theorem sliceCount_le_totalSize (pairs : List (SlicePair c)) :
    sliceCount pairs ≤ totalSize pairs := by
  rw [← length_allRefs, totalSize, ← List.length_map (SliceRef.length c)]
  refine List.length_le_sum_of_one_le _ fun n hn => ?_
  obtain ⟨r, hr, rfl⟩ := List.mem_map.mp hn
  obtain ⟨p, -, hp⟩ := List.mem_flatMap.mp hr
  have := p.refs_nonempty hp
  simp only [SliceRef.length]
  omega

/-- The offsets are where the pieces start, as long as these fit 32 bits. -/
theorem Assembled.words (ha : Assembled st ps) (h : ps.flatten.length < 2 ^ 32) :
    (Bytes.words st.sliceOffsets.bytes).map UInt32.toNat = Bytes.starts 0 ps := by
  rw [ha.offsets, Bytes.words_flatMap_le32, List.map_map]
  refine (List.map_congr_left fun o ho => ?_).trans (List.map_id _)
  have hle := Bytes.starts_le ho
  exact UInt32.toNat_ofNat_of_lt' (show o < 2 ^ 32 by omega)

/-- No run of a slice codec leaves `sliceOffsets` without room to grow: it only gets whole words. -/
theorem sliceOffsets_usable (hc : c ∈ sliceCodecs) (h : c.decoding.Reach st) :
    st.sliceOffsets.Usable := by
  have hcopy : ∀ (rs : List SliceRef) {st st' : PictureState}, st.sliceOffsets.Usable →
      copyAll c rs st = some st' → st'.sliceOffsets.Usable := by
    intro rs
    induction rs with
    | nil =>
      intro st st' hs h
      cases h
      exact hs
    | cons r rs ih =>
      intro st st' _ h
      obtain ⟨st₁, h₁, h₂⟩ := Option.bind_eq_some_iff.mp h
      obtain ⟨so, bb, rfl, hu, -⟩ := copySlice_some rfl h₁
      exact ih hu h₂
  refine appends_invariant (I := fun _ so => so.Usable) (.inl rfl) (fun _ _ h => h)
    (fun func hf mem buf st st' hs h => ?_) h
  obtain ⟨slice, hslice, hloop⟩ := sliceData_eq hc
  obtain rfl := Option.some_inj.mp (hslice.symm.trans hf)
  rw [hloop, forSlices_eq_copyAll] at h
  refine hcopy _ ?_ h
  unfold Codec.startSlices
  split <;> exact hs

end Pairs

/-! ## The picture -/

/-- A picture that starts with empty append buffers is assembled from its slices exactly when the
growth loop of the bitstream buffer can begin, unless there is no slice, and the bytes with the
prefixes stay below 2^32. -/
theorem renderPairs_iff {c : Codec} (hc : c ∈ sliceCodecs) {st : PictureState}
    (hr : c.decoding.Reach st) (hb : st.bitstreamBuffer.size = 0) (hs : st.sliceOffsets.size = 0)
    (hn : st.pPicParams.nNumSlices = 0) (hl : st.pPicParams.nBitstreamDataLen = 0)
    (pairs : List (SlicePair c)) (ht : totalSize pairs < 2 ^ 32) :
    (∃ st', renderPairs pairs st = some st' ∧ PictureAssembled st pairs st') ↔
      (allRefs pairs = [] ∨ st.bitstreamBuffer.Usable) ∧
        (picturePieces st pairs).flatten.length < 2 ^ 32 := by
  have h0 : Assembled st [] :=
    ⟨by simp [AppendableBuffer.bytes_of_size hb],
      by simp [AppendableBuffer.bytes_of_size hs, Bytes.starts], hl⟩
  constructor
  · rintro ⟨st', h, ha⟩
    constructor
    · by_contra hc'
      rw [not_or] at hc'
      rw [renderPairs_stuck hc hc'.1 hc'.2 hb] at h
      cases h
    · have has := (renderPairs_assembled hc h0 h).1
      have hlen := ha.nBitstreamDataLen
      rw [← AppendableBuffer.length_bytes, has.bitstream, List.nil_append] at hlen
      rw [← hlen]
      exact UInt32.toNat_lt _
  · rintro ⟨hu, hlt⟩
    obtain ⟨st', h⟩ := renderPairs_isSome hc hu (sliceOffsets_usable hc hr)
    obtain ⟨ha, hcount⟩ := renderPairs_assembled hc h0 h
    rw [List.nil_append] at ha
    have hw := ha.words hlt
    have hle := sliceCount_le_totalSize pairs
    refine ⟨st', h, ?_, ?_, ?_, ?_⟩
    · rw [hcount, hn, UInt32.zero_add]
      exact UInt32.toNat_ofNat_of_lt' (show sliceCount pairs < 2 ^ 32 by omega)
    · have := congrArg List.length hw
      simpa [picturePieces] using this
    · rw [ha.length, ← AppendableBuffer.length_bytes, ha.bitstream]
      exact UInt32.toNat_ofNat_of_lt' hlt
    · rw [hw, ha.bitstream]
      simpa using Bytes.cutAt_starts [] (picturePieces st pairs)

/-- A client whose buffers hold one slice of `n` bytes. -/
def oneSliceMemory (n : UInt32) : Memory := fun _ =>
  { (default : ClientData) with slices := fun _ => { (default : VASliceParameterBuffer) with
      sliceDataSize := n } }

def oneSliceParams : NVBuffer := ⟨1, 64, .sliceParameter, 1, 0⟩

def oneSliceData (n : Nat) : NVBuffer := ⟨1, n, .sliceData, 2, 0⟩

/-- A pair with one slice of one byte. -/
def oneBytePair (c : Codec) : SlicePair c where
  paramMem := oneSliceMemory 1
  mem := oneSliceMemory 1
  params := oneSliceParams
  data := oneSliceData 1
  params_type := rfl
  data_type := rfl
  params_ptr := by decide
  data_ptr := by decide
  nonempty := fun _ _ => Nat.one_pos
  inside := fun _ _ => by cases c <;> exact Nat.le_refl 1

/-- A client whose buffers hold a slice of three bytes and one of five behind it. -/
def twoSliceMemory (first : Nat) : Memory := fun _ =>
  { (default : ClientData) with
    bytes := fun i => UInt8.ofNat (first + i)
    slices := fun i => { (default : VASliceParameterBuffer) with
      sliceDataSize := if i = 0 then 3 else 5
      sliceDataOffset := if i = 0 then 0 else 3 } }

/-- A pair with these slices. -/
def twoSlicePair (first : Nat) : SlicePair .h264 where
  paramMem := twoSliceMemory first
  mem := twoSliceMemory first
  params := ⟨2, 128, .sliceParameter, 1, 0⟩
  data := ⟨1, 8, .sliceData, 2, 0⟩
  params_type := rfl
  data_type := rfl
  params_ptr := by decide
  data_ptr := by decide
  nonempty i _ := by
    show 0 < (if i = 0 then (3 : UInt32) else 5).toNat
    split <;> decide
  inside i _ := by
    show (if i = 0 then (0 : UInt32) else 3).toNat + (if i = 0 then (3 : UInt32)
        else 5).toNat + 0 ≤ 8
    split <;> decide

/-- Two pairs of two slices. -/
theorem renderPairs_iff_h264 :
    ∃ st', renderPairs [twoSlicePair 16,
      twoSlicePair 32] (beginPicture h264Codec 0 (.init 16 16)) = some st' ∧
      PictureAssembled (beginPicture h264Codec 0 (.init 16 16)) [twoSlicePair 16,
        twoSlicePair 32] st' :=
  (renderPairs_iff (c := .h264) (by decide)
    (.step (a := .beginPicture 0) (.init ⟨16, 16, rfl⟩) rfl) rfl rfl rfl rfl _ (by decide)).mpr
    ⟨.inr (.inl rfl), by decide⟩

/-- An MPEG-2 picture with one empty slice, and the next `nvBeginPicture`. -/
def emptySliceCalls : List PictureCall :=
  [.beginPicture 0, .renderPicture (oneSliceMemory 0) [some oneSliceParams, some (oneSliceData 0)],
    .endPicture true true, .beginPicture 0]

/-- After a picture with one empty slice the buffer has no capacity to grow from, and the next
picture never gets its first byte. -/
theorem renderPairs_hangs :
    ¬∀ c ∈ sliceCodecs, ∀ st, c.decoding.Reach st → st.bitstreamBuffer.size = 0 →
      st.sliceOffsets.size = 0 → st.pPicParams.nNumSlices = 0 →
      st.pPicParams.nBitstreamDataLen = 0 → ∀ pairs : List (SlicePair c), totalSize pairs < 2 ^ 32 →
      ∃ st', renderPairs pairs st = some st' ∧ PictureAssembled st pairs st' := by
  intro h
  obtain ⟨st, hrun, hb, hs, hn, hl, hu⟩ : ∃ st,
      Codec.mpeg2.decoding.run (.init 16 16) emptySliceCalls = some st ∧
      st.bitstreamBuffer.size = 0 ∧ st.sliceOffsets.size = 0 ∧ st.pPicParams.nNumSlices = 0 ∧
      st.pPicParams.nBitstreamDataLen = 0 ∧ ¬st.bitstreamBuffer.Usable :=
    ⟨_, rfl, rfl, rfl, rfl, rfl, by decide⟩
  have hr : Codec.mpeg2.decoding.Reach st := Lts.Reach.run (.init ⟨16, 16, rfl⟩) hrun
  obtain ⟨st', h', -⟩ := h .mpeg2 (by decide) st hr hb hs hn hl [oneBytePair .mpeg2] (by decide)
  rw [renderPairs_stuck (by decide) (by decide) hu hb] at h'
  cases h'

end NvVaapi
