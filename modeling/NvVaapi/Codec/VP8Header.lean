import NvVaapi.Codec.Slices
import NvVaapi.Lib.Until

/-!
# The frame headers of a VP8 context

`copyVP8SliceData` puts zero bytes in front of a slice until it has seen a key frame with a frame
header. It takes a key frame as one when any of the bytes 3, 4 and 5 is the one of the start code.

* `VP8Slice`: a slice that a call copies. `HasHeader` says that it is a key frame with the start
  code.
* `vp8Stream`: the calls on a VP8 context, with the headers and the bytes that the slices should
  give.
* `VP8Agrees`: the context has what it should have.
* `vp8_always_iff_meets`: this holds in every state of a run exactly when no slice before the first
  header is mistaken for one.
-/

namespace NvVaapi

/-- A slice that is copied. -/
structure VP8Slice where
  isKeyFrame : Bool
  mem : Memory
  buf : NVBuffer
  params : VASliceParameterBuffer

namespace VP8Slice

/-- The byte `i` of the slice. -/
def byte (s : VP8Slice) (i : Nat) : UInt8 :=
  (s.mem s.buf.ptr).bytes (s.params.sliceDataOffset.toNat + i)

/-- The slice is of a key frame and has the start code 9D 01 2A. -/
def hasHeader (s : VP8Slice) : Bool :=
  s.isKeyFrame && s.byte 3 == 0x9d && s.byte 4 == 0x01 && s.byte 5 == 0x2a

/-- The slice is taken as one with a frame header. -/
def takenAsHeader (s : VP8Slice) : Bool := s.isKeyFrame && vp8SyncCode s.mem s.buf s.params

/-- The bytes in front of the slice while there was no frame header. -/
def nullBytes (s : VP8Slice) : List UInt8 :=
  if s.isKeyFrame then .replicate 10 0 else .replicate 3 0

def data (s : VP8Slice) : List UInt8 := sliceBytes s.mem s.buf s.params s.buf.offset

theorem takenAsHeader_of_hasHeader (s : VP8Slice) (h : s.hasHeader = true) :
    s.takenAsHeader = true := by
  simp only [hasHeader, Bool.and_eq_true] at h
  obtain ⟨⟨⟨hkey, h3⟩, -⟩, -⟩ := h
  simp only [takenAsHeader, vp8SyncCode, Bool.and_eq_true, Bool.or_eq_true]
  exact ⟨hkey, .inl (.inl h3)⟩

theorem nullBytes_ne_nil (s : VP8Slice) : s.nullBytes ≠ [] := by
  unfold nullBytes
  split <;> simp

end VP8Slice

/-- What the slices should give, when a frame header was seen before or not: null bytes in front of
each slice until there is a header. -/
def vp8Expected (seen : Bool) (ss : List VP8Slice) : List UInt8 :=
  Until.written VP8Slice.hasHeader VP8Slice.nullBytes VP8Slice.data seen ss

/-! ## The slices of a call -/

/-- The slices that are copied for a buffer. -/
def vp8BufferSlices (mem : Memory) (st : PictureState) : Option NVBuffer → List VP8Slice
  | none => []
  | some buf =>
    if buf.ptr ≠ 0 ∧ buf.bufferType = .sliceData then
      (List.range st.lastSliceParamsCount.toNat).map fun i =>
        ⟨!st.pPicParams.vp8FrameType, mem, buf, (mem st.lastSliceParams).slices i⟩
    else []

/-- The slices that `nvRenderPicture` copies, in their order. -/
def vp8RenderSlices (mem : Memory) : PictureState → List (Option NVBuffer) → List VP8Slice
  | _, [] => []
  | st, b :: bs =>
    vp8BufferSlices mem st b ++ (renderBuffer vp8Codec mem st b).elim [] (vp8RenderSlices mem · bs)

/-- The slices that a call copies. -/
def vp8Slices (st : PictureState) : PictureCall → List VP8Slice
  | .renderPicture mem bs => vp8RenderSlices mem st bs
  | _ => []

/-- What there should be after the calls on a context: whether there was a frame header, and the
bitstream of the picture. -/
structure VP8Stream where
  headerSeen : Bool
  bitstream : List UInt8

/-- The stream after a call. -/
def VP8Stream.next (st : PictureState) (call : PictureCall) (t : VP8Stream) : VP8Stream :=
  match call with
  | .endPicture decoder _ => if decoder then { t with bitstream := [] } else t
  | call =>
    ⟨t.headerSeen || (vp8Slices st call).any VP8Slice.hasHeader,
      t.bitstream ++ vp8Expected t.headerSeen (vp8Slices st call)⟩

/-- The calls on a VP8 context, with the stream that they should give. -/
def vp8Stream : Lts (PictureState × VP8Stream) PictureCall :=
  Codec.vp8.decoding.withGhost ⟨false, []⟩ VP8Stream.next

/-- The context has seen a frame header when there was one, and its bitstream is the one that it
should be. -/
def VP8Agrees (x : PictureState × VP8Stream) : Prop :=
  x.1.firstKeyframeValid = x.2.headerSeen ∧ x.1.bitstreamBuffer.bytes = x.2.bitstream

/-- While there was no frame header, no slice of the call that comes before one is a key frame with
a part of the start code. -/
def VP8NoneMistaken (x : PictureState × VP8Stream) (call : PictureCall) : Prop :=
  Until.NoneMistaken VP8Slice.hasHeader VP8Slice.takenAsHeader x.2.headerSeen (vp8Slices x.1 call)

instance (x : PictureState × VP8Stream) (call : PictureCall) : Decidable (VP8NoneMistaken x call) :=
  inferInstanceAs (Decidable (Until.NoneMistaken ..))

/-! ## What the calls do -/

/-- The slices `ss` were copied: the flag and the bitstream are what their bytes 3, 4 and 5 make of
them. -/
structure VP8Copied (ss : List VP8Slice) (st st' : PictureState) : Prop where
  flag : st'.firstKeyframeValid = (st.firstKeyframeValid || ss.any VP8Slice.takenAsHeader)
  bytes : st'.bitstreamBuffer.bytes = st.bitstreamBuffer.bytes ++
    Until.written VP8Slice.takenAsHeader VP8Slice.nullBytes VP8Slice.data st.firstKeyframeValid ss

section Copied

variable {mem : Memory} {buf : NVBuffer} {st st₁ st' : PictureState} {ss ss' : List VP8Slice}

theorem VP8Copied.refl (st : PictureState) : VP8Copied [] st st :=
  ⟨(Bool.or_false _).symm, (List.append_nil _).symm⟩

theorem VP8Copied.trans (h₁ : VP8Copied ss st st₁) (h₂ : VP8Copied ss' st₁ st') :
    VP8Copied (ss ++ ss') st st' := by
  constructor
  · rw [h₂.flag, h₁.flag, List.any_append, Bool.or_assoc]
  · rw [h₂.bytes, h₁.bytes, h₁.flag, Until.written_append, List.append_assoc]

/-- A state with the same flag and the same bitstream. -/
theorem VP8Copied.of_eq (hf : st'.firstKeyframeValid = st.firstKeyframeValid)
    (hb : st'.bitstreamBuffer = st.bitstreamBuffer) : VP8Copied [] st st' :=
  ⟨hf.trans (Bool.or_false _).symm, (congrArg _ hb).trans (List.append_nil _).symm⟩

theorem vp8Padding_flatten (valid isKeyFrame : Bool) (d : List UInt8) :
    (vp8Padding valid isKeyFrame ++ [d]).flatten =
      (if valid then [] else if isKeyFrame then .replicate 10 0 else .replicate 3 0) ++ d := by
  cases valid <;> cases isKeyFrame <;> simp [vp8Padding]

theorem vp8_copySlice {s : VASliceParameterBuffer}
    (h : Codec.vp8.copySlice mem buf s st = some st') :
    VP8Copied [⟨!st.pPicParams.vp8FrameType, mem, buf, s⟩] st st' ∧
      st'.pPicParams.vp8FrameType = st.pPicParams.vp8FrameType := by
  obtain ⟨so, bb, rfl, -, -, hbb⟩ := copySlice_some rfl h
  refine ⟨⟨?_, ?_⟩, rfl⟩
  · simp [PictureState.addBytes, Codec.keyframeValid, VP8Slice.takenAsHeader]
  · refine hbb.trans (congrArg _ ?_)
    rw [Codec.slicePieces, vp8Padding_flatten, Until.written_cons, Until.written_nil,
      List.append_nil]
    rfl

theorem vp8_copySlices {ps : List VASliceParameterBuffer}
    (h : ps.foldlM (fun st s => Codec.vp8.copySlice mem buf s st) st = some st') :
    VP8Copied (ps.map fun s => ⟨!st.pPicParams.vp8FrameType, mem, buf, s⟩) st st' := by
  induction ps generalizing st with
  | nil =>
    obtain rfl : st = st' := by simpa using h
    exact .refl st
  | cons s ps ih =>
    obtain ⟨st₁, h₁, h⟩ := Option.bind_eq_some_iff.mp h
    obtain ⟨hc, ht⟩ := vp8_copySlice h₁
    have := ih h
    rw [ht] at this
    exact hc.trans this

/-- The buffer of slice data copies its slices. The others touch neither the flag nor the
bitstream. -/
theorem vp8_renderBuffer {b : Option NVBuffer} (h : renderBuffer vp8Codec mem st b = some st') :
    VP8Copied (vp8BufferSlices mem st b) st st' := by
  cases b with
  | none =>
    obtain rfl : st = st' := by simpa using h
    exact .refl st
  | some buf =>
    by_cases hp : buf.ptr = 0
    · rw [renderBuffer_null hp] at h
      obtain rfl := Option.some_inj.mp h
      rw [vp8BufferSlices, if_neg fun hc => hc.1 hp]
      exact .refl st
    · cases ht : buf.bufferType with
      | sliceData =>
        obtain ⟨func, hf, hloop⟩ := sliceData_eq (c := .vp8) (by decide)
        rw [vp8BufferSlices, if_pos ⟨hp, ht⟩]
        rw [renderBuffer_handler hp (ht ▸ hf), hloop, forSlices] at h
        let ps := (List.range st.lastSliceParamsCount.toNat).map (mem st.lastSliceParams).slices
        have h : ps.foldlM (fun st s =>
            Codec.vp8.copySlice mem buf s st) (Codec.vp8.startSlices mem buf st) =
            some st' := by
          rw [List.foldlM_map]
          exact h
        have hstart : VP8Copied [] st (Codec.vp8.startSlices mem buf st) := .of_eq rfl rfl
        have hcopied := hstart.trans (vp8_copySlices h)
        rw [List.map_map] at hcopied
        exact hcopied
      | pictureParameter | sliceParameter | iqMatrix | probability =>
        rw [vp8BufferSlices, if_neg (by simp [ht])]
        simp only [renderBuffer, if_neg hp, ht, vp8Codec] at h
        obtain rfl := Option.some_inj.mp h
        exact .of_eq rfl rfl
      | bitPlane | huffmanTable | other =>
        rw [vp8BufferSlices, if_neg (by simp [ht])]
        simp only [renderBuffer, if_neg hp, ht, vp8Codec] at h
        obtain rfl := Option.some_inj.mp h
        exact .refl st

theorem vp8_nvRenderPicture {bs : List (Option NVBuffer)}
    (h : nvRenderPicture vp8Codec mem bs st = some st') :
    VP8Copied (vp8RenderSlices mem st bs) st st' := by
  induction bs generalizing st with
  | nil =>
    obtain rfl : st = st' := by simpa using h
    exact .refl st
  | cons b bs ih =>
    obtain ⟨st₁, h₁, h⟩ := Option.bind_eq_some_iff.mp h
    rw [vp8RenderSlices, h₁]
    exact (vp8_renderBuffer h₁).trans (ih h)

end Copied

/-- A call from a state that agrees leads to one that does exactly when it mistakes no slice. -/
theorem vp8Agrees_step {x x' : PictureState × VP8Stream} {call : PictureCall} (hx : VP8Agrees x)
    (h : vp8Stream.step x call = some x') : VP8Agrees x' ↔ VP8NoneMistaken x call := by
  obtain ⟨st, t⟩ := x
  obtain ⟨st', t'⟩ := x'
  obtain ⟨hst, rfl⟩ := Lts.withGhost_step_iff.mp h
  obtain ⟨hflag, hbytes⟩ := hx
  cases call with
  | beginPicture idx =>
    obtain rfl := Option.some_inj.mp hst
    refine iff_of_true ⟨?_, ?_⟩ (Until.noneMistaken_nil _)
    · exact hflag.trans (Bool.or_false _).symm
    · exact hbytes.trans (List.append_nil _).symm
  | renderPicture mem bs =>
    obtain ⟨hflag', hbytes'⟩ := vp8_nvRenderPicture hst
    have heq : Until.written VP8Slice.takenAsHeader VP8Slice.nullBytes VP8Slice.data t.headerSeen
        (vp8RenderSlices mem st bs) = vp8Expected t.headerSeen (vp8RenderSlices mem st bs) ↔ _ :=
      Until.written_eq_iff VP8Slice.takenAsHeader_of_hasHeader VP8Slice.nullBytes_ne_nil _ _
    simp only [VP8Agrees, VP8Stream.next, vp8Slices]
    rw [hflag', hbytes', hflag, hbytes, List.append_cancel_left_eq, heq]
    exact and_iff_right_of_imp fun hn => hn.any VP8Slice.takenAsHeader_of_hasHeader
  | endPicture decoder pushed =>
    obtain rfl := Option.some_inj.mp hst
    refine iff_of_true ?_ (Until.noneMistaken_nil _)
    cases decoder with
    | false => exact ⟨hflag, hbytes⟩
    | true => exact ⟨hflag, AppendableBuffer.reset_bytes _⟩

/-- In every state of a run of a VP8 context a frame header was seen exactly when a key frame with
the start code came, and the slices until then are behind null bytes, if and only if no slice before
the first header is mistaken for one. -/
theorem vp8_always_iff_meets {width height : UInt32} {calls : List PictureCall} {st : PictureState}
    (hr : Codec.vp8.decoding.run (.init width height) calls = some st) :
    vp8Stream.Always VP8Agrees (.init width height, ⟨false, []⟩) calls ↔
      vp8Stream.Meets VP8NoneMistaken (.init width height, ⟨false, []⟩) calls := by
  obtain ⟨t, hr⟩ := Lts.run_withGhost ⟨false, []⟩ ⟨false, []⟩ VP8Stream.next hr
  refine Lts.always_iff_meets (I := fun _ => True) ?_ ?_ trivial ⟨rfl, rfl⟩ (Lts.meets_true _ _) hr
  · exact fun _ _ _ _ _ _ => trivial
  · exact fun x call x' _ _ hx hstep => vp8Agrees_step hx hstep

/-- A client with one slice of six bytes. -/
def sixBytesMemory (bytes : List UInt8) : Memory := fun _ =>
  { (default : ClientData) with
    bytes := fun i => bytes.getD i 0
    slices := fun _ => { (default : VASliceParameterBuffer) with sliceDataSize := 6 } }

/-- A key frame with the given bytes. -/
def keyFrameCalls (bytes : List UInt8) : List PictureCall :=
  [.beginPicture 0,
    .renderPicture (sixBytesMemory bytes) [some oneSliceParams, some (oneSliceData 6)]]

/-- A key frame with a header, and behind it one with a single byte of the start code. -/
theorem vp8_always_iff_meets_header :
    vp8Stream.Always VP8Agrees (.init 16 16, ⟨false, []⟩)
      (keyFrameCalls [0, 0, 0, 0x9d, 0x01, 0x2a] ++
        .endPicture true true :: keyFrameCalls [0, 0, 0, 0x9d, 0, 0]) := by
  obtain ⟨st, hr⟩ : ∃ st, Codec.vp8.decoding.run (.init 16 16)
      (keyFrameCalls [0, 0, 0, 0x9d, 0x01, 0x2a] ++
        .endPicture true true :: keyFrameCalls [0, 0, 0, 0x9d, 0, 0]) = some st := ⟨_, rfl⟩
  exact (vp8_always_iff_meets hr).mpr (by decide)

/-- A key frame without a header is taken as one with a header for a single byte. -/
theorem not_vp8_always :
    ¬∀ (width height : UInt32) (calls : List PictureCall) (st : PictureState),
      Codec.vp8.decoding.run (.init width height) calls = some st →
      vp8Stream.Always VP8Agrees (.init width height, ⟨false, []⟩) calls := by
  intro h
  obtain ⟨st, hr⟩ :
      ∃ st, Codec.vp8.decoding.run (.init 16 16) (keyFrameCalls [0, 0, 0, 0x9d, 0, 0]) = some st :=
    ⟨_, rfl⟩
  obtain ⟨x, hx, hflag, hseen⟩ : ∃ x, vp8Stream.run (.init 16 16, ⟨false, []⟩)
      (keyFrameCalls [0, 0, 0, 0x9d, 0, 0]) = some x ∧ x.1.firstKeyframeValid = true ∧
        x.2.headerSeen = false :=
    ⟨_, rfl, by decide, by decide⟩
  have hagrees := ((h 16 16 _ st hr).last hx).1
  rw [hflag, hseen] at hagrees
  cases hagrees

end NvVaapi
