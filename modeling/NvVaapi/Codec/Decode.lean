import NvVaapi.Codec.Handlers
import NvVaapi.Lib.Fold
import NvVaapi.Lib.Lts

/-!
# The picture under `nvBeginPicture`, `nvRenderPicture` and `nvEndPicture`

* `Codec`: the registered codecs, `Codec.nvCodec` their handler tables.
* `beginPicture`, `nvRenderPicture`, `endPicture`: what the three calls do to the picture of a
  decode context.
* `Codec.decoding`: the system of these calls on one context. Calls that fail before they reach
  the picture are not steps of it.
* `nvRenderPicture_keeps`: what the turn for a buffer keeps, the whole call keeps.
-/

namespace NvVaapi

/-- The codecs that are registered. MPEG-4 is declared with `DECLARE_DISABLED_CODEC`. -/
inductive Codec where
  | h264
  | hevc
  | mpeg2
  | vc1
  | vp8
  | vp9
  | av1
  | jpeg
  deriving DecidableEq

def Codec.nvCodec : Codec → NVCodec
  | .h264 => h264Codec
  | .hevc => hevcCodec
  | .mpeg2 => mpeg2Codec
  | .vc1 => vc1Codec
  | .vp8 => vp8Codec
  | .vp9 => vp9Codec
  | .av1 => av1Codec
  | .jpeg => jpegCodec

/-- What `nvBeginPicture` does to the picture once the surface has the index `pictureIdx`. -/
def beginPicture (codec : NVCodec) (pictureIdx : Int) (st : PictureState) : PictureState :=
  let st := { st with pPicParams := { CUVIDPICPARAMS.zero with currPicIdx := pictureIdx } }
  match codec.beginPicture with
  | some f => f st
  | none => st

/-- The turn of `nvRenderPicture` for one buffer. No buffer stands for an id without an object. -/
def renderBuffer (codec : NVCodec) (mem : Memory) (st : PictureState) :
    Option NVBuffer → Option PictureState
  | none => some st
  | some buf =>
    if buf.ptr = 0 then some st
    else match codec.handlers buf.bufferType with
      | some func => func mem buf st
      | none => some st

/-- The decoding part of `nvRenderPicture`. -/
def nvRenderPicture (codec : NVCodec) (mem : Memory) (buffers : List (Option NVBuffer))
    (st : PictureState) : Option PictureState :=
  buffers.foldlM (renderBuffer codec mem) st

/-- What `cuvidDecodePicture` gets of the picture: the bytes behind `pBitstreamData` and
`pSliceDataOffsets` up to the sizes, and the two counters. -/
structure Submission where
  bitstream : List UInt8
  sliceOffsets : List UInt8
  nNumSlices : UInt32
  nBitstreamDataLen : UInt32
  deriving DecidableEq

def PictureState.submission (st : PictureState) : Submission :=
  ⟨st.bitstreamBuffer.bytes, st.sliceOffsets.bytes, st.pPicParams.nNumSlices,
    st.pPicParams.nBitstreamDataLen⟩

/-- What `nvEndPicture` does to the picture, and what it hands to `cuvidDecodePicture`, if it gets
there: `decoder` says that the context has a decoder, `pushed` that `cuCtxPushCurrent` succeeds. -/
def endPicture (decoder pushed : Bool) (st : PictureState) : PictureState × Option Submission :=
  if decoder then
    ({ st with
        bitstreamBuffer := st.bitstreamBuffer.reset
        sliceOffsets := st.sliceOffsets.reset },
      if pushed then some st.submission else none)
  else (st, none)

/-- A call on a decode context, with what it meets. -/
inductive PictureCall where
  | beginPicture (pictureIdx : Int)
  | renderPicture (mem : Memory) (buffers : List (Option NVBuffer))
  | endPicture (decoder pushed : Bool)

def pictureStep (codec : NVCodec) (st : PictureState) : PictureCall → Option PictureState
  | .beginPicture pictureIdx => some (beginPicture codec pictureIdx st)
  | .renderPicture mem buffers => nvRenderPicture codec mem buffers st
  | .endPicture decoder pushed => some (endPicture decoder pushed st).1

/-- The calls on one decode context. A call that does not return is not enabled. -/
def Codec.decoding (c : Codec) : Lts PictureState PictureCall where
  init st := ∃ width height, st = .init width height
  step := pictureStep c.nvCodec

/-! ## The steps -/

section Steps

variable {codec : NVCodec} {mem : Memory} {st st' : PictureState}

@[simp] theorem renderBuffer_none : renderBuffer codec mem st none = some st := rfl

theorem renderBuffer_null {buf : NVBuffer} (h : buf.ptr = 0) :
    renderBuffer codec mem st (some buf) = some st := by
  simp [renderBuffer, h]

theorem renderBuffer_handler {buf : NVBuffer} {func : HandlerFunc} (h : buf.ptr ≠ 0)
    (hf : codec.handlers buf.bufferType = some func) :
    renderBuffer codec mem st (some buf) = func mem buf st := by
  simp [renderBuffer, h, hf]

/-- A buffer is skipped, or one handler runs on it. -/
theorem renderBuffer_cases {b : Option NVBuffer} (h : renderBuffer codec mem st b = some st') :
    st' = st ∨ ∃ buf func, b = some buf ∧ buf.ptr ≠ 0 ∧
      codec.handlers buf.bufferType = some func ∧ func mem buf st = some st' := by
  cases b with
  | none => exact .inl (by simpa using h.symm)
  | some buf =>
    by_cases hp : buf.ptr = 0
    · rw [renderBuffer_null hp] at h
      exact .inl (by simpa using h.symm)
    · cases hf : codec.handlers buf.bufferType with
      | none => exact .inl (by simpa [renderBuffer, hp, hf] using h.symm)
      | some func =>
        rw [renderBuffer_handler hp hf] at h
        exact .inr ⟨buf, func, rfl, hp, hf, h⟩

theorem beginPicture_cases (c : Codec) (idx : Int) (st : PictureState) :
    beginPicture c.nvCodec idx st =
      let st := { st with pPicParams := { CUVIDPICPARAMS.zero with currPicIdx := idx } }
      if c = .jpeg then resetJPEGPictureState st else st := by
  cases c <;> rfl

@[simp] theorem beginPicture_bitstreamBuffer (c : Codec) (idx : Int) (st : PictureState) :
    (beginPicture c.nvCodec idx st).bitstreamBuffer = st.bitstreamBuffer := by
  cases c <;> rfl

@[simp] theorem beginPicture_sliceOffsets (c : Codec) (idx : Int) (st : PictureState) :
    (beginPicture c.nvCodec idx st).sliceOffsets = st.sliceOffsets := by
  cases c <;> rfl

@[simp] theorem nvRenderPicture_nil : nvRenderPicture codec mem [] st = some st := rfl

@[simp] theorem nvRenderPicture_cons (b : Option NVBuffer) (bs : List (Option NVBuffer)) :
    nvRenderPicture codec mem (b :: bs) st =
      (renderBuffer codec mem st b).bind (nvRenderPicture codec mem bs) := rfl

end Steps

theorem nvRenderPicture_keeps {codec : NVCodec} {mem : Memory} {P : PictureState → Prop}
    (hs : ∀ st b st', P st → renderBuffer codec mem st b = some st' → P st')
    {bs : List (Option NVBuffer)} {st st' : PictureState} (h0 : P st)
    (h : nvRenderPicture codec mem bs st = some st') : P st' :=
  List.foldlM_keeps hs h0 h

end NvVaapi
