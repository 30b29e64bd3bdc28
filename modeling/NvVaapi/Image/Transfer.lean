import NvVaapi.Encode.State
import NvVaapi.Image.Layout
import NvVaapi.Lib.TwoPlane
import NvVaapi.Objects.Access

/-!
# Reading and writing surfaces through images

* `NVSurface`: a surface with its host buffer and the arrays of its backing image.
* `nvPutImage`: the copy from an image into the host buffer.
* `nvGetImage`: the copy into an image, from the host buffer (`getImageHost`) or from the backing
  image (`getImageDevice`).
* `nvDeriveImage`, `nvLockSurface`: the layouts with which the host buffer itself is given out.

A `Transfer` is what such a call returns and leaves, with the parts of the planes that it copied.
What follows a NULL pointer has no result.
-/

namespace NvVaapi.Image

open Objects (NVFormat NVContextMode PutArgs GetResults)

/-- `VASurfaceStatus` -/
inductive SurfaceStatus where
  | ready
  | rendering
  deriving DecidableEq

/-- A CUDA array: its bytes by row and column. -/
abbrev CUarray := Nat → Nat → UInt8

structure NVSurface extends EncodeSurface where
  hostData : Option Memory
  /-- `backingImage->arrays` -/
  backingImage : Option (Nat → CUarray)
  status : SurfaceStatus

structure Transfer (σ : Type) where
  status : Objects.VAStatus
  after : σ
  /-- The copies from or to the host buffer. -/
  copied : Option (PlaneCopy × PlaneCopy)

/-- The host buffer was not copied. -/
def Transfer.plain {σ : Type} (status : Objects.VAStatus) (after : σ) : Transfer σ :=
  ⟨status, after, none⟩

/-- The host buffer of a surface: rows of `hostPitch` bytes, chroma from `hostYSize` on. -/
def hostLayout (sf : EncodeSurface) : TwoPlane := ⟨0, sf.hostPitch, sf.hostYSize, sf.hostPitch⟩

/-- The two planes of an image that are copied. A pitch of 0 stands for the width. -/
def NVImage.layout (img : NVImage) : TwoPlane :=
  let pitchY := if img.pitches 0 ≠ 0 then img.pitches 0 else img.width
  let pitchUV := if img.pitches 1 ≠ 0 then img.pitches 1 else pitchY
  ⟨(img.offsets 0).toNat, pitchY.toNat, (img.offsets 1).toNat, pitchUV.toNat⟩

/-- The parts of the luma and of the chroma plane that are copied. -/
def planeCopies (srcX srcY dstX dstY copyW copyH : UInt32) : PlaneCopy × PlaneCopy :=
  (⟨srcX.toNat, srcY.toNat, dstX.toNat, dstY.toNat, copyW.toNat, copyH.toNat⟩,
    ⟨(evenDown srcX).toNat, (srcY / 2).toNat, (evenDown dstX).toNat, (dstY / 2).toNat,
      (evenDown copyW).toNat, (copyH / 2).toNat⟩)

/-- The surface with its host buffer, if there is one or `calloc` returns one. -/
def ensureSurfaceHostBuffer (calloc : Bool) (sf : NVSurface) : Option (NVSurface × Memory) :=
  match sf.hostData with
  | some host => some (sf, host)
  | none =>
    if calloc then some ({ sf with hostData := some fun _ => 0, status := .ready }, fun _ => 0)
    else none

/-- The origins are in the image and in the surface. -/
def PutStarts (sf : EncodeSurface) (img : NVImage) (p : PutArgs) : Prop :=
  ¬(p.srcX < 0 ∨ p.srcY < 0 ∨ p.destX < 0 ∨ p.destY < 0) ∧
    ¬(p.srcX.toUInt32 ≥ img.width ∨ p.srcY.toUInt32 ≥ img.height) ∧
    ¬(p.destX.toUInt32 ≥ sf.width ∨ p.destY.toUInt32 ≥ sf.height)

instance (sf : EncodeSurface) (img : NVImage) (p : PutArgs) : Decidable (PutStarts sf img p) :=
  inferInstanceAs (Decidable (_ ∧ _ ∧ _))

def PutEmpty (p : PutArgs) : Prop :=
  p.srcWidth = 0 ∨ p.srcHeight = 0 ∨ p.destWidth = 0 ∨ p.destHeight = 0

instance (p : PutArgs) : Decidable (PutEmpty p) := inferInstanceAs (Decidable (_ ∨ _ ∨ _ ∨ _))

/-- `copyW` -/
def putWidth (sf : EncodeSurface) (img : NVImage) (p : PutArgs) : UInt32 :=
  clip p.destX.toUInt32 (clip p.srcX.toUInt32 (lesser p.srcWidth p.destWidth) img.width) sf.width

/-- `copyH` -/
def putHeight (sf : EncodeSurface) (img : NVImage) (p : PutArgs) : UInt32 :=
  clip p.destY.toUInt32
    (clip p.srcY.toUInt32 (lesser p.srcHeight p.destHeight) img.height) sf.height

def putCopies (sf : EncodeSurface) (img : NVImage) (p : PutArgs) : PlaneCopy × PlaneCopy :=
  planeCopies p.srcX.toUInt32 p.srcY.toUInt32 p.destX.toUInt32 p.destY.toUInt32 (putWidth sf img p)
    (putHeight sf img p)

/-- The part of `nvPutImage` that holds the mutex. -/
def copyToSurface (sf : NVSurface) (host : Memory) (img : NVImage) (src : Memory) (p : PutArgs) :
    NVSurface :=
  let copyW := putWidth sf.toEncodeSurface img p
  let copyH := putHeight sf.toEncodeSurface img p
  let copies := putCopies sf.toEncodeSurface img p
  { sf with
    toEncodeSurface :=
      if copyW > 0 ∧ copyH > 0 then sf.addContent p.destX.toUInt32 p.destY.toUInt32 copyW copyH
      else sf.toEncodeSurface
    hostData := some ((hostLayout sf.toEncodeSurface).copy img.layout copies src host) }

def nvPutImage (calloc : Bool) (sf : NVSurface) (img : NVImage) (p : PutArgs) :
    Transfer NVSurface :=
  match img.ptr with
  | none => .plain .errorInvalidImage sf
  | some src =>
    match ensureSurfaceHostBuffer calloc sf with
    | none => .plain .errorAllocationFailed sf
    | some (sf, host) =>
      if PutEmpty p then .plain .success { sf with status := .ready }
      else if ¬PutStarts sf.toEncodeSurface img p then .plain .errorInvalidParameter sf
      else ⟨.success, { copyToSurface sf host img src p with status := .ready },
        some (putCopies sf.toEncodeSurface img p)⟩

def GetStarts (sf : EncodeSurface) (x y : Int32) : Prop :=
  ¬(x < 0 ∨ y < 0) ∧ ¬(x.toUInt32 ≥ sf.width ∨ y.toUInt32 ≥ sf.height)

instance (sf : EncodeSurface) (x y : Int32) : Decidable (GetStarts sf x y) :=
  inferInstanceAs (Decidable (_ ∧ _))

/-- With the same clips, and then clipped to the size of the image. -/
def getCopies (sf : EncodeSurface) (img : NVImage) (x y : Int32) (width height : UInt32) :
    PlaneCopy × PlaneCopy :=
  planeCopies x.toUInt32 y.toUInt32 0 0 (lesser img.width (clip x.toUInt32 width sf.width))
    (lesser img.height (clip y.toUInt32 height sf.height))

/-- A surface that was last used for encoding, or not at all. -/
def getImageHost (sf : NVSurface) (img : NVImage) (x y : Int32) (width height : UInt32) :
    Transfer NVImage :=
  match sf.hostData, img.ptr with
  | some host, some dst =>
    if ¬GetStarts sf.toEncodeSurface x y then .plain .errorInvalidParameter img
    else
      let copies := getCopies sf.toEncodeSurface img x y width height
      let dst := img.layout.copy (hostLayout sf.toEncodeSurface) copies host dst
      ⟨.success, { img with ptr := some dst }, some copies⟩
  | _, _ => .plain .errorInvalidContext img

/-- The `cuMemcpy2D` of a plane, from the origin of its array. -/
def memcpy2D (array : CUarray) (dstHost dstPitch widthInBytes height : UInt32)
    (dst : Memory) : Memory :=
  Plane.copyRows dstPitch.toNat dstHost.toNat array widthInBytes.toNat height.toNat dst

/-- The loop over the planes. `done i` is whether the copy of plane `i` succeeds. -/
def copyArrays (format : NVFormat) (width height : UInt32) (arrays : Nat → CUarray)
    (done : Nat → Bool) :
    List NVFormatPlane → (i : Nat) → (offset : UInt32) → Memory → Bool × Memory
  | [], _, _, dst => (true, dst)
  | p :: ps, i, offset, dst =>
    if done i then
      let widthInBytes := (width >>> UInt32.ofNat p.ssX) * format.bppc * p.channelCount
      let size := ((width * height) >>> UInt32.ofNat (p.ssX + p.ssY)) * format.bppc * p.channelCount
      copyArrays format width height arrays done ps (i + 1) (offset + size) <|
        memcpy2D (arrays i) offset (width * format.bppc) widthInBytes
          (height >>> UInt32.ofNat p.ssY) dst
    else (false, dst)

/-- A surface that was last used for decoding, after it was waited for. -/
def getImageDevice (sf : NVSurface) (img : NVImage) (width height : UInt32) (r : GetResults) :
    Option (Transfer NVImage) :=
  if !r.pushed then some (.plain .errorOperationFailed img)
  else do
    let arrays ← sf.backingImage
    let dst ← img.ptr
    let (done, dst) :=
      copyArrays img.format width height arrays r.memcpy2D (plane img.format) 0 0 dst
    let img := { img with ptr := some dst }
    if !done then return .plain .errorDecodingError img
    else if !r.popped then return .plain .errorOperationFailed img
    else return .plain .success img

/-- `mode` is the mode of the context that the surface was last used with. -/
def nvGetImage (mode : Option NVContextMode) (sf : NVSurface) (img : NVImage) (x y : Int32)
    (width height : UInt32) (r : GetResults) : Option (Transfer NVImage) :=
  if mode = none ∨ mode = some .encode then some (getImageHost sf img x y width height)
  else getImageDevice sf img width height r

/-- The host buffer with the layout of the image that `nvDeriveImage` makes. -/
def nvDeriveImage (calloc : Bool) (sf : NVSurface) : Option (NVSurface × TwoPlane × Memory) := do
  let (sf, host) ← ensureSurfaceHostBuffer calloc sf
  return (sf, ⟨0, sf.hostPitch, sf.hostYSize % 2 ^ 32, sf.hostPitch⟩, host)

/-- The host buffer with the strides and the offsets that `nvLockSurface` returns. -/
def nvLockSurface (calloc : Bool) (sf : NVSurface) : Option (NVSurface × TwoPlane × Memory) := do
  let (sf, host) ← ensureSurfaceHostBuffer calloc sf
  return (sf, ⟨0, sf.hostPitch, sf.hostYSize % 2 ^ 32, sf.hostPitch⟩, host)

/-! ## The layouts -/

/-- The chroma plane of an image is right behind its luma plane, if 32 bits hold the offset. -/
theorem layout_created {width height : Int32} {memory : Option Memory} {img : NVImage}
    (h : nvCreateImage .nv12 width height memory = some (.ok img)) :
    img.layout = ⟨0, img.width.toNat, (img.width * img.height).toNat, img.width.toNat⟩ := by
  obtain ⟨n, hn, rfl⟩ := nvCreateImage_ok .nv12 h
  obtain rfl := pixels_eq_some hn
  simp [NVImage.layout, createdImage, planeOffset, planeSize, plane, NVFormat.bppc, ofInt_toInt]

theorem room_created {width height : Int32} {memory : Option Memory} {img : NVImage}
    (h : nvCreateImage .nv12 width height memory = some (.ok img))
    (hfit : img.width.toNat * img.height.toNat < 2 ^ 32) :
    img.layout.Room img.width.toNat img.height.toNat := by
  rw [layout_created h, UInt32.toNat_mul, Nat.mod_eq_of_lt hfit]
  exact ⟨Nat.le_refl _, Nat.le_refl _, by rw [Nat.zero_add, Nat.mul_comm]⟩

theorem room_host {sf : EncodeSurface} (h : sf.SizesFit) :
    (hostLayout sf).Room sf.width.toNat sf.height.toNat := by
  obtain ⟨hw, hh, -⟩ := h
  have hpitch : sf.width.toNat ≤ sf.hostPitch := by
    rw [sf.hostPitch_eq, Nat.mod_eq_of_lt hw]
    omega
  have hrows : sf.height.toNat ≤ sf.hostRows := by
    rw [sf.hostRows_eq, Nat.mod_eq_of_lt hh]
    omega
  refine ⟨hpitch, hpitch, ?_⟩
  show 0 + sf.height.toNat * sf.hostPitch ≤ sf.hostPitch * sf.hostRows
  rw [Nat.zero_add, Nat.mul_comm]
  exact Nat.mul_le_mul_left _ hrows

/-! ## What a successful call did -/

section Success

variable {calloc : Bool} {sf : NVSurface} {img : NVImage}

theorem ensureSurfaceHostBuffer_size {r : NVSurface × Memory}
    (h : ensureSurfaceHostBuffer calloc sf = some r) :
    r.1.toEncodeSurface = sf.toEncodeSurface := by
  unfold ensureSurfaceHostBuffer at h
  split at h
  · obtain rfl := Option.some_inj.mp h
    rfl
  · split at h
    · obtain rfl := Option.some_inj.mp h
      rfl
    · simp at h

theorem ensureSurfaceHostBuffer_host {r : NVSurface × Memory}
    (h : ensureSurfaceHostBuffer calloc sf = some r) : r.1.hostData = some r.2 := by
  unfold ensureSurfaceHostBuffer at h
  split at h
  · next hhost =>
    obtain rfl := Option.some_inj.mp h
    exact hhost
  · split at h
    · obtain rfl := Option.some_inj.mp h
      rfl
    · simp at h

theorem nvPutImage_success {p : PutArgs} (h : (nvPutImage calloc sf img p).status = .success) :
    ∃ src r, img.ptr = some src ∧ ensureSurfaceHostBuffer calloc sf = some r ∧
      (PutEmpty p ∧ nvPutImage calloc sf img p = .plain .success { r.1 with status := .ready } ∨
        ¬PutEmpty p ∧ PutStarts sf.toEncodeSurface img p ∧ nvPutImage calloc sf img p =
          ⟨.success, { copyToSurface r.1 r.2 img src p with status := .ready },
            some (putCopies sf.toEncodeSurface img p)⟩) := by
  unfold nvPutImage at h ⊢
  cases hp : img.ptr with
  | none => simp [hp, Transfer.plain] at h
  | some src =>
    cases he : ensureSurfaceHostBuffer calloc sf with
    | none => simp [hp, he, Transfer.plain] at h
    | some r =>
      refine ⟨src, r, rfl, rfl, ?_⟩
      simp only [hp, he] at h ⊢
      rw [ensureSurfaceHostBuffer_size he] at h ⊢
      by_cases hz : PutEmpty p
      · exact .inl ⟨hz, if_pos hz⟩
      · by_cases hs : PutStarts sf.toEncodeSurface img p
        · exact .inr ⟨hz, hs, by rw [if_neg hz, if_neg (not_not_intro hs)]⟩
        · simp [hz, hs, Transfer.plain] at h

/-- With a host buffer, a call copies to it or leaves it as it is. -/
theorem nvPutImage_cases (calloc : Bool) (img : NVImage) (p : PutArgs) {host : Memory}
    (hhost : sf.hostData = some host) :
    (∃ status after, nvPutImage calloc sf img p = .plain status after ∧
      after.toEncodeSurface = sf.toEncodeSurface ∧ after.hostData = some host) ∨
    ∃ src, img.ptr = some src ∧ ¬PutEmpty p ∧ PutStarts sf.toEncodeSurface img p ∧
      nvPutImage calloc sf img p = ⟨.success,
        { copyToSurface sf host img src p with status := .ready },
        some (putCopies sf.toEncodeSurface img p)⟩ := by
  have hensure : ensureSurfaceHostBuffer calloc sf = some (sf, host) := by
    unfold ensureSurfaceHostBuffer
    rw [hhost]
  unfold nvPutImage
  cases hp : img.ptr with
  | none => exact .inl ⟨_, _, rfl, rfl, hhost⟩
  | some src =>
    simp only [hensure]
    by_cases hz : PutEmpty p
    · exact .inl ⟨_, _, if_pos hz, rfl, hhost⟩
    · by_cases hs : PutStarts sf.toEncodeSurface img p
      · exact .inr ⟨src, rfl, hz, hs, by rw [if_neg hz, if_neg (not_not_intro hs)]⟩
      · exact .inl ⟨_, _, by rw [if_neg hz, if_pos hs], rfl, hhost⟩

theorem getImageHost_success {x y : Int32} {width height : UInt32}
    (h : (getImageHost sf img x y width height).status = .success) :
    ∃ host dst, sf.hostData = some host ∧ img.ptr = some dst ∧ GetStarts sf.toEncodeSurface x y ∧
      getImageHost sf img x y width height =
        ⟨.success, { img with ptr := some (img.layout.copy (hostLayout sf.toEncodeSurface)
          (getCopies sf.toEncodeSurface img x y width height) host dst) },
          some (getCopies sf.toEncodeSurface img x y width height)⟩ := by
  unfold getImageHost at h ⊢
  split at h
  · next host dst hh hd =>
    by_cases hs : GetStarts sf.toEncodeSurface x y
    · exact ⟨host, dst, hh, hd, hs, if_neg (not_not_intro hs)⟩
    · simp [hs, Transfer.plain] at h
  · simp [Transfer.plain] at h

end Success

end NvVaapi.Image
