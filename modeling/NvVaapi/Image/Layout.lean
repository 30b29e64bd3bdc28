import NvVaapi.Objects.World
import Mathlib.Data.Fin.VecNotation

/-!
# Image formats and the layout of images

* `VAFourcc`, `nvFormatFromVaFormat`, `nvQueryImageFormats`: the formats that the driver lists.
* `NVImage`: an image with the layout of its planes and the memory of its buffer.
* `nvCreateImage`: the layout that an image is created with.

The product of the sizes is one of `int`s. Where it overflows it is undefined, and there is no
image.
-/

namespace NvVaapi.Image

open Objects (NVFormat)

/-- The `VA_FOURCC` values that the driver tells apart. -/
inductive VAFourcc where
  | nv12
  | p010
  | p012
  | p016
  | yuv444p
  | q416
  | other
  deriving DecidableEq

structure NVFormatPlane where
  channelCount : UInt32
  ssX : Nat
  ssY : Nat
  deriving DecidableEq

/-! What the functions on images read of `formatsInfo`. -/

/-- The formats in the order of the table. -/
def formats : List NVFormat := [.nv12, .p010, .p012, .p016, .yuv444p, .q416]

def vaFormat : NVFormat → VAFourcc
  | .nv12 => .nv12
  | .p010 => .p010
  | .p012 => .p012
  | .p016 => .p016
  | .yuv444p => .yuv444p
  | .q416 => .q416

def is16bits : NVFormat → Bool
  | .p010 | .p012 | .p016 | .q416 => true
  | .nv12 | .yuv444p => false

def isYuv444 : NVFormat → Bool
  | .yuv444p | .q416 => true
  | _ => false

def plane : NVFormat → List NVFormatPlane
  | .nv12 | .p010 | .p012 | .p016 => [⟨1, 0, 0⟩, ⟨2, 1, 1⟩]
  | .yuv444p | .q416 => [⟨1, 0, 0⟩, ⟨1, 0, 0⟩, ⟨1, 0, 0⟩]

def nvFormatFromVaFormat (fourcc : VAFourcc) : Option NVFormat :=
  formats.find? fun format => vaFormat format = fourcc

theorem nvFormatFromVaFormat_vaFormat (format : NVFormat) :
    nvFormatFromVaFormat (vaFormat format) = some format := by
  cases format <;> rfl

def nvQueryImageFormats (info : Objects.DriverInfo) : List VAFourcc :=
  (formats.filter fun format =>
    (!is16bits format || info.supports16BitSurface) &&
      (!isYuv444 format || info.supports444Surface)).map vaFormat

/-- Every format that is listed is known to `nvCreateImage`. -/
theorem exists_format_of_listed {info : Objects.DriverInfo} {fourcc : VAFourcc}
    (h : fourcc ∈ nvQueryImageFormats info) : ∃ format, vaFormat format = fourcc := by
  obtain ⟨format, -, hf⟩ := List.mem_map.mp h
  exact ⟨format, hf⟩

/-- A memory. What is behind a pointer that is not NULL. -/
abbrev Memory := Nat → UInt8

structure NVImage where
  width : UInt32
  height : UInt32
  format : NVFormat
  pitches : Fin 3 → UInt32
  offsets : Fin 3 → UInt32
  /-- `imageBuffer->size` and `imageBuffer->ptr`. -/
  size : Nat
  ptr : Option Memory

/-- `width * height`, where the `int`s have a product. -/
def pixels (width height : Int32) : Option Int :=
  let n := width.toInt * height.toInt
  if -2 ^ 31 ≤ n ∧ n < 2 ^ 31 then some n else none

/-- The bytes of a plane in an image of `n` pixels. -/
def planeSize (format : NVFormat) (n : Int) (p : NVFormatPlane) : UInt32 :=
  UInt32.ofInt (n >>> (p.ssX + p.ssY)) * format.bppc * p.channelCount

/-- The offset of plane `i`. -/
def planeOffset (format : NVFormat) (n : Int) (i : Nat) : UInt32 :=
  (((plane format).take i).map (planeSize format n)).sum

/-- What `nvCreateImage` leaves, with what `memalign` returns. The offset of a third plane is also
computed where there are two. -/
def createdImage (format : NVFormat) (width height : Int32) (n : Int) (memory : Option Memory) :
    NVImage where
  width := width.toUInt32
  height := height.toUInt32
  format
  pitches _ := width.toUInt32 * format.bppc
  offsets i := planeOffset format n i
  size := ((plane format).map fun p => (planeSize format n p).toNat).sum
  ptr := memory

def nvCreateImage (format : VAFourcc) (width height : Int32) (memory : Option Memory) :
    Option (Except Objects.VAStatus NVImage) :=
  match nvFormatFromVaFormat format with
  | none => some (.error .errorInvalidImageFormat)
  | some format =>
    (pixels width height).map fun n => .ok (createdImage format width height n memory)

/-! ## The layout of a created image -/

theorem toNat_ofInt (i : Int) : (UInt32.ofInt i).toNat = (i % 2 ^ 32).toNat := by
  rw [UInt32.ofInt, UInt32.toNat_ofNat']
  omega

theorem ofInt_toInt (x : Int32) : UInt32.ofInt x.toInt = x.toUInt32 := by
  have h : (BitVec.ofInt 32 x.toInt).toNat = x.toUInt32.toNat :=
    congrArg BitVec.toNat BitVec.ofInt_toInt
  rw [← UInt32.toNat_inj, ← h, BitVec.toNat_ofInt, toNat_ofInt]
  rfl

theorem pixels_eq_some {width height : Int32} {n : Int} (h : pixels width height = some n) :
    n = width.toInt * height.toInt := by
  simp only [pixels, Option.ite_none_right_eq_some, Option.some_inj] at h
  exact h.2.symm

theorem nvCreateImage_ok (format : NVFormat) {width height : Int32} {memory : Option Memory}
    {img : NVImage} (h : nvCreateImage (vaFormat format) width height memory = some (.ok img)) :
    ∃ n, pixels width height = some n ∧ img = createdImage format width height n memory := by
  simp only [nvCreateImage, nvFormatFromVaFormat_vaFormat, Option.map_eq_some_iff,
    Except.ok.injEq] at h
  obtain ⟨n, hn, himg⟩ := h
  exact ⟨n, hn, himg.symm⟩

end NvVaapi.Image
