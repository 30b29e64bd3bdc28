import NvVaapi.Codec.Decode

/-!
# Profiles and configurations

* `VAProfile`: the profiles that the driver tells apart.
* `vaToCuCodec`: the codec that decodes a profile.
* `NVConfig`: a configuration. `encodeConfig` and `decodeConfig` are what `nvCreateConfig` fills in.
-/

namespace NvVaapi.Objects

inductive VAProfile where
  | mpeg2Simple
  | mpeg2Main
  | vc1Simple
  | vc1Main
  | vc1Advanced
  | h264ConstrainedBaseline
  | h264Main
  | h264High
  | jpegBaseline
  | vp8Version0_3
  | hevcMain
  | hevcMain10
  | hevcMain12
  | hevcMain444
  | hevcMain444_10
  | hevcMain444_12
  | vp9Profile0
  | vp9Profile1
  | vp9Profile2
  | vp9Profile3
  | av1Profile0
  | av1Profile1
  | other
  deriving DecidableEq

inductive VAEntrypoint where
  | vld
  | encSlice
  | encSliceLP
  | other
  deriving DecidableEq

def VAProfile.isEncodeProfile : VAProfile → Bool
  | .h264ConstrainedBaseline | .h264Main | .h264High | .hevcMain | .hevcMain10 => true
  | _ => false

/-- The first registered codec whose `computeCudaCodec` knows the profile. It is also the codec that
lists it in `supportedProfiles`. -/
def vaToCuCodec : VAProfile → Option Codec
  | .mpeg2Simple | .mpeg2Main => some .mpeg2
  | .vc1Simple | .vc1Main | .vc1Advanced => some .vc1
  | .h264ConstrainedBaseline | .h264Main | .h264High => some .h264
  | .jpegBaseline => some .jpeg
  | .vp8Version0_3 => some .vp8
  | .hevcMain | .hevcMain10 | .hevcMain12 | .hevcMain444 | .hevcMain444_10 | .hevcMain444_12 =>
    some .hevc
  | .vp9Profile0 | .vp9Profile1 | .vp9Profile2 | .vp9Profile3 => some .vp9
  | .av1Profile0 | .av1Profile1 => some .av1
  | .other => none

/-- `cudaVideoSurfaceFormat` -/
inductive SurfaceFormat where
  | nv12
  | p016
  | yuv444
  | yuv444_16Bit
  deriving DecidableEq

/-- `cudaVideoChromaFormat` -/
inductive ChromaFormat where
  | yuv420
  | yuv444
  deriving DecidableEq

/-! The `VA_RT_FORMAT` values. -/

def rtFormatYuv420 : UInt32 := 0x1
def rtFormatYuv444 : UInt32 := 0x4
def rtFormatYuv420_10 : UInt32 := 0x100
def rtFormatYuv444_10 : UInt32 := 0x400
def rtFormatYuv420_12 : UInt32 := 0x1000
def rtFormatYuv444_12 : UInt32 := 0x4000

/-! The `VA_RC` values. -/

def rcCbr : UInt32 := 0x2
def rcVbr : UInt32 := 0x4
def rcCqp : UInt32 := 0x10

inductive VAConfigAttribType where
  | rtFormat
  | rateControl
  | encMaxRefFrames
  | maxPictureWidth
  | maxPictureHeight
  | encPackedHeaders
  | other
  deriving DecidableEq

structure VAConfigAttrib where
  type : VAConfigAttribType
  value : UInt32

/-- What the driver found out about the device and read from the environment. -/
structure DriverInfo where
  nvencAvailable : Bool
  supports16BitSurface : Bool
  supports444Surface : Bool
  disableDecoder : Bool
  encStrictMode : Bool
  deriving DecidableEq

structure NVConfig where
  profile : VAProfile
  entrypoint : VAEntrypoint
  surfaceFormat : SurfaceFormat
  chromaFormat : ChromaFormat
  bitDepth : Nat
  cudaCodec : Codec
  isEncode : Bool
  encodeRCMode : UInt32
  deriving DecidableEq

namespace NVConfig

def setFormat (cfg : NVConfig) (surfaceFormat : SurfaceFormat) (chromaFormat : ChromaFormat)
    (bitDepth : Nat) : NVConfig :=
  { cfg with surfaceFormat, chromaFormat, bitDepth }

/-- The configuration of an encoder. Of several `VAConfigAttribRateControl` the last one counts. -/
def encodeConfig (profile : VAProfile) (entrypoint : VAEntrypoint) (attribs : List VAConfigAttrib) :
    NVConfig where
  profile
  entrypoint
  surfaceFormat := .nv12
  chromaFormat := .yuv420
  bitDepth := if profile = .hevcMain10 then 10 else 8
  cudaCodec := if profile = .hevcMain ∨ profile = .hevcMain10 then .hevc else .h264
  isEncode := true
  encodeRCMode :=
    attribs.foldl (fun mode a => if a.type = .rateControl then a.value else mode) rcCbr

/-- The value of the first attribute, if it is an `RTFormat`. -/
def firstRTFormat : List VAConfigAttrib → Option UInt32
  | [] => none
  | a :: _ => if a.type = .rtFormat then some a.value else none

/-- The switch under `supports16BitSurface`. -/
def use16Bit (cfg : NVConfig) (rtFormat : Option UInt32) : NVConfig :=
  match cfg.profile with
  | .hevcMain10 => cfg.setFormat .p016 cfg.chromaFormat 10
  | .hevcMain12 => cfg.setFormat .p016 cfg.chromaFormat 12
  | .vp9Profile2 | .av1Profile0 =>
    match rtFormat with
    | some value =>
      if value = rtFormatYuv420_12 then cfg.setFormat .p016 cfg.chromaFormat 12
      else if value = rtFormatYuv420_10 then cfg.setFormat .p016 cfg.chromaFormat 10
      else cfg
    | none => if cfg.profile = .vp9Profile2 then cfg.setFormat .p016 cfg.chromaFormat 10 else cfg
  | _ => cfg

/-- The switch under `supports444Surface`. -/
def use444 (cfg : NVConfig) : NVConfig :=
  match cfg.profile with
  | .hevcMain444 | .vp9Profile1 | .av1Profile1 => cfg.setFormat .yuv444 .yuv444 8
  | _ => cfg

/-- The switch under both. -/
def use444_16Bit (cfg : NVConfig) (rtFormat : Option UInt32) : NVConfig :=
  match cfg.profile with
  | .hevcMain444_10 => cfg.setFormat .yuv444_16Bit .yuv444 10
  | .hevcMain444_12 => cfg.setFormat .yuv444_16Bit .yuv444 12
  | .vp9Profile3 | .av1Profile1 =>
    match rtFormat with
    | some value =>
      if value = rtFormatYuv444_12 then cfg.setFormat .yuv444_16Bit .yuv444 12
      else if value = rtFormatYuv444_10 then cfg.setFormat .yuv444_16Bit .yuv444 10
      else if value = rtFormatYuv444 then cfg.setFormat .yuv444 .yuv444 8
      else cfg
    | none => if cfg.profile = .vp9Profile3 then cfg.setFormat .yuv444_16Bit .yuv444 10 else cfg
  | _ => cfg

/-- The configuration of a decoder. -/
def decodeConfig (info : DriverInfo) (profile : VAProfile) (entrypoint : VAEntrypoint)
    (cudaCodec : Codec) (attribs : List VAConfigAttrib) : NVConfig :=
  let rtFormat := firstRTFormat attribs
  let cfg : NVConfig := ⟨profile, entrypoint, .nv12, .yuv420, 8, cudaCodec, false, 0⟩
  let cfg := if info.supports16BitSurface then cfg.use16Bit rtFormat else cfg
  let cfg := if info.supports444Surface then cfg.use444 else cfg
  if info.supports444Surface ∧ info.supports16BitSurface then cfg.use444_16Bit rtFormat else cfg

end NVConfig

end NvVaapi.Objects
