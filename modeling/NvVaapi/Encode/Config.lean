import NvVaapi.Encode.State
import NvVaapi.Objects.World

/-!
# The configuration of an encoder

* `EncodeParams`: what `nvEncInitializeEncoder` and `nvEncReconfigureEncoder` are given.
* `EncodeSession`: an encode context with its configuration, and the NVENC calls that it made.
* `nvencSetBitrate` and the like: changes of the configuration that are marked with
  `encNeedsReconfigure`.
* `renderBuffer`: what a rendered buffer changes.
* `nvCreateContext`: the configuration that a new context has.
-/

namespace NvVaapi

open Objects (NvencStatus)

/-! ## What NVENC is given -/

/-- `NV_ENC_QP` -/
structure EncQp where
  qpInterP : UInt32
  qpInterB : UInt32
  qpIntra : UInt32
  deriving DecidableEq

inductive RateControlMode where
  | constqp
  | vbr
  | cbr
  deriving DecidableEq

/-- `NV_ENC_RC_PARAMS` -/
structure EncRcParams where
  rateControlMode : RateControlMode
  constQP : EncQp
  averageBitRate : UInt32
  maxBitRate : UInt32
  minQP : EncQp
  maxQP : EncQp
  deriving DecidableEq

/-- `NV_ENC_CONFIG`. Of the two codecs, a context has the one that it encodes. -/
structure EncConfig where
  gopLength : UInt32
  rcParams : EncRcParams
  /-- `encodeCodecConfig.h264Config.idrPeriod` or `encodeCodecConfig.hevcConfig.idrPeriod` -/
  idrPeriod : UInt32
  deriving DecidableEq

/-- `NV_ENC_INITIALIZE_PARAMS`, with what `encodeConfig` points to. -/
structure EncodeParams where
  sizes : EncInitParams
  frameRateNum : UInt32
  frameRateDen : UInt32
  config : EncConfig
  deriving DecidableEq

/-- `NV_ENC_PIC_PARAMS`. The buffers are those of the slot `ioSlot`. -/
structure EncPicParams where
  ioSlot : Nat
  inputPitch : Nat
  inputWidth : UInt32
  inputHeight : UInt32
  inputTimeStamp : UInt32
  /-- `NV_ENC_PIC_FLAG_FORCEIDR`, which goes with the other flag and the picture type. -/
  forceIdr : Bool
  deriving DecidableEq

/-- A call of NVENC, with what it returned. -/
inductive NvencCall where
  | initializeEncoder (p : EncodeParams)
  | reconfigureEncoder (p : EncodeParams) (nvs : NvencStatus)
  | lockInputBuffer (ioSlot : Nat) (nvs : NvencStatus)
  | unlockInputBuffer (ioSlot : Nat) (nvs : NvencStatus)
  | encodePicture (pic : EncPicParams) (nvs : NvencStatus)
  | lockBitstream (ioSlot : Nat) (nvs : NvencStatus)
  | unlockBitstream (ioSlot : Nat) (nvs : NvencStatus)
  deriving DecidableEq

namespace NvencCall

/-- The configuration that the call hands to the encoder. -/
def handed : NvencCall → Option EncodeParams
  | initializeEncoder p | reconfigureEncoder p _ => some p
  | _ => none

/-- The configuration that the encoder runs from this call on. -/
def accepted : NvencCall → Option EncodeParams
  | initializeEncoder p | reconfigureEncoder p .success => some p
  | _ => none

end NvencCall

/-! ## The session -/

/-- The settings from the environment, and whether NVENC has `nvEncReconfigureEncoder`. -/
structure EncodeSettings where
  g_encVisibleReconfigure : Bool
  g_encReconfigureMinMs : UInt32
  g_encStartupIdrFrames : UInt32
  g_encForceIdrEvery : UInt32
  reconfigureAvailable : Bool

inductive VASurfaceStatus where
  | ready
  | rendering
  deriving DecidableEq

/-- An encode context. `frameRateNum` and `frameRateDen` are in `encInitParams`. -/
structure EncodeSession extends EncodeContext where
  frameRateNum : UInt32
  frameRateDen : UInt32
  encConfig : EncConfig
  encFrameNum : UInt32
  encForceIdr : Bool
  encStartupIdrLeft : UInt32
  encLastReconfigureNs : UInt64
  nvencIoBufferCount : Nat
  nvencIoBufferIndex : Nat
  /-- The status of the surface `encCurrentSurface`. -/
  status : VASurfaceStatus
  /-- History: the calls of NVENC, the latest first. -/
  calls : List NvencCall
  deriving DecidableEq

/-- `setU32IfChanged`: the new value of `*dst`, and what is returned. -/
def setU32IfChanged (dst value : UInt32) : UInt32 × Bool :=
  if dst = value then (dst, false) else (value, true)

/-- The three fields of `minQP` or `maxQP` in their turn, and whether one changed. -/
def EncQp.setAll (qp : EncQp) (value : UInt32) : EncQp × Bool :=
  let b := setU32IfChanged qp.qpInterB value
  let p := setU32IfChanged qp.qpInterP value
  let i := setU32IfChanged qp.qpIntra value
  (⟨p.1, b.1, i.1⟩, b.2 || p.2 || i.2)

namespace EncodeSession

variable (s : EncodeSession)

/-- `encInitParams` and `encConfig` -/
def params : EncodeParams := ⟨s.encInitParams, s.frameRateNum, s.frameRateDen, s.encConfig⟩

def setParams (p : EncodeParams) : EncodeSession :=
  { s with
    encInitParams := p.sizes
    frameRateNum := p.frameRateNum
    frameRateDen := p.frameRateDen
    encConfig := p.config }

def log (call : NvencCall) : EncodeSession := { s with calls := call :: s.calls }

/-- The configuration most recently handed to the encoder. -/
def handed : Option EncodeParams := s.calls.findSome? NvencCall.handed

/-- The configuration that the encoder is running, the last one that it accepted. -/
def running : Option EncodeParams := s.calls.findSome? NvencCall.accepted

/-! ### Setting -/

/-- `if (changed) nvCtx->encNeedsReconfigure = 1` -/
def markIf (changed : Bool) : EncodeSession :=
  { s with encNeedsReconfigure := s.encNeedsReconfigure || changed }

def nvencSetBitrate (bitsPerSecond : UInt32) : EncodeSession :=
  let rc := s.encConfig.rcParams
  if bitsPerSecond = 0 then s
  else if rc.rateControlMode = .constqp then s
  else
    let max := if rc.rateControlMode = .cbr then bitsPerSecond
      else if rc.maxBitRate < bitsPerSecond then bitsPerSecond
      else rc.maxBitRate
    let averageBitRate := setU32IfChanged rc.averageBitRate bitsPerSecond
    let maxBitRate := setU32IfChanged rc.maxBitRate max
    { s with
      encConfig.rcParams := { rc with
        averageBitRate := averageBitRate.1
        maxBitRate := maxBitRate.1 } }.markIf (averageBitRate.2 || maxBitRate.2)

def nvencSetFrameRate (fpsNum fpsDen : UInt32) : EncodeSession :=
  if fpsNum = 0 then s
  else
    let fpsDen := if fpsDen = 0 then 1 else fpsDen
    let num := setU32IfChanged s.frameRateNum fpsNum
    let den := setU32IfChanged s.frameRateDen fpsDen
    { s with frameRateNum := num.1, frameRateDen := den.1 }.markIf (num.2 || den.2)

def setGopLength (gopLength : UInt32) : EncodeSession :=
  let gop := setU32IfChanged s.encConfig.gopLength gopLength
  { s with encConfig.gopLength := gop.1 }.markIf gop.2

def setIdrPeriod (idrPeriod : UInt32) : EncodeSession :=
  let idr := setU32IfChanged s.encConfig.idrPeriod idrPeriod
  { s with encConfig.idrPeriod := idr.1 }.markIf idr.2

def nvencSetGop (gopLength idrPeriod : UInt32) : EncodeSession :=
  let s := if gopLength > 0 then s.setGopLength gopLength else s
  if idrPeriod > 0 then s.setIdrPeriod idrPeriod else s

def setMaxBitRate (bitsPerSecond : UInt32) : EncodeSession :=
  let max := setU32IfChanged s.encConfig.rcParams.maxBitRate bitsPerSecond
  { s with encConfig.rcParams.maxBitRate := max.1 }.markIf max.2

def setMaxQp (maxQp : UInt32) : EncodeSession :=
  let qp := s.encConfig.rcParams.maxQP.setAll maxQp
  { s with encConfig.rcParams.maxQP := qp.1 }.markIf qp.2

def setMinQp (minQp : UInt32) : EncodeSession :=
  let qp := s.encConfig.rcParams.minQP.setAll minQp
  { s with encConfig.rcParams.minQP := qp.1 }.markIf qp.2

end EncodeSession

/-! ## Rendering -/

/-- `VAEncSequenceParameterBufferH264` -/
structure SequenceParamsH264 extends SequenceH264 where
  bits_per_second : UInt32
  intra_period : UInt32
  intra_idr_period : UInt32
  timing_info_present_flag : Bool
  num_units_in_tick : UInt32
  time_scale : UInt32

/-- `VAEncSequenceParameterBufferHEVC` -/
structure SequenceParamsHevc where
  pic_width_in_luma_samples : UInt16
  pic_height_in_luma_samples : UInt16
  bits_per_second : UInt32
  intra_period : UInt32
  intra_idr_period : UInt32
  vui_timing_info_present_flag : Bool
  vui_num_units_in_tick : UInt32
  vui_time_scale : UInt32

/-- `VAEncPictureParameterBufferH264` or `VAEncPictureParameterBufferHEVC` -/
structure PictureParams where
  /-- `coded_buf` names a coded buffer. -/
  codedBuf : Bool
  idr_pic_flag : Bool

/-- `VAEncMiscParameterRateControl` -/
structure RateControl where
  bits_per_second : UInt32
  target_percentage : UInt32
  min_qp : UInt32
  max_qp : UInt32

inductive MiscParams where
  | rateControl (rc : RateControl)
  | frameRate (framerate : UInt32)
  /-- Another type, or a payload that is too small. -/
  | other

/-- A buffer that is rendered. Parameters are there when the buffer has memory and is long
enough. -/
inductive EncodeBuffer where
  | coded
  /-- A sequence header, read as each of the two codecs. -/
  | sequenceParameter (h264 : Option SequenceParamsH264) (hevc : Option SequenceParamsHevc)
  | pictureParameter (h264 hevc : Option PictureParams)
  | miscParameter (misc : Option MiscParams)
  | other

namespace EncodeSession

variable (g : EncodeSettings) (s : EncodeSession)

/-- Change the sizes. -/
def withSizes (f : EncodeContext → EncodeContext) : EncodeSession :=
  { s with toEncodeContext := f s.toEncodeContext }

def renderSequenceH264 (seq : SequenceParamsH264) : EncodeSession :=
  let s := s.nvencSetBitrate seq.bits_per_second
  let s := s.nvencSetGop seq.intra_period seq.intra_idr_period
  let s := s.withSizes fun ctx =>
    ctx.nvencUpdateVisibleRectFromH264Seq g.g_encVisibleReconfigure seq.toSequenceH264
  if seq.timing_info_present_flag ∧ seq.time_scale ≠ 0 then
    s.nvencSetFrameRate seq.time_scale
      (if seq.num_units_in_tick ≠ 0 then seq.num_units_in_tick * 2 else 1)
  else s

def renderSequenceHevc (seq : SequenceParamsHevc) : EncodeSession :=
  let s := s.nvencSetBitrate seq.bits_per_second
  let s := s.nvencSetGop seq.intra_period seq.intra_idr_period
  let s := s.withSizes fun ctx => ctx.nvencUpdateVisibleRectFromHevcSeq g.g_encVisibleReconfigure
    seq.pic_width_in_luma_samples seq.pic_height_in_luma_samples
  if seq.vui_timing_info_present_flag ∧ seq.vui_time_scale ≠ 0 then
    s.nvencSetFrameRate seq.vui_time_scale
      (if seq.vui_num_units_in_tick ≠ 0 then seq.vui_num_units_in_tick else 1)
  else s

def renderPictureParams (pic : PictureParams) : EncodeSession :=
  { s with
    encHasCodedBuf := s.encHasCodedBuf || pic.codedBuf
    encForceIdr := s.encForceIdr || pic.idr_pic_flag }

/-- The product is a `uint64_t`. -/
def targetBitrate (rc : RateControl) : UInt32 :=
  let avg := rc.bits_per_second.toUInt64 * rc.target_percentage.toUInt64 / 100
  if avg > 0xffffffff then 0xffffffff else avg.toUInt32

def renderBitrate (rc : RateControl) : EncodeSession :=
  if rc.bits_per_second > 0 then
    if rc.target_percentage ≠ 0 ∧ s.encConfig.rcParams.rateControlMode = .vbr then
      (s.nvencSetBitrate (targetBitrate rc)).setMaxBitRate rc.bits_per_second
    else s.nvencSetBitrate rc.bits_per_second
  else s

def renderRateControl (rc : RateControl) : EncodeSession :=
  let s := s.renderBitrate rc
  let s := if rc.max_qp > 0 then s.setMaxQp rc.max_qp else s
  if rc.min_qp > 0 then s.setMinQp rc.min_qp else s

def renderFrameRate (framerate : UInt32) : EncodeSession :=
  let fpsNum := framerate &&& 0xffff
  let fpsDen := (framerate >>> 16) &&& 0xffff
  s.nvencSetFrameRate fpsNum (if fpsDen = 0 then 1 else fpsDen)

/-- The turn for a buffer in `nvRenderPicture`. -/
def renderBuffer : EncodeBuffer → EncodeSession
  | .coded => { s with encHasCodedBuf := true }
  | .sequenceParameter h264 hevc =>
    if s.encIsHevc then hevc.elim s (s.renderSequenceHevc g)
    else h264.elim s (s.renderSequenceH264 g)
  | .pictureParameter h264 hevc =>
    (if s.encIsHevc then hevc else h264).elim s s.renderPictureParams
  | .miscParameter misc =>
    match misc with
    | some (.rateControl rc) => s.renderRateControl rc
    | some (.frameRate framerate) => s.renderFrameRate framerate
    | some .other | none => s
  | .other => s

def nvRenderPicture (buffers : List EncodeBuffer) : EncodeSession :=
  buffers.foldl (renderBuffer g) s

end EncodeSession

/-! ## Creation -/

/-- `VA_RC_CBR`, `VA_RC_VBR` and `VA_RC_CQP` in `encodeRCMode`. -/
structure EncodeRcMode where
  cbr : Bool
  vbr : Bool
  cqp : Bool

/-- The configuration that `nvCreateContext` makes of a preset. -/
def EncConfig.ofPreset (presetCfg : EncConfig) (mode : EncodeRcMode) : EncConfig :=
  let rc := presetCfg.rcParams
  { gopLength := 120
    rcParams :=
      if mode.cbr then
        { rc with rateControlMode := .cbr, averageBitRate := 5000000, maxBitRate := 5000000 }
      else if mode.vbr then
        { rc with rateControlMode := .vbr, averageBitRate := 5000000, maxBitRate := 10000000 }
      else if mode.cqp then
        { rc with rateControlMode := .constqp, constQP := ⟨28, 31, 25⟩ }
      else
        { rc with rateControlMode := .cbr, averageBitRate := 5000000, maxBitRate := 5000000 }
    idrPeriod := 120 }

/-- What an encode `nvCreateContext` is given: its arguments, the configuration, the preset that
NVENC returns, the depth of the ring of buffers and the time. -/
structure SessionArgs where
  pictureWidth : Int32
  pictureHeight : Int32
  isHevc : Bool
  mode : EncodeRcMode
  presetCfg : EncConfig
  ioDepth : Nat
  now : UInt64

/-- `NVENC_MAX_IO_BUFFERS` -/
def nvencMaxIoBuffers : Nat := 4

/-- The encode context of a successful `nvCreateContext`. -/
def EncodeSession.nvCreateContext (g : EncodeSettings) (a : SessionArgs) : Option EncodeSession :=
  if a.pictureWidth ≤ 0 ∨ a.pictureHeight ≤ 0 then none
  else
    let ctx := EncodeContext.created a.pictureWidth.toUInt32 a.pictureHeight.toUInt32 a.isHevc
    let p : EncodeParams := ⟨ctx.encInitParams, 30, 1, a.presetCfg.ofPreset a.mode⟩
    some
      { ctx with
        frameRateNum := p.frameRateNum
        frameRateDen := p.frameRateDen
        encConfig := p.config
        encFrameNum := 0
        encForceIdr := false
        encStartupIdrLeft := g.g_encStartupIdrFrames
        encLastReconfigureNs := a.now
        nvencIoBufferCount := if a.ioDepth = 0 then 1 else min a.ioDepth nvencMaxIoBuffers
        nvencIoBufferIndex := 0
        status := .ready
        calls := [.initializeEncoder p] }

end NvVaapi
