import NvVaapi.Encode.Config
import NvVaapi.Lib.Prog

/-!
# Encoding a picture

* `nvencReconfigureIfNeeded`: the pending changes are handed to the encoder, unless the last
  reconfiguration is too recent.
* `nvEndPicture`: the whole of it, with each NVENC call that it makes and its exits. The copy into
  the input buffer is `stagePicture`.
* `encodeSession`: the system of the calls on one encode context, in any order.
-/

namespace NvVaapi

open Objects (NvencStatus nvencToVaStatus)

/-- A reply of `nvEncReconfigureEncoder`. -/
structure ReconfigureReply where
  nvs : NvencStatus
  /-- What is left in the parameters, if they were changed. -/
  changed : Option EncodeParams
  /-- The time after the call. -/
  now : UInt64
  deriving DecidableEq

/-- What `nvEndPicture` finds. -/
structure EncodeTarget where
  /-- `encCurrentSurface`, if it is live and has a host buffer. -/
  surface : Option EncodeSurface
  /-- `encCodedBufId` is a coded buffer with some capacity. -/
  codedBuf : Bool
  /-- Both buffers of the slot are there. -/
  ioBuffers : Bool

/-- The results that an `nvEndPicture` meets. -/
structure NvencReplies where
  /-- The time before the reconfiguration. -/
  now : UInt64
  reconfigure : ReconfigureReply
  pushed : Bool
  popped : Bool
  lockInputBuffer : NvencStatus
  pitch : Nat
  unlockInputBuffer : NvencStatus
  encodePicture : NvencStatus
  /-- The reconfiguration to the size of the picture. -/
  resize : ReconfigureReply
  encodeAfterReconfigure : NvencStatus
  encodeAtContextSize : NvencStatus
  lockBitstream : NvencStatus
  unlockBitstream : NvencStatus

namespace EncodeSession

variable (g : EncodeSettings) (s : EncodeSession)

/-! ## Reconfiguration -/

/-- The reconfiguration at the time `now` has to wait. -/
def Debounced (now : UInt64) : Prop :=
  g.g_encReconfigureMinMs > 0 ∧ s.encLastReconfigureNs ≠ 0 ∧ now > s.encLastReconfigureNs ∧
    now - s.encLastReconfigureNs < g.g_encReconfigureMinMs.toUInt64 * 1000000

instance (now : UInt64) : Decidable (s.Debounced g now) :=
  inferInstanceAs (Decidable (_ ∧ _ ∧ _ ∧ _))

/-- `encInitParams` becomes what a successful reconfiguration left of `p`. -/
def takeParams (p : EncodeParams) (r : ReconfigureReply) : EncodeSession :=
  { s.setParams (r.changed.getD p) with encLastReconfigureNs := r.now }

/-- The encoder accepted the pending changes. -/
def reconfigured (r : ReconfigureReply) : EncodeSession :=
  let s' := s.takeParams s.params r
  let width := s'.encInitParams.encodeWidth
  let height := s'.encInitParams.encodeHeight
  { s' with
    width := width
    height := height
    encStartupIdrLeft :=
      if s.width ≠ width ∨ s.height ≠ height then g.g_encStartupIdrFrames else s.encStartupIdrLeft
    encNeedsReconfigure := false }

/-- It succeeds always. -/
def nvencReconfigureIfNeeded (now : UInt64) (r : ReconfigureReply) : EncodeSession :=
  if !s.encNeedsReconfigure then s
  else if !g.reconfigureAvailable then { s with encNeedsReconfigure := false }
  else if ¬s.ResolutionChange ∧ s.Debounced g now then s
  else
    let s := s.log (.reconfigureEncoder s.params r.nvs)
    -- a rejected change stays in `encInitParams` and `encConfig`
    if r.nvs ≠ .success then { s with encNeedsReconfigure := false } else s.reconfigured g r

/-- `reInitEncodeParams` for a picture of the size `w` times `h`. -/
def resizedParams (w h : UInt32) : EncodeParams :=
  { s.params with
    sizes :=
      { encodeWidth := w
        encodeHeight := h
        darWidth := w
        darHeight := h
        maxEncodeWidth :=
          if s.encInitParams.maxEncodeWidth < w then w else s.encInitParams.maxEncodeWidth
        maxEncodeHeight :=
          if s.encInitParams.maxEncodeHeight < h then h else s.encInitParams.maxEncodeHeight } }

/-- `nvEndPicture` reconfigures the encoder to the size of the picture. -/
def resize (w h : UInt32) (r : ReconfigureReply) : EncodeSession :=
  let s' := s.log (.reconfigureEncoder (s.resizedParams w h) r.nvs)
  if r.nvs = .success then
    { s'.takeParams (s.resizedParams w h) r with
      width := w
      height := h
      encStartupIdrLeft := g.g_encStartupIdrFrames }
  else s'

/-! ## Pictures -/

/-- The surface found by `nvBeginPicture` has a host buffer, or gets one. -/
def nvBeginPicture (surface : Nat) : EncodeSession :=
  { s with
    encCurrentSurface := some surface
    encHasCodedBuf := false
    encForceIdr := decide (s.encFrameNum = 0)
    status := .rendering }

/-- The frame has to be an IDR frame. -/
def forceIdr : EncodeSession :=
  { s with
    encForceIdr := s.encForceIdr ||
      decide (g.g_encForceIdrEvery > 0 ∧ s.encFrameNum % g.g_encForceIdrEvery = 0) ||
      decide (s.encStartupIdrLeft > 0) }

def picParams (ioSlot pitch : Nat) (w h : UInt32) : EncPicParams :=
  { ioSlot := ioSlot
    inputPitch := pitch
    inputWidth := w
    inputHeight := h
    inputTimeStamp := s.encFrameNum
    forceIdr := s.encForceIdr || decide (s.encFrameNum = 0) }

/-- The end of an `nvEndPicture` that succeeds. -/
def nextFrame (ioSlot : Nat) : EncodeSession :=
  { s with
    encFrameNum := s.encFrameNum + 1
    encForceIdr := false
    nvencIoBufferIndex := (ioSlot + 1) % s.nvencIoBufferCount
    status := .ready }

/-- A piece of an entrypoint on an encode context. -/
abbrev Step (α : Type) := Prog EncodeSession Objects.VAStatus α

/-- An NVENC call with its result. -/
def nvenc (call : NvencStatus → NvencCall) (nvs : NvencStatus) : Step NvencStatus := do
  Prog.update fun s => s.log (call nvs)
  return nvs

/-- An exit after `cuCtxPushCurrent`. -/
def failPicture (nvs : NvencStatus) : Step Unit := do
  Prog.update fun s => { s with status := .ready }
  Prog.leave (nvencToVaStatus nvs)

/-- `nvEncEncodePicture`, and what is tried when it rejects the size of the picture. -/
def submitPicture (pic : EncPicParams) (r : NvencReplies) : Step NvencStatus := do
  let nvs ← nvenc (.encodePicture pic) r.encodePicture
  let s ← Prog.read
  if nvs = .invalidParam ∧ (pic.inputWidth ≠ s.width ∨ pic.inputHeight ≠ s.height) then
    if g.reconfigureAvailable then
      Prog.update fun s => s.resize g pic.inputWidth pic.inputHeight r.resize
    let nvs ← if g.reconfigureAvailable ∧ r.resize.nvs = .success then
        nvenc (.encodePicture pic) r.encodeAfterReconfigure
      else pure nvs
    if nvs = .invalidParam then
      let s ← Prog.read
      nvenc (.encodePicture { pic with inputWidth := s.width, inputHeight := s.height })
        r.encodeAtContextSize
    else return nvs
  else return nvs

/-- After `nvencReconfigureIfNeeded`. -/
def encodePicture (sf : EncodeSurface) (ioSlot : Nat) (r : NvencReplies) :
    Step Objects.VAStatus := do
  if !r.pushed then
    Prog.leave .errorOperationFailed
  let nvs ← nvenc (.lockInputBuffer ioSlot) r.lockInputBuffer
  if nvs ≠ .success then
    failPicture nvs
  let s ← Prog.read
  let region := selectRegion s.toEncodeContext sf
  let nvs ← nvenc (.unlockInputBuffer ioSlot) r.unlockInputBuffer
  if nvs ≠ .success then
    failPicture nvs
  Prog.update fun s => s.forceIdr g
  let s ← Prog.read
  let nvs ← submitPicture g (s.picParams ioSlot r.pitch region.copyWidth region.copyHeight) r
  if nvs ≠ .success ∧ nvs ≠ .needMoreInput then
    failPicture nvs
  if nvs = .needMoreInput then
    if !r.popped then
      Prog.leave .errorOperationFailed
    Prog.update fun s => s.nextFrame ioSlot
    return .success
  else
    let nvs ← nvenc (.lockBitstream ioSlot) r.lockBitstream
    if nvs ≠ .success then
      failPicture nvs
    -- a failure of `nvEncUnlockBitstream` is only logged
    let _ ← nvenc (.unlockBitstream ioSlot) r.unlockBitstream
    if !r.popped then
      Prog.leave .errorOperationFailed
    Prog.update fun s => { s.nextFrame ioSlot with
      encStartupIdrLeft :=
        if s.encStartupIdrLeft > 0 then s.encStartupIdrLeft - 1 else s.encStartupIdrLeft }
    return .success

def nvEndPicture (t : EncodeTarget) (r : NvencReplies) : Step Objects.VAStatus := do
  let s ← Prog.read
  if s.encCurrentSurface = none then
    Prog.leave .errorInvalidSurface
  if !s.encHasCodedBuf then
    Prog.leave .errorInvalidBuffer
  match t.surface with
  | none => Prog.leave .errorInvalidSurface
  | some sf =>
    if !t.codedBuf then
      Prog.leave .errorInvalidBuffer
    if s.nvencIoBufferCount = 0 then
      Prog.leave .errorOperationFailed
    if !t.ioBuffers then
      Prog.leave .errorOperationFailed
    Prog.update fun s => s.nvencReconfigureIfNeeded g r.now r.reconfigure
    encodePicture g sf (s.nvencIoBufferIndex % s.nvencIoBufferCount) r

end EncodeSession

/-! ## The system -/

inductive SessionCall where
  | beginPicture (surface : Nat)
  | renderPicture (buffers : List EncodeBuffer)
  | endPicture (t : EncodeTarget) (r : NvencReplies)

/-- The state after the call. -/
def sessionStep (g : EncodeSettings) (s : EncodeSession) : SessionCall → Option EncodeSession
  | .beginPicture surface => some (s.nvBeginPicture surface)
  | .renderPicture buffers => some (s.nvRenderPicture g buffers)
  | .endPicture t r => ((EncodeSession.nvEndPicture g t r).eval s).map Prod.snd

/-- The calls on an encode context that was created, in any order. -/
def encodeSession (g : EncodeSettings) : Lts EncodeSession SessionCall where
  init s := ∃ a, EncodeSession.nvCreateContext g a = some s
  step := sessionStep g

end NvVaapi
