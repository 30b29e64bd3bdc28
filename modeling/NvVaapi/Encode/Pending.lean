import NvVaapi.Encode.Bounds
import NvVaapi.Encode.Session
import NvVaapi.Lib.WriteBack

/-!
# Pending changes of an encoder's configuration

* `EncodeSession.copyOf`: `encInitParams` and `encConfig` as a write-back copy of what the encoder
  has.
* `marks_renderBuffer`: every change that a rendered buffer makes is marked.
* `Bookkeeping`: what `nvEndPicture` does besides. `endPicture_keeps` is the induction along it.
* `noLostUpdate`: an unmarked configuration is the one that the encoder was given last.
* `rejected_iff`: a rejected reconfiguration leaves the configuration that the encoder is running
  only if there was nothing to undo.
-/

namespace NvVaapi

open Objects (NvencStatus)
open WriteBack (Marks)

/-! ## Setting -/

theorem setU32IfChanged_unchanged {dst value : UInt32} (h : (setU32IfChanged dst value).2 = false) :
    (setU32IfChanged dst value).1 = dst := by
  unfold setU32IfChanged at *
  split at h
  · rw [if_pos ‹_›]
  · cases h

theorem EncQp.setAll_unchanged {qp : EncQp} {value : UInt32} (h : (qp.setAll value).2 = false) :
    (qp.setAll value).1 = qp := by
  simp only [EncQp.setAll, Bool.or_eq_false_iff] at h
  obtain ⟨⟨hb, hp⟩, hi⟩ := h
  simp only [EncQp.setAll, setU32IfChanged_unchanged hb, setU32IfChanged_unchanged hp,
    setU32IfChanged_unchanged hi]

namespace EncodeSession

variable {g : EncodeSettings} {s s' : EncodeSession} {active : List NvencCall → Option EncodeParams}
  {changed : Bool}

/-- The configuration as a copy of what the encoder has, according to the calls that were made. -/
def copyOf (active : List NvencCall → Option EncodeParams) (s : EncodeSession) :
    WriteBack (Option EncodeParams) :=
  ⟨some s.params, active s.calls, s.encNeedsReconfigure⟩

def handedCopy : EncodeSession → WriteBack (Option EncodeParams) :=
  copyOf fun calls => calls.findSome? NvencCall.handed

def runningCopy : EncodeSession → WriteBack (Option EncodeParams) :=
  copyOf fun calls => calls.findSome? NvencCall.accepted

/-- A change that is marked when it changes something. -/
theorem marks_markIf (hc : s'.calls = s.calls) (hd : s'.encNeedsReconfigure = s.encNeedsReconfigure)
    (hp : changed = false → s'.params = s.params) :
    Marks (s.copyOf active) ((s'.markIf changed).copyOf active) := by
  refine ⟨congrArg active hc, fun h => ?_, fun h => ?_⟩
  · show (s'.encNeedsReconfigure || changed) = true
    rw [hd, show s.encNeedsReconfigure = true from h, Bool.true_or]
  · exact congrArg some (hp (Bool.or_eq_false_iff.mp h).2)

theorem marks_nvencSetBitrate (bps : UInt32) :
    Marks (s.copyOf active) ((s.nvencSetBitrate bps).copyOf active) := by
  unfold nvencSetBitrate
  dsimp only
  split_ifs
  iterate 2 exact .refl _
  all_goals
    refine marks_markIf rfl rfl fun h => ?_
    rw [Bool.or_eq_false_iff] at h
    simp only [params, setU32IfChanged_unchanged h.1, setU32IfChanged_unchanged h.2]

theorem marks_nvencSetFrameRate (fpsNum fpsDen : UInt32) :
    Marks (s.copyOf active) ((s.nvencSetFrameRate fpsNum fpsDen).copyOf active) := by
  unfold nvencSetFrameRate
  split
  · exact .refl _
  · refine marks_markIf rfl rfl fun h => ?_
    rw [Bool.or_eq_false_iff] at h
    simp only [params, setU32IfChanged_unchanged h.1, setU32IfChanged_unchanged h.2]

theorem marks_setGopLength (gopLength : UInt32) :
    Marks (s.copyOf active) ((s.setGopLength gopLength).copyOf active) := by
  refine marks_markIf rfl rfl fun h => ?_
  simp only [params, setU32IfChanged_unchanged h]

theorem marks_setIdrPeriod (idrPeriod : UInt32) :
    Marks (s.copyOf active) ((s.setIdrPeriod idrPeriod).copyOf active) := by
  refine marks_markIf rfl rfl fun h => ?_
  simp only [params, setU32IfChanged_unchanged h]

theorem marks_nvencSetGop (gopLength idrPeriod : UInt32) :
    Marks (s.copyOf active) ((s.nvencSetGop gopLength idrPeriod).copyOf active) := by
  unfold nvencSetGop
  dsimp only
  split_ifs
  · exact (marks_setGopLength _).trans (marks_setIdrPeriod _)
  · exact marks_setIdrPeriod _
  · exact marks_setGopLength _
  · exact .refl _

theorem marks_setMaxBitRate (bps : UInt32) :
    Marks (s.copyOf active) ((s.setMaxBitRate bps).copyOf active) := by
  refine marks_markIf rfl rfl fun h => ?_
  simp only [params, setU32IfChanged_unchanged h]

theorem marks_setMaxQp (qp : UInt32) : Marks (s.copyOf active) ((s.setMaxQp qp).copyOf active) := by
  refine marks_markIf rfl rfl fun h => ?_
  simp only [params, EncQp.setAll_unchanged h]

theorem marks_setMinQp (qp : UInt32) : Marks (s.copyOf active) ((s.setMinQp qp).copyOf active) := by
  refine marks_markIf rfl rfl fun h => ?_
  simp only [params, EncQp.setAll_unchanged h]

/-- The visible rectangle changes the sizes with a mark. -/
theorem marks_useVisible (x y w h : UInt32) (b : Bool) : Marks (s.copyOf active)
    ((s.withSizes fun ctx => (ctx.nvencSetVisibleRect x y w h).useVisible b).copyOf active) := by
  obtain ⟨_, _, _, _, _, he⟩ := nvencSetVisibleRect_eq s.toEncodeContext x y w h
  unfold withSizes
  dsimp only
  by_cases hreq : VisibleRequest b (s.toEncodeContext.nvencSetVisibleRect x y w h)
  · rw [useVisible_of_request hreq]
    exact .of_dirty rfl rfl
  · rw [useVisible_of_not_request hreq, he]
    exact ⟨rfl, id, fun _ => rfl⟩

/-! ### Rendering -/

theorem marks_visibleH264 (seq : SequenceH264) (b : Bool) : Marks (s.copyOf active)
    ((s.withSizes fun ctx => ctx.nvencUpdateVisibleRectFromH264Seq b seq).copyOf active) :=
  marks_useVisible _ _ _ _ b

theorem marks_renderSequenceH264 (seq : SequenceParamsH264) :
    Marks (s.copyOf active) ((s.renderSequenceH264 g seq).copyOf active) := by
  have hrate : Marks (s.copyOf active) ((s.nvencSetBitrate seq.bits_per_second).copyOf active) :=
    marks_nvencSetBitrate _
  have hrates := hrate.trans (marks_nvencSetGop seq.intra_period seq.intra_idr_period)
  have hsizes := hrates.trans (marks_visibleH264 seq.toSequenceH264 g.g_encVisibleReconfigure)
  unfold renderSequenceH264
  dsimp only
  split
  · exact hsizes.trans (marks_nvencSetFrameRate _ _)
  · exact hsizes

theorem marks_visibleHevc (w h : UInt16) (b : Bool) : Marks (s.copyOf active)
    ((s.withSizes fun ctx => ctx.nvencUpdateVisibleRectFromHevcSeq b w h).copyOf active) := by
  unfold EncodeContext.nvencUpdateVisibleRectFromHevcSeq
  by_cases hz : w = 0 ∨ h = 0
  · simp only [if_pos hz]
    exact .refl _
  · simp only [if_neg hz]
    exact marks_useVisible _ _ _ _ b

theorem marks_renderSequenceHevc (seq : SequenceParamsHevc) :
    Marks (s.copyOf active) ((s.renderSequenceHevc g seq).copyOf active) := by
  have hrate : Marks (s.copyOf active) ((s.nvencSetBitrate seq.bits_per_second).copyOf active) :=
    marks_nvencSetBitrate _
  have hrates := hrate.trans (marks_nvencSetGop seq.intra_period seq.intra_idr_period)
  have hsizes := hrates.trans (marks_visibleHevc seq.pic_width_in_luma_samples
    seq.pic_height_in_luma_samples g.g_encVisibleReconfigure)
  unfold renderSequenceHevc
  dsimp only
  split
  · exact hsizes.trans (marks_nvencSetFrameRate _ _)
  · exact hsizes

theorem marks_renderBitrate (rc : RateControl) :
    Marks (s.copyOf active) ((s.renderBitrate rc).copyOf active) := by
  unfold renderBitrate
  split_ifs
  · exact (marks_nvencSetBitrate _).trans (marks_setMaxBitRate _)
  · exact marks_nvencSetBitrate _
  · exact .refl _

theorem marks_renderRateControl (rc : RateControl) :
    Marks (s.copyOf active) ((s.renderRateControl rc).copyOf active) := by
  have hrate : Marks (s.copyOf active) ((s.renderBitrate rc).copyOf active) :=
    marks_renderBitrate rc
  unfold renderRateControl
  dsimp only
  split_ifs
  · exact (hrate.trans (marks_setMaxQp _)).trans (marks_setMinQp _)
  · exact hrate.trans (marks_setMinQp _)
  · exact hrate.trans (marks_setMaxQp _)
  · exact hrate

theorem marks_renderBuffer (buf : EncodeBuffer) :
    Marks (s.copyOf active) ((s.renderBuffer g buf).copyOf active) := by
  cases buf with
  | coded => exact .refl _
  | sequenceParameter h264 hevc =>
    show Marks _ ((if s.encIsHevc then hevc.elim s (s.renderSequenceHevc g)
      else h264.elim s (s.renderSequenceH264 g)).copyOf active)
    split
    · cases hevc with
      | none => exact .refl _
      | some seq => exact marks_renderSequenceHevc seq
    · cases h264 with
      | none => exact .refl _
      | some seq => exact marks_renderSequenceH264 seq
  | pictureParameter h264 hevc =>
    show Marks _ (((if s.encIsHevc then hevc else h264).elim s s.renderPictureParams).copyOf active)
    cases (if s.encIsHevc then hevc else h264) <;> exact .refl _
  | miscParameter misc =>
    match misc with
    | some (.rateControl rc) => exact marks_renderRateControl rc
    | some (.frameRate framerate) => exact marks_nvencSetFrameRate _ _
    | some .other | none => exact .refl _
  | other => exact .refl _

theorem marks_nvRenderPicture (buffers : List EncodeBuffer) :
    Marks (s.copyOf active) ((s.nvRenderPicture g buffers).copyOf active) := by
  unfold nvRenderPicture
  induction buffers generalizing s with
  | nil => exact .refl _
  | cons buf buffers ih => exact (marks_renderBuffer buf).trans ih

/-! ## The end of a picture -/

/-- `nvencReconfigureIfNeeded` and `resize` keep `I`, and so does what `nvEndPicture` does
besides. -/
structure Bookkeeping (g : EncodeSettings) (r : NvencReplies)
    (I : EncodeSession → Prop) : Prop where
  reconfigure : ∀ s, I s → I (s.nvencReconfigureIfNeeded g r.now r.reconfigure)
  resize : ∀ s w h, I s → I (s.resize g w h r.resize)
  log : ∀ s call, call.handed = none → I s → I (s.log call)
  forceIdr : ∀ s, I s → I (s.forceIdr g)
  ready : ∀ s, I s → I { s with status := .ready }
  nextFrame : ∀ s ioSlot left, I s → I { s.nextFrame ioSlot with encStartupIdrLeft := left }

section Keeps

variable {I : EncodeSession → Prop} {r : NvencReplies}

theorem nvenc_keeps {call : NvencStatus → NvencCall} {nvs : NvencStatus} (hb : Bookkeeping g r I)
    (hc : (call nvs).handed = none) : (nvenc call nvs).Keeps I :=
  .bind (.update fun s => hb.log s _ hc) fun _ => .pure _

theorem failPicture_keeps (hb : Bookkeeping g r I) (nvs : NvencStatus) :
    (failPicture nvs).Keeps I :=
  .bind (.update hb.ready) fun _ => .leave _

theorem submitPicture_keeps (hb : Bookkeeping g r I) (pic : EncPicParams) :
    (submitPicture g pic r).Keeps I := by
  have henc (pic : EncPicParams) (nvs : NvencStatus) : (nvenc (.encodePicture pic) nvs).Keeps I :=
    nvenc_keeps hb rfl
  have htail (nvs : NvencStatus) : (if nvs = .invalidParam then do
        let s ← Prog.read
        nvenc (.encodePicture { pic with inputWidth := s.width, inputHeight := s.height })
          r.encodeAtContextSize
      else pure nvs : Step NvencStatus).Keeps I :=
    .ite (.bind .read fun _ => henc _ _) (.pure _)
  refine .bind (henc _ _) fun nvs => .bind .read fun s => .ite ?_ (.pure _)
  refine .exit (.update fun s => hb.resize s _ _) ?_
  dsimp only
  split
  · exact .bind (henc _ _) htail
  · exact .bind (.pure _) htail

theorem encodePicture_keeps (hb : Bookkeeping g r I) (sf : EncodeSurface) (ioSlot : Nat) :
    (encodePicture g sf ioSlot r).Keeps I := by
  have hcall {call : NvencStatus → NvencCall} {nvs : NvencStatus} {f : NvencStatus →
      Step Objects.VAStatus}
      (hc : (call nvs).handed = none) (hf : ∀ nvs, (f nvs).Keeps I) :
        (nvenc call nvs >>= f).Keeps I :=
    .bind (nvenc_keeps hb hc) hf
  unfold encodePicture
  refine .exit (.leave _) ?_
  refine hcall rfl fun _ => ?_
  refine .exit (failPicture_keeps hb _) ?_
  refine .bind .read fun _ => hcall rfl fun _ => ?_
  refine .exit (failPicture_keeps hb _) ?_
  refine .bind (.update hb.forceIdr) fun _ => .bind .read fun _ => ?_
  refine .bind (submitPicture_keeps hb _) fun _ => ?_
  refine .exit (failPicture_keeps hb _) (.ite ?_ ?_)
  · refine .exit (.leave _) (.bind (.update fun s => ?_) fun _ => .pure _)
    exact hb.nextFrame s ioSlot s.encStartupIdrLeft
  · refine hcall rfl fun _ => ?_
    refine .exit (failPicture_keeps hb _) ?_
    refine hcall rfl fun _ => .exit (.leave _) (.bind (.update fun s => ?_) fun _ => .pure _)
    exact hb.nextFrame s ioSlot _

theorem endPicture_keeps (hb : Bookkeeping g r I) (t : EncodeTarget) :
    (nvEndPicture g t r).Keeps I := by
  refine .bind .read fun s => .exit (.leave _) (.exit (.leave _) ?_)
  cases t.surface with
  | none => exact .leave _
  | some sf =>
    refine .exit (.leave _) (.exit (.leave _) (.exit (.leave _) ?_))
    exact .bind (.update hb.reconfigure) fun _ => encodePicture_keeps hb sf _

end Keeps

end EncodeSession

/-! ## No update is lost -/

/-- The reconfiguration succeeds and leaves its parameters as they are. -/
def ReconfigureReply.Accepted (r : ReconfigureReply) : Prop := r.nvs = .success ∧ r.changed = none

instance (r : ReconfigureReply) : Decidable r.Accepted := inferInstanceAs (Decidable (_ ∧ _))

/-- Every reconfiguration of the call is accepted. -/
def SessionCall.Accepted : SessionCall → Prop
  | .endPicture _ r => r.reconfigure.Accepted ∧ r.resize.Accepted
  | _ => True

instance (call : SessionCall) : Decidable call.Accepted :=
  match call with
  | .endPicture _ _ => inferInstanceAs (Decidable (_ ∧ _))
  | .beginPicture _ | .renderPicture _ => .isTrue trivial

namespace EncodeSession

variable {g : EncodeSettings} {s s' : EncodeSession} {r : NvencReplies}

@[simp] theorem handed_log (call : NvencCall) : (s.log call).handed = call.handed.or s.handed := by
  show (call :: s.calls).findSome? NvencCall.handed = _
  rw [List.findSome?_cons]
  cases call.handed <;> rfl

@[simp] theorem params_log (call : NvencCall) : (s.log call).params = s.params := rfl

/-- What a reconfiguration that is accepted does. -/
theorem reconfigureIfNeeded_cases (now : UInt64) {r : ReconfigureReply}
    (hg : g.reconfigureAvailable) (hr : r.Accepted) : s.nvencReconfigureIfNeeded g now r = s ∨
      (s.nvencReconfigureIfNeeded g now r).params = s.params ∧
      (s.nvencReconfigureIfNeeded g now r).handed = some s.params := by
  unfold nvencReconfigureIfNeeded
  split_ifs with hd ha hb hn
  · exact .inl rfl
  · simp [hg] at ha
  · exact .inl rfl
  · exact absurd hr.1 hn
  · refine .inr ⟨?_, rfl⟩
    show (r.changed.getD s.params : EncodeParams) = s.params
    rw [hr.2, Option.getD_none]

/-- The reconfiguration to another size, when it is accepted. -/
theorem resize_accepted {r : ReconfigureReply} (hr : r.Accepted) (w h : UInt32) :
    (s.resize g w h r).params = s.resizedParams w h ∧
      (s.resize g w h r).handed = some (s.resizedParams w h) := by
  unfold resize
  dsimp only
  rw [if_pos hr.1]
  refine ⟨?_, rfl⟩
  show (r.changed.getD (s.resizedParams w h) : EncodeParams) = _
  rw [hr.2, Option.getD_none]

theorem synced_of_handed (h : s.handed = some s.params) : s.handedCopy.Synced :=
  WriteBack.synced_of_eq h.symm

theorem bookkeeping_synced (hg : g.reconfigureAvailable) (hr : r.reconfigure.Accepted)
    (hz : r.resize.Accepted) : Bookkeeping g r fun s => s.handedCopy.Synced where
  reconfigure s h := by
    obtain he | ⟨hp, hh⟩ := reconfigureIfNeeded_cases r.now (s := s) hg hr
    · rwa [he]
    · exact synced_of_handed (hh.trans (congrArg some hp.symm))
  resize s w h _ := by
    obtain ⟨hp, hh⟩ := resize_accepted (s := s) (g := g) hz w h
    exact synced_of_handed (hh.trans (congrArg some hp.symm))
  log s call hc h hd := by
    have hh : (s.log call).handed = s.handed := by simp [hc]
    exact (h hd).trans hh.symm
  forceIdr _ h := h
  ready _ h := h
  nextFrame _ _ _ h := h

/-- What was requested with `p` is in the configuration, or only the size is another one, which the
encoder was given. -/
def Requested (p : EncodeParams) (s : EncodeSession) : Prop :=
  s.params = p ∨ ∃ sizes, s.params = { p with sizes := sizes } ∧ s.handed = some s.params

theorem bookkeeping_requested (p : EncodeParams) (hg : g.reconfigureAvailable)
    (hr : r.reconfigure.Accepted) (hz : r.resize.Accepted) : Bookkeeping g r (Requested p) where
  reconfigure s h := by
    obtain he | ⟨hp, hh⟩ := reconfigureIfNeeded_cases r.now (s := s) hg hr
    · rwa [he]
    · unfold Requested
      rw [hp, hh]
      exact h.imp_right fun ⟨sizes, hs, _⟩ => ⟨sizes, hs, rfl⟩
  resize s w h hreq := by
    obtain ⟨hp, hh⟩ := resize_accepted (s := s) (g := g) hz w h
    refine .inr ⟨(s.resizedParams w h).sizes, ?_, hh.trans (congrArg some hp.symm)⟩
    rw [hp]
    unfold resizedParams
    obtain he | ⟨sizes, he, -⟩ := hreq <;> rw [he]
  log s call hc h := by
    unfold Requested
    rw [handed_log, params_log, hc, Option.none_or]
    exact h
  forceIdr _ h := h
  ready _ h := h
  nextFrame _ _ _ h := h

/-- The run of an `nvEndPicture` keeps what its pieces keep. -/
theorem endPicture_invariant {I : EncodeSession → Prop} (hb : Bookkeeping g r I) {t : EncodeTarget}
    (hs : sessionStep g s (.endPicture t r) = some s') (hi : I s) : I s' := by
  obtain ⟨⟨status, s₁⟩, he, rfl⟩ := Option.map_eq_some_iff.mp hs
  have hret : (nvEndPicture g t r).Returns s fun _ => I := endPicture_keeps hb t s hi
  exact hret.eval he

theorem synced_step {call : SessionCall} (hg : g.reconfigureAvailable) (hc : call.Accepted)
    (hs : sessionStep g s call = some s') (h : s.handedCopy.Synced) : s'.handedCopy.Synced := by
  cases call with
  | beginPicture surface =>
    obtain rfl := Option.some.inj hs
    exact h
  | renderPicture buffers =>
    obtain rfl := Option.some.inj hs
    exact (marks_nvRenderPicture buffers).synced h
  | endPicture t r => exact endPicture_invariant (bookkeeping_synced hg hc.1 hc.2) hs h

theorem synced_create {a : SessionArgs} (h : nvCreateContext g a = some s) :
    s.handedCopy.Synced := by
  unfold nvCreateContext at h
  split at h
  · cases h
  · obtain rfl := Option.some.inj h
    exact synced_of_handed rfl

end EncodeSession

/-- Where every reconfiguration is accepted: a configuration that is not marked is the one that the
encoder was given last, and the end of a picture drops nothing that was requested. -/
theorem noLostUpdate {g : EncodeSettings} {s : EncodeSession} (hg : g.reconfigureAvailable)
    (h : (encodeSession g).ReachWhen (fun _ call => call.Accepted) s) :
    (s.encNeedsReconfigure = false → s.handed = some s.params) ∧
      ∀ t r s', (SessionCall.endPicture t r).Accepted →
        (encodeSession g).step s (.endPicture t r) = some s' → s'.Requested s.params := by
  constructor
  · intro hd
    have hsync : s.handedCopy.Synced := h.invariant (I := fun s => s.handedCopy.Synced)
      (fun _ ⟨_, ha⟩ => EncodeSession.synced_create ha)
      fun _ _ _ hi hc hs => EncodeSession.synced_step hg hc hs hi
    exact (hsync hd).symm
  · intro t r s' hc hs
    exact EncodeSession.endPicture_invariant
      (EncodeSession.bookkeeping_requested s.params hg hc.1 hc.2) hs (.inl rfl)

/-! A context whose bitrate is changed between two pictures. -/

def plainSettings : EncodeSettings := ⟨false, 800, 4, 0, true⟩

def plainArgs : SessionArgs :=
  { pictureWidth := 64
    pictureHeight := 64
    isHevc := false
    mode := ⟨true, false, false⟩
    presetCfg := ⟨0, ⟨.cbr, ⟨0, 0, 0⟩, 0, 0, ⟨0, 0, 0⟩, ⟨0, 0, 0⟩⟩, 0⟩
    ioDepth := 1
    now := 1 }

/-- All calls succeed, but for the reconfigurations. -/
def repliesAt (now : UInt64) (nvs : NvencStatus) : NvencReplies :=
  ⟨now, ⟨nvs, none, now⟩, true, true, .success, 64, .success, .success, ⟨nvs, none, now⟩,
    .success, .success, .success, .success⟩

def bitrateBuffer (bps : UInt32) : EncodeBuffer :=
  .miscParameter (some (.rateControl ⟨bps, 0, 0, 0⟩))

/-- A picture with a new bitrate. -/
def bitratePicture (bps : UInt32) (r : NvencReplies) : List SessionCall :=
  [.beginPicture 1, .renderPicture [.coded, bitrateBuffer bps],
    .endPicture ⟨some (.created 64 64), true, true⟩ r]

theorem noLostUpdate_bitrate : ∃ s : EncodeSession, s.encConfig.rcParams.averageBitRate = 2000000 ∧
    s.encNeedsReconfigure = false ∧ s.handed = some s.params := by
  obtain ⟨s₀, hi, hr, hm⟩ : ∃ s₀, EncodeSession.nvCreateContext plainSettings plainArgs = some s₀ ∧
      ((encodeSession plainSettings).run s₀
        (bitratePicture 2000000 (repliesAt 1000000000 .success))).any
        (fun s => s.encConfig.rcParams.averageBitRate = 2000000 ∧ s.encNeedsReconfigure = false) ∧
      (encodeSession plainSettings).Meets (fun _ call => call.Accepted) s₀
        (bitratePicture 2000000 (repliesAt 1000000000 .success)) :=
    ⟨_, rfl, by decide, by decide⟩
  obtain ⟨s, hs, hp⟩ := (Option.any_eq_true _ _).mp hr
  have hreach := (Lts.ReachWhen.init (M := encodeSession plainSettings) ⟨_, hi⟩).run hm hs
  simp only [decide_eq_true_eq] at hp
  exact ⟨s, hp.1, hp.2, (noLostUpdate rfl hreach).1 hp.2⟩

/-! ## A rejected change -/

/-- The configuration is the one that the encoder is running, and every later request that changes
it is seen as a change. -/
def EncodeSession.RolledBack (g : EncodeSettings) (s : EncodeSession) : Prop :=
  s.running = some s.params ∧ ∀ buffers, (s.nvRenderPicture g buffers).encNeedsReconfigure = false →
    (s.nvRenderPicture g buffers).running = some (s.nvRenderPicture g buffers).params

/-- A rejected change is forgotten, not undone. -/
theorem runningCopy_rejected {g : EncodeSettings} {s : EncodeSession} {now : UInt64}
    {r : ReconfigureReply} (hd : s.encNeedsReconfigure) (hg : g.reconfigureAvailable)
    (hb : s.ResolutionChange ∨ ¬s.Debounced g now) (hr : r.nvs ≠ .success) :
    (s.nvencReconfigureIfNeeded g now r).runningCopy = s.runningCopy.forget := by
  have hactive : (s.log (.reconfigureEncoder s.params r.nvs)).running = s.running := by
    show (NvencCall.reconfigureEncoder s.params r.nvs :: s.calls).findSome? NvencCall.accepted = _
    rw [List.findSome?_cons]
    cases hn : r.nvs with
    | success => exact absurd hn hr
    | _ => rfl
  unfold EncodeSession.nvencReconfigureIfNeeded
  rw [if_neg (by simp [hd]), if_neg (by simp [hg]), if_neg (by tauto), if_pos hr]
  exact congrArg (WriteBack.mk _ · _) hactive

/-- When a reconfiguration is rejected, the changes are rolled back only if there are none: the
configuration was already the one that the encoder is running. -/
theorem rejected_iff {g : EncodeSettings} {s : EncodeSession} {now : UInt64} {r : ReconfigureReply}
    (hd : s.encNeedsReconfigure) (hg : g.reconfigureAvailable)
    (hb : s.ResolutionChange ∨ ¬s.Debounced g now) (hr : r.nvs ≠ .success) :
    (s.nvencReconfigureIfNeeded g now r).RolledBack g ↔ s.running = some s.params := by
  have hforget := runningCopy_rejected hd hg hb hr
  have hp : some (s.nvencReconfigureIfNeeded g now r).params = some s.params :=
    congrArg (·.pending) hforget
  have ha : (s.nvencReconfigureIfNeeded g now r).running = s.running := congrArg (·.active) hforget
  constructor
  · rintro ⟨h, -⟩
    rw [← ha, h, hp]
  · intro h
    refine ⟨by rw [ha, h, hp], fun buffers hclean => ?_⟩
    have hsync : (s.nvencReconfigureIfNeeded g now r).runningCopy.Synced := by
      rw [hforget, WriteBack.forget_synced_iff]
      exact h.symm
    exact ((EncodeSession.marks_nvRenderPicture buffers).synced hsync hclean).symm

/-- The bitrate goes to another value and back before the picture. -/
theorem rejected_iff_back : ∃ s : EncodeSession, s.encNeedsReconfigure ∧
    (s.nvencReconfigureIfNeeded plainSettings 1000000000 ⟨.invalidParam, none, 0⟩).RolledBack
      plainSettings := by
  obtain ⟨s, hd, hb, h⟩ : ∃ s : EncodeSession, s.encNeedsReconfigure ∧
      (s.ResolutionChange ∨ ¬s.Debounced plainSettings 1000000000) ∧ s.running = some s.params :=
    ⟨((EncodeSession.nvCreateContext plainSettings plainArgs).get rfl).nvRenderPicture plainSettings
      [bitrateBuffer 2000000, bitrateBuffer 5000000], by decide, by decide, by decide⟩
  exact ⟨s, hd, (rejected_iff hd rfl hb (by decide)).mpr h⟩

/-- A rejected bitrate: the same request is not seen as a change again, and a later change of the
frame rate hands the rejected bitrate to the encoder. -/
theorem rejected_kept :
    ∃ s s' : EncodeSession, (encodeSession plainSettings).Reach s ∧ s.encNeedsReconfigure ∧
    s' = s.nvencReconfigureIfNeeded plainSettings 1000000000 ⟨.invalidParam, none, 0⟩ ∧
    s'.running ≠ some s'.params ∧
    (s'.nvRenderPicture plainSettings [bitrateBuffer 2000000]).encNeedsReconfigure = false ∧
    (((s'.nvRenderPicture plainSettings
      [.miscParameter (some (.frameRate 60))]).nvencReconfigureIfNeeded
      plainSettings 2000000000 ⟨.success, none, 0⟩).running.map fun p =>
        p.config.rcParams.averageBitRate) =
      some 2000000 := by
  refine ⟨((EncodeSession.nvCreateContext plainSettings plainArgs).get rfl).nvRenderPicture
    plainSettings
    [bitrateBuffer 2000000], _, ?_, by decide, rfl, by decide, by decide, by decide⟩
  exact .step (a := .renderPicture [bitrateBuffer 2000000]) (.init ⟨plainArgs, rfl⟩) rfl

end NvVaapi
