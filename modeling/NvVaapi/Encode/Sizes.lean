import NvVaapi.Encode.Pending

/-!
# The sizes of an encode context

* `EncodeBuffer.rect`: the visible rectangle that a rendered buffer announces.
* `renderBuffer_context`, `reconfigure_context`, `endPicture_context`: what the calls on a session
  do to the sizes, in terms of the functions on `EncodeContext`.
* `Bounded`: the sizes stay within the size of the input buffers, and `encode_bounded` carries it
  along every run.
-/

namespace NvVaapi

open Objects (NvencStatus)

/-! ## What a buffer announces -/

/-- The rectangle that `nvencUpdateVisibleRectFromHevcSeq` sets, if it sets one. -/
def SequenceParamsHevc.rect (seq : SequenceParamsHevc) : Option VisibleRect :=
  if seq.pic_width_in_luma_samples = 0 ∨ seq.pic_height_in_luma_samples = 0 then none
  else some ⟨0, 0, seq.pic_width_in_luma_samples.toUInt32, seq.pic_height_in_luma_samples.toUInt32⟩

/-- The visible rectangle that the buffer announces to an encoder for HEVC or H.264. -/
def EncodeBuffer.rect (encIsHevc : Bool) : EncodeBuffer → Option VisibleRect
  | .sequenceParameter h264 hevc =>
    if encIsHevc then hevc.bind SequenceParamsHevc.rect else h264.map fun seq => seq.rect
  | _ => none

namespace EncodeContext

variable {ctx : EncodeContext}

/-- The context after a buffer that announces a rectangle, or none. -/
def announce (g_encVisibleReconfigure : Bool) (ctx : EncodeContext) :
    Option VisibleRect → EncodeContext
  | none => ctx
  | some r => (ctx.nvencSetVisibleRect r.x r.y r.width r.height).useVisible g_encVisibleReconfigure

/-- Marks that do not change a size. -/
def marked (changed coded : Bool) (ctx : EncodeContext) : EncodeContext :=
  { ctx with
    encNeedsReconfigure := ctx.encNeedsReconfigure || changed
    encHasCodedBuf := ctx.encHasCodedBuf || coded }

/-- `ctx'` is `ctx` with marks. -/
def Marked (ctx ctx' : EncodeContext) : Prop := ∃ changed coded, ctx' = ctx.marked changed coded

theorem nvencSetVisibleRect_marked (changed coded : Bool) (x y w h : UInt32) :
    (ctx.marked changed coded).nvencSetVisibleRect x y w h =
      (ctx.nvencSetVisibleRect x y w h).marked changed coded := by
  unfold nvencSetVisibleRect
  dsimp only
  simp only [apply_ite (marked changed coded)]
  rfl

theorem useVisible_marked (g changed coded : Bool) :
    (ctx.marked changed coded).useVisible g = (ctx.useVisible g).marked changed coded := by
  unfold useVisible nvencMaybeUseVisibleResolution
  simp only [apply_ite (marked changed coded)]
  rfl

/-- The announced sizes do not depend on marks. -/
theorem announce_marked (g changed coded : Bool) (r : Option VisibleRect) :
    (ctx.marked changed coded).announce g r = (ctx.announce g r).marked changed coded := by
  cases r with
  | none => rfl
  | some r => simp only [announce, nvencSetVisibleRect_marked, useVisible_marked]

theorem announce_frame (g : Bool) (r : Option VisibleRect) :
    (ctx.announce g r).encIsHevc = ctx.encIsHevc ∧ (ctx.announce g r).width = ctx.width ∧
    (ctx.announce g r).height = ctx.height := by
  cases r with
  | none => exact ⟨rfl, rfl, rfl⟩
  | some r =>
    obtain ⟨_, _, _, _, _, he⟩ := nvencSetVisibleRect_eq ctx r.x r.y r.width r.height
    unfold announce
    dsimp only
    by_cases hreq : VisibleRequest g (ctx.nvencSetVisibleRect r.x r.y r.width r.height)
    · rw [useVisible_of_request hreq, he]
      exact ⟨rfl, rfl, rfl⟩
    · rw [useVisible_of_not_request hreq, he]
      exact ⟨rfl, rfl, rfl⟩

end EncodeContext

open EncodeContext (Marked)

namespace EncodeSession

variable {g : EncodeSettings} {s s' : EncodeSession} {t : EncodeTarget} {r : NvencReplies}

/-! ## Rendering -/

/-- `s'` is `s` with another configuration and with marks. -/
def Configured (s s' : EncodeSession) : Prop :=
  ∃ num den config changed coded idr, s' =
    { s with
      toEncodeContext := s.toEncodeContext.marked changed coded
      frameRateNum := num
      frameRateDen := den
      encConfig := config
      encForceIdr := s.encForceIdr || idr }

theorem Configured.refl (s : EncodeSession) : Configured s s :=
  ⟨s.frameRateNum, s.frameRateDen, s.encConfig, false, false, false, by simp [EncodeContext.marked]⟩

theorem Configured.trans {s₁ s₂ s₃ : EncodeSession} :
    Configured s₁ s₂ → Configured s₂ s₃ → Configured s₁ s₃ := by
  rintro ⟨_, _, _, changed, coded, idr, rfl⟩ ⟨num, den, config, changed', coded', idr', rfl⟩
  exact ⟨num, den, config, changed || changed', coded || coded', idr || idr', by
    simp [EncodeContext.marked, Bool.or_assoc]⟩

theorem Configured.marked : Configured s s' → Marked s.toEncodeContext s'.toEncodeContext := by
  rintro ⟨_, _, _, changed, coded, _, rfl⟩
  exact ⟨changed, coded, rfl⟩

theorem Configured.calls : Configured s s' →
    s'.calls = s.calls ∧ s'.encStartupIdrLeft = s.encStartupIdrLeft := by
  rintro ⟨_, _, _, _, _, _, rfl⟩
  exact ⟨rfl, rfl⟩

/-- A change of the configuration, marked or not. -/
theorem configured_markIf (changed : Bool) (num den : UInt32) (config : EncConfig) :
    Configured s
      ({ s with frameRateNum := num, frameRateDen := den, encConfig := config }.markIf changed) :=
  ⟨num, den, config, changed, false, false, by simp [markIf, EncodeContext.marked]⟩

theorem configured_nvencSetBitrate (bps : UInt32) : Configured s (s.nvencSetBitrate bps) := by
  unfold nvencSetBitrate
  dsimp only
  split_ifs
  iterate 2 exact .refl _
  all_goals exact configured_markIf _ _ _ _

theorem configured_nvencSetFrameRate (fpsNum fpsDen : UInt32) :
    Configured s (s.nvencSetFrameRate fpsNum fpsDen) := by
  unfold nvencSetFrameRate
  split
  · exact .refl _
  · exact configured_markIf _ _ _ _

theorem configured_nvencSetGop (gopLength idrPeriod : UInt32) :
    Configured s (s.nvencSetGop gopLength idrPeriod) := by
  have hgop (s : EncodeSession) : Configured s (s.setGopLength gopLength) :=
    configured_markIf _ _ _ _
  have hidr (s : EncodeSession) : Configured s (s.setIdrPeriod idrPeriod) :=
    configured_markIf _ _ _ _
  unfold nvencSetGop
  dsimp only
  split_ifs
  · exact (hgop _).trans (hidr _)
  · exact hidr _
  · exact hgop _
  · exact .refl _

theorem configured_renderRateControl (rc : RateControl) :
    Configured s (s.renderRateControl rc) := by
  have hmax (s : EncodeSession) (bps : UInt32) : Configured s (s.setMaxBitRate bps) :=
    configured_markIf _ _ _ _
  have hmaxQp (s : EncodeSession) (qp : UInt32) : Configured s (s.setMaxQp qp) :=
    configured_markIf _ _ _ _
  have hminQp (s : EncodeSession) (qp : UInt32) : Configured s (s.setMinQp qp) :=
    configured_markIf _ _ _ _
  have hrate : Configured s (s.renderBitrate rc) := by
    unfold renderBitrate
    split_ifs
    · exact (configured_nvencSetBitrate _).trans (hmax _ _)
    · exact configured_nvencSetBitrate _
    · exact .refl _
  unfold renderRateControl
  dsimp only
  split_ifs
  · exact (hrate.trans (hmaxQp _ _)).trans (hminQp _ _)
  · exact hrate.trans (hminQp _ _)
  · exact hrate.trans (hmaxQp _ _)
  · exact hrate

/-- The session after a buffer that announces a rectangle, or none. -/
def announce (g : EncodeSettings) (s : EncodeSession) (r : Option VisibleRect) : EncodeSession :=
  s.withSizes fun ctx => ctx.announce g.g_encVisibleReconfigure r

theorem Configured.announce (r : Option VisibleRect) :
    Configured s s' → Configured (s.announce g r) (s'.announce g r) := by
  rintro ⟨num, den, config, changed, coded, idr, rfl⟩
  refine ⟨num, den, config, changed, coded, idr, ?_⟩
  unfold EncodeSession.announce withSizes
  dsimp only
  rw [EncodeContext.announce_marked]

theorem configured_renderSequenceH264 (seq : SequenceParamsH264) :
    Configured (s.announce g (some seq.rect)) (s.renderSequenceH264 g seq) := by
  have hrate : Configured s (s.nvencSetBitrate seq.bits_per_second) := configured_nvencSetBitrate _
  have hrates := hrate.trans (configured_nvencSetGop seq.intra_period seq.intra_idr_period)
  have hsizes := hrates.announce (g := g) (some seq.rect)
  unfold renderSequenceH264
  dsimp only
  split
  · refine Configured.trans hsizes ?_
    exact configured_nvencSetFrameRate _ _
  · exact hsizes

theorem configured_renderSequenceHevc (seq : SequenceParamsHevc) :
    Configured (s.announce g seq.rect) (s.renderSequenceHevc g seq) := by
  have hrate : Configured s (s.nvencSetBitrate seq.bits_per_second) := configured_nvencSetBitrate _
  have hrates := hrate.trans (configured_nvencSetGop seq.intra_period seq.intra_idr_period)
  have hupdate (ctx : EncodeContext) :
      ctx.nvencUpdateVisibleRectFromHevcSeq g.g_encVisibleReconfigure
      seq.pic_width_in_luma_samples seq.pic_height_in_luma_samples =
        ctx.announce g.g_encVisibleReconfigure seq.rect := by
    unfold EncodeContext.nvencUpdateVisibleRectFromHevcSeq SequenceParamsHevc.rect
    split <;> rfl
  have hsizes := hrates.announce (g := g) seq.rect
  unfold renderSequenceHevc
  dsimp only
  simp only [hupdate]
  split
  · refine Configured.trans hsizes ?_
    exact configured_nvencSetFrameRate _ _
  · exact hsizes

/-- A rendered buffer changes the sizes by what it announces, and besides only the configuration. -/
theorem renderBuffer_configured (buf : EncodeBuffer) :
    Configured (s.announce g (buf.rect s.encIsHevc)) (s.renderBuffer g buf) := by
  cases buf with
  | coded =>
    refine ⟨s.frameRateNum, s.frameRateDen, s.encConfig, false, true, false, ?_⟩
    simp [renderBuffer, announce, withSizes, EncodeContext.marked, EncodeContext.announce,
      EncodeBuffer.rect]
  | sequenceParameter h264 hevc =>
    unfold renderBuffer EncodeBuffer.rect
    cases s.encIsHevc with
    | true =>
      cases hevc with
      | none => exact .refl _
      | some seq => exact configured_renderSequenceHevc seq
    | false =>
      cases h264 with
      | none => exact .refl _
      | some seq => exact configured_renderSequenceH264 seq
  | pictureParameter h264 hevc =>
    show Configured s ((if s.encIsHevc then hevc else h264).elim s s.renderPictureParams)
    cases (if s.encIsHevc then hevc else h264) with
    | none => exact .refl _
    | some pic =>
      refine ⟨s.frameRateNum, s.frameRateDen, s.encConfig, false, pic.codedBuf,
        pic.idr_pic_flag, ?_⟩
      simp [renderPictureParams, EncodeContext.marked]
  | miscParameter misc =>
    match misc with
    | some (.rateControl rc) => exact configured_renderRateControl rc
    | some (.frameRate framerate) => exact configured_nvencSetFrameRate _ _
    | some .other | none => exact .refl _
  | other => exact .refl _

/-- Rendering keeps what every buffer keeps. -/
theorem renderPicture_keeps {β : Type} (f : EncodeSession → β)
    (hf : ∀ s buf, f (renderBuffer g s buf) = f s)
    (buffers : List EncodeBuffer) : f (s.nvRenderPicture g buffers) = f s := by
  unfold nvRenderPicture
  induction buffers generalizing s with
  | nil => rfl
  | cons buf buffers ih => exact ih.trans (hf s buf)

theorem renderBuffer_context (buf : EncodeBuffer) :
    Marked (s.toEncodeContext.announce g.g_encVisibleReconfigure (buf.rect s.encIsHevc))
      (s.renderBuffer g buf).toEncodeContext :=
  (renderBuffer_configured buf).marked

/-! ## The end of a picture -/

/-- The replies that an `nvEndPicture` meets, as far as they decide the sizes. -/
def outcome (g : EncodeSettings) (s : EncodeSession) (t : EncodeTarget) (r : NvencReplies) :
    EncodeOutcome where
  buffers := t.codedBuf ∧ t.ioBuffers ∧ s.nvencIoBufferCount ≠ 0
  available := g.reconfigureAvailable
  debounced := s.Debounced g r.now
  accepted := r.reconfigure.nvs = .success
  locked := if r.pushed ∧ r.lockInputBuffer = .success then some r.pitch else none
  rejected := r.pushed ∧ r.lockInputBuffer = .success ∧ r.unlockInputBuffer = .success ∧
    r.encodePicture = .invalidParam
  resized := r.resize.nvs = .success

theorem reconfigure_context (h : r.reconfigure.changed = none) :
    (s.nvencReconfigureIfNeeded g r.now r.reconfigure).toEncodeContext =
      s.toEncodeContext.nvencReconfigureIfNeeded (s.outcome g t r) := by
  unfold nvencReconfigureIfNeeded EncodeContext.nvencReconfigureIfNeeded outcome
  by_cases hd : s.encNeedsReconfigure <;> by_cases ha : g.reconfigureAvailable <;>
    by_cases hb : s.Debounced g r.now <;> by_cases hn : r.reconfigure.nvs = .success <;>
    by_cases hc : s.ResolutionChange <;>
    simp [hd, ha, hb, hn, hc, reconfigured, takeParams, setParams, h, params, log]

theorem resize_context (h : r.resize.changed = none) (width height : UInt32) :
    (s.resize g width height r.resize).toEncodeContext = if r.resize.nvs = .success then
      { s.toEncodeContext with
        width := width
        height := height
        encInitParams := (s.resizedParams width height).sizes }
    else s.toEncodeContext := by
  unfold resize
  split
  · simp [takeParams, setParams, h, log]
  · rfl

theorem ensures_nvenc {call : NvencStatus → NvencCall} {nvs : NvencStatus}
    {Q : NvencStatus → EncodeSession → Prop} {E : Objects.VAStatus → EncodeSession → Prop} :
    (nvenc call nvs).Ensures s Q E ↔ Q nvs (s.log (call nvs)) := by
  unfold nvenc
  simp only [Prog.ensures_bind, Prog.ensures_update, Prog.ensures_pure]

/-- The encoder rejects the picture for its size, which is not the size of the context. -/
def Rejects (s : EncodeSession) (pic : EncPicParams) (r : NvencReplies) : Prop :=
  r.encodePicture = .invalidParam ∧ (pic.inputWidth ≠ s.width ∨ pic.inputHeight ≠ s.height)

/-- The encoder is reconfigured to the size of a picture. -/
def Resizes (g : EncodeSettings) (r : NvencReplies) : Prop :=
  g.reconfigureAvailable ∧ r.resize.nvs = .success

instance : Decidable (Resizes g r) := inferInstanceAs (Decidable (_ ∧ _))

/-- The session after the picture was rejected and the encoder was reconfigured to its size, or
not. -/
def rejected (g : EncodeSettings) (s : EncodeSession) (pic : EncPicParams) (r : NvencReplies) :
    EncodeSession :=
  let s := s.log (.encodePicture pic r.encodePicture)
  if g.reconfigureAvailable then s.resize g pic.inputWidth pic.inputHeight r.resize else s

/-- The picture with the size of the context. -/
def atContextSize (s : EncodeSession) (pic : EncPicParams) : EncPicParams :=
  { pic with inputWidth := s.width, inputHeight := s.height }

/-- The ways through `submitPicture`, with the state at the end. -/
inductive Submits (g : EncodeSettings) (s : EncodeSession) (pic : EncPicParams) (r : NvencReplies) :
    NvencStatus → EncodeSession → Prop where
  | once (h : ¬s.Rejects pic r) :
      Submits g s pic r r.encodePicture (s.log (.encodePicture pic r.encodePicture))
  | notResized (h : s.Rejects pic r) (hz : ¬Resizes g r) :
      Submits g s pic r r.encodeAtContextSize ((s.rejected g pic r).log
        (.encodePicture ((s.rejected g pic r).atContextSize pic) r.encodeAtContextSize))
  | resized (h : s.Rejects pic r) (hz : Resizes g r)
      (ha : r.encodeAfterReconfigure ≠ .invalidParam) :
      Submits g s pic r r.encodeAfterReconfigure
        ((s.rejected g pic r).log (.encodePicture pic r.encodeAfterReconfigure))
  | again (h : s.Rejects pic r) (hz : Resizes g r) (ha : r.encodeAfterReconfigure = .invalidParam) :
      Submits g s pic r r.encodeAtContextSize
        (((s.rejected g pic r).log (.encodePicture pic r.encodeAfterReconfigure)).log
          (.encodePicture ((s.rejected g pic r).atContextSize pic) r.encodeAtContextSize))

theorem submitPicture_submits (pic : EncPicParams) :
    (submitPicture g pic r).Ensures s (Submits g s pic r) fun _ _ => False := by
  have htry (s : EncodeSession) (nvs : NvencStatus) {Q : NvencStatus → EncodeSession → Prop}
      {E : Objects.VAStatus → EncodeSession → Prop}
      (ha : nvs = .invalidParam → Q r.encodeAtContextSize
        (s.log (.encodePicture (s.atContextSize pic) r.encodeAtContextSize)))
      (hn : nvs ≠ .invalidParam → Q nvs s) :
      (if nvs = .invalidParam then do
        let s ← Prog.read
        nvenc (.encodePicture { pic with inputWidth := s.width, inputHeight := s.height })
          r.encodeAtContextSize
      else pure nvs : Step NvencStatus).Ensures s Q E := by
    rw [Prog.ensures_ite]
    refine ⟨fun h => ?_, hn⟩
    rw [Prog.ensures_bind, Prog.ensures_read, ensures_nvenc]
    exact ha h
  unfold submitPicture
  simp only [Prog.ensures_bind, ensures_nvenc, Prog.ensures_read]
  rw [Prog.ensures_ite]
  refine ⟨fun h => ?_, fun h => .once h⟩
  have hrej : s.rejected g pic r = if g.reconfigureAvailable then
      (s.log (.encodePicture pic r.encodePicture)).resize g pic.inputWidth pic.inputHeight r.resize
    else s.log (.encodePicture pic r.encodePicture) := rfl
  split
  · next ha =>
    rw [if_pos ha] at hrej
    rw [Prog.ensures_bind, Prog.ensures_update, ← hrej, Prog.ensures_ite]
    refine ⟨fun hz => ?_, fun hz => ?_⟩
    · rw [Prog.ensures_bind, ensures_nvenc]
      exact htry _ _ (.again h hz) (.resized h hz)
    · rw [Prog.ensures_bind, Prog.ensures_pure]
      exact htry _ _ (fun _ => .notResized h hz) fun hn => absurd h.1 hn
  · next ha =>
    have hz : ¬Resizes g r := fun hz => ha hz.1
    rw [if_neg ha] at hrej
    rw [Prog.ensures_ite, ← hrej]
    refine ⟨fun h => absurd h hz, fun _ => ?_⟩
    rw [Prog.ensures_bind, Prog.ensures_pure]
    exact htry _ _ (fun _ => .notResized h hz) fun hn => absurd h.1 hn

/-- What a reconfiguration to the size of a picture does to the sizes. -/
theorem rejected_context {pic : EncPicParams} (hr : r.resize.changed = none) :
    (s.rejected g pic r).toEncodeContext = if Resizes g r then
      { s.toEncodeContext with
        width := pic.inputWidth
        height := pic.inputHeight
        encInitParams := (s.resizedParams pic.inputWidth pic.inputHeight).sizes }
    else s.toEncodeContext := by
  unfold rejected
  dsimp only
  by_cases ha : g.reconfigureAvailable
  · rw [if_pos ha, resize_context hr]
    exact if_congr (and_iff_right ha).symm rfl rfl
  · rw [if_neg ha, if_neg fun hz => ha hz.1]
    rfl

/-- What the submission of a picture does to the sizes. -/
theorem Submits.context {pic : EncPicParams} {nvs : NvencStatus} (h : Submits g s pic r nvs s')
    (hr : r.resize.changed = none) {o : EncodeOutcome} {region : SourceRegion}
    (hw : pic.inputWidth = region.copyWidth) (hh : pic.inputHeight = region.copyHeight)
    (ho : o.rejected ↔ r.encodePicture = .invalidParam)
    (hz : o.available ∧ o.resized ↔ Resizes g r) :
    s'.toEncodeContext = s.toEncodeContext.resizeIfRejected o region := by
  have hcond : (o.rejected ∧ (region.copyWidth ≠ s.width ∨ region.copyHeight ≠ s.height) ∧
      o.available ∧ o.resized) ↔ s.Rejects pic r ∧ Resizes g r := by
    rw [ho, hz, ← hw, ← hh, ← and_assoc]
    rfl
  unfold EncodeContext.resizeIfRejected
  cases h with
  | once h =>
    rw [if_neg fun hc => h (hcond.mp hc).1]
    rfl
  | notResized h hn =>
    rw [if_neg fun hc => hn (hcond.mp hc).2]
    exact (rejected_context hr).trans (if_neg hn)
  | resized h hn | again h hn =>
    rw [if_pos (hcond.mpr ⟨h, hn⟩), ← hw, ← hh]
    exact (rejected_context hr).trans (if_pos hn)

theorem encodePicture_context (hr : r.resize.changed = none) (sf : EncodeSurface) (ioSlot : Nat)
    (s₀ : EncodeSession) : (encodePicture g sf ioSlot r).Returns s fun _ s' => s'.toEncodeContext =
      s.toEncodeContext.resizeIfRejected (s₀.outcome g t r)
        (selectRegion s.toEncodeContext sf) := by
  -- an exit before the submission
  have hexit (h : ¬(s₀.outcome g t r).rejected) : s.toEncodeContext =
      s.toEncodeContext.resizeIfRejected (s₀.outcome g t r) (selectRegion s.toEncodeContext sf) :=
    (if_neg fun hc => h hc.1).symm
  simp only [outcome, decide_eq_true_eq] at hexit
  unfold encodePicture Prog.Returns failPicture
  simp only [Prog.ensures_bind, Prog.ensures_ite, ensures_nvenc, Prog.ensures_leave,
    Prog.ensures_read, Prog.ensures_update, Prog.ensures_pure]
  refine ⟨fun h => hexit ?_, fun hp =>
    ⟨fun h => hexit ?_, fun hl => ⟨fun h => hexit ?_, fun hu => ?_⟩⟩⟩
  · grind
  · tauto
  · tauto
  · refine (submitPicture_submits _).mono (fun nvs s' h => ?_) fun _ _ h => h.elim
    have hctx : s'.toEncodeContext = s.toEncodeContext.resizeIfRejected (s₀.outcome g t r)
        (selectRegion s.toEncodeContext sf) := by
      refine h.context hr rfl rfl ?_ ?_
      · simp only [outcome, decide_eq_true_eq]
        grind
      · simp only [outcome, decide_eq_true_eq, Resizes]
    -- nothing after it changes a size
    exact ⟨fun _ => hctx, fun _ => ⟨fun _ => ⟨fun _ => hctx, fun _ => hctx⟩,
      fun _ => ⟨fun _ => hctx, fun _ => ⟨fun _ => hctx, fun _ => hctx⟩⟩⟩⟩

/-- What an `nvEndPicture` does to the sizes: nothing when its checks fail, and otherwise what
`nvencReconfigureIfNeeded` and the reconfiguration to the size of the picture do. -/
theorem endPicture_context (hr : r.reconfigure.changed = none) (hz : r.resize.changed = none) :
    (nvEndPicture g t r).Returns s fun _ s' => s'.toEncodeContext = s.toEncodeContext ∨ ∃ sf,
      s'.toEncodeContext =
        (s.toEncodeContext.nvencReconfigureIfNeeded (s.outcome g t r)).resizeIfRejected
        (s.outcome g t r)
        (selectRegion (s.toEncodeContext.nvencReconfigureIfNeeded (s.outcome g t r)) sf) := by
  unfold nvEndPicture Prog.Returns
  simp only [Prog.ensures_bind, Prog.ensures_read, Prog.ensures_ite, Prog.ensures_leave]
  refine ⟨fun _ => .inl trivial, fun _ => ⟨fun _ => .inl trivial, fun _ => ?_⟩⟩
  cases t.surface with
  | none => exact .inl rfl
  | some sf =>
    simp only [Prog.ensures_bind, Prog.ensures_ite, Prog.ensures_leave, Prog.ensures_update]
    refine ⟨fun _ => .inl trivial, fun _ => ⟨fun _ => .inl trivial, fun _ => ⟨fun _ => .inl trivial,
      fun _ => ?_⟩⟩⟩
    have h :=
      encodePicture_context (g := g) (t := t) hz sf (s.nvencIoBufferIndex % s.nvencIoBufferCount) s
      (s := s.nvencReconfigureIfNeeded g r.now r.reconfigure)
    rw [reconfigure_context (t := t) hr] at h
    exact h.mono fun _ s' h => .inr ⟨sf, h⟩

end EncodeSession

/-! ## Within the input buffers -/

/-- In one direction: the encoder's maximum is the size `bound` that it was created with, and the
other sizes are within it. -/
structure SizeBounded (bound size encode maxEncode : UInt32) : Prop where
  max_eq : maxEncode = bound
  encode_le : encode ≤ bound
  size_le : size ≤ bound

/-- The sizes of a context that was created with the size `width` times `height`. -/
structure Bounded (width height : UInt32) (ctx : EncodeContext) : Prop where
  width : SizeBounded width ctx.width ctx.encInitParams.encodeWidth ctx.encInitParams.maxEncodeWidth
  height :
    SizeBounded height ctx.height ctx.encInitParams.encodeHeight ctx.encInitParams.maxEncodeHeight

section Bounded

variable {width height : UInt32} {ctx ctx' : EncodeContext}

theorem Bounded.marked (h : Bounded width height ctx) (hm : Marked ctx ctx') :
    Bounded width height ctx' := by
  obtain ⟨changed, coded, rfl⟩ := hm
  exact ⟨h.width, h.height⟩

theorem Bounded.announce (h : Bounded width height ctx) (g : Bool) (r : Option VisibleRect) :
    Bounded width height (ctx.announce g r) := by
  cases r with
  | none => exact h
  | some r =>
    obtain ⟨_, _, _, _, _, he⟩ := nvencSetVisibleRect_eq ctx r.x r.y r.width r.height
    have hset : Bounded width height (ctx.nvencSetVisibleRect r.x r.y r.width r.height) := by
      rw [he]
      exact ⟨h.width, h.height⟩
    unfold EncodeContext.announce
    dsimp only
    by_cases hreq : VisibleRequest g (ctx.nvencSetVisibleRect r.x r.y r.width r.height)
    · have hle := hreq.le
      rw [hset.width.max_eq, hset.height.max_eq] at hle
      rw [useVisible_of_request hreq]
      exact ⟨{ hset.width with encode_le := hle.1 }, { hset.height with encode_le := hle.2 }⟩
    · rwa [useVisible_of_not_request hreq]

theorem Bounded.reconfigure (h : Bounded width height ctx) (o : EncodeOutcome) :
    Bounded width height (ctx.nvencReconfigureIfNeeded o) := by
  unfold EncodeContext.nvencReconfigureIfNeeded
  split_ifs
  · exact h
  · exact ⟨h.width, h.height⟩
  · exact h
  · exact ⟨h.width, h.height⟩
  · exact ⟨{ h.width with size_le := h.width.encode_le },
      { h.height with size_le := h.height.encode_le }⟩

/-- The size of a picture that is at most the size of the context does not raise the maximum. -/
theorem SizeBounded.resize {bound size encode maxEncode n : UInt32}
    (h : SizeBounded bound size encode maxEncode) (hle : n.toNat ≤ size.toNat) :
    SizeBounded bound n n (if maxEncode < n then n else maxEncode) := by
  have hn : n ≤ bound := UInt32.le_trans (UInt32.le_iff_toNat_le.mpr hle) h.size_le
  refine ⟨?_, hn, hn⟩
  rw [h.max_eq, if_neg (UInt32.not_lt.mpr hn)]

theorem Bounded.resize (h : Bounded width height ctx) (o : EncodeOutcome) (sf : EncodeSurface) :
    Bounded width height (ctx.resizeIfRejected o (selectRegion ctx sf)) := by
  have hle := selectRegion_le ctx sf
  unfold EncodeContext.resizeIfRejected
  split
  · exact ⟨h.width.resize hle.1, h.height.resize hle.2⟩
  · exact h

end Bounded

/-- NVENC leaves the parameters that the call hands to it as they are. -/
def SessionCall.LeavesParams : SessionCall → Prop
  | .endPicture _ r => r.reconfigure.changed = none ∧ r.resize.changed = none
  | _ => True

instance (call : SessionCall) : Decidable call.LeavesParams :=
  match call with
  | .endPicture _ _ => inferInstanceAs (Decidable (_ ∧ _))
  | .beginPicture _ | .renderPicture _ => .isTrue trivial

namespace EncodeSession

variable {g : EncodeSettings} {s s' : EncodeSession} {width height : UInt32}

theorem bounded_create {a : SessionArgs} (h : nvCreateContext g a = some s) :
    Bounded a.pictureWidth.toUInt32 a.pictureHeight.toUInt32 s.toEncodeContext := by
  unfold nvCreateContext at h
  split at h
  · cases h
  · obtain rfl := Option.some.inj h
    exact ⟨⟨rfl, UInt32.le_refl _, UInt32.le_refl _⟩, ⟨rfl, UInt32.le_refl _, UInt32.le_refl _⟩⟩

theorem bounded_renderPicture (h : Bounded width height s.toEncodeContext)
    (buffers : List EncodeBuffer) :
    Bounded width height (s.nvRenderPicture g buffers).toEncodeContext := by
  unfold nvRenderPicture
  induction buffers generalizing s with
  | nil => exact h
  | cons buf buffers ih => exact ih ((h.announce _ _).marked (renderBuffer_context buf))

theorem bounded_step {call : SessionCall} (h : Bounded width height s.toEncodeContext)
    (hc : call.LeavesParams) (hs : sessionStep g s call = some s') :
    Bounded width height s'.toEncodeContext := by
  cases call with
  | beginPicture surface =>
    obtain rfl := Option.some.inj hs
    exact ⟨h.width, h.height⟩
  | renderPicture buffers =>
    obtain rfl := Option.some.inj hs
    exact bounded_renderPicture h buffers
  | endPicture t r =>
    obtain ⟨⟨status, s₁⟩, he, rfl⟩ := Option.map_eq_some_iff.mp hs
    obtain hctx | ⟨sf, hctx⟩ := (endPicture_context hc.1 hc.2).eval he
    · rwa [hctx]
    · rw [hctx]
      exact (h.reconfigure _).resize _ sf

end EncodeSession

/-- In every run of a context that was created with the size `W` times `H`, the encoder's maximum
stays `W` times `H` and the other sizes are within it. So the copy in `nvEndPicture` leaves
everything outside the `H` luma and `H / 2` chroma rows of the input buffer as it is, and in these
rows what is right of the `W` columns, but for their padding when the rows are copied in one
piece. -/
theorem encode_bounded {g : EncodeSettings} {a : SessionArgs} {s₀ s : EncodeSession}
    {calls : List SessionCall} (h0 : EncodeSession.nvCreateContext g a = some s₀)
    (hm : (encodeSession g).Meets (fun _ call => call.LeavesParams) s₀ calls)
    (hr : (encodeSession g).run s₀ calls = some s) :
    let W := a.pictureWidth.toUInt32
    let H := a.pictureHeight.toUInt32
    (s.encInitParams.maxEncodeWidth = W ∧ s.encInitParams.maxEncodeHeight = H ∧
      s.encInitParams.encodeWidth ≤ W ∧ s.width ≤ W ∧ s.encInitParams.encodeHeight ≤ H ∧
      s.height ≤ H) ∧
    ∀ (r : NvencReplies) (sf : EncodeSurface) (dstPitch : Nat) (src dst : Nat → UInt8),
      r.reconfigure.changed = none → W.toNat ≤ dstPitch →
      let ctx := (s.nvencReconfigureIfNeeded g r.now r.reconfigure).toEncodeContext
      ∀ row column, column < dstPitch →
        H.toNat + H.toNat / 2 ≤ row ∨ W.toNat ≤ column ∧ ¬WholePlane ctx sf dstPitch →
        stagePicture ctx sf dstPitch src dst (row * dstPitch + column) =
          dst (row * dstPitch + column) := by
  intro W H
  have hb : Bounded W H s.toEncodeContext :=
    Lts.run_invariant (I := fun s => Bounded W H s.toEncodeContext)
      (fun _ _ _ _ hb hc hs => EncodeSession.bounded_step hb hc hs)
        (EncodeSession.bounded_create h0) hm hr
  refine ⟨⟨hb.width.max_eq, hb.height.max_eq, hb.width.encode_le, hb.width.size_le,
    hb.height.encode_le, hb.height.size_le⟩, ?_⟩
  intro r sf dstPitch src dst hc hp ctx row column hx h
  have hctx : Bounded W H ctx := by
    have hrec := hb.reconfigure (s.outcome g ⟨none, false, false⟩ r)
    rwa [← EncodeSession.reconfigure_context hc] at hrec
  have hw : ctx.width.toNat ≤ W.toNat := UInt32.le_iff_toNat_le.mp hctx.width.size_le
  have hh : ctx.height.toNat ≤ H.toNat := UInt32.le_iff_toNat_le.mp hctx.height.size_le
  exact stagePicture_outside (by omega) hx (h.imp (by omega) fun hc => ⟨by omega, hc.2⟩)

/-- A picture on a smaller surface, which the encoder is reconfigured to. -/
def smallPicture (r : NvencReplies) : List SessionCall :=
  [.beginPicture 1, .renderPicture [.coded], .endPicture ⟨some (.created 32 32), true, true⟩
    { r with encodePicture := .invalidParam }]

theorem encode_bounded_resized :
    ∃ s : EncodeSession, s.width = 32 ∧ s.encInitParams.maxEncodeWidth = 64 ∧
    stagePicture s.toEncodeContext (.created 64 64) 64 (fun _ => 7) (fun _ =>
      0xff) (96 * 64 + 0) = 0xff := by
  obtain ⟨s₀, h0, hm, hr⟩ : ∃ s₀, EncodeSession.nvCreateContext plainSettings plainArgs = some s₀ ∧
      (encodeSession plainSettings).Meets (fun _ call => call.LeavesParams) s₀
        (smallPicture (repliesAt 1000000000 .success)) ∧
      ((encodeSession plainSettings).run s₀ (smallPicture (repliesAt 1000000000 .success))).any
        (fun s => s.width = 32 ∧ s.encNeedsReconfigure = false) :=
    ⟨_, rfl, by decide, by decide⟩
  obtain ⟨s, hs, hp⟩ := (Option.any_eq_true _ _).mp hr
  simp only [decide_eq_true_eq] at hp
  obtain ⟨⟨hmax, -⟩, hcopy⟩ := encode_bounded h0 hm hs
  refine ⟨s, hp.1, hmax, ?_⟩
  have hout :=
    hcopy (repliesAt 1000000000 .success) (.created 64 64) 64 (fun _ => 7) (fun _ => 0xff) rfl
    (by decide) 96 0 (by decide) (.inl (by decide))
  have hsame :
      s.nvencReconfigureIfNeeded plainSettings 1000000000 ⟨.success, none, 1000000000⟩ = s := by
    unfold EncodeSession.nvencReconfigureIfNeeded
    rw [hp.2]
    rfl
  rw [← hsame]
  exact hout

/-- A context for pictures of 60 × 4 samples, with a picture that was begun. -/
def narrowContext : EncodeContext :=
  { EncodeContext.created 60 4 false with encCurrentSurface := some 1, encHasCodedBuf := true }

/-- The rows of its pictures have 64 bytes, and are copied in one piece. -/
theorem stagePicture_padding :
    stagePicture narrowContext (.created 60 4) 64 (fun _ => 7) (fun _ =>
      0xff) (0 * 64 + 60) = 7 := by
  have hwhole : WholePlane narrowContext (.created 60 4) 64 := by decide
  rw [stagePicture, if_pos hwhole, copyWhole_at (by decide), if_neg (by decide), if_pos (by decide)]

/-- The bytes behind the columns of that picture are written. -/
theorem encode_not_bounded : ¬∀ (g : EncodeSettings) (a : SessionArgs) (s₀ s : EncodeSession)
    (calls : List SessionCall), EncodeSession.nvCreateContext g a = some s₀ →
      (encodeSession g).Meets (fun _ call => call.LeavesParams) s₀ calls →
      (encodeSession g).run s₀ calls = some s →
      ∀ (r : NvencReplies) (sf : EncodeSurface) (dstPitch : Nat) (src dst : Nat → UInt8),
        r.reconfigure.changed = none → a.pictureWidth.toUInt32.toNat ≤ dstPitch →
        let ctx := (s.nvencReconfigureIfNeeded g r.now r.reconfigure).toEncodeContext
        ∀ row column, column < dstPitch → a.pictureWidth.toUInt32.toNat ≤ column →
          stagePicture ctx sf dstPitch src dst (row * dstPitch + column) =
            dst (row * dstPitch + column) := by
  intro h
  have hstaged := h plainSettings { plainArgs with pictureWidth := 60, pictureHeight := 4 } _ _
    [.beginPicture 1, .renderPicture [.coded]] rfl (by decide) rfl (repliesAt 1000000000 .success)
    (.created 60 4) 64 (fun _ => 7) (fun _ => 0xff) rfl (by decide) 0 60 (by decide) (by decide)
  exact absurd (hstaged.symm.trans stagePicture_padding) (by decide)

end NvVaapi
