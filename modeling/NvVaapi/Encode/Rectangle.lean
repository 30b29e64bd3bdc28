import NvVaapi.Encode.Sizes

/-!
# The visible rectangle

* `SideIn`, `RectIn`: the visible rectangle is even, not empty and inside a size.
* `rectIn_setVisibleRect`: what `nvencSetVisibleRect` leaves, for sizes whose sums do not wrap
  around.
* `rectangles`: the calls on a session, with the size that the rectangle was computed against.
* `visibleRect_in`: in every run, a valid rectangle is inside that size.
-/

namespace NvVaapi

/-! ## One direction -/

/-- In one direction: an even part of `limit` samples, which is not empty. -/
structure SideIn (start length limit : UInt32) : Prop where
  start_even : start.toNat % 2 = 0
  length_even : length.toNat % 2 = 0
  pos : 0 < length.toNat
  le : start.toNat + length.toNat ≤ limit.toNat

/-- The start and the length are made even, then the length is clipped and made even again. -/
theorem sideIn_clip {start length limit : UInt32} (hlimit : limit.toNat < 2 ^ 31)
    (hlength : length.toNat < 2 ^ 31)
    (hstart : ¬evenDown start ≥ limit)
    (hpos : evenDown (clip (evenDown start) (evenDown length) limit) ≠ 0) :
    SideIn (evenDown start) (evenDown (clip (evenDown start) (evenDown length) limit)) limit := by
  have hlt := UInt32.lt_iff_toNat_lt.mp (UInt32.not_le.mp hstart)
  have hlen := toNat_evenDown length
  have hclip := toNat_clip (evenDown length) (UInt32.not_le.mp hstart)
  rw [if_pos (by omega)] at hclip
  refine ⟨?_, ?_, ?_, ?_⟩
  · rw [toNat_evenDown]
    omega
  · rw [toNat_evenDown]
    omega
  · exact Nat.pos_of_ne_zero fun h => hpos (UInt32.toNat_inj.mp h)
  · rw [toNat_evenDown (clip _ _ _), hclip]
    omega

/-! ## The rectangle -/

namespace EncodeContext

variable {ctx : EncodeContext}

/-- The visible rectangle is inside the size `against`. -/
structure RectIn (ctx : EncodeContext) (against : UInt32 × UInt32) : Prop where
  horizontal : SideIn ctx.encVisibleX ctx.encVisibleWidth against.1
  vertical : SideIn ctx.encVisibleY ctx.encVisibleHeight against.2

/-- The size is in 1..2^31-1 in both directions. -/
structure SizeInRange (ctx : EncodeContext) : Prop where
  width_pos : 0 < ctx.width.toNat
  width_lt : ctx.width.toNat < 2 ^ 31
  height_pos : 0 < ctx.height.toNat
  height_lt : ctx.height.toNat < 2 ^ 31

instance (ctx : EncodeContext) : Decidable ctx.SizeInRange :=
  decidable_of_iff
    (0 < ctx.width.toNat ∧ ctx.width.toNat < 2 ^ 31 ∧ 0 < ctx.height.toNat ∧
      ctx.height.toNat < 2 ^ 31)
    ⟨fun ⟨hw, hw', hh, hh'⟩ => ⟨hw, hw', hh, hh'⟩,
      fun h => ⟨h.width_pos, h.width_lt, h.height_pos, h.height_lt⟩⟩

/-- The fields of the visible rectangle. -/
def visible (ctx : EncodeContext) : Bool × VisibleRect :=
  (ctx.encVisibleValid,
    ⟨ctx.encVisibleX, ctx.encVisibleY, ctx.encVisibleWidth, ctx.encVisibleHeight⟩)

/-- A valid rectangle is inside the size `against`. -/
def ValidIn (ctx : EncodeContext) (against : UInt32 × UInt32) : Prop :=
  ctx.encVisibleValid → ctx.RectIn against

theorem ValidIn.of_visible {ctx' : EncodeContext} {against : UInt32 × UInt32}
    (h : ctx.ValidIn against) (he : ctx'.visible = ctx.visible) : ctx'.ValidIn against := by
  simp only [visible, Prod.mk.injEq, VisibleRect.mk.injEq] at he
  obtain ⟨hv, hx, hy, hw, hh⟩ := he
  intro hv'
  obtain ⟨hh', hv''⟩ := h (hv ▸ hv')
  exact ⟨by rwa [hx, hw], by rwa [hy, hh]⟩

theorem validIn_setVisibleRect (hs : ctx.SizeInRange) {r : VisibleRect}
    (hw : r.width.toNat < 2 ^ 31) (hh : r.height.toNat < 2 ^ 31) :
    (ctx.nvencSetVisibleRect r.x r.y r.width r.height).ValidIn (ctx.width, ctx.height) := by
  intro hv
  unfold nvencSetVisibleRect at *
  dsimp only at *
  split_ifs at * with hzero hstart hempty
  rw [not_or] at hstart hempty
  exact ⟨sideIn_clip hs.width_lt hw hstart.1 hempty.1,
    sideIn_clip hs.height_lt hh hstart.2 hempty.2⟩

theorem useVisible_visible (g : Bool) : (ctx.useVisible g).visible = ctx.visible := by
  by_cases hreq : VisibleRequest g ctx
  · rw [useVisible_of_request hreq]
    rfl
  · rw [useVisible_of_not_request hreq]

end EncodeContext

/-! ### What a buffer announces -/

theorem uncropped_le (coded crop₁ crop₂ : UInt32) :
    (uncropped coded crop₁ crop₂).toNat ≤ coded.toNat := by
  unfold uncropped
  split
  · next h =>
    have h := UInt32.lt_iff_toNat_lt.mp h
    rw [UInt32.toNat_sub_of_le _ _ (UInt32.le_iff_toNat_le.mpr (Nat.le_of_lt h))]
    exact Nat.sub_le _ _
  · exact Nat.le_refl _

theorem toNat_mbs_lt (n : UInt16) : (n.toUInt32 * 16).toNat < 2 ^ 31 := by
  have hn := n.toNat_lt
  rw [UInt32.toNat_mul, UInt16.toNat_toUInt32]
  show n.toNat * 16 % 2 ^ 32 < 2 ^ 31
  omega

/-- The sizes that headers announce are far below 2^31, whatever the crops are. -/
theorem EncodeBuffer.rect_lt {buf : EncodeBuffer} {isHevc : Bool} {r : VisibleRect}
    (h : buf.rect isHevc = some r) :
    r.width.toNat < 2 ^ 31 ∧ r.height.toNat < 2 ^ 31 := by
  cases buf with
  | sequenceParameter h264 hevc =>
    cases isHevc with
    | true =>
      obtain ⟨seq, -, hr⟩ := Option.bind_eq_some_iff.mp h
      unfold SequenceParamsHevc.rect at hr
      split at hr
      · cases hr
      · obtain rfl := Option.some.inj hr
        simp only [UInt16.toNat_toUInt32]
        have hw := seq.pic_width_in_luma_samples.toNat_lt
        have hh := seq.pic_height_in_luma_samples.toNat_lt
        omega
    | false =>
      obtain ⟨seq, -, rfl⟩ := Option.map_eq_some_iff.mp h
      exact ⟨Nat.lt_of_le_of_lt (uncropped_le _ _ _) (toNat_mbs_lt _),
        Nat.lt_of_le_of_lt (uncropped_le _ _ _) (toNat_mbs_lt _)⟩
  | coded | pictureParameter _ _ | miscParameter _ | other => cases h

/-! ## The system -/

/-- A session, with the size that its visible rectangle was computed against. -/
structure RectHistory where
  session : EncodeSession
  /-- History: the size of the context when the visible rectangle was last computed. -/
  against : UInt32 × UInt32

namespace RectHistory

/-- The turn for a buffer. A rectangle that is announced is computed against the size of the
context. -/
def renderBuffer (g : EncodeSettings) (h : RectHistory) (buf : EncodeBuffer) : RectHistory where
  session := h.session.renderBuffer g buf
  against :=
    if (buf.rect h.session.encIsHevc).isSome then (h.session.width, h.session.height) else h.against

def step (g : EncodeSettings) (h : RectHistory) : SessionCall → Option RectHistory
  | .renderPicture buffers => some (buffers.foldl (renderBuffer g) h)
  | call => (sessionStep g h.session call).map fun s => ⟨s, h.against⟩

end RectHistory

/-- The calls on an encode context, in any order. -/
def rectangles (g : EncodeSettings) : Lts RectHistory SessionCall where
  init h := ∃ a, EncodeSession.nvCreateContext g a = some h.session
  step := RectHistory.step g

namespace RectHistory

variable {g : EncodeSettings} {h h' : RectHistory} {call : SessionCall}

theorem foldl_session (buffers : List EncodeBuffer) :
    (buffers.foldl (renderBuffer g) h).session = h.session.nvRenderPicture g buffers := by
  unfold EncodeSession.nvRenderPicture
  induction buffers generalizing h with
  | nil => rfl
  | cons buf buffers ih => exact ih

/-- The session of the history is the session of `encodeSession`. -/
theorem step_session (hs : step g h call = some h') :
    sessionStep g h.session call = some h'.session := by
  cases call with
  | renderPicture buffers =>
    obtain rfl := Option.some.inj hs
    exact congrArg some (foldl_session buffers).symm
  | beginPicture surface =>
    obtain rfl := Option.some.inj hs
    rfl
  | endPicture t r =>
    obtain ⟨s, hs', rfl⟩ := Option.map_eq_some_iff.mp hs
    exact hs'

/-- A valid rectangle is inside the size that it was computed against. -/
def Ok (h : RectHistory) : Prop := h.session.ValidIn h.against

theorem Ok.renderBuffer (hok : h.Ok) (hs : h.session.SizeInRange) (buf : EncodeBuffer) :
    (h.renderBuffer g buf).Ok := by
  obtain ⟨changed, coded, hctx⟩ := EncodeSession.renderBuffer_context (g := g) (s := h.session) buf
  unfold Ok RectHistory.renderBuffer
  dsimp only
  rw [hctx]
  cases hr : buf.rect h.session.encIsHevc with
  | none => exact EncodeContext.ValidIn.of_visible hok rfl
  | some r =>
    obtain ⟨hw, hh⟩ := EncodeBuffer.rect_lt hr
    have hrect := EncodeContext.validIn_setVisibleRect hs hw hh
    exact hrect.of_visible (EncodeContext.useVisible_visible _)

theorem Ok.render (hok : h.Ok) (hs : h.session.SizeInRange) (buffers : List EncodeBuffer) :
    (buffers.foldl (RectHistory.renderBuffer g) h).Ok := by
  induction buffers generalizing h with
  | nil => exact hok
  | cons buf buffers ih =>
    refine ih (hok.renderBuffer hs buf) ?_
    -- the size stays the same
    obtain ⟨_, _, hctx⟩ := EncodeSession.renderBuffer_context (g := g) (s := h.session) buf
    obtain ⟨-, hw, hh⟩ :=
      h.session.announce_frame g.g_encVisibleReconfigure (buf.rect h.session.encIsHevc)
    have hwidth : (h.renderBuffer g buf).session.width = h.session.width :=
      (congrArg EncodeContext.width hctx).trans hw
    have hheight : (h.renderBuffer g buf).session.height = h.session.height :=
      (congrArg EncodeContext.height hctx).trans hh
    constructor
    · rw [hwidth]
      exact hs.width_pos
    · rw [hwidth]
      exact hs.width_lt
    · rw [hheight]
      exact hs.height_pos
    · rw [hheight]
      exact hs.height_lt

/-- The end of a picture leaves the visible rectangle as it is. -/
theorem bookkeeping_visible (r : NvencReplies) (v : Bool × VisibleRect) :
    EncodeSession.Bookkeeping g r fun s => s.visible = v where
  reconfigure s hv := by
    unfold EncodeSession.nvencReconfigureIfNeeded
    split_ifs <;> exact hv
  resize s _ _ hv := by
    unfold EncodeSession.resize
    dsimp only
    split <;> exact hv
  log _ _ _ hv := hv
  forceIdr _ hv := hv
  ready _ hv := hv
  nextFrame _ _ _ hv := hv

theorem Ok.step (hok : h.Ok) (hs : h.session.SizeInRange)
    (hst : RectHistory.step g h call = some h') : h'.Ok := by
  cases call with
  | renderPicture buffers =>
    obtain rfl := Option.some.inj hst
    exact hok.render hs buffers
  | beginPicture surface =>
    obtain rfl := Option.some.inj hst
    exact EncodeContext.ValidIn.of_visible hok rfl
  | endPicture t r =>
    obtain ⟨s, hs, rfl⟩ := Option.map_eq_some_iff.mp hst
    exact EncodeContext.ValidIn.of_visible hok
      (EncodeSession.endPicture_invariant (bookkeeping_visible r _) hs rfl)

end RectHistory

/-- In every run of calls on a context of a size in 1..2^31-1, with any sequence headers: a valid
visible rectangle is even, not empty and inside the size that it was computed against. -/
theorem visibleRect_in {g : EncodeSettings} {h : RectHistory}
    (hr : (rectangles g).ReachWhen (fun h _ => h.session.SizeInRange) h)
    (hv : h.session.encVisibleValid) : h.session.RectIn h.against := by
  refine hr.invariant (I := RectHistory.Ok) ?_ (fun _ _ _ hok hs hst => hok.step hs hst) hv
  rintro h ⟨a, ha⟩ hv
  unfold EncodeSession.nvCreateContext at ha
  split at ha
  · cases ha
  · rw [← Option.some.inj ha] at hv
    cases hv

/-- A header for 80 × 64 samples, of which 8 are cropped on the left. The width is clipped to the
context. -/
def croppedHeader : EncodeBuffer := .sequenceParameter
  (some { picture_width_in_mbs := 5, picture_height_in_mbs := 4, chroma_format_idc := 1,
          frame_mbs_only_flag := true, frame_cropping_flag := true, frame_crop_left_offset := 4,
          frame_crop_right_offset := 0, frame_crop_top_offset := 0, frame_crop_bottom_offset := 0,
          bits_per_second := 0, intra_period := 0, intra_idr_period := 0,
          timing_info_present_flag := false, num_units_in_tick := 0, time_scale := 0 })
  none

theorem visibleRect_in_cropped : ∃ h : RectHistory, h.session.visible = (true, ⟨8, 0, 56, 64⟩) ∧
    h.session.RectIn h.against := by
  obtain ⟨s₀, h0, hm, hr⟩ : ∃ s₀, EncodeSession.nvCreateContext plainSettings plainArgs = some s₀ ∧
      (rectangles plainSettings).Meets (fun h _ => h.session.SizeInRange) ⟨s₀, (64, 64)⟩
        [.renderPicture [croppedHeader]] ∧
      ((rectangles plainSettings).run ⟨s₀, (64, 64)⟩ [.renderPicture [croppedHeader]]).any
        fun h => h.session.visible = (true, ⟨8, 0, 56, 64⟩) :=
    ⟨_, rfl, by decide, by decide⟩
  obtain ⟨h, hs, hv⟩ := (Option.any_eq_true _ _).mp hr
  have hv : h.session.visible = (true, ⟨8, 0, 56, 64⟩) := by simpa using hv
  have hreach := (Lts.ReachWhen.init (M := rectangles plainSettings) ⟨_, h0⟩).run hm hs
  exact ⟨h, hv, visibleRect_in hreach (congrArg Prod.fst hv)⟩

end NvVaapi
