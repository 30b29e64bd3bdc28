import NvVaapi.Encode.Sizes

/-!
# Following the visible size

* `Followed`: the encoder's size is at most the size of the context, and the same without a pending
  change, as long as every reconfiguration is accepted.
* `announce_cases`, `Followed.announced_iff`: what a sequence header does to the encoder's size.
* `followed_iff`: when a picture is encoded with the size that its header announces.
-/

namespace NvVaapi

open EncodeContext (Marked)

/-- What holds between the calls when every reconfiguration is accepted: the encoder's size is at
most the size of the context, and without a pending change it is the same. -/
structure Followed (ctx : EncodeContext) : Prop where
  width_le : ctx.encInitParams.encodeWidth ≤ ctx.width
  height_le : ctx.encInitParams.encodeHeight ≤ ctx.height
  clean : ctx.encNeedsReconfigure = false →
    ctx.encInitParams.encodeWidth = ctx.width ∧ ctx.encInitParams.encodeHeight = ctx.height

section Followed

variable {ctx ctx' : EncodeContext} {o : EncodeOutcome}

theorem Followed.marked (h : Followed ctx) (hm : Marked ctx ctx') : Followed ctx' := by
  obtain ⟨changed, coded, rfl⟩ := hm
  exact ⟨h.width_le, h.height_le, fun hn => h.clean (Bool.or_eq_false_iff.mp hn).1⟩

theorem evenDown_le (n : UInt32) : evenDown n ≤ n := by
  rw [UInt32.le_iff_toNat_le, toNat_evenDown]
  omega

theorem clip_zero_le (copy limit : UInt32) : clip 0 copy limit ≤ limit := by
  unfold clip
  rw [UInt32.zero_add, UInt32.sub_zero]
  split
  · exact UInt32.le_refl _
  · next h => exact UInt32.not_lt.mp h

/-- From the origin, the visible rectangle is clipped to the context. -/
theorem visible_le {x y w h : UInt32} (hv : (ctx.nvencSetVisibleRect x y w h).encVisibleValid)
    (hx : (ctx.nvencSetVisibleRect x y w h).encVisibleX = 0)
    (hy : (ctx.nvencSetVisibleRect x y w h).encVisibleY = 0) :
    (ctx.nvencSetVisibleRect x y w h).encVisibleWidth ≤ ctx.width ∧
      (ctx.nvencSetVisibleRect x y w h).encVisibleHeight ≤ ctx.height := by
  unfold EncodeContext.nvencSetVisibleRect at *
  dsimp only at *
  split_ifs at * with h₁ h₂ h₃
  dsimp only at *
  rw [hx, hy]
  exact ⟨UInt32.le_trans (evenDown_le _) (clip_zero_le _ _),
    UInt32.le_trans (evenDown_le _) (clip_zero_le _ _)⟩

/-- An announced rectangle changes the sizes only together with a mark, and to at most the size of
the context. -/
theorem announce_cases (ctx : EncodeContext) (g : Bool) (r : Option VisibleRect) :
    ((ctx.announce g r).encInitParams = ctx.encInitParams ∧
        (ctx.announce g r).encNeedsReconfigure = ctx.encNeedsReconfigure) ∨
      ((ctx.announce g r).encInitParams.encodeWidth ≤ ctx.width ∧
        (ctx.announce g r).encInitParams.encodeHeight ≤ ctx.height ∧
        (ctx.announce g r).encNeedsReconfigure = true) := by
  cases r with
  | none => exact .inl ⟨rfl, rfl⟩
  | some r =>
    obtain ⟨_, _, _, _, _, he⟩ := nvencSetVisibleRect_eq ctx r.x r.y r.width r.height
    unfold EncodeContext.announce
    dsimp only
    by_cases hreq : VisibleRequest g (ctx.nvencSetVisibleRect r.x r.y r.width r.height)
    · have hle := visible_le hreq.valid hreq.origin.1 hreq.origin.2
      rw [useVisible_of_request hreq]
      exact .inr ⟨hle.1, hle.2, rfl⟩
    · rw [useVisible_of_not_request hreq, he]
      exact .inl ⟨rfl, rfl⟩

theorem Followed.announce (h : Followed ctx) (g : Bool) (r : Option VisibleRect) :
    Followed (ctx.announce g r) := by
  obtain ⟨-, hw, hh⟩ := ctx.announce_frame g r
  obtain ⟨hp, hn⟩ | ⟨hew, heh, hn⟩ := announce_cases ctx g r
  · exact ⟨by rw [hp, hw]; exact h.width_le, by rw [hp, hh]; exact h.height_le,
      by rw [hp, hw, hh, hn]; exact h.clean⟩
  · exact ⟨by rwa [hw], by rwa [hh], fun hc => by simp [hn] at hc⟩

/-- A reconfiguration that is accepted makes the context follow the encoder's size. -/
theorem Followed.reconfigure_eq (h : Followed ctx) (ha : o.available) (hacc : o.accepted) :
    (ctx.nvencReconfigureIfNeeded o).width = ctx.encInitParams.encodeWidth ∧
      (ctx.nvencReconfigureIfNeeded o).height = ctx.encInitParams.encodeHeight := by
  unfold EncodeContext.nvencReconfigureIfNeeded
  split_ifs with hn hav hb hrej
  · have hc := h.clean (by simpa using hn)
    exact ⟨hc.1.symm, hc.2.symm⟩
  · simp [ha] at hav
  · have hc := hb.1
    simp only [EncodeContext.ResolutionChange, not_or, not_not] at hc
    exact ⟨hc.1.symm, hc.2.1.symm⟩
  · simp [hacc] at hrej
  · exact ⟨rfl, rfl⟩

theorem reconfigure_encInitParams (ctx : EncodeContext) (o : EncodeOutcome) :
    (ctx.nvencReconfigureIfNeeded o).encInitParams = ctx.encInitParams := by
  unfold EncodeContext.nvencReconfigureIfNeeded
  split_ifs <;> rfl

theorem Followed.reconfigure (h : Followed ctx) (ha : o.available) (hacc : o.accepted) :
    Followed (ctx.nvencReconfigureIfNeeded o) := by
  obtain ⟨hw, hh⟩ := h.reconfigure_eq ha hacc
  have hp := reconfigure_encInitParams ctx o
  refine ⟨?_, ?_, fun _ => ⟨?_, ?_⟩⟩ <;> rw [hp]
  · rw [hw]
    exact UInt32.le_refl _
  · rw [hh]
    exact UInt32.le_refl _
  · exact hw.symm
  · exact hh.symm

theorem Followed.resize (h : Followed ctx) (o : EncodeOutcome) (r : SourceRegion) :
    Followed (ctx.resizeIfRejected o r) := by
  unfold EncodeContext.resizeIfRejected
  split
  · exact ⟨UInt32.le_refl _, UInt32.le_refl _, fun _ => ⟨rfl, rfl⟩⟩
  · exact h

/-! ### A header that announces a size -/

theorem evenDown_even {n : UInt32} (h : n % 2 = 0) : evenDown n = n := by
  rw [← UInt32.toNat_inj, toNat_evenDown]
  have hn : n.toNat % 2 = 0 := UInt32.toNat_inj.mpr h
  omega

theorem clip_zero_of_le {copy limit : UInt32} (h : copy ≤ limit) : clip 0 copy limit = copy := by
  unfold clip
  rw [UInt32.zero_add]
  exact if_neg (UInt32.not_lt.mpr h)

/-- The size is empty, or the context has it already: the header requests nothing. -/
def NoRequest (ctx : EncodeContext) (w h : UInt32) : Prop :=
  w = 0 ∨ h = 0 ∨ w = ctx.width ∧ h = ctx.height

theorem nvencSetVisibleRect_of_le {w h : UInt32} (hw : w % 2 = 0) (hh : h % 2 = 0) (hw0 : w ≠ 0)
    (hh0 : h ≠ 0) (hle : w ≤ ctx.width ∧ h ≤ ctx.height) : ctx.nvencSetVisibleRect 0 0 w h =
      { ctx with
        encVisibleX := 0
        encVisibleY := 0
        encVisibleWidth := w
        encVisibleHeight := h
        encVisibleValid := true } := by
  have h0 : evenDown 0 = 0 := rfl
  have hpos {n limit : UInt32} (hn : n ≠ 0) (h : n ≤ limit) : ¬0 ≥ limit := by
    intro hz
    have hle := UInt32.le_iff_toNat_le.mp (UInt32.le_trans h hz)
    exact hn (UInt32.toNat_inj.mp (Nat.le_zero.mp hle))
  unfold EncodeContext.nvencSetVisibleRect
  simp only [h0, evenDown_even hw, evenDown_even hh, clip_zero_of_le hle.1, clip_zero_of_le hle.2]
  rw [if_neg (not_or.mpr ⟨hw0, hh0⟩), if_neg (not_or.mpr ⟨hpos hw0 hle.1, hpos hh0 hle.2⟩),
    if_neg (not_or.mpr ⟨hw0, hh0⟩)]

theorem announce_noRequest {g : Bool} {w h : UInt32} (hw : w % 2 = 0) (hh : h % 2 = 0)
    (hn : NoRequest ctx w h) :
    (ctx.announce g (some ⟨0, 0, w, h⟩)).encInitParams = ctx.encInitParams := by
  unfold EncodeContext.announce
  dsimp only
  by_cases h0 : w = 0 ∨ h = 0
  · have hset : ctx.nvencSetVisibleRect 0 0 w h = { ctx with encVisibleValid := false } := by
      unfold EncodeContext.nvencSetVisibleRect
      dsimp only
      rw [evenDown_even hw, evenDown_even hh, if_pos h0]
    rw [hset, useVisible_of_not_request fun hreq => Bool.false_ne_true hreq.valid]
  · obtain ⟨rfl, rfl⟩ : w = ctx.width ∧ h = ctx.height := by
      unfold NoRequest at hn
      tauto
    rw [not_or] at h0
    rw [nvencSetVisibleRect_of_le hw hh h0.1 h0.2 ⟨UInt32.le_refl _, UInt32.le_refl _⟩,
      useVisible_of_not_request fun hreq => hreq.new ⟨rfl, rfl⟩]

theorem announce_of_le {w h : UInt32} (hw : w % 2 = 0) (hh : h % 2 = 0) (hn : ¬NoRequest ctx w h)
    (hle : w ≤ ctx.width ∧ h ≤ ctx.height)
    (hmax : w ≤ ctx.encInitParams.maxEncodeWidth ∧ h ≤ ctx.encInitParams.maxEncodeHeight) :
    (ctx.announce true (some ⟨0, 0, w, h⟩)).encInitParams.encodeWidth = w ∧
      (ctx.announce true (some ⟨0, 0, w, h⟩)).encInitParams.encodeHeight = h := by
  simp only [NoRequest, not_or] at hn
  unfold EncodeContext.announce
  dsimp only
  rw [nvencSetVisibleRect_of_le hw hh hn.1 hn.2.1 hle,
    useVisible_of_request ⟨rfl, rfl, ⟨hn.1, hn.2.1⟩, ⟨rfl, rfl⟩, hn.2.2, hmax⟩]
  exact ⟨rfl, rfl⟩

/-- The encoder's size after a header that announces `w` times `h`. -/
theorem Followed.announced_iff (hf : Followed ctx) {w h : UInt32} (hw : w % 2 = 0) (hh : h % 2 = 0)
    (hmax : w ≤ ctx.encInitParams.maxEncodeWidth ∧ h ≤ ctx.encInitParams.maxEncodeHeight) :
    ((ctx.announce true (some ⟨0, 0, w, h⟩)).encInitParams.encodeWidth = w ∧
        (ctx.announce true (some ⟨0, 0, w, h⟩)).encInitParams.encodeHeight = h) ↔
      w ≤ ctx.width ∧ h ≤ ctx.height ∧
        (NoRequest ctx w h → ctx.encInitParams.encodeWidth = w ∧
          ctx.encInitParams.encodeHeight = h) := by
  constructor
  · rintro ⟨hew, heh⟩
    have ha := hf.announce true (some ⟨0, 0, w, h⟩)
    obtain ⟨-, haw, hah⟩ := ctx.announce_frame true (some ⟨0, 0, w, h⟩)
    have hwle := ha.width_le
    have hhle := ha.height_le
    rw [hew, haw] at hwle
    rw [heh, hah] at hhle
    refine ⟨hwle, hhle, fun hn => ?_⟩
    rw [announce_noRequest hw hh hn] at hew heh
    exact ⟨hew, heh⟩
  · rintro ⟨hwle, hhle, hreq⟩
    by_cases hn : NoRequest ctx w h
    · rw [announce_noRequest hw hh hn]
      exact hreq hn
    · exact announce_of_le hw hh hn ⟨hwle, hhle⟩ hmax

end Followed

/-- The call is made between a header and the end of its picture, and announces no other size. -/
def SessionCall.NoHeader (encIsHevc : Bool) : SessionCall → Prop
  | .beginPicture _ => True
  | .renderPicture buffers => ∀ buf ∈ buffers, buf.rect encIsHevc = none
  | .endPicture _ _ => False

namespace EncodeSession

variable {g : EncodeSettings} {s s' : EncodeSession}

theorem followed_create {a : SessionArgs} (h : nvCreateContext g a = some s) :
    Followed s.toEncodeContext := by
  unfold nvCreateContext at h
  split at h
  · cases h
  · obtain rfl := Option.some.inj h
    exact ⟨UInt32.le_refl _, UInt32.le_refl _, fun _ => ⟨rfl, rfl⟩⟩

theorem followed_renderPicture (h : Followed s.toEncodeContext) (buffers : List EncodeBuffer) :
    Followed (s.nvRenderPicture g buffers).toEncodeContext := by
  unfold nvRenderPicture
  induction buffers generalizing s with
  | nil => exact h
  | cons buf buffers ih => exact ih ((h.announce _ _).marked (renderBuffer_context buf))

theorem followed_step {call : SessionCall} (hg : g.reconfigureAvailable)
    (h : Followed s.toEncodeContext) (hc : call.Accepted) (hs : sessionStep g s call = some s') :
    Followed s'.toEncodeContext := by
  cases call with
  | beginPicture surface =>
    obtain rfl := Option.some.inj hs
    exact ⟨h.width_le, h.height_le, h.clean⟩
  | renderPicture buffers =>
    obtain rfl := Option.some.inj hs
    exact followed_renderPicture h buffers
  | endPicture t r =>
    obtain ⟨⟨status, s₁⟩, he, rfl⟩ := Option.map_eq_some_iff.mp hs
    obtain hctx | ⟨sf, hctx⟩ := (endPicture_context hc.1.2 hc.2.2).eval he
    · rwa [hctx]
    · rw [hctx]
      exact (h.reconfigure hg (decide_eq_true hc.1.1)).resize _ _

/-- Buffers that announce nothing. -/
theorem configured_renderPicture {buffers : List EncodeBuffer}
    (h : ∀ buf ∈ buffers, buf.rect s.encIsHevc = none) :
    Configured s (s.nvRenderPicture g buffers) := by
  unfold nvRenderPicture
  induction buffers generalizing s with
  | nil => exact .refl _
  | cons buf buffers ih =>
    rw [List.forall_mem_cons] at h
    have hbuf : Configured s (s.renderBuffer g buf) := by
      have hc := renderBuffer_configured (g := g) (s := s) buf
      rwa [h.1] at hc
    have hcodec : (s.renderBuffer g buf).encIsHevc = s.encIsHevc := by
      obtain ⟨_, _, he⟩ := hbuf.marked
      exact (congrArg EncodeContext.encIsHevc he).trans rfl
    refine hbuf.trans (ih ?_)
    rw [hcodec]
    exact h.2

/-- The encoder has the size `w` times `h`, or will have it with the next reconfiguration. -/
structure Announced (encIsHevc : Bool) (w h : UInt32) (ctx : EncodeContext) : Prop where
  codec : ctx.encIsHevc = encIsHevc
  followed : Followed ctx
  size : ctx.encInitParams.encodeWidth = w ∧ ctx.encInitParams.encodeHeight = h

theorem Announced.marked {encIsHevc : Bool} {w h : UInt32} {ctx ctx' : EncodeContext}
    (ha : Announced encIsHevc w h ctx) (hm : Marked ctx ctx') : Announced encIsHevc w h ctx' := by
  refine ⟨?_, ha.followed.marked hm, ?_⟩ <;> obtain ⟨changed, coded, rfl⟩ := hm
  · exact ha.codec
  · exact ha.size

theorem announced_step {encIsHevc : Bool} {w h : UInt32} {call : SessionCall}
    (ha : Announced encIsHevc w h s.toEncodeContext) (hc : call.NoHeader encIsHevc)
    (hs : sessionStep g s call = some s') : Announced encIsHevc w h s'.toEncodeContext := by
  cases call with
  | beginPicture surface =>
    obtain rfl := Option.some.inj hs
    exact ⟨ha.codec, ⟨ha.followed.width_le, ha.followed.height_le, ha.followed.clean⟩, ha.size⟩
  | renderPicture buffers =>
    obtain rfl := Option.some.inj hs
    have hquiet : ∀ buf ∈ buffers, buf.rect s.encIsHevc = none := by
      rw [ha.codec]
      exact hc
    exact ha.marked (configured_renderPicture hquiet).marked
  | endPicture t r => exact hc.elim

end EncodeSession

/-- Where every reconfiguration is accepted, take any state and a header that announces the even
size `w` times `h` from the origin, within the encoder's maximum. The picture that it belongs to is
encoded with this size exactly when the size is within the one that the context has at the header,
and, if the header requests nothing, the encoder has the size already. -/
theorem followed_iff {g : EncodeSettings} {s s' : EncodeSession} {buf : EncodeBuffer}
    {buffers : List EncodeBuffer} {calls : List SessionCall} {w h : UInt32} {r : NvencReplies}
    (hv : g.g_encVisibleReconfigure) (hg : g.reconfigureAvailable)
    (hs : (encodeSession g).ReachWhen (fun _ call => call.Accepted) s)
    (hb : buf.rect s.encIsHevc = some ⟨0, 0, w, h⟩) (hw : w % 2 = 0) (hh : h % 2 = 0)
    (hmax : w ≤ s.encInitParams.maxEncodeWidth ∧ h ≤ s.encInitParams.maxEncodeHeight)
    (hquiet : ∀ call ∈ SessionCall.renderPicture buffers :: calls, call.NoHeader s.encIsHevc)
    (hr : (encodeSession g).run s (.renderPicture (buf :: buffers) :: calls) = some s')
    (hacc : r.reconfigure.Accepted) :
    ((s'.nvencReconfigureIfNeeded g r.now r.reconfigure).width = w ∧
        (s'.nvencReconfigureIfNeeded g r.now r.reconfigure).height = h) ↔
      w ≤ s.width ∧ h ≤ s.height ∧ (NoRequest s.toEncodeContext w h →
        s.encInitParams.encodeWidth = w ∧ s.encInitParams.encodeHeight = h) := by
  have hf : Followed s.toEncodeContext := by
    refine hs.invariant (I := fun s => Followed s.toEncodeContext) ?_ fun _ _ _ hi hc hst =>
      EncodeSession.followed_step hg hi hc hst
    rintro s₀ ⟨a, ha⟩
    exact EncodeSession.followed_create ha
  -- the header
  have hbuf := EncodeSession.renderBuffer_context (g := g) (s := s) buf
  rw [hb, hv] at hbuf
  set ctx := s.toEncodeContext.announce true (some ⟨0, 0, w, h⟩) with hctx
  have hcodec : ctx.encIsHevc = s.encIsHevc := (s.announce_frame true _).1
  have ha : EncodeSession.Announced s.encIsHevc ctx.encInitParams.encodeWidth
      ctx.encInitParams.encodeHeight (s.renderBuffer g buf).toEncodeContext :=
    EncodeSession.Announced.marked ⟨hcodec, hf.announce _ _, rfl, rfl⟩ hbuf
  -- the calls up to the end of the picture
  have hr :
      (encodeSession g).run (s.renderBuffer g buf) (.renderPicture buffers :: calls) = some s' := hr
  have hm :=
    Lts.meets_true (M := encodeSession g) (s.renderBuffer g buf) (.renderPicture buffers :: calls)
  have ha' : EncodeSession.Announced s.encIsHevc ctx.encInitParams.encodeWidth
      ctx.encInitParams.encodeHeight s'.toEncodeContext :=
    Lts.run_invariant (I := fun s₁ => EncodeSession.Announced s.encIsHevc
        ctx.encInitParams.encodeWidth ctx.encInitParams.encodeHeight s₁.toEncodeContext)
      (fun call hc _ _ hi _ hst => EncodeSession.announced_step hi (hquiet call hc) hst) ha hm hr
  have hend := ha'.followed.reconfigure_eq (o := s'.outcome g ⟨none, false, false⟩ r) hg
    (decide_eq_true hacc.1)
  rw [← EncodeSession.reconfigure_context hacc.2, ha'.size.1, ha'.size.2] at hend
  rw [hend.1, hend.2]
  exact hf.announced_iff hw hh hmax

/-! A context of 64 times 64, whose headers announce other sizes. -/

def visibleSettings : EncodeSettings := { plainSettings with g_encVisibleReconfigure := true }

/-- A sequence header for a picture of `mbs` times `mbs` macroblocks. -/
def headerBuffer (mbs : UInt16) : EncodeBuffer :=
  .sequenceParameter (some ⟨⟨mbs, mbs, 1, true, false, 0, 0, 0, 0⟩, 0, 0, 0, false, 0, 0⟩) none

/-- The calls of a picture with such a header, up to its end. -/
def headerCalls (mbs : UInt16) : List SessionCall :=
  [.beginPicture 1, .renderPicture [headerBuffer mbs, .coded]]

def headerPicture (mbs : UInt16) : List SessionCall :=
  headerCalls mbs ++
    [.endPicture ⟨some (.created 64 64), true, true⟩ (repliesAt 1000000000 .success)]

/-- A smaller size is followed. -/
theorem followed_iff_smaller : ∃ s : EncodeSession, s.width = 64 ∧
    ((s.nvRenderPicture visibleSettings [headerBuffer 2, .coded]).nvencReconfigureIfNeeded
      visibleSettings
      1000000000 ⟨.success, none, 1000000000⟩).width = 32 := by
  obtain ⟨s, hi, hsize⟩ : ∃ s, EncodeSession.nvCreateContext visibleSettings plainArgs = some s ∧
      s.width = 64 ∧ s.height = 64 ∧ s.encIsHevc = false ∧ s.encInitParams.maxEncodeWidth = 64 ∧
      s.encInitParams.maxEncodeHeight = 64 :=
    ⟨_, rfl, by decide⟩
  obtain ⟨hw, hh, hcodec, hmw, hmh⟩ := hsize
  have hquiet : ∀ call ∈ [SessionCall.renderPicture [.coded]], call.NoHeader s.encIsHevc := by
    intro call hc
    obtain rfl := List.mem_singleton.mp hc
    intro buf hb
    obtain rfl := List.mem_singleton.mp hb
    rfl
  have hb : (headerBuffer 2).rect s.encIsHevc = some ⟨0, 0, 32, 32⟩ := by
    rw [hcodec]
    decide
  have hr : (encodeSession visibleSettings).run s [.renderPicture [headerBuffer 2, .coded]] =
      some (s.nvRenderPicture visibleSettings [headerBuffer 2, .coded]) := rfl
  have hacc : (repliesAt 1000000000 .success).reconfigure.Accepted := by decide
  have hf := followed_iff rfl rfl (.init ⟨_, hi⟩) hb (by decide) (by decide)
    (by rw [hmw, hmh]; decide) hquiet hr hacc
  refine ⟨s, hw, (hf.mpr ⟨by rw [hw]; decide, by rw [hh]; decide, fun hn => ?_⟩).1⟩
  rw [NoRequest, hw, hh] at hn
  exact absurd hn (by decide)

/-- A header announces 32 times 32 for a picture and the next header the whole size again: the next
picture still has 32 times 32. -/
theorem grow_not_followed : ∃ s₀ s : EncodeSession,
    EncodeSession.nvCreateContext visibleSettings plainArgs = some s₀ ∧
    (encodeSession visibleSettings).Meets (fun _ call => call.Accepted) s₀ (headerPicture 2) ∧
    (encodeSession visibleSettings).run s₀ (headerPicture 2 ++ headerCalls 4) = some s ∧
    (headerBuffer 4).rect s.encIsHevc = some ⟨0, 0, 64, 64⟩ ∧
    s.encInitParams.maxEncodeWidth = 64 ∧ s.encInitParams.maxEncodeHeight = 64 ∧
    (s.nvencReconfigureIfNeeded visibleSettings 2000000000 ⟨.success, none, 2000000000⟩).width =
      32 :=
  ⟨_, _, rfl, by decide, rfl, by decide, by decide, by decide, by decide⟩

end NvVaapi
