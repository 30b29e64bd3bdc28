import NvVaapi.Encode.State

/-!
# The copies of a whole run

* `SizesOk`: the size of a context is positive and at most the size of its input buffers. Every call
  keeps it (`sizesOk_step`).
* `CopyFits`: the copy of a call meets `Fits`.
* `copies_inside_iff`: in a run, all copies read inside their host buffers exactly when each of them
  meets `Fits`.
-/

namespace NvVaapi

/-! ## The sizes of a context -/

/-- In one direction: the size, the size in `encInitParams` and its maximum are bounded by the size
of the input buffers. -/
structure SizeOk (size encode maxEncode input : UInt32) : Prop where
  pos : 0 < size.toNat
  le : size.toNat ≤ input.toNat
  encode_pos : 0 < encode.toNat
  encode_le : encode.toNat ≤ input.toNat
  max_le : maxEncode.toNat ≤ input.toNat

structure SizesOk (ctx : EncodeContext) : Prop where
  width :
    SizeOk ctx.width ctx.encInitParams.encodeWidth ctx.encInitParams.maxEncodeWidth ctx.inputWidth
  height : SizeOk ctx.height ctx.encInitParams.encodeHeight ctx.encInitParams.maxEncodeHeight
    ctx.inputHeight

theorem sizeOk_self {n : UInt32} (h : 0 < n.toNat) : SizeOk n n n n :=
  ⟨h, Nat.le_refl _, h, Nat.le_refl _, Nat.le_refl _⟩

section Contexts

variable {ctx : EncodeContext}

/-- `nvencSetVisibleRect` changes the visible rectangle only. -/
theorem nvencSetVisibleRect_eq (ctx : EncodeContext) (x y w h : UInt32) :
    ∃ x' y' w' h' v, ctx.nvencSetVisibleRect x y w h = { ctx with
      encVisibleX := x'
      encVisibleY := y'
      encVisibleWidth := w'
      encVisibleHeight := h'
      encVisibleValid := v } := by
  unfold EncodeContext.nvencSetVisibleRect
  split
  · exact ⟨_, _, _, _, _, rfl⟩
  · split
    · exact ⟨_, _, _, _, _, rfl⟩
    · dsimp only
      split
      · exact ⟨_, _, _, _, _, rfl⟩
      · exact ⟨_, _, _, _, _, rfl⟩

/-- The visible rectangle is used as the size of the encoder. -/
structure VisibleRequest (g_encVisibleReconfigure : Bool) (ctx : EncodeContext) : Prop where
  enabled : g_encVisibleReconfigure = true
  valid : ctx.encVisibleValid = true
  pos : ctx.encVisibleWidth ≠ 0 ∧ ctx.encVisibleHeight ≠ 0
  origin : ctx.encVisibleX = 0 ∧ ctx.encVisibleY = 0
  new : ¬(ctx.encVisibleWidth = ctx.width ∧ ctx.encVisibleHeight = ctx.height)
  le : ctx.encVisibleWidth ≤ ctx.encInitParams.maxEncodeWidth ∧
    ctx.encVisibleHeight ≤ ctx.encInitParams.maxEncodeHeight

theorem useVisible_of_request {g : Bool} (h : VisibleRequest g ctx) : ctx.useVisible g =
    { ctx with
      encInitParams := { ctx.encInitParams with
        encodeWidth := ctx.encVisibleWidth
        encodeHeight := ctx.encVisibleHeight
        darWidth := ctx.encVisibleWidth
        darHeight := ctx.encVisibleHeight }
      encNeedsReconfigure := true } := by
  unfold EncodeContext.useVisible EncodeContext.nvencMaybeUseVisibleResolution
  dsimp only
  rw [if_pos h.valid, if_neg (by simp [h.enabled]), if_neg (by simp [h.valid]),
    if_neg (not_or.mpr h.pos), if_neg (by simp [h.origin]), if_neg h.new,
    if_neg (by simp [UInt32.not_lt, h.le])]

theorem useVisible_of_not_request {g : Bool} (h : ¬VisibleRequest g ctx) :
    ctx.useVisible g = ctx := by
  unfold EncodeContext.useVisible EncodeContext.nvencMaybeUseVisibleResolution
  dsimp only
  split_ifs with h₁ h₂ h₃ h₄ h₅ h₆ h₇
  iterate 6 rfl
  · simp only [not_or, gt_iff_lt, UInt32.not_lt, Bool.not_eq_eq_eq_not, Bool.not_true,
      Bool.not_eq_false, not_not] at h₂ h₄ h₅ h₇
    exact absurd ⟨h₂, h₁, h₄, h₅, h₆, h₇⟩ h
  · rfl

theorem sizesOk_setVisibleRect (h : SizesOk ctx) (x y w hh : UInt32) :
    SizesOk (ctx.nvencSetVisibleRect x y w hh) := by
  obtain ⟨_, _, _, _, _, he⟩ := nvencSetVisibleRect_eq ctx x y w hh
  rw [he]
  exact ⟨h.width, h.height⟩

theorem sizesOk_useVisible {g : Bool} (h : SizesOk ctx) : SizesOk (ctx.useVisible g) := by
  by_cases hreq : VisibleRequest g ctx
  · have hpos := hreq.pos
    have hle := hreq.le
    simp only [ne_eq, ← UInt32.toNat_inj, UInt32.toNat_zero, UInt32.le_iff_toNat_le] at hpos hle
    have hw := h.width.max_le
    have hh := h.height.max_le
    rw [useVisible_of_request hreq]
    exact ⟨
      { h.width with encode_pos := Nat.pos_of_ne_zero hpos.1, encode_le := Nat.le_trans hle.1 hw },
      { h.height with encode_pos := Nat.pos_of_ne_zero hpos.2, encode_le := Nat.le_trans hle.2 hh }⟩
  · rwa [useVisible_of_not_request hreq]

theorem sizesOk_reconfigure (h : SizesOk ctx) (o : EncodeOutcome) :
    SizesOk (ctx.nvencReconfigureIfNeeded o) := by
  unfold EncodeContext.nvencReconfigureIfNeeded
  split_ifs
  · exact h
  · exact ⟨h.width, h.height⟩
  · exact h
  · exact ⟨h.width, h.height⟩
  · exact ⟨{ h.width with pos := h.width.encode_pos, le := h.width.encode_le },
      { h.height with pos := h.height.encode_pos, le := h.height.encode_le }⟩

/-- A size in `encInitParams` after it was set to the size of a copy. -/
theorem sizeOk_resize {size encode maxEncode input n : UInt32}
    (h : SizeOk size encode maxEncode input) (hpos : 0 < n.toNat) (hle : n.toNat ≤ size.toNat) :
    SizeOk n n (if maxEncode < n then n else maxEncode) input := by
  have hn := Nat.le_trans hle h.le
  refine ⟨hpos, hn, hpos, hn, ?_⟩
  split
  · exact hn
  · exact h.max_le

theorem sizesOk_resize {o : EncodeOutcome} {r : SourceRegion} (h : SizesOk ctx)
    (hle : r.copyWidth.toNat ≤ ctx.width.toNat ∧ r.copyHeight.toNat ≤ ctx.height.toNat)
    (hpos : o.resized → r.copyWidth ≠ 0 ∧ r.copyHeight ≠ 0) :
    SizesOk (ctx.resizeIfRejected o r) := by
  unfold EncodeContext.resizeIfRejected
  split
  · next hc =>
    have hp := hpos hc.2.2.2
    simp only [ne_eq, ← UInt32.toNat_inj, UInt32.toNat_zero] at hp
    exact ⟨sizeOk_resize h.width (Nat.pos_of_ne_zero hp.1) hle.1,
      sizeOk_resize h.height (Nat.pos_of_ne_zero hp.2) hle.2⟩
  · exact h

end Contexts

/-! ## What one call does -/

/-- Every byte that the copy reads is inside the host buffer. -/
def HostCopy.Inside (cp : HostCopy) : Prop :=
  ∀ r ∈ hostReads cp.ctx cp.surface cp.dstPitch, r.Inside cp.surface

/-- The copy that an `nvEndPicture` makes, if it gets to one. -/
def EncodeWorld.copyOf (w : EncodeWorld) (c : Nat) (o : EncodeOutcome) : Option HostCopy :=
  (w.endTarget c o).bind fun t => o.locked.map fun dstPitch =>
    ⟨t.1.nvencReconfigureIfNeeded o, t.2, dstPitch⟩

/-- The copies that the call makes: one or none. -/
def EncodeWorld.copiesOf (w : EncodeWorld) : EncodeCall → List HostCopy
  | .endPicture c o => (w.copyOf c o).toList
  | _ => []

/-- The sizes of the copy that the call makes are those of `Fits`. -/
def CopyFits (w : EncodeWorld) (call : EncodeCall) : Prop :=
  ∀ cp ∈ w.copiesOf call, Fits cp.ctx cp.surface

instance (w : EncodeWorld) (call : EncodeCall) : Decidable (CopyFits w call) :=
  inferInstanceAs (Decidable (∀ cp ∈ w.copiesOf call, _))

/-- What NVENC does: a locked input buffer has a pitch of at least the width that it was created
with, and an encoder is not reconfigured to an empty picture. -/
def NvencOk (w : EncodeWorld) : EncodeCall → Prop
  | .endPicture c o => ∀ cp ∈ w.copyOf c o, cp.ctx.inputWidth.toNat ≤ cp.dstPitch ∧
      (o.resized → (selectRegion cp.ctx cp.surface).copyWidth ≠ 0 ∧
        (selectRegion cp.ctx cp.surface).copyHeight ≠ 0)
  | _ => True

instance (w : EncodeWorld) (call : EncodeCall) : Decidable (NvencOk w call) :=
  match call with
  | .endPicture c o => inferInstanceAs (Decidable (∀ cp ∈ w.copyOf c o, _ ∧ _))
  | .createSurface .. | .destroySurface .. | .putImage .. | .unmapImage .. | .createContext ..
  | .destroyContext .. | .beginPicture .. | .renderCodedBuffer .. | .renderSequenceH264 ..
  | .renderSequenceHevc .. | .renderMisc .. => .isTrue trivial

namespace EncodeWorld

variable {w w' : EncodeWorld} {g : Bool} {c : Nat} {o : EncodeOutcome}

theorem endTarget_context {ctx : EncodeContext} {sf : EncodeSurface}
    (h : w.endTarget c o = some (ctx, sf)) : w.contexts c = some ctx := by
  simp only [endTarget, Option.bind_eq_bind, Option.bind_eq_some_iff] at h
  obtain ⟨ctx', hc, _, _, _, _, _, _, _, _, h⟩ := h
  cases h
  exact hc

/-- `nvEndPicture` gives up at its checks, or without an input buffer, or it makes a copy. -/
theorem nvEndPicture_cases (w : EncodeWorld) (c : Nat) (o : EncodeOutcome) :
    (w.copyOf c o = none ∧ w.nvEndPicture c o = w) ∨
      ∃ ctx sf, w.contexts c = some ctx ∧
        ((w.copyOf c o = none ∧
            w.nvEndPicture c o = w.setContext c (ctx.nvencReconfigureIfNeeded o)) ∨
          ∃ dstPitch, w.copyOf c o = some ⟨ctx.nvencReconfigureIfNeeded o, sf, dstPitch⟩ ∧
            w.nvEndPicture c o =
              { w.setContext c ((ctx.nvencReconfigureIfNeeded o).resizeIfRejected o
                (selectRegion (ctx.nvencReconfigureIfNeeded o) sf)) with
                copies := w.copies ++ [⟨ctx.nvencReconfigureIfNeeded o, sf, dstPitch⟩] }) := by
  unfold nvEndPicture copyOf
  cases ht : w.endTarget c o with
  | none => exact .inl ⟨rfl, rfl⟩
  | some t =>
    obtain ⟨ctx, sf⟩ := t
    refine .inr ⟨ctx, sf, endTarget_context ht, ?_⟩
    cases o.locked with
    | none => exact .inl ⟨rfl, rfl⟩
    | some dstPitch => exact .inr ⟨dstPitch, rfl, rfl⟩

@[simp] theorem updateContext_copies (c : Nat) (f : EncodeContext → EncodeContext) :
    (w.updateContext c f).copies = w.copies := by
  unfold updateContext
  cases w.contexts c <;> rfl

@[simp] theorem updateSurface_copies (s : Nat) (f : EncodeSurface → EncodeSurface) :
    (w.updateSurface s f).copies = w.copies := by
  unfold updateSurface
  cases w.surfaces s <;> rfl

theorem encodeStep_copies {call : EncodeCall} (hs : encodeStep g w call = some w') :
    w'.copies = w.copies ++ w.copiesOf call := by
  cases call with
  | endPicture c o =>
    cases hs
    change (w.nvEndPicture c o).copies = w.copies ++ (w.copyOf c o).toList
    rcases nvEndPicture_cases w c o with ⟨hn, he⟩ | ⟨ctx, sf, -, ⟨hn, he⟩ | ⟨p, hn, he⟩⟩ <;>
      rw [he, hn]
    · exact (List.append_nil _).symm
    · exact (List.append_nil _).symm
    · rfl
  | createSurface s chromaFormat width height =>
    simp only [encodeStep] at hs
    split at hs <;> cases hs
    exact (List.append_nil _).symm
  | createContext c pictureWidth pictureHeight isHevc =>
    simp only [encodeStep] at hs
    split at hs <;> cases hs
    unfold nvCreateContext
    split <;> exact (List.append_nil _).symm
  | beginPicture c s =>
    cases hs
    unfold nvBeginPicture
    split
    · exact (updateSurface_copies _ _).trans (List.append_nil _).symm
    · exact (List.append_nil _).symm
  | destroySurface s | destroyContext c =>
    cases hs
    exact (List.append_nil _).symm
  | putImage s p | unmapImage s =>
    cases hs
    exact (updateSurface_copies _ _).trans (List.append_nil _).symm
  | renderCodedBuffer c
  | renderSequenceH264 c seq changed
  | renderSequenceHevc c pw ph changed
  | renderMisc c =>
    cases hs
    exact (updateContext_copies _ _).trans (List.append_nil _).symm

/-- Every context has sizes that fit its input buffers. -/
def SizesKept (w : EncodeWorld) : Prop := ∀ c, ∀ ctx ∈ w.contexts c, SizesOk ctx

theorem sizesKept_empty : SizesKept .empty := by
  intro c ctx h
  cases h

theorem SizesKept.setContext {ctx : EncodeContext} (h : w.SizesKept) (hc : SizesOk ctx) (c : Nat) :
    (w.setContext c ctx).SizesKept := by
  intro c' ctx' hctx
  by_cases he : c' = c
  · subst he
    obtain rfl : ctx = ctx' := by simpa [EncodeWorld.setContext] using hctx
    exact hc
  · exact h c' ctx' (by simpa [EncodeWorld.setContext, he] using hctx)

theorem SizesKept.updateContext {f : EncodeContext → EncodeContext} (h : w.SizesKept) (c : Nat)
    (hf : ∀ ctx, SizesOk ctx → SizesOk (f ctx)) : (w.updateContext c f).SizesKept := by
  unfold EncodeWorld.updateContext
  cases hc : w.contexts c with
  | none => exact h
  | some ctx => exact h.setContext (hf ctx (h c ctx hc)) c

theorem SizesKept.updateSurface (h : w.SizesKept) (s : Nat) (f : EncodeSurface → EncodeSurface) :
    (w.updateSurface s f).SizesKept := by
  unfold EncodeWorld.updateSurface
  cases w.surfaces s <;> exact h

theorem SizesKept.endPicture (h : w.SizesKept) (hn : NvencOk w (.endPicture c o)) :
    (w.nvEndPicture c o).SizesKept := by
  rcases nvEndPicture_cases w c o with ⟨-, he⟩ | ⟨ctx, sf, hc, ⟨-, he⟩ | ⟨p, hcp, he⟩⟩
  · rw [he]
    exact h
  · rw [he]
    exact h.setContext (sizesOk_reconfigure (h c ctx hc) o) c
  · have hrec := sizesOk_reconfigure (h c ctx hc) o
    have hres := sizesOk_resize hrec (selectRegion_le _ sf) (hn _ hcp).2
    rw [he]
    exact (h.setContext hres c : (w.setContext c _).SizesKept)

theorem SizesKept.createContext (h : w.SizesKept) (pictureWidth pictureHeight : Int32)
    (isHevc : Bool) : (w.nvCreateContext c pictureWidth pictureHeight isHevc).SizesKept := by
  have hpos {n : Int32} (hn : ¬n ≤ 0) : 0 < n.toUInt32.toNat := by
    refine Nat.pos_of_ne_zero fun h0 => hn ?_
    have hz : n.toUInt32 = 0 := UInt32.toNat_inj.mp h0
    rw [← Int32.toInt32_toUInt32 n, hz]
    decide
  unfold nvCreateContext
  split
  · exact h
  · next hc =>
    rw [not_or] at hc
    exact h.setContext ⟨sizeOk_self (hpos hc.1), sizeOk_self (hpos hc.2)⟩ c

theorem sizesKept_step {call : EncodeCall} (h : w.SizesKept) (hn : NvencOk w call)
    (hs : encodeStep g w call = some w') : w'.SizesKept := by
  have rates {ctx : EncodeContext} (hc : SizesOk ctx) (b : Bool) : SizesOk (ctx.ratesChanged b) :=
    ⟨hc.width, hc.height⟩
  cases call with
  | endPicture c o =>
    cases hs
    exact h.endPicture hn
  | createSurface s chromaFormat width height =>
    simp only [encodeStep] at hs
    split at hs <;> cases hs
    exact h
  | createContext c pictureWidth pictureHeight isHevc =>
    simp only [encodeStep] at hs
    split at hs <;> cases hs
    exact h.createContext _ _ _
  | beginPicture c s =>
    cases hs
    unfold nvBeginPicture
    split
    · next ctx _ hc _ =>
      have hctx := h c ctx hc
      refine SizesKept.updateSurface (h.setContext ?_ c) s _
      exact ⟨hctx.width, hctx.height⟩
    · exact h
  | destroySurface s =>
    cases hs
    exact h
  | destroyContext c =>
    cases hs
    intro c' ctx hctx
    by_cases he : c' = c
    · simp [he] at hctx
    · exact h c' ctx (by simpa [he] using hctx)
  | putImage s p | unmapImage s =>
    cases hs
    exact h.updateSurface _ _
  | renderCodedBuffer c =>
    cases hs
    exact h.updateContext c fun ctx hc => ⟨hc.width, hc.height⟩
  | renderSequenceH264 c seq changed =>
    cases hs
    refine h.updateContext c fun ctx hc => ?_
    split
    · exact hc
    · exact rates (sizesOk_useVisible (sizesOk_setVisibleRect hc _ _ _ _)) _
  | renderSequenceHevc c pw ph changed =>
    cases hs
    refine h.updateContext c fun ctx hc => ?_
    split
    · refine rates ?_ _
      unfold EncodeContext.nvencUpdateVisibleRectFromHevcSeq
      split
      · exact hc
      · exact sizesOk_useVisible (sizesOk_setVisibleRect hc _ _ _ _)
    · exact hc
  | renderMisc c =>
    cases hs
    exact h.updateContext c fun ctx hc => rates hc true

theorem copiesOf_sizesOk {call : EncodeCall} {cp : HostCopy} (h : w.SizesKept) (hn : NvencOk w call)
    (hcp : cp ∈ w.copiesOf call) :
    SizesOk cp.ctx ∧ cp.ctx.inputWidth.toNat ≤ cp.dstPitch := by
  cases call with
  | endPicture c o =>
    have hcp : w.copyOf c o = some cp := Option.mem_toList.mp hcp
    refine ⟨?_, (hn cp hcp).1⟩
    rcases nvEndPicture_cases w c o with ⟨hnone, -⟩ | ⟨ctx, sf, hc, ⟨hnone, -⟩ | ⟨p, hsome, -⟩⟩
    · simp [hcp] at hnone
    · simp [hcp] at hnone
    · obtain rfl : cp = _ := Option.some_inj.mp (hcp.symm.trans hsome)
      exact sizesOk_reconfigure (h c ctx hc) o
  | _ => cases hcp

end EncodeWorld

/-! ## Every run -/

/-- In a run, all bytes that were copied from host buffers are inside them exactly when every copy
has sizes that fit. -/
theorem copies_inside_iff {g : Bool} {calls : List EncodeCall} {w : EncodeWorld}
    (hn : (encoder g).Meets NvencOk .empty calls) (hr : (encoder g).run .empty calls = some w) :
    (∀ cp ∈ w.copies, cp.Inside) ↔ (encoder g).Meets CopyFits .empty calls := by
  -- a step adds copies that are inside exactly when their sizes fit
  have hstep : ∀ w call w', w.SizesKept → NvencOk w call → (encoder g).step w call = some w' →
      ((∀ cp ∈ w'.copies, cp.Inside) ↔ (∀ cp ∈ w.copies, cp.Inside) ∧ CopyFits w call) := by
    intro w call w' hI hn hs
    rw [EncodeWorld.encodeStep_copies hs, List.forall_mem_append]
    refine and_congr_right fun _ => forall₂_congr fun cp hcp => ?_
    obtain ⟨hok, hpitch⟩ := EncodeWorld.copiesOf_sizesOk hI hn hcp
    exact hostReads_inside_iff hok.width.pos hok.height.pos (Nat.le_trans hok.width.le hpitch)
  have h : (∀ cp ∈ w.copies, cp.Inside) ↔
      (∀ cp ∈ EncodeWorld.empty.copies, cp.Inside) ∧ (encoder g).Meets CopyFits .empty calls :=
    Lts.run_iff_meets (I := EncodeWorld.SizesKept) (P := fun w => ∀ cp ∈ w.copies, cp.Inside)
      (fun w call w' hI hn hs => EncodeWorld.sizesKept_step hI hn hs) hstep
      EncodeWorld.sizesKept_empty hn hr
  exact h.trans (and_iff_right (List.forall_mem_nil _))

def encodeOk (dstPitch : Nat) : EncodeOutcome :=
  ⟨true, true, false, true, some dstPitch, false, false⟩

/-- One picture of 64 × 64 samples from a surface of the given height. -/
def onePicture (height : UInt32) : List EncodeCall :=
  [.createContext 1 64 64 true, .createSurface 2 .yuv420 64 height, .beginPicture 1 2,
    .renderSequenceHevc 1 64 64 false, .renderCodedBuffer 1, .endPicture 1 (encodeOk 64)]

theorem copies_inside_iff_one : ∃ w cp, (encoder false).run .empty (onePicture 64) = some w ∧
    w.copies = [cp] ∧ cp.Inside := by
  obtain ⟨w, cp, hr, hc⟩ : ∃ w cp, (encoder false).run .empty (onePicture 64) = some w ∧
      w.copies = [cp] := ⟨_, _, rfl, rfl⟩
  refine ⟨w, cp, hr, hc, ?_⟩
  have h := (copies_inside_iff (by decide) hr).mpr (by decide)
  rw [hc] at h
  exact h cp List.mem_cons_self

/-- A surface that is smaller than the visible rectangle is read behind its end. -/
theorem copies_not_inside :
    ¬∀ w, (encoder false).ReachWhen NvencOk w → ∀ cp ∈ w.copies, cp.Inside := by
  intro h
  obtain ⟨w, cp, hr, hc, hW, hH, hp, hfit⟩ : ∃ w cp,
      (encoder false).run .empty (onePicture 16) = some w ∧ cp ∈ w.copies ∧ 0 < cp.ctx.width.toNat ∧
        0 < cp.ctx.height.toNat ∧ cp.ctx.width.toNat ≤ cp.dstPitch ∧ ¬Fits cp.ctx cp.surface :=
    ⟨_, _, rfl, List.mem_cons_self, by decide, by decide, by decide, by decide⟩
  have hreach : (encoder false).ReachWhen NvencOk w := .run (.init rfl) (by decide) hr
  exact hfit ((hostReads_inside_iff hW hH hp).mp (h w hreach cp hc))

end NvVaapi
