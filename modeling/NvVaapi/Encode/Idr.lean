import NvVaapi.Encode.Sizes

/-!
# IDR frames after a change of the size

* `IdrFirst`: the first picture that NVENC takes after a change of the size is an IDR frame.
* `Tracked`: the context has the size that the encoder is running, and has startup IDR frames left
  as long as an IDR frame is due. Every call keeps it.
* `Submits.idr`: what the submission of a picture does to `IdrFirst`.
* `idrFirst_iff`: a run keeps `IdrFirst` exactly when every picture that is taken after its own
  resize is an IDR frame anyway.
-/

namespace NvVaapi

open Objects (NvencStatus)

/-! ## The calls of a run -/

/-- NVENC took the picture. -/
def Taken (nvs : NvencStatus) : Prop := nvs = .success ∨ nvs = .needMoreInput

instance (nvs : NvencStatus) : Decidable (Taken nvs) := inferInstanceAs (Decidable (_ ∨ _))

def EncodeParams.size (p : EncodeParams) : UInt32 × UInt32 :=
  (p.sizes.encodeWidth, p.sizes.encodeHeight)

/-- The size that the encoder is running after the calls, the latest of which comes first. -/
def runningSize (calls : List NvencCall) : Option (UInt32 × UInt32) :=
  (calls.findSome? NvencCall.accepted).map EncodeParams.size

/-- The size was changed, and no picture was taken since. -/
def IdrDue : List NvencCall → Prop
  | [] => False
  | .reconfigureEncoder p nvs :: calls =>
    IdrDue calls ∨ nvs = .success ∧ runningSize calls ≠ some p.size
  | .encodePicture _ nvs :: calls => IdrDue calls ∧ ¬Taken nvs
  | _ :: calls => IdrDue calls

instance decidableIdrDue : (calls : List NvencCall) → Decidable (IdrDue calls)
  | [] => .isFalse id
  | .reconfigureEncoder p nvs :: calls =>
    have := decidableIdrDue calls
    inferInstanceAs (Decidable (_ ∨ nvs = .success ∧ runningSize calls ≠ some p.size))
  | .encodePicture _ nvs :: calls =>
    have := decidableIdrDue calls
    inferInstanceAs (Decidable (_ ∧ ¬Taken nvs))
  | .initializeEncoder _ :: calls
  | .lockInputBuffer _ _ :: calls
  | .unlockInputBuffer _ _ :: calls
  | .lockBitstream _ _ :: calls
  | .unlockBitstream _ _ :: calls => decidableIdrDue calls

/-- The call is not a picture that was taken without `NV_ENC_PIC_FLAG_FORCEIDR`. -/
def NvencCall.Idr : NvencCall → Prop
  | encodePicture pic nvs => Taken nvs → pic.forceIdr
  | _ => True

instance (call : NvencCall) : Decidable call.Idr :=
  match call with
  | .encodePicture pic nvs => inferInstanceAs (Decidable (Taken nvs → pic.forceIdr))
  | .initializeEncoder _ | .reconfigureEncoder _ _ | .lockInputBuffer _ _ | .unlockInputBuffer _ _
  | .lockBitstream _ _ | .unlockBitstream _ _ => .isTrue trivial

/-- The first picture that is taken after a change of the size is an IDR frame. -/
def IdrFirst : List NvencCall → Prop
  | [] => True
  | call :: calls => IdrFirst calls ∧ (IdrDue calls → call.Idr)

instance decidableIdrFirst : (calls : List NvencCall) → Decidable (IdrFirst calls)
  | [] => .isTrue trivial
  | call :: calls =>
    have := decidableIdrFirst calls
    inferInstanceAs (Decidable (_ ∧ (IdrDue calls → call.Idr)))

namespace EncodeSession

variable {g : EncodeSettings} {s s' : EncodeSession} {t : EncodeTarget} {r : NvencReplies}

/-- The context has the size that the encoder is running. While an IDR frame is due, the next frame
will be one. -/
structure Tracked (s : EncodeSession) : Prop where
  running : runningSize s.calls = some (s.width, s.height)
  due : IdrDue s.calls → 0 < s.encStartupIdrLeft

/-! ### One call of NVENC -/

theorem runningSize_log {call : NvencCall} (h : call.accepted = none) :
    runningSize (s.log call).calls = runningSize s.calls := by
  unfold runningSize log
  rw [List.findSome?_cons_of_isNone (by rw [h]; rfl)]

theorem idrFirst_log {call : NvencCall} (h : call.Idr) :
    IdrFirst (s.log call).calls ↔ IdrFirst s.calls :=
  and_iff_left fun _ => h

/-- A call that does not change the size that the encoder is running. -/
theorem Tracked.log (h : Tracked s) {call : NvencCall} (ha : call.accepted = none)
    (hd : IdrDue (s.log call).calls → IdrDue s.calls) : Tracked (s.log call) :=
  ⟨(runningSize_log ha).trans h.running, fun hdue => h.due (hd hdue)⟩

theorem Tracked.encode (h : Tracked s) (pic : EncPicParams) (nvs : NvencStatus) :
    Tracked (s.log (.encodePicture pic nvs)) :=
  h.log rfl And.left

theorem Tracked.reconfigureFailed (h : Tracked s) (p : EncodeParams) {nvs : NvencStatus}
    (hn : nvs ≠ .success) : Tracked (s.log (.reconfigureEncoder p nvs)) := by
  refine h.log ?_ fun hd => hd.resolve_right fun hc => hn hc.1
  cases nvs with
  | success => exact absurd rfl hn
  | _ => rfl

/-! ### Reconfiguration -/

theorem tracked_reconfigure (hg : 0 < g.g_encStartupIdrFrames) (now : UInt64) {r : ReconfigureReply}
    (hr : ∀ p ∈ r.changed, p.size = s.params.size) (h : Tracked s) :
    Tracked (s.nvencReconfigureIfNeeded g now r) ∧
      (IdrFirst (s.nvencReconfigureIfNeeded g now r).calls ↔ IdrFirst s.calls) := by
  unfold nvencReconfigureIfNeeded
  split_ifs with hd ha hb hn
  · exact ⟨h, Iff.rfl⟩
  · exact ⟨⟨h.running, h.due⟩, Iff.rfl⟩
  · exact ⟨h, Iff.rfl⟩
  · have hlog := h.reconfigureFailed s.params hn
    exact ⟨⟨hlog.running, hlog.due⟩, idrFirst_log trivial⟩
  · rw [not_not] at hn
    rw [hn]
    have hsize : (r.changed.getD s.params).size = s.params.size := by
      cases hc : r.changed with
      | none => rfl
      | some p => exact hr p (by rw [hc]; rfl)
    refine ⟨⟨congrArg some hsize.symm, fun hdue => ?_⟩, idrFirst_log trivial⟩
    show 0 < if s.width ≠ (r.changed.getD s.params).size.1 ∨
        s.height ≠ (r.changed.getD s.params).size.2
      then g.g_encStartupIdrFrames else s.encStartupIdrLeft
    rw [hsize]
    split
    · exact hg
    · next hsame =>
      -- the size is the same, so that the frame was due before
      rw [not_or, not_not, not_not] at hsame
      refine h.due (hdue.resolve_right fun hc => hc.2 ?_)
      rw [h.running, hsame.1, hsame.2]

/-- The encoder is reconfigured to the size of a picture that was rejected. -/
theorem tracked_resize (hg : 0 < g.g_encStartupIdrFrames) (h : Tracked s) (width height : UInt32)
    (r : ReconfigureReply) : Tracked (s.resize g width height r) ∧
      (IdrFirst (s.resize g width height r).calls ↔ IdrFirst s.calls) ∧
      (r.nvs = .success → (width ≠ s.width ∨ height ≠ s.height) →
        IdrDue (s.resize g width height r).calls) ∧
      (r.nvs ≠ .success → (IdrDue (s.resize g width height r).calls ↔ IdrDue s.calls)) := by
  unfold resize
  dsimp only
  split
  · next hn =>
    rw [hn]
    refine ⟨⟨rfl, fun _ => hg⟩, idrFirst_log trivial, fun _ hne => .inr ⟨rfl, ?_⟩,
      fun hc => absurd rfl hc⟩
    rw [h.running]
    intro heq
    cases heq
    simp at hne
  · next hn =>
    exact ⟨h.reconfigureFailed _ hn, idrFirst_log trivial, fun hc => absurd hc hn,
      fun _ => or_iff_left fun hc => hn hc.1⟩

/-! ### Pictures -/

/-- After the resize, NVENC takes the picture at once or with the size of the context. -/
def TakenAgain (r : NvencReplies) : Prop :=
  Taken r.encodeAfterReconfigure ∨ r.encodeAfterReconfigure = .invalidParam ∧
    Taken r.encodeAtContextSize

instance : Decidable (TakenAgain r) := inferInstanceAs (Decidable (_ ∨ _))

theorem idrFirst_encode (pic : EncPicParams) (nvs : NvencStatus) :
    IdrFirst (s.log (.encodePicture pic nvs)).calls ↔
      IdrFirst s.calls ∧ (IdrDue s.calls → Taken nvs → pic.forceIdr) :=
  Iff.rfl

theorem idrDue_encode (pic : EncPicParams) (nvs : NvencStatus) :
    IdrDue (s.log (.encodePicture pic nvs)).calls ↔ IdrDue s.calls ∧ ¬Taken nvs :=
  Iff.rfl

theorem not_taken_invalidParam : ¬Taken .invalidParam := by decide

/-- The state after a picture was rejected. -/
theorem tracked_rejected (hg : 0 < g.g_encStartupIdrFrames) (h : Tracked s) {pic : EncPicParams}
    (hrej : s.Rejects pic r) : Tracked (s.rejected g pic r) ∧
      (IdrFirst (s.rejected g pic r).calls ↔ IdrFirst s.calls) ∧
      (Resizes g r → IdrDue (s.rejected g pic r).calls) ∧
      (¬Resizes g r → (IdrDue (s.rejected g pic r).calls ↔ IdrDue s.calls)) := by
  have hlog := h.encode pic r.encodePicture
  have hfirst : IdrFirst (s.log (.encodePicture pic r.encodePicture)).calls ↔ IdrFirst s.calls := by
    refine idrFirst_log fun ht => ?_
    rw [hrej.1] at ht
    exact absurd ht not_taken_invalidParam
  have hdue : IdrDue (s.log (.encodePicture pic r.encodePicture)).calls ↔ IdrDue s.calls := by
    rw [idrDue_encode, hrej.1]
    exact and_iff_left not_taken_invalidParam
  unfold rejected
  dsimp only
  split
  · next ha =>
    obtain ⟨ht, hf, hsame, hkeep⟩ :=
      tracked_resize hg hlog pic.inputWidth pic.inputHeight r.resize
    exact ⟨ht, hf.trans hfirst, fun hz => hsame hz.2 hrej.2,
      fun hz => (hkeep fun hn => hz ⟨ha, hn⟩).trans hdue⟩
  · next ha =>
    exact ⟨hlog, hfirst, fun hz => absurd hz.1 ha, fun _ => hdue⟩

/-- What the submission of a picture does: only a picture that is taken after its own resize can
miss its flag. -/
theorem Submits.idr (hg : 0 < g.g_encStartupIdrFrames) (h : Tracked s) {pic : EncPicParams}
    {nvs : NvencStatus} (hs : Submits g s pic r nvs s') (hforce : IdrDue s.calls → pic.forceIdr) :
    Tracked s' ∧ (Taken nvs → ¬IdrDue s'.calls) ∧ (IdrFirst s'.calls ↔ IdrFirst s.calls ∧
      (s.Rejects pic r → Resizes g r → TakenAgain r → pic.forceIdr)) := by
  cases hs with
  | once hrej =>
    refine ⟨h.encode _ _, fun ht hd => hd.2 ht, ?_⟩
    rw [idrFirst_encode]
    exact and_congr_right fun _ => iff_of_true (fun hd _ => hforce hd) fun hc => absurd hc hrej
  | notResized hrej hz =>
    obtain ⟨ht, hfirst, -, hdue⟩ := tracked_rejected hg h hrej
    refine ⟨ht.encode _ _, fun ht hd => hd.2 ht, ?_⟩
    rw [idrFirst_encode, hfirst, hdue hz]
    exact and_congr_right fun _ => iff_of_true (fun hd _ => hforce hd) fun _ hc => absurd hc hz
  | resized hrej hz hn =>
    obtain ⟨ht, hfirst, hdue, -⟩ := tracked_rejected hg h hrej
    refine ⟨ht.encode _ _, fun ht hd => hd.2 ht, ?_⟩
    rw [idrFirst_encode, hfirst, forall_prop_of_true (hdue hz)]
    refine and_congr_right fun _ => ⟨fun hf _ _ hc => ?_, fun hf hc => hf hrej hz (.inl hc)⟩
    exact hf (hc.resolve_right fun hi => hn hi.1)
  | again hrej hz hi =>
    obtain ⟨ht, hfirst, hdue, -⟩ := tracked_rejected hg h hrej
    have hnot : ¬Taken r.encodeAfterReconfigure := by
      rw [hi]
      exact not_taken_invalidParam
    refine ⟨(ht.encode _ _).encode _ _, fun ht hd => hd.2 ht, ?_⟩
    rw [idrFirst_encode, idrFirst_encode, idrDue_encode, hfirst, and_assoc]
    refine and_congr_right fun _ =>
      ⟨fun hf _ _ hc => ?_, fun hf => ⟨fun _ hc => absurd hc hnot, fun _ hc => ?_⟩⟩
    · exact hf.2 ⟨hdue hz, hnot⟩ (hc.resolve_left hnot).2
    · exact hf hrej hz (.inr ⟨hi, hc⟩)

/-- The next frame is an IDR frame. -/
def Forced (g : EncodeSettings) (s : EncodeSession) : Prop :=
  s.encForceIdr ∨ (g.g_encForceIdrEvery > 0 ∧ s.encFrameNum % g.g_encForceIdrEvery = 0) ∨
    s.encStartupIdrLeft > 0 ∨ s.encFrameNum = 0

instance : Decidable (s.Forced g) := inferInstanceAs (Decidable (_ ∨ _ ∨ _ ∨ _))

/-- The picture on the surface `sf` has another size than the context. -/
def OtherSize (s : EncodeSession) (sf : EncodeSurface) : Prop :=
  (selectRegion s.toEncodeContext sf).copyWidth ≠ s.width ∨
    (selectRegion s.toEncodeContext sf).copyHeight ≠ s.height

instance (sf : EncodeSurface) : Decidable (s.OtherSize sf) := inferInstanceAs (Decidable (_ ∨ _))

/-- After `nvencReconfigureIfNeeded`, the replies lead to a picture that is rejected for its size
and is taken after the encoder was reconfigured to it. -/
def Retried (g : EncodeSettings) (r : NvencReplies) : Prop :=
  r.pushed ∧ r.lockInputBuffer = .success ∧ r.unlockInputBuffer = .success ∧
    r.encodePicture = .invalidParam ∧ Resizes g r ∧ TakenAgain r

instance : Decidable (Retried g r) := inferInstanceAs (Decidable (_ ∧ _ ∧ _ ∧ _ ∧ _ ∧ _))

theorem forceIdr_iff (ioSlot pitch : Nat) (width height : UInt32) :
    ((s.forceIdr g).picParams ioSlot pitch width height).forceIdr ↔ s.Forced g := by
  unfold picParams forceIdr Forced
  simp only [Bool.or_eq_true, decide_eq_true_eq, or_assoc]

theorem encodePicture_idr (hg : 0 < g.g_encStartupIdrFrames) (h : Tracked s) (sf : EncodeSurface)
    (ioSlot : Nat) : (encodePicture g sf ioSlot r).Returns s fun _ s' => Tracked s' ∧
      (IdrFirst s'.calls ↔ IdrFirst s.calls ∧ (Retried g r → s.OtherSize sf → s.Forced g)) := by
  unfold encodePicture Prog.Returns failPicture
  simp only [Prog.ensures_bind, Prog.ensures_ite, ensures_nvenc, Prog.ensures_leave,
    Prog.ensures_read, Prog.ensures_update, Prog.ensures_pure]
  -- an exit before the submission
  have hexit (hn : ¬Retried g r) : IdrFirst s.calls ↔
      IdrFirst s.calls ∧ (Retried g r → s.OtherSize sf → s.Forced g) :=
    (and_iff_left fun hc => absurd hc hn).symm
  have hlock : Tracked (s.log (.lockInputBuffer ioSlot r.lockInputBuffer)) := h.log rfl id
  have hfirst : IdrFirst (s.log (.lockInputBuffer ioSlot r.lockInputBuffer)).calls ↔
      IdrFirst s.calls :=
    idrFirst_log trivial
  let s₁ := (s.log (.lockInputBuffer ioSlot r.lockInputBuffer)).log
    (.unlockInputBuffer ioSlot r.unlockInputBuffer)
  have hunlock : Tracked s₁ := hlock.log rfl id
  have hfirst' : IdrFirst s₁.calls ↔ IdrFirst s.calls :=
    (idrFirst_log trivial : IdrFirst s₁.calls ↔ _).trans hfirst
  refine ⟨fun hp => ⟨h, hexit fun hr => ?_⟩, fun hp =>
    ⟨fun hl => ⟨⟨hlock.running, hlock.due⟩, hfirst.trans (hexit fun hr => hl hr.2.1)⟩, fun hl =>
    ⟨fun hu => ⟨⟨hunlock.running, hunlock.due⟩, hfirst'.trans (hexit fun hr => hu hr.2.2.1)⟩,
      fun hu => ?_⟩⟩⟩
  · simp [hr.1] at hp
  · refine (submitPicture_submits _).mono (fun nvs s' hs => ?_) fun _ _ h => h.elim
    have hforced : Tracked (s₁.forceIdr g) := ⟨hunlock.running, hunlock.due⟩
    obtain ⟨ht, hdone, hiff⟩ := hs.idr hg hforced fun hd =>
      (forceIdr_iff _ _ _ _).mpr (.inr (.inr (.inl (hforced.due hd))))
    have hmiss : IdrFirst s'.calls ↔
        IdrFirst s.calls ∧ (Retried g r → s.OtherSize sf → s.Forced g) := by
      refine hiff.trans (and_congr hfirst' ?_)
      rw [forceIdr_iff]
      simp only [ne_eq, not_not, Bool.not_eq_eq_eq_not, Bool.not_true,
        Bool.not_eq_false] at hp hl hu
      constructor
      · rintro hf ⟨-, -, -, hi, hz, ha⟩ hsize
        exact hf ⟨hi, hsize⟩ hz ha
      · rintro hf ⟨hi, hsize⟩ hz ha
        exact hf ⟨hp, hl, hu, hi, hz, ha⟩ hsize
    let s₂ := s'.log (.lockBitstream ioSlot r.lockBitstream)
    have hlockBs : Tracked s₂ ∧ (IdrFirst s₂.calls ↔ IdrFirst s'.calls) :=
      ⟨ht.log rfl id, idrFirst_log trivial⟩
    let s₃ := s₂.log (.unlockBitstream ioSlot r.unlockBitstream)
    have hunlockBs : Tracked s₃ ∧ (IdrFirst s₃.calls ↔ IdrFirst s₂.calls) :=
      ⟨hlockBs.1.log rfl id, idrFirst_log trivial⟩
    have hmiss₂ := hlockBs.2.trans hmiss
    have hmiss₃ := hunlockBs.2.trans hmiss₂
    -- once the picture is taken, no frame is due
    refine ⟨fun _ => ⟨⟨ht.running, ht.due⟩, hmiss⟩,
      fun hn => ⟨fun hmore => ⟨fun _ => ⟨ht, hmiss⟩, fun _ => ?_⟩,
      fun hmore => ⟨fun _ => ?_, fun _ => ⟨fun _ => ⟨hunlockBs.1, hmiss₃⟩, fun _ => ?_⟩⟩⟩⟩
    · exact ⟨⟨ht.running, fun hd => absurd hd (hdone (.inr hmore))⟩, hmiss⟩
    · exact ⟨⟨hlockBs.1.running, hlockBs.1.due⟩, hmiss₂⟩
    · have htaken : Taken nvs := .inl (not_not.mp fun hc => hn ⟨hc, hmore⟩)
      exact ⟨⟨hunlockBs.1.running, fun hd => absurd hd (hdone htaken)⟩, hmiss₃⟩

/-! ### Calls -/

/-- The checks of `nvEndPicture` succeed, but for the surface. -/
def Checked (s : EncodeSession) (t : EncodeTarget) : Prop :=
  s.encCurrentSurface ≠ none ∧ s.encHasCodedBuf ∧ t.codedBuf ∧
    s.nvencIoBufferCount ≠ 0 ∧ t.ioBuffers

instance : Decidable (s.Checked t) := inferInstanceAs (Decidable (_ ∧ _ ∧ _ ∧ _ ∧ _))

/-- A picture that the call takes after its own resize is an IDR frame anyway. -/
def RetryForced (g : EncodeSettings) (s : EncodeSession) : SessionCall → Prop
  | .endPicture t r => s.Checked t → Retried g r → ∀ sf ∈ t.surface,
      (s.nvencReconfigureIfNeeded g r.now r.reconfigure).OtherSize sf →
        (s.nvencReconfigureIfNeeded g r.now r.reconfigure).Forced g
  | _ => True

instance (call : SessionCall) : Decidable (s.RetryForced g call) :=
  match call with
  | .endPicture t _ => inferInstanceAs (Decidable (_ → _ → ∀ sf ∈ t.surface, _ → _))
  | .beginPicture _ | .renderPicture _ => .isTrue trivial

/-- NVENC leaves the size in the parameters of a reconfiguration as it is. -/
def LeavesSize (s : EncodeSession) : SessionCall → Prop
  | .endPicture _ r => ∀ p ∈ r.reconfigure.changed, p.size = s.params.size
  | _ => True

instance (call : SessionCall) : Decidable (s.LeavesSize call) :=
  match call with
  | .endPicture _ r => inferInstanceAs (Decidable (∀ p ∈ r.reconfigure.changed, _))
  | .beginPicture _ | .renderPicture _ => .isTrue trivial

theorem endPicture_idr (hg : 0 < g.g_encStartupIdrFrames) (h : Tracked s)
    (hc : s.LeavesSize (.endPicture t r)) : (nvEndPicture g t r).Returns s fun _ s' =>
      Tracked s' ∧ (IdrFirst s'.calls ↔ IdrFirst s.calls ∧ s.RetryForced g (.endPicture t r)) := by
  -- an exit before `nvencReconfigureIfNeeded`
  have hexit (hn : ¬s.Checked t) : Tracked s ∧
      (IdrFirst s.calls ↔ IdrFirst s.calls ∧ s.RetryForced g (.endPicture t r)) :=
    ⟨h, (and_iff_left fun hc => absurd hc hn).symm⟩
  unfold nvEndPicture Prog.Returns
  simp only [Prog.ensures_bind, Prog.ensures_read, Prog.ensures_ite, Prog.ensures_leave]
  refine ⟨fun hs => hexit fun hk => hk.1 hs, fun hs => ⟨fun hb => hexit fun hk => ?_, fun hb => ?_⟩⟩
  · simp [hk.2.1] at hb
  cases ht : t.surface with
  | none =>
    refine ⟨h, (and_iff_left fun _ _ sf hsf => ?_).symm⟩
    rw [ht] at hsf
    cases hsf
  | some sf =>
    simp only [Prog.ensures_bind, Prog.ensures_ite, Prog.ensures_leave, Prog.ensures_update]
    refine ⟨fun hd => hexit fun hk => ?_,
      fun hd => ⟨fun hn => hexit fun hk => hk.2.2.2.1 hn, fun hn =>
      ⟨fun hi => hexit fun hk => ?_, fun hi => ?_⟩⟩⟩
    · simp [hk.2.2.1] at hd
    · simp [hk.2.2.2.2] at hi
    · have hk : s.Checked t := ⟨hs, by simpa using hb, by simpa using hd, hn, by simpa using hi⟩
      obtain ⟨hrec, hfirst⟩ := tracked_reconfigure hg r.now hc h
      refine Prog.Returns.mono (encodePicture_idr hg hrec sf _) fun _ s' h =>
        ⟨h.1, h.2.trans (and_congr hfirst ⟨fun hf _ hr sf' hsf ho => ?_, fun hf hr ho => ?_⟩)⟩
      · rw [ht] at hsf
        obtain rfl := Option.some.inj hsf
        exact hf hr ho
      · exact hf hk hr sf ht ho

theorem tracked_renderPicture (h : Tracked s) (buffers : List EncodeBuffer) :
    Tracked (s.nvRenderPicture g buffers) ∧ (s.nvRenderPicture g buffers).calls = s.calls := by
  unfold nvRenderPicture
  induction buffers generalizing s with
  | nil => exact ⟨h, rfl⟩
  | cons buf buffers ih =>
    have hbuf := renderBuffer_configured (g := g) (s := s) buf
    obtain ⟨hcalls, hleft⟩ := hbuf.calls
    obtain ⟨-, hw, hh⟩ := s.announce_frame g.g_encVisibleReconfigure (buf.rect s.encIsHevc)
    obtain ⟨_, _, hctx⟩ := hbuf.marked
    have ht : Tracked (s.renderBuffer g buf) := by
      have hwidth : (s.renderBuffer g buf).width = s.width :=
        (congrArg EncodeContext.width hctx).trans hw
      have hheight : (s.renderBuffer g buf).height = s.height :=
        (congrArg EncodeContext.height hctx).trans hh
      refine ⟨?_, ?_⟩
      · rw [hcalls, hwidth, hheight]
        exact h.running
      · rw [hcalls, hleft]
        exact h.due
    exact ⟨(ih ht).1, (ih ht).2.trans hcalls⟩

theorem tracked_step {call : SessionCall} (hg : 0 < g.g_encStartupIdrFrames) (h : Tracked s)
    (hc : s.LeavesSize call) (hs : sessionStep g s call = some s') :
    Tracked s' ∧ (IdrFirst s'.calls ↔ IdrFirst s.calls ∧ s.RetryForced g call) := by
  cases call with
  | beginPicture surface =>
    obtain rfl := Option.some.inj hs
    exact ⟨⟨h.running, h.due⟩, (and_iff_left trivial).symm⟩
  | renderPicture buffers =>
    obtain rfl := Option.some.inj hs
    obtain ⟨ht, hcalls⟩ := tracked_renderPicture (g := g) h buffers
    rw [hcalls]
    exact ⟨ht, (and_iff_left trivial).symm⟩
  | endPicture t r =>
    obtain ⟨⟨status, s₁⟩, he, rfl⟩ := Option.map_eq_some_iff.mp hs
    exact (endPicture_idr hg h hc).eval he

theorem tracked_create {a : SessionArgs} (h : nvCreateContext g a = some s) :
    Tracked s ∧ IdrFirst s.calls := by
  unfold nvCreateContext at h
  split at h
  · cases h
  · obtain rfl := Option.some.inj h
    exact ⟨⟨rfl, False.elim⟩, trivial, fun _ => trivial⟩

end EncodeSession

/-! ## Every run -/

/-- In a run, the first picture that is taken after a change of the size is an IDR frame, always,
exactly when every picture that was rejected for its size, and is taken after the encoder was
reconfigured to it, is an IDR frame for another reason. -/
theorem idrFirst_iff {g : EncodeSettings} {a : SessionArgs} {s₀ s : EncodeSession}
    {calls : List SessionCall} (hg : 0 < g.g_encStartupIdrFrames)
    (h0 : EncodeSession.nvCreateContext g a = some s₀)
    (hm : (encodeSession g).Meets EncodeSession.LeavesSize s₀ calls)
    (hr : (encodeSession g).run s₀ calls = some s) :
    IdrFirst s.calls ↔ (encodeSession g).Meets (EncodeSession.RetryForced g) s₀ calls := by
  obtain ⟨ht, hfirst⟩ := EncodeSession.tracked_create h0
  have h : IdrFirst s.calls ↔ IdrFirst s₀.calls ∧
      (encodeSession g).Meets (EncodeSession.RetryForced g) s₀ calls :=
    Lts.run_iff_meets (I := EncodeSession.Tracked) (P := fun s => IdrFirst s.calls)
      (fun s call s' hi hc hs => (EncodeSession.tracked_step hg hi hc hs).1)
      (fun s call s' hi hc hs => (EncodeSession.tracked_step hg hi hc hs).2) ht hm hr
  exact h.trans (and_iff_right hfirst)

/-! A context whose first frame is its only startup IDR frame. -/

def oneIdrSettings : EncodeSettings := { plainSettings with g_encStartupIdrFrames := 1 }

/-- A picture on a surface of the size of the context. -/
def fullPicture (r : NvencReplies) : List SessionCall :=
  [.beginPicture 1, .renderPicture [.coded], .endPicture ⟨some (.created 64 64), true, true⟩ r]

/-- The first frame is rejected for its size, and is an IDR frame after the resize. -/
theorem idrFirst_iff_startup : ∃ s : EncodeSession, s.width = 32 ∧ IdrFirst s.calls := by
  obtain ⟨s₀, h0, hm, hr⟩ : ∃ s₀, EncodeSession.nvCreateContext oneIdrSettings plainArgs = some s₀ ∧
      ((encodeSession oneIdrSettings).Meets EncodeSession.LeavesSize s₀
          (smallPicture (repliesAt 1000000000 .success)) ∧
        (encodeSession oneIdrSettings).Meets (EncodeSession.RetryForced oneIdrSettings) s₀
          (smallPicture (repliesAt 1000000000 .success))) ∧
      ((encodeSession oneIdrSettings).run s₀ (smallPicture (repliesAt 1000000000 .success))).any
        (fun s => s.width = 32) :=
    ⟨_, rfl, by decide, by decide⟩
  obtain ⟨s, hs, hp⟩ := (Option.any_eq_true _ _).mp hr
  exact ⟨s, by simpa using hp, (idrFirst_iff (by decide) h0 hm.1 hs).mpr hm.2⟩

/-- The second frame is rejected for its size, and is taken after the resize without the flag. -/
theorem resized_not_idr : ∃ s₀ s : EncodeSession,
    EncodeSession.nvCreateContext oneIdrSettings plainArgs = some s₀ ∧
    (encodeSession oneIdrSettings).Meets (fun _ call => call.LeavesParams) s₀
      (fullPicture (repliesAt 1000000000 .success) ++
        smallPicture (repliesAt 2000000000 .success)) ∧
    (encodeSession oneIdrSettings).run s₀ (fullPicture (repliesAt 1000000000 .success) ++
      smallPicture (repliesAt 2000000000 .success)) = some s ∧ ¬IdrFirst s.calls :=
  ⟨_, _, rfl, by decide, rfl, by decide⟩

end NvVaapi
