import NvVaapi.Encode.Idr

/-!
# How a picture ends

* `staged`, `picture`: the session when a picture is handed to the encoder, and the picture.
* `Ends`: every way through `nvEndPicture`, with the status and the session at the end.
* `endPicture_ends`: there are no others. `endPicture_returns`: it returns always.
* `Submits.attempts`, `Submits.keeps`, `Submits.reply`: what the submission of a picture does to the
  calls that were made and to everything else, and which reply it ends with.
* `Ends.adds`: the pictures that are handed to the encoder are the one that was staged.
-/

namespace NvVaapi

open Objects (NvencStatus nvencToVaStatus)

/-- The picture that the call hands to the encoder. -/
def NvencCall.submitted : NvencCall → Option EncPicParams
  | encodePicture pic _ => some pic
  | _ => none

namespace EncodeSession

variable {g : EncodeSettings} {s s' : EncodeSession} {t : EncodeTarget} {r : NvencReplies}
  {sf : EncodeSurface}

/-- The slot of the next picture. -/
def ioSlot (s : EncodeSession) : Nat := s.nvencIoBufferIndex % s.nvencIoBufferCount

/-- The session after `nvencReconfigureIfNeeded`. -/
def reconfiguredFor (g : EncodeSettings) (s : EncodeSession) (r : NvencReplies) : EncodeSession :=
  s.nvencReconfigureIfNeeded g r.now r.reconfigure

/-- The session when the copy was made. -/
def copied (g : EncodeSettings) (s : EncodeSession) (r : NvencReplies) : EncodeSession :=
  ((s.reconfiguredFor g r).log (.lockInputBuffer s.ioSlot r.lockInputBuffer)).log
    (.unlockInputBuffer s.ioSlot r.unlockInputBuffer)

/-- The session when the picture is handed to the encoder. -/
def staged (g : EncodeSettings) (s : EncodeSession) (r : NvencReplies) : EncodeSession :=
  (s.copied g r).forceIdr g

/-- The picture that is handed to the encoder. -/
def picture (g : EncodeSettings) (s : EncodeSession) (sf : EncodeSurface) (r : NvencReplies) :
    EncPicParams :=
  let region := selectRegion (s.reconfiguredFor g r).toEncodeContext sf
  (s.staged g r).picParams s.ioSlot r.pitch region.copyWidth region.copyHeight

/-- The session `s`, whose picture was taken, after its bitstream was copied. -/
def fetched (s : EncodeSession) (ioSlot : Nat) (r : NvencReplies) : EncodeSession :=
  (s.log (.lockBitstream ioSlot r.lockBitstream)).log (.unlockBitstream ioSlot r.unlockBitstream)

/-- A surface and everything else that a picture needs is there. -/
def Finds (s : EncodeSession) (t : EncodeTarget) (sf : EncodeSurface) : Prop :=
  s.Checked t ∧ t.surface = some sf

/-- The input buffer is filled. -/
structure Fills (r : NvencReplies) : Prop where
  pushed : r.pushed = true
  lockInputBuffer : r.lockInputBuffer = .success
  unlockInputBuffer : r.unlockInputBuffer = .success

instance (r : NvencReplies) : Decidable (Fills r) :=
  decidable_of_iff (r.pushed = true ∧ r.lockInputBuffer = .success ∧ r.unlockInputBuffer = .success)
    ⟨fun ⟨hp, hl, hu⟩ => ⟨hp, hl, hu⟩, fun h => ⟨h.pushed, h.lockInputBuffer, h.unlockInputBuffer⟩⟩

/-- The ways through `nvEndPicture`. -/
inductive Ends (g : EncodeSettings) (s : EncodeSession) (t : EncodeTarget) (r : NvencReplies) :
    Objects.VAStatus → EncodeSession → Prop where
  | unchecked {status : Objects.VAStatus} (h : ∀ sf, ¬s.Finds t sf) (hs : status ≠ .success) :
      Ends g s t r status s
  | notPushed {sf : EncodeSurface} (h : s.Finds t sf) (hp : r.pushed = false) :
      Ends g s t r .errorOperationFailed (s.reconfiguredFor g r)
  | lockFailed {sf : EncodeSurface} (h : s.Finds t sf) (hp : r.pushed = true)
      (hl : r.lockInputBuffer ≠ .success) :
      Ends g s t r (nvencToVaStatus r.lockInputBuffer)
        { (s.reconfiguredFor g r).log (.lockInputBuffer s.ioSlot r.lockInputBuffer) with
          status := .ready }
  | unlockFailed {sf : EncodeSurface} (h : s.Finds t sf) (hp : r.pushed = true)
      (hl : r.lockInputBuffer = .success)
      (hu : r.unlockInputBuffer ≠ .success) :
      Ends g s t r (nvencToVaStatus r.unlockInputBuffer) { s.copied g r with status := .ready }
  | rejected {sf : EncodeSurface} {nvs : NvencStatus}
      {s' : EncodeSession} (h : s.Finds t sf) (hf : Fills r)
      (hs : Submits g (s.staged g r) (s.picture g sf r) r nvs s') (hn : ¬Taken nvs) :
      Ends g s t r (nvencToVaStatus nvs) { s' with status := .ready }
  | delayed {sf : EncodeSurface} {s' : EncodeSession} (h : s.Finds t sf) (hf : Fills r)
      (hs : Submits g (s.staged g r) (s.picture g sf r) r .needMoreInput s') :
      Ends g s t r (if r.popped then .success else .errorOperationFailed)
        (if r.popped then s'.nextFrame s.ioSlot else s')
  | bitstreamFailed {sf : EncodeSurface} {s' : EncodeSession} (h : s.Finds t sf) (hf : Fills r)
      (hs : Submits g (s.staged g r) (s.picture g sf r) r .success s')
        (hb : r.lockBitstream ≠ .success) :
      Ends g s t r (nvencToVaStatus r.lockBitstream)
        { s'.log (.lockBitstream s.ioSlot r.lockBitstream) with status := .ready }
  | delivered {sf : EncodeSurface} {s' : EncodeSession} (h : s.Finds t sf) (hf : Fills r)
      (hs : Submits g (s.staged g r) (s.picture g sf r) r .success s')
        (hb : r.lockBitstream = .success) :
      Ends g s t r (if r.popped then .success else .errorOperationFailed)
        (if r.popped then
          { (s'.fetched s.ioSlot r).nextFrame s.ioSlot with
            encStartupIdrLeft :=
              if s'.encStartupIdrLeft > 0 then s'.encStartupIdrLeft - 1 else s'.encStartupIdrLeft }
        else s'.fetched s.ioSlot r)

theorem encodePicture_ends (h : s.Finds t sf) :
    (encodePicture g sf s.ioSlot r).Returns (s.reconfiguredFor g r) (Ends g s t r) := by
  unfold encodePicture Prog.Returns failPicture
  simp only [Prog.ensures_bind, Prog.ensures_ite, ensures_nvenc, Prog.ensures_leave,
    Prog.ensures_read,
    Prog.ensures_update, Prog.ensures_pure, Bool.not_eq_true', Bool.not_eq_false, ne_eq, not_not]
  refine ⟨.notPushed h, fun hp =>
    ⟨.lockFailed h hp, fun hl => ⟨.unlockFailed h hp hl, fun hu => ?_⟩⟩⟩
  have hf : Fills r := ⟨hp, hl, hu⟩
  refine (submitPicture_submits _).mono (fun nvs s' hs => ?_) fun _ _ h => h.elim
  refine ⟨fun hn => .rejected h hf hs (not_or.mpr hn), fun hn => ⟨fun hmore => ?_, fun hmore => ?_⟩⟩
  · subst hmore
    have hend := Ends.delayed h hf hs
    exact ⟨fun hpop => by simpa [hpop] using hend, fun hpop => by simpa [hpop] using hend⟩
  · obtain rfl : nvs = .success := by
      by_contra hc
      exact hn ⟨hc, hmore⟩
    refine ⟨.bitstreamFailed h hf hs, fun hb => ?_⟩
    have hend := Ends.delivered h hf hs hb
    refine ⟨fun hpop => ?_, fun hpop => ?_⟩
    · rwa [hpop] at hend
    · rwa [hpop] at hend

/-- An `nvEndPicture` ends in one of these ways. -/
theorem endPicture_ends : (nvEndPicture g t r).Returns s (Ends g s t r) := by
  have hexit {status : Objects.VAStatus} (hn : ¬s.Checked t) (hs : status ≠ .success) :
      Ends g s t r status s :=
    .unchecked (fun _ h => hn h.1) hs
  unfold nvEndPicture Prog.Returns
  simp only [Prog.ensures_bind, Prog.ensures_read, Prog.ensures_ite, Prog.ensures_leave,
    Bool.not_eq_true', Bool.not_eq_false]
  refine ⟨fun hs => hexit (fun hk => hk.1 hs) (by decide),
    fun hs => ⟨fun hb => hexit (fun hk => ?_) (by decide), fun hb => ?_⟩⟩
  · simp [hk.2.1] at hb
  cases ht : t.surface with
  | none => exact .unchecked (fun _ h => by rw [h.2] at ht; cases ht) (by decide)
  | some sf =>
    simp only [Prog.ensures_bind, Prog.ensures_ite, Prog.ensures_leave, Prog.ensures_update,
      Bool.not_eq_false]
    refine ⟨fun hd => hexit (fun hk => ?_) (by decide),
      fun hd => ⟨fun hn => hexit (fun hk => hk.2.2.2.1 hn)
      (by decide), fun hn => ⟨fun hi => hexit (fun hk => ?_) (by decide), fun hi => ?_⟩⟩⟩
    · simp [hk.2.2.1] at hd
    · simp [hk.2.2.2.2] at hi
    · exact encodePicture_ends ⟨⟨hs, hb, hd, hn, hi⟩, ht⟩

/-! ## Every `nvEndPicture` returns -/

theorem ends_nvenc (call : NvencStatus → NvencCall) (nvs : NvencStatus) :
    (nvenc call nvs).Ends s := by
  unfold nvenc
  simp

theorem ends_failPicture (nvs : NvencStatus) : (failPicture nvs).Ends s := by
  unfold failPicture
  simp

theorem ends_submitPicture (pic : EncPicParams) : (submitPicture g pic r).Ends s := by
  unfold submitPicture
  simp [ends_nvenc]

theorem ends_encodePicture (sf : EncodeSurface) (ioSlot : Nat) :
    (encodePicture g sf ioSlot r).Ends s := by
  unfold encodePicture
  simp [ends_nvenc, ends_failPicture, ends_submitPicture]

theorem endPicture_returns : ∃ vas s', (nvEndPicture g t r).eval s = some (vas, s') := by
  have he : (nvEndPicture g t r).Ends s := by
    unfold nvEndPicture
    cases t.surface <;> simp [ends_encodePicture]
  unfold Prog.Ends at he
  unfold Prog.eval
  cases hp : nvEndPicture g t r s with
  | goes vas s' => exact ⟨vas, s', rfl⟩
  | leaves vas s' => exact ⟨vas, s', rfl⟩
  | stuck => exact absurd hp he

/-! ## The calls that were made -/

/-- Rendering makes no call, and leaves the startup frames. -/
theorem renderPicture_calls (buffers : List EncodeBuffer) :
    (s.nvRenderPicture g buffers).calls = s.calls ∧
    (s.nvRenderPicture g buffers).encStartupIdrLeft = s.encStartupIdrLeft := by
  constructor
  · refine renderPicture_keeps (·.calls) (fun s buf => ?_) buffers
    exact (renderBuffer_configured (g := g) (s := s) buf).calls.1
  · refine renderPicture_keeps (·.encStartupIdrLeft) (fun s buf => ?_) buffers
    exact (renderBuffer_configured (g := g) (s := s) buf).calls.2

/-- `nvencReconfigureIfNeeded` hands the configuration to the encoder once, or not at all. -/
theorem reconfiguredFor_calls : (s.reconfiguredFor g r).calls = s.calls ∨
    (s.reconfiguredFor g r).calls = .reconfigureEncoder s.params r.reconfigure.nvs :: s.calls := by
  unfold reconfiguredFor nvencReconfigureIfNeeded
  split_ifs
  iterate 3 exact .inl rfl
  iterate 2 exact .inr rfl

/-- The same frame, with another size at most. -/
def SameFrame (pic pic' : EncPicParams) : Prop :=
  pic'.ioSlot = pic.ioSlot ∧ pic'.forceIdr = pic.forceIdr

/-- A call before the last submission of the picture: it was rejected, or the encoder was
reconfigured. -/
def Attempt (pic : EncPicParams) : NvencCall → Prop
  | .encodePicture pic' nvs => SameFrame pic pic' ∧ nvs = .invalidParam
  | .reconfigureEncoder _ _ => True
  | _ => False

theorem rejected_calls {pic : EncPicParams} (h : s.Rejects pic r) : ∃ attempts,
    (s.rejected g pic r).calls = attempts ++ s.calls ∧ ∀ call ∈ attempts, Attempt pic call := by
  have hfirst : Attempt pic (.encodePicture pic r.encodePicture) := ⟨⟨rfl, rfl⟩, h.1⟩
  unfold EncodeSession.rejected
  dsimp only
  split
  · let params :=
      (s.log (.encodePicture pic r.encodePicture)).resizedParams pic.inputWidth pic.inputHeight
    refine ⟨[.reconfigureEncoder params r.resize.nvs, .encodePicture pic r.encodePicture], ?_, ?_⟩
    · unfold resize
      dsimp only
      split <;> rfl
    · rw [List.forall_mem_cons, List.forall_mem_singleton]
      exact ⟨trivial, hfirst⟩
  · refine ⟨[.encodePicture pic r.encodePicture], rfl, ?_⟩
    rwa [List.forall_mem_singleton]

/-- The picture is handed to the encoder some times, and only the last reply counts. -/
theorem Submits.attempts {pic : EncPicParams} {nvs : NvencStatus} (h : Submits g s pic r nvs s') :
    ∃ pic' attempts, s'.calls = .encodePicture pic' nvs :: attempts ++ s.calls ∧
      SameFrame pic pic' ∧
      ∀ call ∈ attempts, Attempt pic call := by
  cases h with
  | once _ => exact ⟨pic, [], rfl, ⟨rfl, rfl⟩, by simp⟩
  | notResized hrej _ =>
    obtain ⟨attempts, hc, ha⟩ := rejected_calls (g := g) hrej
    exact ⟨_, attempts, congrArg (_ :: ·) hc, ⟨rfl, rfl⟩, ha⟩
  | resized hrej _ _ =>
    obtain ⟨attempts, hc, ha⟩ := rejected_calls (g := g) hrej
    exact ⟨_, attempts, congrArg (_ :: ·) hc, ⟨rfl, rfl⟩, ha⟩
  | again hrej _ hi =>
    obtain ⟨attempts, hc, ha⟩ := rejected_calls (g := g) hrej
    refine ⟨_, .encodePicture pic r.encodeAfterReconfigure :: attempts,
      congrArg (fun cs => _ :: _ :: cs) hc, ⟨rfl, rfl⟩, ?_⟩
    rw [List.forall_mem_cons]
    exact ⟨⟨⟨rfl, rfl⟩, hi⟩, ha⟩

/-- The submission keeps what a submitted picture and a reconfiguration to the size of the picture
keep. -/
theorem Submits.keeps {pic : EncPicParams} {nvs : NvencStatus} {I : EncodeSession → Prop}
    (h : Submits g s pic r nvs s')
    (hlog : ∀ s pic nvs, I s → I (s.log (.encodePicture pic nvs)))
    (hresize : ∀ s width height, I s → I (s.resize g width height r.resize)) (hi : I s) : I s' := by
  have hrej : I (s.rejected g pic r) := by
    unfold EncodeSession.rejected
    dsimp only
    split
    · exact hresize _ _ _ (hlog _ _ _ hi)
    · exact hlog _ _ _ hi
  cases h with
  | once _ => exact hlog _ _ _ hi
  | notResized _ _ | resized _ _ _ => exact hlog _ _ _ hrej
  | again _ _ _ => exact hlog _ _ _ (hlog _ _ _ hrej)

instance (pic : EncPicParams) : Decidable (s.Rejects pic r) :=
  inferInstanceAs (Decidable (_ ∧ (_ ∨ _)))

/-- The reply that decides about a picture. -/
def reply (g : EncodeSettings) (s : EncodeSession) (pic : EncPicParams) (r : NvencReplies) :
    NvencStatus :=
  if s.Rejects pic r then
    if Resizes g r ∧ r.encodeAfterReconfigure ≠ .invalidParam then r.encodeAfterReconfigure
    else r.encodeAtContextSize
  else r.encodePicture

theorem Submits.reply {pic : EncPicParams} {nvs : NvencStatus} (h : Submits g s pic r nvs s') :
    nvs = s.reply g pic r := by
  unfold EncodeSession.reply
  cases h with
  | once hrej => rw [if_neg hrej]
  | notResized hrej hz => rw [if_pos hrej, if_neg fun hc => hz hc.1]
  | resized hrej hz hn => rw [if_pos hrej, if_pos ⟨hz, hn⟩]
  | again hrej hz hi => rw [if_pos hrej, if_neg fun hc => hc.2 hi]

/-- The reply that decides about the picture of an `nvEndPicture`. -/
def finalReply (g : EncodeSettings) (s : EncodeSession) (sf : EncodeSurface) (r : NvencReplies) :
    NvencStatus :=
  (s.staged g r).reply g (s.picture g sf r) r

/-- The calls `calls'` are `calls` and later ones, which hand only pictures with `P` to the
encoder. -/
def Adds (P : EncPicParams → Prop) (calls calls' : List NvencCall) : Prop :=
  ∃ added, calls' = added ++ calls ∧ ∀ call ∈ added, ∀ pic ∈ call.submitted, P pic

theorem Adds.refl {P : EncPicParams → Prop} (calls : List NvencCall) : Adds P calls calls :=
  ⟨[], rfl, by simp⟩

theorem Adds.log {P : EncPicParams → Prop} {calls : List NvencCall} {c : NvencCall}
    (h : Adds P calls s.calls)
    (hp : ∀ pic ∈ c.submitted, P pic) : Adds P calls (s.log c).calls := by
  obtain ⟨added, hc, ha⟩ := h
  exact ⟨c :: added, congrArg (c :: ·) hc, List.forall_mem_cons.mpr ⟨hp, ha⟩⟩

/-- The frames that an `nvEndPicture` hands to the encoder are the one that was staged. -/
theorem Ends.adds {status : Objects.VAStatus} (h : Ends g s t r status s') :
    Adds (fun pic => ∃ sf, s.Finds t sf ∧ SameFrame (s.picture g sf r) pic) s.calls s'.calls := by
  have hrec {P : EncPicParams → Prop} : Adds P s.calls (s.reconfiguredFor g r).calls := by
    obtain hc | hc := s.reconfiguredFor_calls (g := g) (r := r)
    · exact hc ▸ .refl _
    · exact hc ▸ Adds.log (.refl _) (by simp [NvencCall.submitted])
  have hcopied {P : EncPicParams → Prop} : Adds P s.calls (s.copied g r).calls :=
    (hrec.log (by simp [NvencCall.submitted])).log (by simp [NvencCall.submitted])
  have hsub {sf : EncodeSurface} {nvs : NvencStatus} {s' : EncodeSession} (hf : s.Finds t sf)
      (hs : Submits g (s.staged g r) (s.picture g sf r) r nvs s') :
      Adds (fun pic => ∃ sf, s.Finds t sf ∧ SameFrame (s.picture g sf r) pic) s.calls s'.calls := by
    obtain ⟨pic', attempts, hc, hsame, ha⟩ := hs.attempts
    obtain ⟨added, hadded, hp⟩ :=
      hcopied (P := fun pic => ∃ sf, s.Finds t sf ∧ SameFrame (s.picture g sf r) pic)
    refine ⟨.encodePicture pic' nvs :: attempts ++ added, ?_, ?_⟩
    · rw [hc, List.append_assoc]
      exact congrArg _ hadded
    · rw [List.forall_mem_append, List.forall_mem_cons]
      refine ⟨⟨fun pic hm => ?_, fun call hm pic hpic => ?_⟩, hp⟩
      · obtain rfl := Option.some.inj hm
        exact ⟨sf, hf, hsame⟩
      · have hattempt := ha call hm
        cases call with
        | encodePicture pic' nvs' =>
          obtain rfl := Option.some.inj hpic
          exact ⟨sf, hf, hattempt.1⟩
        | _ => cases hpic
  cases h with
  | unchecked _ _ => exact .refl _
  | notPushed _ _ => exact hrec
  | lockFailed _ _ _ => exact hrec.log (by simp [NvencCall.submitted])
  | unlockFailed _ _ _ _ => exact hcopied
  | rejected hf _ hs _ =>
    have hend := hsub hf hs
    exact hend
  | delayed hf _ hs =>
    have hend := hsub hf hs
    split
    · exact hend
    · exact hend
  | bitstreamFailed hf _ hs _ => exact (hsub hf hs).log (by simp [NvencCall.submitted])
  | delivered hf _ hs _ =>
    have hfetched := ((hsub hf hs).log (c := .lockBitstream s.ioSlot r.lockBitstream)
      (by simp [NvencCall.submitted])).log (c := .unlockBitstream s.ioSlot r.unlockBitstream)
      (by simp [NvencCall.submitted])
    split
    · exact hfetched
    · exact hfetched

end EncodeSession

end NvVaapi
