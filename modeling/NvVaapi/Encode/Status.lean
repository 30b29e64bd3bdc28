import NvVaapi.Encode.Ending

/-!
# The status of an encode surface

* `Ends.ready_iff`: which exits of `nvEndPicture` leave the surface as `VASurfaceReady`.
* `endPicture_ready_iff`: the same after an `nvBeginPicture` and any rendered buffers.
-/

namespace NvVaapi

open Objects (NvencStatus)

namespace EncodeSession

variable {g : EncodeSettings} {s s' : EncodeSession} {t : EncodeTarget} {r : NvencReplies}
  {vas : Objects.VAStatus}

/-- The checks succeed and the CUDA context can be pushed. If the encoder then takes the picture,
and its bitstream can be locked unless it is delayed, the CUDA context can be popped, too. -/
def Restores (g : EncodeSettings) (s : EncodeSession) (t : EncodeTarget)
    (r : NvencReplies) : Prop :=
  s.Checked t ∧ r.pushed ∧ (Fills r → ∀ sf ∈ t.surface,
    s.finalReply g sf r = .needMoreInput ∨
      s.finalReply g sf r = .success ∧ r.lockBitstream = .success → r.popped)

instance : Decidable (s.Restores g t r) :=
  inferInstanceAs (Decidable (_ ∧ _ ∧ (_ → ∀ sf ∈ t.surface, _ → _)))

theorem restores_iff {sf : EncodeSurface} (h : s.Finds t sf) (hf : Fills r) : s.Restores g t r ↔
    (s.finalReply g sf r = .needMoreInput ∨
      s.finalReply g sf r = .success ∧ r.lockBitstream = .success →
      r.popped) := by
  refine ⟨fun hr => hr.2.2 hf sf h.2, fun hr => ⟨h.1, hf.pushed, fun _ sf' hsf' => ?_⟩⟩
  rw [h.2] at hsf'
  obtain rfl := Option.some.inj hsf'
  exact hr

theorem status_reconfiguredFor : (s.reconfiguredFor g r).status = s.status := by
  unfold reconfiguredFor nvencReconfigureIfNeeded
  split_ifs
  iterate 5 rfl

theorem Submits.status {pic : EncPicParams} {nvs : NvencStatus} (h : Submits g s pic r nvs s') :
    s'.status = s.status := by
  refine h.keeps (I := fun s' => s'.status = s.status) (fun _ _ _ hi =>
    hi) (fun s₁ width height hi => ?_) rfl
  unfold resize
  dsimp only
  split
  · exact hi
  · exact hi

/-- The surface is `VASurfaceReady` after an `nvEndPicture` exactly when it meets the condition. -/
theorem Ends.ready_iff (he : Ends g s t r vas s') (h : s.status = .rendering) {sf : EncodeSurface}
    (ht : t.surface = some sf) : s'.status = .ready ↔ s.Restores g t r := by
  have hbusy {s₁ : EncodeSession} (hs : s₁.status = s.status) : ¬s₁.status = .ready := by
    rw [hs, h]
    decide
  cases he with
  | unchecked hn _ => exact iff_of_false (hbusy rfl) fun hr => hn sf ⟨hr.1, ht⟩
  | notPushed _ hp =>
    exact iff_of_false (hbusy status_reconfiguredFor) fun hr => absurd hr.2.1 (by simp [hp])
  | lockFailed hf hp hl =>
    exact iff_of_true rfl ⟨hf.1, hp, fun hfill => absurd hfill.lockInputBuffer hl⟩
  | unlockFailed hf hp _ hu =>
    exact iff_of_true rfl ⟨hf.1, hp, fun hfill => absurd hfill.unlockInputBuffer hu⟩
  | rejected hf hfill hs hn =>
    rw [restores_iff hf hfill]
    refine iff_of_true rfl fun hc => absurd ?_ hn
    obtain hc | ⟨hc, -⟩ := hc
    · exact .inr (hs.reply.trans hc)
    · exact .inl (hs.reply.trans hc)
  | bitstreamFailed hf hfill hs hb =>
    rw [restores_iff hf hfill]
    refine iff_of_true rfl fun hc => ?_
    obtain hc | ⟨-, hc⟩ := hc
    · cases hs.reply.trans hc
    · exact absurd hc hb
  | delayed hf hfill hs =>
    rw [restores_iff hf hfill, forall_prop_of_true (.inl hs.reply.symm)]
    have hstatus := hs.status.trans status_reconfiguredFor
    split
    · next hp => exact iff_of_true rfl hp
    · next hp => exact iff_of_false (hbusy hstatus) hp
  | delivered hf hfill hs hb =>
    rw [restores_iff hf hfill, forall_prop_of_true (.inr ⟨hs.reply.symm, hb⟩)]
    have hstatus := hs.status.trans status_reconfiguredFor
    split
    · next hp => exact iff_of_true rfl hp
    · next hp => exact iff_of_false (hbusy hstatus) hp

theorem renderPicture_status (buffers : List EncodeBuffer) :
    (s.nvRenderPicture g buffers).status = s.status := by
  refine renderPicture_keeps (·.status) (fun s buf => ?_) buffers
  obtain ⟨_, _, _, _, _, _, he⟩ := renderBuffer_configured (g := g) (s := s) buf
  rw [he]
  rfl

end EncodeSession

/-- An `nvEndPicture` after an `nvBeginPicture` on a surface that is live, with any rendered buffers
between them, returns, and it leaves the surface as `VASurfaceReady` exactly when it meets the
condition. -/
theorem endPicture_ready_iff (g : EncodeSettings) (s : EncodeSession) (surface : Nat)
    (buffers : List EncodeBuffer)
    (t : EncodeTarget) (r : NvencReplies) (sf : EncodeSurface) (h : t.surface = some sf) :
    let begun := (s.nvBeginPicture surface).nvRenderPicture g buffers
    ∃ vas s', (EncodeSession.nvEndPicture g t r).eval begun = some (vas, s') ∧
      (s'.status = .ready ↔ begun.Restores g t r) := by
  intro begun
  obtain ⟨vas, s', he⟩ : ∃ vas s', (EncodeSession.nvEndPicture g t r).eval begun = some (vas, s') :=
    EncodeSession.endPicture_returns
  have hend : EncodeSession.Ends g begun t r vas s' := EncodeSession.endPicture_ends.eval he
  exact ⟨vas, s', he, hend.ready_iff (EncodeSession.renderPicture_status buffers) h⟩

/-- The encoder fails with a picture that it was given. -/
theorem endPicture_ready_iff_failed : ∃ s s' : EncodeSession, ∃ vas,
    (EncodeSession.nvEndPicture plainSettings ⟨some (.created 64 64), true, true⟩
      { repliesAt 1000000000 .success with encodePicture := .outOfMemory }).eval s =
        some (vas, s') ∧
    vas = .errorAllocationFailed ∧ s'.status = .ready := by
  let s := (EncodeSession.nvCreateContext plainSettings plainArgs).get rfl
  let replies := { repliesAt 1000000000 .success with encodePicture := .outOfMemory }
  obtain ⟨vas, s', he, hr⟩ :=
    endPicture_ready_iff plainSettings s 1 [.coded] ⟨some (.created 64 64), true, true⟩
    replies (.created 64 64) rfl
  have hvas :
      ((EncodeSession.nvEndPicture plainSettings ⟨some (.created 64 64), true, true⟩ replies).eval
    ((s.nvBeginPicture 1).nvRenderPicture plainSettings [.coded])).map Prod.fst =
      some .errorAllocationFailed := by
      decide
  rw [he] at hvas
  exact ⟨_, s', vas, he, Option.some.inj hvas, hr.mpr (by decide)⟩

/-- An `nvEndPicture` without a coded buffer, on a surface that is live. -/
theorem endPicture_not_ready : ∃ s s' : EncodeSession,
    EncodeSession.nvCreateContext plainSettings plainArgs = some s ∧
    (EncodeSession.nvEndPicture plainSettings ⟨some (.created 64 64), true, true⟩
        (repliesAt 1000000000 .success)).eval (s.nvBeginPicture 1) =
          some (.errorInvalidBuffer, s') ∧
      s'.status = .rendering :=
  ⟨_, _, rfl, rfl, by decide⟩

end NvVaapi
