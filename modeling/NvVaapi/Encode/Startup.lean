import NvVaapi.Encode.Ending

/-!
# Startup frames and requested IDR frames

* `delivered`: the pictures whose bitstreams were copied, from the calls of NVENC.
* `Startup`: the first pictures that were delivered are IDR frames, and `encStartupIdrLeft` makes up
  for those that are still to come. Every call keeps it.
* `Ends.forced`: a picture that has to be an IDR frame is one in each attempt, and an end that fails
  leaves the request.
* `startup_forced`: both along every run.
-/

namespace NvVaapi

open Objects (NvencStatus)

/-! ## What was delivered -/

/-- The slot whose bitstream the call makes readable. -/
def NvencCall.fetchedSlot : NvencCall → Option Nat
  | lockBitstream ioSlot .success => some ioSlot
  | _ => none

/-- The picture that the call hands to the encoder with the output buffer of the slot. -/
def NvencCall.submittedTo (ioSlot : Nat) (call : NvencCall) : Option EncPicParams :=
  call.submitted.filter fun pic => pic.ioSlot = ioSlot

/-- The pictures whose bitstreams were delivered, the first of them first. -/
def delivered : List NvencCall → List EncPicParams
  | [] => []
  | call :: calls => delivered calls ++
      (call.fetchedSlot.bind fun ioSlot => calls.findSome? (NvencCall.submittedTo ioSlot)).toList

namespace EncodeSession

variable {g : EncodeSettings} {s s' : EncodeSession} {t : EncodeTarget} {r : NvencReplies}
  {status : Objects.VAStatus}

@[simp] theorem delivered_log {call : NvencCall} (h : call.fetchedSlot = none) :
    delivered (s.log call).calls = delivered s.calls := by
  show delivered s.calls ++ _ = _
  rw [h]
  exact List.append_nil _

theorem delivered_fetch {pic : EncPicParams} {nvs : NvencStatus} {calls : List NvencCall}
    (h : s.calls = .encodePicture pic nvs :: calls) :
    delivered (s.log (.lockBitstream pic.ioSlot .success)).calls = delivered s.calls ++ [pic] := by
  show delivered s.calls ++ (s.calls.findSome? (NvencCall.submittedTo pic.ioSlot)).toList = _
  rw [h, List.findSome?_cons, NvencCall.submittedTo, NvencCall.submitted, Option.filter_some,
    if_pos (by simp)]
  rfl

/-! ## The startup frames -/

/-- The first `g_encStartupIdrFrames` pictures that were delivered are IDR frames, and as many are
left as are missing at least. -/
structure Startup (g : EncodeSettings) (s : EncodeSession) : Prop where
  forced : ∀ pic ∈ (delivered s.calls).take g.g_encStartupIdrFrames.toNat, pic.forceIdr
  left : g.g_encStartupIdrFrames.toNat ≤ (delivered s.calls).length + s.encStartupIdrLeft.toNat

theorem Startup.log (h : Startup g s) {c : NvencCall} (hf : c.fetchedSlot = none) :
    Startup g (s.log c) := by
  have hd := delivered_log (s := s) hf
  constructor
  · rw [hd]
    exact h.forced
  · rw [hd]
    exact h.left

/-- The same deliveries, with as many startup frames left or all of them. -/
theorem Startup.restart (h : Startup g s) (hd : delivered s'.calls = delivered s.calls)
    (hl : s'.encStartupIdrLeft = s.encStartupIdrLeft ∨
      s'.encStartupIdrLeft = g.g_encStartupIdrFrames) :
    Startup g s' := by
  constructor
  · rw [hd]
    exact h.forced
  · rw [hd]
    obtain hl | hl := hl
    · exact hl ▸ h.left
    · rw [hl]
      exact Nat.le_add_left _ _

theorem startup_reconfigure (h : Startup g s) (now : UInt64) (r : ReconfigureReply) :
    Startup g (s.nvencReconfigureIfNeeded g now r) := by
  unfold nvencReconfigureIfNeeded
  split_ifs
  · exact h
  · exact h.restart rfl (.inl rfl)
  · exact h
  · exact (h.log (c := .reconfigureEncoder s.params r.nvs) rfl).restart rfl (.inl rfl)
  · refine (h.log (c := .reconfigureEncoder s.params r.nvs) rfl).restart rfl ?_
    unfold reconfigured
    dsimp only
    split
    · exact .inr rfl
    · exact .inl rfl

theorem startup_resize (h : Startup g s) (width height : UInt32) (r : ReconfigureReply) :
    Startup g (s.resize g width height r) := by
  have hlog := h.log (c := .reconfigureEncoder (s.resizedParams width height) r.nvs) rfl
  unfold resize
  dsimp only
  split
  · exact hlog.restart rfl (.inr rfl)
  · exact hlog

theorem Startup.submits (h : Startup g s) {pic : EncPicParams} {nvs : NvencStatus}
    (hs : Submits g s pic r nvs s') :
    Startup g s' :=
  hs.keeps (fun _ _ _ h => h.log rfl) (fun _ width height h =>
    startup_resize h width height r.resize) h

/-- A picture is an IDR frame while startup frames are missing. -/
theorem Startup.picture_forced (h : Startup g (s.staged g r)) {sf : EncodeSurface}
    (hlt : (delivered (s.staged g r).calls).length < g.g_encStartupIdrFrames.toNat) :
    (s.picture g sf r).forceIdr := by
  have hleft := h.left
  refine (forceIdr_iff _ _ _ _).mpr (.inr (.inr (.inl ?_)))
  show 0 < (s.copied g r).encStartupIdrLeft
  rw [UInt32.lt_iff_toNat_lt]
  change _ ≤ _ + (s.copied g r).encStartupIdrLeft.toNat at hleft
  show 0 < _
  omega

/-- The bitstream of a picture is delivered. The picture is an IDR frame if one was missing. -/
theorem Startup.fetch (h : Startup g s) {pic : EncPicParams} {nvs : NvencStatus}
    {calls : List NvencCall} (hc : s.calls = .encodePicture pic nvs :: calls)
    (hp : (delivered s.calls).length < g.g_encStartupIdrFrames.toNat → pic.forceIdr) (left : UInt32)
    (hl : s.encStartupIdrLeft.toNat ≤ left.toNat + 1) :
    Startup g { s.log (.lockBitstream pic.ioSlot .success) with encStartupIdrLeft := left } := by
  have hd :
      delivered (s.log (.lockBitstream pic.ioSlot .success)).calls = delivered s.calls ++ [pic] :=
    delivered_fetch hc
  have hleft := h.left
  constructor
  · show ∀ p ∈ (delivered (s.log (.lockBitstream pic.ioSlot .success)).calls).take _, p.forceIdr
    rw [hd, List.take_append, List.forall_mem_append]
    refine ⟨h.forced, fun p hm => ?_⟩
    by_cases hlt : (delivered s.calls).length < g.g_encStartupIdrFrames.toNat
    · obtain rfl := List.mem_singleton.mp (List.mem_of_mem_take hm)
      exact hp hlt
    · rw [Nat.sub_eq_zero_of_le (Nat.not_lt.mp hlt), List.take_zero] at hm
      cases hm
  · show _ ≤ (delivered (s.log (.lockBitstream pic.ioSlot .success)).calls).length + left.toNat
    rw [hd, List.length_append, List.length_singleton]
    omega

/-- An `nvEndPicture` keeps the invariant. -/
theorem Ends.startup (he : Ends g s t r status s') (h : Startup g s) : Startup g s' := by
  have hrec : Startup g (s.reconfiguredFor g r) := startup_reconfigure h _ _
  have hlock :
      Startup g ((s.reconfiguredFor g r).log (.lockInputBuffer s.ioSlot r.lockInputBuffer)) :=
        hrec.log rfl
  have hcopied : Startup g (s.copied g r) := hlock.log rfl
  have hstaged : Startup g (s.staged g r) := hcopied.restart rfl (.inl rfl)
  cases he with
  | unchecked _ _ => exact h
  | notPushed _ _ => exact hrec
  | lockFailed _ _ _ => exact hlock.restart rfl (.inl rfl)
  | unlockFailed _ _ _ _ => exact hcopied.restart rfl (.inl rfl)
  | rejected _ _ hs _ => exact (hstaged.submits hs).restart rfl (.inl rfl)
  | delayed _ _ hs =>
    have hend := hstaged.submits hs
    split
    · exact hend.restart rfl (.inl rfl)
    · exact hend
  | bitstreamFailed _ _ hs hb =>
    have hlog := (hstaged.submits hs).log (c := .lockBitstream s.ioSlot r.lockBitstream) <| by
      unfold NvencCall.fetchedSlot
      split
      · next heq => exact absurd (NvencCall.lockBitstream.inj heq).2 hb
      · rfl
    exact hlog.restart rfl (.inl rfl)
  | @delivered sf s₁ hf _ hs hb =>
    obtain ⟨pic, attempts, hcalls, hsame, ha⟩ := hs.attempts
    have hsub := hstaged.submits hs
    have hdelivered : NvVaapi.delivered s₁.calls = NvVaapi.delivered (s.staged g r).calls :=
      hs.keeps (I := fun s₁ => NvVaapi.delivered s₁.calls = NvVaapi.delivered (s.staged g r).calls)
        (fun _ _ _ hd => (delivered_log rfl).trans hd) (fun s₁ width height hd => by
          unfold resize
          dsimp only
          split
          · exact (delivered_log (s := s₁) rfl).trans hd
          · exact (delivered_log rfl).trans hd) rfl
    have hp (hlt : (NvVaapi.delivered s₁.calls).length < g.g_encStartupIdrFrames.toNat) :
        pic.forceIdr := by
      rw [hsame.2]
      exact hstaged.picture_forced (hdelivered ▸ hlt)
    have hslot : pic.ioSlot = s.ioSlot := hsame.1
    have hfetch (left : UInt32) (hl : s₁.encStartupIdrLeft.toNat ≤ left.toNat + 1) :
        Startup g { s₁.fetched s.ioSlot r with encStartupIdrLeft := left } := by
      have hlog :=
        (hsub.fetch hcalls hp left hl).log (c := .unlockBitstream s.ioSlot r.unlockBitstream) rfl
      unfold fetched
      rw [hb, ← hslot]
      rw [← hslot] at hlog
      exact hlog
    split
    · refine Startup.restart (hfetch _ ?_) rfl (.inl rfl)
      split
      · next hpos =>
        have hpos : 1 ≤ s₁.encStartupIdrLeft.toNat := UInt32.lt_iff_toNat_lt.mp hpos
        rw [UInt32.toNat_sub_of_le _ _ (UInt32.le_iff_toNat_le.mpr hpos : (1 : UInt32) ≤ _)]
        exact (Nat.sub_add_cancel hpos).ge
      · exact Nat.le_succ _
    · exact hfetch s₁.encStartupIdrLeft (Nat.le_succ _)

/-! ## Requested frames -/

/-- The frames that an `nvEndPicture` hands to the encoder are IDR frames if the next one has to
be. -/
theorem Ends.forced (he : Ends g s t r status s') (hf : s.encForceIdr) :
    Adds (fun pic => pic.forceIdr) s.calls s'.calls := by
  obtain ⟨added, hc, ha⟩ := he.adds
  refine ⟨added, hc, fun call hm pic hp => ?_⟩
  obtain ⟨sf, -, hsame⟩ := ha call hm pic hp
  rw [hsame.2]
  refine (forceIdr_iff _ _ _ _).mpr (.inl ?_)
  show (s.reconfiguredFor g r).encForceIdr = true
  unfold reconfiguredFor nvencReconfigureIfNeeded
  split_ifs
  all_goals exact hf

/-- An `nvEndPicture` that fails leaves the request. -/
theorem Ends.request (he : Ends g s t r status s') (hstatus : status ≠ .success)
    (hf : s.encForceIdr) : s'.encForceIdr := by
  have hrec : (s.reconfiguredFor g r).encForceIdr := by
    unfold reconfiguredFor nvencReconfigureIfNeeded
    split_ifs
    all_goals exact hf
  have hstaged : (s.staged g r).encForceIdr := by
    show ((s.reconfiguredFor g r).encForceIdr || _ || _) = true
    rw [hrec]
    rfl
  have hsub {sf : EncodeSurface} {nvs : NvencStatus} {s' : EncodeSession}
      (hs : Submits g (s.staged g r) (s.picture g sf r) r nvs s') : s'.encForceIdr := by
    refine hs.keeps (I := fun s => s.encForceIdr) (fun _ _ _ h => h) (fun s₁ _ _ h => ?_) hstaged
    unfold resize
    dsimp only
    split
    · exact h
    · exact h
  cases he with
  | unchecked _ _ => exact hf
  | notPushed _ _ | lockFailed _ _ _ | unlockFailed _ _ _ _ => exact hrec
  | rejected _ _ hs _ | bitstreamFailed _ _ hs _ =>
    have hend := hsub hs
    exact hend
  | delayed _ _ hs | delivered _ _ hs _ =>
    have hend := hsub hs
    cases hp : r.popped with
    | true => simp [hp] at hstatus
    | false => exact hend

end EncodeSession

/-- The buffer requests an IDR frame of an encoder for HEVC or H.264. -/
def EncodeBuffer.requestsIdr (encIsHevc : Bool) : EncodeBuffer → Bool
  | .pictureParameter h264 hevc => (if encIsHevc then hevc else h264).any PictureParams.idr_pic_flag
  | _ => false

namespace EncodeSession

variable {g : EncodeSettings} {s s' : EncodeSession}

theorem renderBuffer_frame (buf : EncodeBuffer) : (s.renderBuffer g buf).encIsHevc = s.encIsHevc ∧
    (s.encForceIdr → (s.renderBuffer g buf).encForceIdr) := by
  obtain ⟨_, _, _, _, _, idr, he⟩ := renderBuffer_configured (g := g) (s := s) buf
  rw [he]
  refine ⟨(s.announce_frame g.g_encVisibleReconfigure (buf.rect s.encIsHevc)).1, fun hf => ?_⟩
  show (s.encForceIdr || idr) = true
  rw [hf]
  rfl

theorem renderBuffer_requested {buf : EncodeBuffer} (h : buf.requestsIdr s.encIsHevc) :
    (s.renderBuffer g buf).encForceIdr := by
  cases buf with
  | pictureParameter h264 hevc =>
    change (if s.encIsHevc then hevc else h264).any PictureParams.idr_pic_flag = true at h
    show ((if s.encIsHevc then hevc else h264).elim s s.renderPictureParams).encForceIdr = true
    cases hpic : (if s.encIsHevc then hevc else h264) with
    | none => simp [hpic] at h
    | some pic =>
      rw [hpic] at h
      show (s.encForceIdr || pic.idr_pic_flag) = true
      rw [show pic.idr_pic_flag = true from h, Bool.or_true]
  | _ => cases h

/-- Rendering takes up a request, and keeps an earlier one. -/
theorem renderPicture_requested (buffers : List EncodeBuffer) (h : s.encForceIdr ∨
    buffers.any fun buf =>
    buf.requestsIdr s.encIsHevc) : (s.nvRenderPicture g buffers).encForceIdr := by
  unfold nvRenderPicture
  induction buffers generalizing s with
  | nil => exact h.resolve_right (by simp)
  | cons buf buffers ih =>
    obtain ⟨hhevc, hkeep⟩ := renderBuffer_frame (g := g) (s := s) buf
    refine ih ?_
    rw [hhevc]
    rw [List.any_cons, Bool.or_eq_true] at h
    obtain h | h | h := h
    · exact .inl (hkeep h)
    · exact .inl (renderBuffer_requested h)
    · exact .inr h

theorem startup_renderPicture (h : Startup g s) (buffers : List EncodeBuffer) :
    Startup g (s.nvRenderPicture g buffers) := by
  obtain ⟨hcalls, hleft⟩ := renderPicture_calls (g := g) (s := s) buffers
  exact h.restart (congrArg delivered hcalls) (.inl hleft)

theorem startup_create {a : SessionArgs} (h : nvCreateContext g a = some s) : Startup g s := by
  unfold nvCreateContext at h
  split at h
  · cases h
  · obtain rfl := Option.some.inj h
    exact ⟨by simp [delivered, NvencCall.fetchedSlot], Nat.le_add_left _ _⟩

end EncodeSession

/-! ## Every run -/

/-- A session, with whether an IDR frame was requested since the last `nvBeginPicture` and the last
`nvEndPicture` that succeeded. -/
structure IdrHistory where
  session : EncodeSession
  requested : Bool

namespace IdrHistory

def step (g : EncodeSettings) (h : IdrHistory) : SessionCall → Option IdrHistory
  | .beginPicture surface => some ⟨h.session.nvBeginPicture surface, false⟩
  | .renderPicture buffers => some ⟨h.session.nvRenderPicture g buffers,
      h.requested || buffers.any fun buf => buf.requestsIdr h.session.encIsHevc⟩
  | .endPicture t r => ((EncodeSession.nvEndPicture g t r).eval h.session).map fun (status, s) =>
      ⟨s, h.requested && status ≠ .success⟩

end IdrHistory

/-- The calls on a session, with what was requested. -/
def idrRequests (g : EncodeSettings) : Lts IdrHistory SessionCall where
  init h := (∃ a, EncodeSession.nvCreateContext g a = some h.session) ∧ h.requested = false
  step := IdrHistory.step g

namespace IdrHistory

variable {g : EncodeSettings} {h h' : IdrHistory} {call : SessionCall}

/-- It is the same session. -/
theorem step_session (hs : step g h call = some h') :
    sessionStep g h.session call = some h'.session := by
  cases call with
  | beginPicture _ | renderPicture _ =>
    obtain rfl := Option.some.inj hs
    rfl
  | endPicture t r =>
    obtain ⟨end₁, he, rfl⟩ := Option.map_eq_some_iff.mp hs
    exact Option.map_eq_some_iff.mpr ⟨end₁, he, rfl⟩

/-- The startup frames are accounted for, and the next frame is an IDR frame if one was
requested. -/
structure Ok (g : EncodeSettings) (h : IdrHistory) : Prop where
  startup : h.session.Startup g
  requested : h.requested → h.session.encForceIdr

theorem Ok.step (hok : Ok g h) (hs : step g h call = some h') : Ok g h' := by
  cases call with
  | beginPicture surface =>
    obtain rfl := Option.some.inj hs
    exact ⟨hok.startup.restart rfl (.inl rfl), nofun⟩
  | renderPicture buffers =>
    obtain rfl := Option.some.inj hs
    refine ⟨EncodeSession.startup_renderPicture hok.startup buffers, fun hreq => ?_⟩
    exact EncodeSession.renderPicture_requested buffers
      ((Bool.or_eq_true _ _ ▸ hreq).imp_left hok.requested)
  | endPicture t r =>
    obtain ⟨⟨status, s'⟩, he, rfl⟩ := Option.map_eq_some_iff.mp hs
    have hend : EncodeSession.Ends g h.session t r status s' :=
      EncodeSession.endPicture_ends.eval he
    refine ⟨hend.startup hok.startup, fun hreq => ?_⟩
    obtain ⟨hreq, hstatus⟩ := (Bool.and_eq_true _ _).mp hreq
    exact hend.request (of_decide_eq_true hstatus) (hok.requested hreq)

theorem Ok.init (hi : (idrRequests g).init h) : Ok g h :=
  ⟨hi.1.elim fun _ ha => EncodeSession.startup_create ha, fun hreq => by simp [hi.2] at hreq⟩

end IdrHistory

/-- In every run: the first `g_encStartupIdrFrames` pictures whose bitstreams were delivered were
IDR frames, and every picture that is handed to the encoder while an IDR frame is requested is
one. -/
theorem startup_forced {g : EncodeSettings} {h : IdrHistory} (hr : (idrRequests g).Reach h) :
    (∀ pic ∈ (delivered h.session.calls).take g.g_encStartupIdrFrames.toNat, pic.forceIdr) ∧
      ∀ t r h', (idrRequests g).step h (.endPicture t r) = some h' → h.requested →
        EncodeSession.Adds (fun pic => pic.forceIdr) h.session.calls h'.session.calls := by
  have hok : h.Ok g := hr.invariant (fun _ hi => .init hi) fun _ _ _ hok hs => hok.step hs
  refine ⟨hok.startup.forced, fun t r h' hs hreq => ?_⟩
  obtain ⟨⟨status, s'⟩, he, rfl⟩ := Option.map_eq_some_iff.mp hs
  have hend : EncodeSession.Ends g h.session t r status s' := EncodeSession.endPicture_ends.eval he
  exact hend.forced (hok.requested hreq)

/-- A picture that an IDR frame is requested for. -/
def idrPicture : List SessionCall :=
  [.beginPicture 1, .renderPicture [.coded, .pictureParameter (some ⟨true, true⟩) none]]

/-- The startup frame of a context, and a picture that an IDR frame is requested for. -/
theorem startup_forced_requested : ∃ h h' : IdrHistory,
    (delivered h.session.calls).length = 1 ∧
      (∀ pic ∈ (delivered h.session.calls).take 1, pic.forceIdr) ∧
      h.requested ∧ h'.session.calls.length = h.session.calls.length + 5 ∧
      EncodeSession.Adds (fun pic => pic.forceIdr) h.session.calls h'.session.calls := by
  let replies := repliesAt 1000000000 .success
  let target : EncodeTarget := ⟨some (.created 64 64), true, true⟩
  obtain ⟨h₀, hi, hr⟩ : ∃ h₀, (idrRequests oneIdrSettings).init h₀ ∧
      ((idrRequests oneIdrSettings).run h₀ (fullPicture replies ++ idrPicture)).any fun h =>
        (delivered h.session.calls).length = 1 ∧ h.requested ∧
          ((idrRequests oneIdrSettings).step h (.endPicture target replies)).any fun h' =>
            h'.session.calls.length = h.session.calls.length + 5 :=
    ⟨⟨_, false⟩, ⟨⟨plainArgs, rfl⟩, rfl⟩, by decide⟩
  obtain ⟨h, hrun, hp⟩ := (Option.any_eq_true _ _).mp hr
  obtain ⟨hlen, hreq, hs⟩ := of_decide_eq_true hp
  obtain ⟨h', hs, hlen'⟩ := (Option.any_eq_true _ _).mp hs
  have hforced := startup_forced (Lts.Reach.run (.init hi) hrun)
  exact ⟨h, h', hlen, hforced.1, hreq, of_decide_eq_true hlen', hforced.2 target replies h' hs hreq⟩

end NvVaapi
