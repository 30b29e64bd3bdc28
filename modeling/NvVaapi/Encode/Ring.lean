import NvVaapi.Encode.Ending
import NvVaapi.Lib.Device

/-!
# The ring of input and output buffers

* `device`: the encoder as a device that keeps the buffers of a delayed picture, from the calls of
  NVENC.
* `Ends.inOrder`: which `nvEndPicture` keeps the pictures in order.
* `ring_inOrder_iff`: a run does exactly when it never comes back to a slot of a delayed picture,
  and no picture is finished after a delayed one.
-/

namespace NvVaapi

open Objects (NvencStatus)

/-- What NVENC says to a picture. -/
def deviceReply : NvencStatus → Device.Reply
  | .success => .finished
  | .needMoreInput => .delayed
  | _ => .refused

/-- The encoder after the call. -/
def NvencCall.onDevice (d : Device) : NvencCall → Device
  | lockInputBuffer ioSlot .success => d.touch ioSlot
  | encodePicture pic nvs => d.submit pic.ioSlot (deviceReply nvs)
  | lockBitstream ioSlot .success => d.fetch ioSlot
  | _ => d

/-- The encoder after the calls, the latest of which comes first. -/
def device : List NvencCall → Device
  | [] => .empty
  | call :: calls => call.onDevice (device calls)

theorem deviceReply_of_not_taken {nvs : NvencStatus} (h : ¬Taken nvs) :
    deviceReply nvs = .refused := by
  unfold deviceReply
  split
  · exact absurd (.inl rfl) h
  · exact absurd (.inr rfl) h
  · rfl

theorem onDevice_lockInputBuffer {d : Device} {ioSlot : Nat} {nvs : NvencStatus}
    (h : nvs ≠ .success) : (NvencCall.lockInputBuffer ioSlot nvs).onDevice d = d := by
  cases nvs with
  | success => exact absurd rfl h
  | _ => rfl

theorem onDevice_lockBitstream {d : Device} {ioSlot : Nat} {nvs : NvencStatus}
    (h : nvs ≠ .success) : (NvencCall.lockBitstream ioSlot nvs).onDevice d = d := by
  cases nvs with
  | success => exact absurd rfl h
  | _ => rfl

namespace EncodeSession

variable {g : EncodeSettings} {s s' : EncodeSession} {t : EncodeTarget} {r : NvencReplies}
  {status : Objects.VAStatus}

/-- The call does not write to an input buffer of a delayed picture. If its picture is finished,
none is delayed and the bitstream can be locked. -/
def KeepsOrder (g : EncodeSettings) (s : EncodeSession) : SessionCall → Prop
  | .endPicture t r => s.Checked t → ∀ sf ∈ t.surface, r.pushed → r.lockInputBuffer = .success →
      ¬(device s.calls).Owns s.ioSlot ∧
      (r.unlockInputBuffer = .success → s.finalReply g sf r = .success →
        (device s.calls).pending = [] ∧ r.lockBitstream = .success)
  | _ => True

instance (call : SessionCall) : Decidable (s.KeepsOrder g call) :=
  match call with
  | .endPicture t _ => inferInstanceAs (Decidable (_ → ∀ sf ∈ t.surface, _ → _ → _))
  | .beginPicture _ | .renderPicture _ => .isTrue trivial

/-- What is to be shown of an `nvEndPicture` that finds the surface `sf`. -/
theorem keepsOrder_iff {sf : EncodeSurface} (h : s.Finds t sf) (hp : r.pushed)
    (hl : r.lockInputBuffer = .success) :
    s.KeepsOrder g (.endPicture t r) ↔
      ¬(device s.calls).Owns s.ioSlot ∧
        (r.unlockInputBuffer = .success → s.finalReply g sf r = .success →
        (device s.calls).pending = [] ∧ r.lockBitstream = .success) := by
  refine ⟨fun hk => hk h.1 sf h.2 hp hl, fun hk _ sf' hsf' _ _ => ?_⟩
  rw [h.2] at hsf'
  obtain rfl := Option.some.inj hsf'
  exact hk

theorem keepsOrder_iff_of_not_success {sf : EncodeSurface} (h : s.Finds t sf) (hp : r.pushed)
    (hl : r.lockInputBuffer = .success)
    (hn : r.unlockInputBuffer = .success → s.finalReply g sf r ≠ .success) :
    s.KeepsOrder g (.endPicture t r) ↔ ¬(device s.calls).Owns s.ioSlot := by
  rw [keepsOrder_iff h hp hl]
  exact and_iff_left fun hu hc => absurd hc (hn hu)

theorem device_reconfiguredFor : device (s.reconfiguredFor g r).calls = device s.calls := by
  obtain hc | hc := s.reconfiguredFor_calls (g := g) (r := r)
  · rw [hc]
  · rw [hc]
    rfl

theorem device_copied (hl : r.lockInputBuffer = .success) :
    device (s.copied g r).calls = (device s.calls).touch s.ioSlot := by
  show (NvencCall.lockInputBuffer s.ioSlot r.lockInputBuffer).onDevice
      (device (s.reconfiguredFor g r).calls) = _
  rw [hl, device_reconfiguredFor]
  rfl

/-- Attempts that were rejected leave a slot that was written to. -/
theorem device_attempts {pic : EncPicParams} {d : Device} {calls : List NvencCall}
    (hd : device calls = d.touch pic.ioSlot)
    (attempts : List NvencCall) (ha : ∀ call ∈ attempts, Attempt pic call) :
    device (attempts ++ calls) = d.touch pic.ioSlot := by
  induction attempts with
  | nil => exact hd
  | cons call attempts ih =>
    obtain ⟨hcall, ha⟩ := List.forall_mem_cons.mp ha
    show call.onDevice (device (attempts ++ calls)) = _
    rw [ih ha]
    cases call with
    | encodePicture pic' nvs =>
      obtain ⟨hsame, rfl⟩ := hcall
      show (d.touch pic.ioSlot).touch pic'.ioSlot = _
      rw [hsame.1, Device.touch_touch]
    | reconfigureEncoder _ _ => rfl
    | _ => exact hcall.elim

/-- The encoder after the submission of the picture. -/
theorem Submits.device {sf : EncodeSurface} {nvs : NvencStatus} (hl : r.lockInputBuffer = .success)
    (hs : Submits g (s.staged g r) (s.picture g sf r) r nvs s') :
    NvVaapi.device s'.calls = (NvVaapi.device s.calls).submit s.ioSlot (deviceReply nvs) := by
  obtain ⟨pic', attempts, hc, hsame, ha⟩ := hs.attempts
  have hslot : pic'.ioSlot = s.ioSlot := hsame.1
  have hstaged : NvVaapi.device (s.staged g r).calls = (NvVaapi.device s.calls).touch s.ioSlot :=
    device_copied hl
  have hd := device_attempts hstaged attempts ha
  rw [hc]
  show (NvVaapi.device (attempts ++ (s.staged g r).calls)).submit pic'.ioSlot _ = _
  rw [hd, hslot]
  exact Device.submit_touch _

/-- An `nvEndPicture` keeps the pictures in order exactly when it meets the condition. -/
theorem Ends.inOrder (he : Ends g s t r status s') (h : (device s.calls).InOrder) :
    (device s'.calls).InOrder ↔ s.KeepsOrder g (.endPicture t r) := by
  cases he with
  | unchecked hn _ => exact iff_of_true h fun hk sf hsf => absurd ⟨hk, hsf⟩ (hn sf)
  | notPushed _ hp =>
    rw [device_reconfiguredFor]
    exact iff_of_true h fun _ _ _ hc => by simp [hp] at hc
  | lockFailed _ _ hl =>
    refine iff_of_true ?_ fun _ _ _ _ hc => absurd hc hl
    show ((NvencCall.lockInputBuffer s.ioSlot r.lockInputBuffer).onDevice
      (device (s.reconfiguredFor g r).calls)).InOrder
    rw [onDevice_lockInputBuffer hl, device_reconfiguredFor]
    exact h
  | unlockFailed hf hp hl hu =>
    rw [keepsOrder_iff_of_not_success hf hp hl fun hc => absurd hc hu, ← Device.touch_inOrder h,
      ← device_copied hl]
  | rejected hf hfill hs hn =>
    have hreply := hs.reply
    have hd := hs.device hfill.lockInputBuffer
    rw [deviceReply_of_not_taken hn, Device.submit_refused] at hd
    rw [keepsOrder_iff_of_not_success hf hfill.pushed hfill.lockInputBuffer fun _ hc =>
      hn (.inl (hreply.trans hc)), ← Device.touch_inOrder h, ← hd]
  | @delayed sf s₁ hf hfill hs =>
    have hreply := hs.reply
    have hd := hs.device hfill.lockInputBuffer
    have hiff : (device s₁.calls).InOrder ↔ s.KeepsOrder g (.endPicture t r) := by
      have hn (hc : s.finalReply g sf r = .success) : False := by cases hreply.trans hc
      rw [keepsOrder_iff_of_not_success hf hfill.pushed hfill.lockInputBuffer fun _ => hn,
        ← Device.submit_delayed_inOrder h, hd]
      rfl
    split
    · exact hiff
    · exact hiff
  | @bitstreamFailed sf s₁ hf hfill hs hb =>
    have hreply := hs.reply
    have hd := hs.device hfill.lockInputBuffer
    refine iff_of_false ?_ fun hk => hb ?_
    · show ¬((NvencCall.lockBitstream s.ioSlot r.lockBitstream).onDevice (device s₁.calls)).InOrder
      rw [onDevice_lockBitstream hb, hd]
      exact Device.submit_finished_not_inOrder h
    · rw [keepsOrder_iff hf hfill.pushed hfill.lockInputBuffer] at hk
      exact (hk.2 hfill.unlockInputBuffer hreply.symm).2
  | @delivered sf s₁ hf hfill hs hb =>
    have hreply := hs.reply
    have hd := hs.device hfill.lockInputBuffer
    have hfetched : device (s₁.fetched s.ioSlot r).calls =
        ((device s.calls).submit s.ioSlot .finished).fetch s.ioSlot := by
      show (NvencCall.lockBitstream s.ioSlot r.lockBitstream).onDevice (device s₁.calls) = _
      rw [hb, hd]
      rfl
    have hiff : (device (s₁.fetched s.ioSlot r).calls).InOrder ↔
        s.KeepsOrder g (.endPicture t r) := by
      rw [hfetched, Device.fetch_inOrder h, keepsOrder_iff hf hfill.pushed hfill.lockInputBuffer]
      refine and_congr_right fun _ => ⟨fun hp _ _ => ⟨hp, hb⟩, fun hk => ?_⟩
      exact (hk hfill.unlockInputBuffer hreply.symm).1
    split
    · exact hiff
    · exact hiff

theorem inOrder_step {call : SessionCall} (h : (device s.calls).InOrder)
    (hs : sessionStep g s call = some s') :
    (device s'.calls).InOrder ↔ s.KeepsOrder g call := by
  cases call with
  | beginPicture surface =>
    obtain rfl := Option.some.inj hs
    exact iff_of_true h trivial
  | renderPicture buffers =>
    obtain rfl := Option.some.inj hs
    refine iff_of_true ?_ trivial
    have hcalls : (s.nvRenderPicture g buffers).calls = s.calls := (renderPicture_calls buffers).1
    rwa [hcalls]
  | endPicture t r =>
    obtain ⟨⟨status, s₁⟩, he, rfl⟩ := Option.map_eq_some_iff.mp hs
    exact Ends.inOrder (endPicture_ends.eval he) h

end EncodeSession

/-- In a run: no input buffer of a delayed picture is written to, and every picture that the encoder
finished was copied once, in the order of the submissions, always, exactly when every call meets the
condition. -/
theorem ring_inOrder_iff {g : EncodeSettings} {a : SessionArgs} {s₀ s : EncodeSession}
    {calls : List SessionCall}
    (h0 : EncodeSession.nvCreateContext g a = some s₀)
    (hr : (encodeSession g).run s₀ calls = some s) :
    (encodeSession g).Always (fun s => (device s.calls).InOrder) s₀ calls ↔
      (encodeSession g).Meets (EncodeSession.KeepsOrder g) s₀ calls := by
  have hcreate : (device s₀.calls).InOrder := by
    unfold EncodeSession.nvCreateContext at h0
    split at h0
    · cases h0
    · obtain rfl := Option.some.inj h0
      exact Device.inOrder_empty
  exact Lts.always_iff_meets (I := fun _ => True) (fun _ _ _ _ _ _ => trivial)
    (fun _ _ _ _ _ hp hs => EncodeSession.inOrder_step hp hs) trivial hcreate
      (Lts.meets_true _ _) hr

/-- The encoder answers `nvs` to a picture, and everything else succeeds. -/
def answeredPicture (nvs : NvencStatus) : List SessionCall :=
  fullPicture { repliesAt 1000000000 .success with encodePicture := nvs }

/-- A picture that is finished, and a delayed one. -/
theorem ring_inOrder_iff_delayed : ∃ s : EncodeSession, (device s.calls).fetched = [0] ∧
    (device s.calls).pending = [(1, 0)] ∧ (device s.calls).InOrder := by
  let calls := answeredPicture .success ++ answeredPicture .needMoreInput
  obtain ⟨s₀, h0, hm, hr⟩ : ∃ s₀, EncodeSession.nvCreateContext plainSettings plainArgs = some s₀ ∧
      (encodeSession plainSettings).Meets (EncodeSession.KeepsOrder plainSettings) s₀ calls ∧
      ((encodeSession plainSettings).run s₀ calls).any fun s =>
        (device s.calls).fetched = [0] ∧ (device s.calls).pending = [(1, 0)] :=
    ⟨_, rfl, by decide, by decide⟩
  obtain ⟨s, hs, hp⟩ := (Option.any_eq_true _ _).mp hr
  obtain ⟨hf, hp⟩ := of_decide_eq_true hp
  exact ⟨s, hf, hp, ((ring_inOrder_iff h0 hs).mpr hm).last hs⟩

/-- One slot: the second picture is written to the input buffer of the first one, which is delayed.
Two slots: the second picture is finished, with the first one, which is never copied. -/
theorem ring_not_inOrder :
    (∃ s₀ s : EncodeSession, EncodeSession.nvCreateContext plainSettings plainArgs = some s₀ ∧
      (encodeSession plainSettings).run s₀
        (answeredPicture .needMoreInput ++ answeredPicture .needMoreInput) =
        some s ∧ s.nvencIoBufferCount = 1 ∧ (device s.calls).touched ∧ ¬(device s.calls).InOrder) ∧
    ∃ s₀ s : EncodeSession,
      EncodeSession.nvCreateContext plainSettings { plainArgs with ioDepth := 2 } = some s₀ ∧
      (encodeSession plainSettings).run s₀
        (answeredPicture .needMoreInput ++ answeredPicture .success) = some s ∧
        s.nvencIoBufferCount = 2 ∧ (device s.calls).accepted = 2 ∧ (device s.calls).pending = [] ∧
        (device s.calls).fetched = [1] ∧ ¬(device s.calls).InOrder :=
  ⟨⟨_, _, rfl, rfl, by decide, by decide, by decide⟩,
    _, _, rfl, rfl, by decide, by decide, by decide, by decide, by decide⟩

end NvVaapi
