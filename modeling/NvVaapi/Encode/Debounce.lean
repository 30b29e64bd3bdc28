import NvVaapi.Encode.Ending

/-!
# The time between two reconfigurations

* `Clock`: the latest reading of the clock and the latest one that was stored.
* `readings`: the readings that an `nvEndPicture` takes, in their turn. `Ends.lastReconfigure` says
  that `encLastReconfigureNs` is the latest one that was stored.
* `timeline`: the calls on a session, with its clock.
* `debounced`: an encoder that is reconfigured without a change of the size waits for the interval,
  and a change that has to wait is pending until it is handed to the encoder.
-/

namespace NvVaapi

open Objects (NvencStatus)

/-! ## Clocks -/

/-- A reading of the clock. It is stored after a reconfiguration. -/
structure Reading where
  time : UInt64
  stored : Bool
  deriving DecidableEq

/-- The latest reading, and the latest one that was stored. -/
structure Clock where
  latest : UInt64
  stored : UInt64
  deriving DecidableEq

namespace Clock

variable {c : Clock}

def read (c : Clock) (r : Reading) : Clock := ⟨r.time, if r.stored then r.time else c.stored⟩

/-- The readings increase strictly. -/
def Ticks (c : Clock) (rs : List Reading) : Prop :=
  List.IsChain (· < ·) (c.latest :: rs.map Reading.time)

instance (rs : List Reading) : Decidable (c.Ticks rs) :=
  inferInstanceAs (Decidable (List.IsChain _ _))

/-- What was stored is not 0, and not later than the latest reading. -/
structure Ok (c : Clock) : Prop where
  pos : 0 < c.stored
  le : c.stored ≤ c.latest

theorem Ok.read (h : c.Ok) {rs : List Reading} (ht : c.Ticks rs) : (rs.foldl Clock.read c).Ok := by
  induction rs generalizing c with
  | nil => exact h
  | cons r rs ih =>
    obtain ⟨hlt, hrest⟩ := List.isChain_cons_cons.mp ht
    refine ih ⟨?_, ?_⟩ hrest
    · show 0 < if r.stored then r.time else c.stored
      split
      · exact UInt64.lt_of_le_of_lt UInt64.zero_le hlt
      · exact h.pos
    · show (if r.stored then r.time else c.stored) ≤ r.time
      split
      · exact UInt64.le_refl _
      · exact UInt64.le_trans h.le (UInt64.le_of_lt hlt)

end Clock

namespace EncodeSession

variable {g : EncodeSettings} {s s' : EncodeSession} {t : EncodeTarget} {r : NvencReplies}
  {vas : Objects.VAStatus}

/-! ## Readings -/

/-- `nvencReconfigureIfNeeded` looks at the clock before it goes on. -/
def LooksAtClock (g : EncodeSettings) (s : EncodeSession) : Prop :=
  s.encNeedsReconfigure ∧ g.reconfigureAvailable ∧ ¬s.ResolutionChange ∧ g.g_encReconfigureMinMs > 0

instance : Decidable (s.LooksAtClock g) := inferInstanceAs (Decidable (_ ∧ _ ∧ _ ∧ _))

/-- `nvencReconfigureIfNeeded` calls `nvEncReconfigureEncoder`. -/
def Reconfigures (g : EncodeSettings) (s : EncodeSession) (now : UInt64) : Prop :=
  s.encNeedsReconfigure ∧ g.reconfigureAvailable ∧ (s.ResolutionChange ∨ ¬s.Debounced g now)

instance (now : UInt64) : Decidable (s.Reconfigures g now) :=
  inferInstanceAs (Decidable (_ ∧ _ ∧ _))

/-- The readings of `nvencReconfigureIfNeeded`. -/
def checkReadings (g : EncodeSettings) (s : EncodeSession) (r : NvencReplies) : List Reading :=
  (if s.LooksAtClock g then [⟨r.now, false⟩] else []) ++
    if s.Reconfigures g r.now ∧ r.reconfigure.nvs = .success then [⟨r.reconfigure.now, true⟩]
    else []

/-- The reading after the encoder was reconfigured to the size of the picture. -/
def resizeReadings (g : EncodeSettings) (s : EncodeSession) (sf : EncodeSurface)
    (r : NvencReplies) : List Reading :=
  if Fills r ∧ (s.staged g r).Rejects (s.picture g sf r) r ∧ Resizes g r then [⟨r.resize.now, true⟩]
  else []

/-- The readings of an `nvEndPicture`. -/
def readings (g : EncodeSettings) (s : EncodeSession) (t : EncodeTarget) (r : NvencReplies) :
    List Reading :=
  if s.Checked t then t.surface.elim [] fun sf => s.checkReadings g r ++ s.resizeReadings g sf r
  else []

theorem Finds.readings {sf : EncodeSurface} (h : s.Finds t sf) :
    s.readings g t r = s.checkReadings g r ++ s.resizeReadings g sf r := by
  unfold EncodeSession.readings
  rw [if_pos h.1, h.2]
  rfl

theorem readings_of_not_finds (h : ∀ sf, ¬s.Finds t sf) : s.readings g t r = [] := by
  unfold readings
  split
  · next hk =>
    cases ht : t.surface with
    | none => rfl
    | some sf => exact absurd ⟨hk, ht⟩ (h sf)
  · rfl

theorem resizeReadings_of_not_fills {sf : EncodeSurface} (h : ¬Fills r) :
    s.resizeReadings g sf r = [] :=
  if_neg fun hc => h hc.1

/-! ## What is stored -/

theorem lastReconfigure_reconfiguredFor : (s.reconfiguredFor g r).encLastReconfigureNs =
    if s.Reconfigures g r.now ∧ r.reconfigure.nvs = .success then r.reconfigure.now
    else s.encLastReconfigureNs := by
  unfold reconfiguredFor nvencReconfigureIfNeeded Reconfigures
  by_cases hd : s.encNeedsReconfigure <;> by_cases ha : g.reconfigureAvailable <;>
    by_cases hb : s.Debounced g r.now <;> by_cases hn : r.reconfigure.nvs = .success <;>
    by_cases hc : s.ResolutionChange <;>
    simp [hd, ha, hb, hn, hc, reconfigured, takeParams, log]

theorem stored_checkReadings {c : Clock} (h : c.stored = s.encLastReconfigureNs) :
    ((s.checkReadings g r).foldl Clock.read c).stored =
      (s.reconfiguredFor g r).encLastReconfigureNs := by
  rw [lastReconfigure_reconfiguredFor, ← h]
  unfold checkReadings
  split_ifs
  iterate 4 rfl

/-- The submission of a picture stores the reading after its resize. -/
theorem Submits.lastReconfigure {pic : EncPicParams} {nvs : NvencStatus}
    (h : Submits g s pic r nvs s') :
    s'.encLastReconfigureNs = if s.Rejects pic r ∧
      Resizes g r then r.resize.now else s.encLastReconfigureNs := by
  have hresized (hz : Resizes g r) : (s.rejected g pic r).encLastReconfigureNs = r.resize.now := by
    unfold EncodeSession.rejected resize
    dsimp only
    rw [if_pos hz.1, if_pos hz.2]
    rfl
  cases h with
  | once hn => rw [if_neg fun hc => hn hc.1]; rfl
  | notResized _ hz =>
    rw [if_neg fun hc => hz hc.2]
    show (s.rejected g pic r).encLastReconfigureNs = _
    unfold EncodeSession.rejected resize
    dsimp only
    split
    · next ha => rw [if_neg fun hn => hz ⟨ha, hn⟩]; rfl
    · rfl
  | resized hrej hz _ | again hrej hz _ =>
    rw [if_pos ⟨hrej, hz⟩]
    exact hresized hz

theorem stored_resizeReadings {c : Clock} {sf : EncodeSurface} (hf : Fills r) {nvs : NvencStatus}
    (hs : Submits g (s.staged g r) (s.picture g sf r) r nvs s')
    (h : c.stored = (s.reconfiguredFor g r).encLastReconfigureNs) :
    ((s.resizeReadings g sf r).foldl Clock.read c).stored = s'.encLastReconfigureNs := by
  have hstaged : (s.staged g r).encLastReconfigureNs = c.stored := h.symm
  rw [hs.lastReconfigure, hstaged]
  unfold resizeReadings
  rw [if_congr (and_iff_right hf) rfl rfl]
  split
  · rfl
  · rfl

/-- After an `nvEndPicture`, `encLastReconfigureNs` is the latest reading that was stored. -/
theorem Ends.lastReconfigure (he : Ends g s t r vas s') {c : Clock}
    (h : c.stored = s.encLastReconfigureNs) :
    ((s.readings g t r).foldl Clock.read c).stored = s'.encLastReconfigureNs := by
  have hexit {sf : EncodeSurface} (hf : s.Finds t sf) (hn : ¬Fills r) :
      ((s.readings g t r).foldl Clock.read c).stored =
        (s.reconfiguredFor g r).encLastReconfigureNs := by
    rw [hf.readings, resizeReadings_of_not_fills hn, List.append_nil]
    exact stored_checkReadings h
  have hsub {sf : EncodeSurface} {nvs : NvencStatus}
      {s₁ : EncodeSession} (hf : s.Finds t sf) (hfill : Fills r)
      (hs : Submits g (s.staged g r) (s.picture g sf r) r nvs s₁) :
      ((s.readings g t r).foldl Clock.read c).stored = s₁.encLastReconfigureNs := by
    rw [hf.readings, List.foldl_append]
    exact stored_resizeReadings hfill hs (stored_checkReadings h)
  cases he with
  | unchecked hn _ =>
    rw [readings_of_not_finds hn]
    exact h
  | notPushed hf hp => exact hexit hf fun hfill => absurd hfill.pushed (by simp [hp])
  | lockFailed hf _ hl => exact hexit hf fun hfill => hl hfill.lockInputBuffer
  | unlockFailed hf _ _ hu => exact hexit hf fun hfill => hu hfill.unlockInputBuffer
  | rejected hf hfill hs _ | bitstreamFailed hf hfill hs _ =>
    have hend := hsub hf hfill hs
    exact hend
  | delayed hf hfill hs | delivered hf hfill hs _ =>
    have hend := hsub hf hfill hs
    split
    · exact hend
    · exact hend

/-! ## The interval -/

/-- The call of `nvEncReconfigureEncoder` in `nvencReconfigureIfNeeded`. -/
theorem reconfigures_of_calls {now : UInt64} {reply : ReconfigureReply}
    (h : (s.nvencReconfigureIfNeeded g now reply).calls ≠ s.calls) : s.Reconfigures g now := by
  unfold nvencReconfigureIfNeeded at h
  split_ifs at h with hd ha hb
  iterate 3 exact absurd rfl h
  iterate 2
    refine ⟨by simpa using hd, by simpa using ha, ?_⟩
    rwa [not_and_or, not_not] at hb

/-- A reconfiguration that is not debounced, with a reading that is later than the stored one. -/
theorem interval_of_not_debounced {now : UInt64} (h : ¬s.Debounced g now)
    (hg : g.g_encReconfigureMinMs > 0) (hpos : 0 < s.encLastReconfigureNs)
    (hlt : s.encLastReconfigureNs < now) :
    g.g_encReconfigureMinMs.toNat * 1000000 ≤ now.toNat - s.encLastReconfigureNs.toNat := by
  have hne : s.encLastReconfigureNs ≠ 0 := fun hz => by simp [hz] at hpos
  have hle : ¬now - s.encLastReconfigureNs < g.g_encReconfigureMinMs.toUInt64 * 1000000 :=
    fun hc => h ⟨hg, hne, hlt, hc⟩
  have hle := UInt64.le_iff_toNat_le.mp (UInt64.not_lt.mp hle)
  have hmin := g.g_encReconfigureMinMs.toNat_lt
  have hsub : (now - s.encLastReconfigureNs).toNat = now.toNat - s.encLastReconfigureNs.toNat :=
    UInt64.toNat_sub_of_le _ _ (UInt64.le_of_lt hlt)
  rw [hsub, UInt64.toNat_mul, UInt32.toNat_toUInt64] at hle
  change g.g_encReconfigureMinMs.toNat * 1000000 % 2 ^ 64 ≤ _ at hle
  rwa [Nat.mod_eq_of_lt (by omega)] at hle

theorem renderPicture_lastReconfigure (buffers : List EncodeBuffer) :
    (s.nvRenderPicture g buffers).encLastReconfigureNs = s.encLastReconfigureNs := by
  refine renderPicture_keeps (·.encLastReconfigureNs) (fun s buf => ?_) buffers
  obtain ⟨_, _, _, _, _, _, he⟩ := renderBuffer_configured (g := g) (s := s) buf
  rw [he]
  rfl

/-! ## Pending changes -/

/-- The encoder was given the configuration of `s` since, with the same size or another one. -/
def HandsOver (s s' : EncodeSession) : Prop := ∃ added, s'.calls = added ++ s.calls ∧
  ∃ sizes, NvencCall.reconfigureEncoder { s.params with sizes := sizes } .success ∈ added

/-- The changes are still pending, or the encoder was given them. -/
def PendingSince (s s' : EncodeSession) : Prop :=
  (s'.encNeedsReconfigure ∧ s'.params = s.params ∧ ∃ added, s'.calls = added ++ s.calls) ∨
    s.HandsOver s'

theorem HandsOver.log (h : s.HandsOver s') (call : NvencCall) : s.HandsOver (s'.log call) := by
  obtain ⟨added, hc, sizes, hm⟩ := h
  exact ⟨call :: added, congrArg (call :: ·) hc, sizes, List.mem_cons_of_mem _ hm⟩

theorem handsOver_log (sizes : EncInitParams) {added : List NvencCall}
    (hc : s'.calls = added ++ s.calls) :
    s.HandsOver (s'.log (.reconfigureEncoder { s.params with sizes := sizes } .success)) :=
  ⟨_ :: added, congrArg (_ :: ·) hc, sizes, List.mem_cons_self⟩

/-- Where reconfigurations succeed, the end of a picture leaves the changes pending or gives them to
the encoder. -/
theorem bookkeeping_pendingSince (s : EncodeSession) (hg : g.reconfigureAvailable)
    (hr : r.reconfigure.nvs = .success)
    (hz : r.resize.nvs = .success) : Bookkeeping g r s.PendingSince where
  reconfigure s₁ h := by
    unfold nvencReconfigureIfNeeded
    split_ifs with hd ha hb hn
    · exact h
    · simp [hg] at ha
    · exact h
    · exact absurd hr hn
    · obtain ⟨-, hp, added, hc⟩ | h := h
      · rw [hr, hp]
        exact .inr (handsOver_log s.params.sizes hc)
      · exact .inr (h.log _)
  resize s₁ width height h := by
    unfold resize
    dsimp only
    rw [if_pos hz]
    obtain ⟨-, hp, added, hc⟩ | h := h
    · have hparams : s₁.resizedParams width height =
          { s.params with sizes := (s₁.resizedParams width height).sizes } := by
        unfold resizedParams
        rw [hp]
      rw [hz]
      exact .inr (hparams ▸ handsOver_log _ hc)
    · exact .inr (h.log _)
  log s₁ call _ h := by
    refine h.imp ?_ fun h => h.log call
    rintro ⟨hd, hp, added, hc⟩
    exact ⟨hd, hp, call :: added, congrArg (call :: ·) hc⟩
  forceIdr _ h := h
  ready _ h := h
  nextFrame _ _ _ h := h

/-- Rendering leaves a change pending. -/
theorem renderPicture_pending (buffers : List EncodeBuffer) (h : s.encNeedsReconfigure) :
    (s.nvRenderPicture g buffers).encNeedsReconfigure := by
  have hmarks :
      WriteBack.Marks (s.copyOf fun _ => none)
        ((s.nvRenderPicture g buffers).copyOf fun _ => none) :=
    marks_nvRenderPicture buffers
  exact hmarks.dirty h

end EncodeSession

/-! ## Every run -/

/-- A session with its clock. -/
structure Timeline where
  session : EncodeSession
  clock : Clock

def Timeline.step (g : EncodeSettings) (h : Timeline) (call : SessionCall) : Option Timeline :=
  (sessionStep g h.session call).map fun s =>
    ⟨s, match call with
      | .endPicture t r => (h.session.readings g t r).foldl Clock.read h.clock
      | _ => h.clock⟩

/-- The calls on a session, with the clock. `nvCreateContext` stores the first reading, which is not
0. -/
def timeline (g : EncodeSettings) : Lts Timeline SessionCall where
  init h := ∃ a, EncodeSession.nvCreateContext g a = some h.session ∧
    h.clock = ⟨a.now, a.now⟩ ∧ 0 < a.now
  step := Timeline.step g

/-- Every reconfiguration of the call succeeds, and the readings increase. -/
def Timeline.Ticks (g : EncodeSettings) (h : Timeline) : SessionCall → Prop
  | .endPicture t r =>
    r.reconfigure.nvs = .success ∧ r.resize.nvs = .success ∧
      h.clock.Ticks (h.session.readings g t r)
  | _ => True

instance (g : EncodeSettings) (h : Timeline) (call : SessionCall) : Decidable (h.Ticks g call) :=
  match call with
  | .endPicture _ _ => inferInstanceAs (Decidable (_ ∧ _ ∧ _))
  | .beginPicture _ | .renderPicture _ => .isTrue trivial

namespace Timeline

variable {g : EncodeSettings} {h h' : Timeline} {call : SessionCall}

/-- `encLastReconfigureNs` is the latest reading that was stored. -/
structure Ok (h : Timeline) : Prop extends h.clock.Ok where
  stored : h.clock.stored = h.session.encLastReconfigureNs

theorem Ok.init (hi : (timeline g).init h) : h.Ok := by
  obtain ⟨a, ha, hc, hpos⟩ := hi
  refine ⟨?_, ?_⟩
  · rw [hc]
    exact ⟨hpos, UInt64.le_refl _⟩
  · rw [hc]
    unfold EncodeSession.nvCreateContext at ha
    split at ha
    · cases ha
    · rw [← Option.some.inj ha]

theorem Ok.step (hok : h.Ok) (ht : h.Ticks g call) (hs : (timeline g).step h call = some h') :
    h'.Ok := by
  obtain ⟨s', hst, rfl⟩ := Option.map_eq_some_iff.mp hs
  cases call with
  | beginPicture surface =>
    obtain rfl := Option.some.inj hst
    exact ⟨hok.toOk, hok.stored⟩
  | renderPicture buffers =>
    obtain rfl := Option.some.inj hst
    refine ⟨hok.toOk, hok.stored.trans ?_⟩
    exact (EncodeSession.renderPicture_lastReconfigure buffers).symm
  | endPicture t r =>
    obtain ⟨⟨vas, s₁⟩, he, rfl⟩ := Option.map_eq_some_iff.mp hst
    have hend : EncodeSession.Ends g h.session t r vas s₁ := EncodeSession.endPicture_ends.eval he
    exact ⟨hok.toOk.read ht.2.2, hend.lastReconfigure hok.stored⟩

/-- A call leaves a change pending, or gives it to the encoder. The end of a picture leaves what is
pending as it is. -/
theorem pending_step (hg : g.reconfigureAvailable) (hd : h.session.encNeedsReconfigure)
    (ht : h.Ticks g call)
    (hs : (timeline g).step h call = some h') :
    (h'.session.encNeedsReconfigure ∧ ∀ t r, call = .endPicture t r →
      h'.session.params = h.session.params) ∨
      h.session.HandsOver h'.session := by
  obtain ⟨s', hst, rfl⟩ := Option.map_eq_some_iff.mp hs
  cases call with
  | beginPicture surface =>
    obtain rfl := Option.some.inj hst
    exact .inl ⟨hd, fun _ _ hc => by cases hc⟩
  | renderPicture buffers =>
    obtain rfl := Option.some.inj hst
    exact .inl ⟨EncodeSession.renderPicture_pending buffers hd, fun _ _ hc => by cases hc⟩
  | endPicture t r =>
    have hpending : h.session.PendingSince h.session := .inl ⟨hd, rfl, [], rfl⟩
    have hkeeps : EncodeSession.Bookkeeping g r h.session.PendingSince :=
      EncodeSession.bookkeeping_pendingSince h.session hg ht.1 ht.2.1
    have hend : h.session.PendingSince s' := EncodeSession.endPicture_invariant hkeeps hst hpending
    obtain ⟨hd', hp, -⟩ | hover := hend
    · exact .inl ⟨hd', fun _ _ _ => hp⟩
    · exact .inr hover

/-- A change is pending, and `nvencReconfigureIfNeeded` does not make it because of the interval. -/
def Waits (g : EncodeSettings) (h : Timeline) (now : UInt64) : Prop :=
  h.session.encNeedsReconfigure ∧ g.reconfigureAvailable ∧ ¬h.session.ResolutionChange ∧
    h.session.Debounced g now

instance (now : UInt64) : Decidable (h.Waits g now) := inferInstanceAs (Decidable (_ ∧ _ ∧ _ ∧ _))

theorem Waits.session_eq {now : UInt64} (hw : h.Waits g now) (r : ReconfigureReply) :
    h.session.nvencReconfigureIfNeeded g now r = h.session := by
  obtain ⟨hd, hg, hc, hb⟩ := hw
  unfold EncodeSession.nvencReconfigureIfNeeded
  rw [if_neg (by simp [hd]), if_neg (by simp [hg]), if_pos ⟨hc, hb⟩]

/-- The encoder is reconfigured without a change of the size. -/
theorem Ok.interval {t : EncodeTarget} {r : NvencReplies} {sf : EncodeSurface} (hok : h.Ok)
    (ht : h.Ticks g (.endPicture t r)) (hf : h.session.Finds t sf)
    (hc : ¬h.session.ResolutionChange)
    (hcalls : (h.session.nvencReconfigureIfNeeded g r.now r.reconfigure).calls ≠ h.session.calls) :
    g.g_encReconfigureMinMs.toNat * 1000000 ≤ r.now.toNat - h.clock.stored.toNat := by
  obtain ⟨hd, ha, hb⟩ := EncodeSession.reconfigures_of_calls hcalls
  by_cases hmin : g.g_encReconfigureMinMs > 0
  · -- the clock is looked at first
    have hticks := ht.2.2
    rw [hf.readings, EncodeSession.checkReadings, if_pos ⟨hd, ha, hc, hmin⟩] at hticks
    have hlt : h.clock.latest < r.now := (List.isChain_cons_cons.mp hticks).1
    rw [hok.stored]
    refine EncodeSession.interval_of_not_debounced (hb.resolve_left hc) hmin ?_ ?_
    · exact hok.stored ▸ hok.pos
    · exact hok.stored ▸ UInt64.lt_of_le_of_lt hok.le hlt
  · have hzero : g.g_encReconfigureMinMs.toNat = 0 :=
      Nat.eq_zero_of_not_pos fun hp => hmin (UInt32.lt_iff_toNat_lt.mpr hp)
    rw [hzero, Nat.zero_mul]
    exact Nat.zero_le _

end Timeline

/-- In every run whose reconfigurations succeed and whose readings of the clock increase. When the
encoder is reconfigured without a change of the size, the interval has passed since the latest
reading that was stored. A change that has to wait stays as it is. After every run from there it is
still pending, and the end of a picture has not changed it, unless a call of the run gave it to the
encoder. -/
theorem debounced {g : EncodeSettings} {h : Timeline}
    (hr : (timeline g).ReachWhen (Timeline.Ticks g) h) :
    (∀ (t : EncodeTarget) (r : NvencReplies) (sf : EncodeSurface), h.Ticks g (.endPicture t r) →
      h.session.Finds t sf → ¬h.session.ResolutionChange →
      (h.session.nvencReconfigureIfNeeded g r.now r.reconfigure).calls ≠ h.session.calls →
        g.g_encReconfigureMinMs.toNat * 1000000 ≤ r.now.toNat - h.clock.stored.toNat) ∧
    ∀ (r : NvencReplies), h.Waits g r.now →
      h.session.nvencReconfigureIfNeeded g r.now r.reconfigure = h.session ∧
      ∀ calls h', (timeline g).Meets (Timeline.Ticks g) h calls →
      (timeline g).run h calls = some h' →
        (h'.session.encNeedsReconfigure ∧
          ∀ t r h'', h'.Ticks g (.endPicture t r) →
          (timeline g).step h' (.endPicture t r) = some h'' →
            h''.session.encNeedsReconfigure ∧ h''.session.params = h'.session.params ∨
              h'.session.HandsOver h''.session) ∨
        ∃ before call after h₁ h₂, calls = before ++ call :: after ∧
          (timeline g).run h before = some h₁ ∧
          h₁.session.encNeedsReconfigure ∧ (timeline g).step h₁ call = some h₂ ∧
          h₁.session.HandsOver h₂.session := by
  have hok : h.Ok := hr.invariant (fun _ hi => .init hi) fun _ _ _ hok ht hs => hok.step ht hs
  refine ⟨fun t r sf ht hf hc hcalls => hok.interval ht hf hc hcalls,
    fun r hw => ⟨hw.session_eq _, ?_⟩⟩
  intro calls h' hm hrun
  have hg := hw.2.1
  have huntil := Lts.run_until (P := fun h => h.session.encNeedsReconfigure)
    (Q := fun h h' => h.session.HandsOver h'.session)
    (fun h call h' hd ht hs => (Timeline.pending_step hg hd ht hs).imp_left And.left) hw.1 hm hrun
  refine huntil.imp_left fun hd => ⟨hd, fun t r h'' ht hs => ?_⟩
  exact (Timeline.pending_step hg hd ht hs).imp_left fun hp => ⟨hp.1, hp.2 t r rfl⟩

/-- A new bitrate 1 µs after the creation has to wait, and 1 s after it does not. -/
theorem debounced_bitrate : ∃ h : Timeline, h.session.encNeedsReconfigure ∧
    h.session.nvencReconfigureIfNeeded plainSettings 1000 ⟨.success, none, 1000⟩ = h.session ∧
    (h.session.nvencReconfigureIfNeeded plainSettings 1000000000 ⟨.success, none,
      1000000001⟩).calls ≠
      h.session.calls ∧ 800 * 1000000 ≤ 1000000000 - h.clock.stored.toNat := by
  let calls : List SessionCall := [.beginPicture 1, .renderPicture [.coded, bitrateBuffer 2000000]]
  let target : EncodeTarget := ⟨some (.created 64 64), true, true⟩
  let late := { repliesAt 1000000000 .success with reconfigure := ⟨.success, none, 1000000001⟩ }
  obtain ⟨h₀, hi, hm, hr⟩ : ∃ h₀, (timeline plainSettings).init h₀ ∧
      (timeline plainSettings).Meets (Timeline.Ticks plainSettings) h₀ calls ∧
      ((timeline plainSettings).run h₀ calls).any fun h => h.session.encNeedsReconfigure ∧
        h.Waits plainSettings 1000 ∧ h.Ticks plainSettings (.endPicture target late) ∧
        h.session.Checked target ∧
        ¬h.session.ResolutionChange ∧
        (h.session.nvencReconfigureIfNeeded plainSettings late.now late.reconfigure).calls ≠
          h.session.calls :=
    ⟨⟨_, ⟨1, 1⟩⟩, ⟨plainArgs, rfl, rfl, by decide⟩, by decide, by decide⟩
  obtain ⟨h, hrun, hp⟩ := (Option.any_eq_true _ _).mp hr
  obtain ⟨hd, hw, ht, hk, hc, hcalls⟩ := of_decide_eq_true hp
  have hreach := (Lts.ReachWhen.init (M := timeline plainSettings) hi).run hm hrun
  obtain ⟨hinterval, hwait⟩ := debounced hreach
  exact ⟨h, hd, (hwait (repliesAt 1000 .success) hw).1, hcalls,
    hinterval target late _ ht ⟨hk, rfl⟩ hc hcalls⟩

end NvVaapi
