import NvVaapi.Encode.Sizes

/-!
# The bit rates of an encoder

* `BitRates`: the average and the maximal bit rate by themselves, with what requests do to them.
* `BitRates.limit_wellFormed_iff`: a request for a percentage keeps them well-formed exactly when
  the percentage fits.
* `rates_renderBuffer`: a rendered buffer changes the rates of a session by what it requests.
* `rateSystem`: the turns for buffers, and the other calls on a session.
* `rates_wellFormed_iff`: the rates are well-formed in every state of a run exactly when every
  request for a percentage fits.
-/

namespace NvVaapi

/-! ## The rates by themselves -/

structure BitRates where
  mode : RateControlMode
  average : UInt32
  max : UInt32
  deriving DecidableEq

namespace BitRates

variable (b : BitRates)

/-- The average is positive and at most the maximum. With a constant rate it is the maximum. -/
structure WellFormed : Prop where
  pos : 0 < b.average
  le : b.average ≤ b.max
  constant : b.mode = .cbr → b.average = b.max

instance : Decidable b.WellFormed :=
  decidable_of_iff (0 < b.average ∧ b.average ≤ b.max ∧ (b.mode = .cbr → b.average = b.max))
    ⟨fun ⟨hp, hl, hc⟩ => ⟨hp, hl, hc⟩, fun h => ⟨h.pos, h.le, h.constant⟩⟩

/-- What `nvencSetBitrate` does. -/
def set (bitsPerSecond : UInt32) : BitRates :=
  if bitsPerSecond = 0 ∨ b.mode = .constqp then b
  else
    { b with
      average := bitsPerSecond
      max := if b.mode = .cbr then bitsPerSecond else if b.max <
        bitsPerSecond then bitsPerSecond else b.max }

/-- What a rate-control buffer does. -/
def limit (rc : RateControl) : BitRates :=
  if rc.bits_per_second = 0 then b
  else if rc.target_percentage ≠ 0 ∧ b.mode = .vbr then
    { b.set (EncodeSession.targetBitrate rc) with max := rc.bits_per_second }
  else b.set rc.bits_per_second

/-- What a buffer requests of the rates. -/
def request (encIsHevc : Bool) : EncodeBuffer → BitRates
  | .sequenceParameter h264 hevc =>
    if encIsHevc then hevc.elim b fun seq => b.set seq.bits_per_second
    else h264.elim b fun seq => b.set seq.bits_per_second
  | .miscParameter (some (.rateControl rc)) => b.limit rc
  | _ => b

variable {b}

@[simp] theorem set_mode (bps : UInt32) : (b.set bps).mode = b.mode := by
  unfold set
  split <;> rfl

@[simp] theorem limit_mode (rc : RateControl) : (b.limit rc).mode = b.mode := by
  unfold limit
  split_ifs <;> simp

@[simp] theorem request_mode (encIsHevc : Bool) (buf : EncodeBuffer) :
    (b.request encIsHevc buf).mode = b.mode := by
  unfold request
  split
  · next h264 hevc => cases encIsHevc <;> cases h264 <;> cases hevc <;> simp
  · exact limit_mode _
  · rfl

theorem ne_zero_pos {n : UInt32} (h : n ≠ 0) : 0 < n := by
  rw [UInt32.lt_iff_toNat_lt]
  exact Nat.pos_of_ne_zero fun hz => h (UInt32.toNat_inj.mp hz)

theorem WellFormed.set (h : b.WellFormed) (bps : UInt32) : (b.set bps).WellFormed := by
  unfold BitRates.set
  split
  · exact h
  · next hn =>
    rw [not_or] at hn
    refine ⟨ne_zero_pos hn.1, ?_, fun hc => (if_pos hc).symm⟩
    show bps ≤ if b.mode = .cbr then bps else if b.max < bps then bps else b.max
    split_ifs with _ hlt
    · exact UInt32.le_refl _
    · exact UInt32.le_refl _
    · exact UInt32.not_lt.mp hlt

/-- The percentage of the rate, rounded down, is at most the rate, and it is not 0 as long as the
average is larger than the rate. -/
def PercentageFits (rc : RateControl) (average : UInt32) : Prop :=
  (rc.bits_per_second.toNat * rc.target_percentage.toNat < 100 * (rc.bits_per_second.toNat + 1) ∨
      rc.bits_per_second = 0xffffffff) ∧
    (100 ≤ rc.bits_per_second.toNat * rc.target_percentage.toNat ∨ average ≤ rc.bits_per_second)

instance (rc : RateControl) (average : UInt32) : Decidable (PercentageFits rc average) :=
  inferInstanceAs (Decidable (_ ∧ _))

/-- The product does not wrap around, and the quotient is cut off at the largest `uint32_t`. -/
theorem toNat_targetBitrate (rc : RateControl) : (EncodeSession.targetBitrate rc).toNat =
    min (rc.bits_per_second.toNat * rc.target_percentage.toNat / 100) (2 ^ 32 - 1) := by
  have hb := rc.bits_per_second.toNat_lt
  have hp := rc.target_percentage.toNat_lt
  have hmul : rc.bits_per_second.toNat * rc.target_percentage.toNat ≤ (2 ^ 32 - 1) * (2 ^ 32 - 1) :=
    Nat.mul_le_mul (by omega) (by omega)
  have havg : (rc.bits_per_second.toUInt64 * rc.target_percentage.toUInt64 / 100).toNat =
      rc.bits_per_second.toNat * rc.target_percentage.toNat / 100 := by
    rw [UInt64.toNat_div, UInt64.toNat_mul, UInt32.toNat_toUInt64, UInt32.toNat_toUInt64,
      Nat.mod_eq_of_lt (by omega)]
    rfl
  unfold EncodeSession.targetBitrate
  dsimp only
  split
  · next h =>
    have h := UInt64.lt_iff_toNat_lt.mp h
    rw [havg] at h
    change 2 ^ 32 - 1 < _ at h
    show 2 ^ 32 - 1 = _
    omega
  · next h =>
    have h := UInt64.le_iff_toNat_le.mp (UInt64.not_lt.mp h)
    rw [havg] at h
    change _ ≤ 2 ^ 32 - 1 at h
    rw [UInt64.toNat_toUInt32, havg]
    omega

theorem percentageFits_iff (rc : RateControl) (average : UInt32) :
    PercentageFits rc average ↔ EncodeSession.targetBitrate rc ≤ rc.bits_per_second ∧
      (EncodeSession.targetBitrate rc = 0 → average ≤ rc.bits_per_second) := by
  have ht := toNat_targetBitrate rc
  have hb := rc.bits_per_second.toNat_lt
  unfold PercentageFits
  generalize rc.bits_per_second.toNat * rc.target_percentage.toNat = product at *
  have hle : EncodeSession.targetBitrate rc ≤ rc.bits_per_second ↔
      product < 100 * (rc.bits_per_second.toNat + 1) ∨ rc.bits_per_second = 0xffffffff := by
    rw [UInt32.le_iff_toNat_le, ht, ← UInt32.toNat_inj]
    show _ ↔ _ ∨ rc.bits_per_second.toNat = 2 ^ 32 - 1
    omega
  have hzero : EncodeSession.targetBitrate rc = 0 ↔ ¬100 ≤ product := by
    rw [← UInt32.toNat_inj, ht]
    show _ = 0 ↔ _
    omega
  rw [hle, hzero]
  exact and_congr_right fun _ => or_iff_not_imp_left

/-- A request for a percentage keeps the rates well-formed exactly when it fits, any other request
does. -/
theorem limit_wellFormed_iff (h : b.WellFormed) (rc : RateControl) : (b.limit rc).WellFormed ↔
    (b.mode = .vbr → rc.bits_per_second ≠ 0 → rc.target_percentage ≠ 0 →
      PercentageFits rc b.average) := by
  unfold limit
  by_cases hbps : rc.bits_per_second = 0
  · rw [if_pos hbps]
    exact iff_of_true h fun _ hne => absurd hbps hne
  rw [if_neg hbps]
  by_cases hp : rc.target_percentage ≠ 0 ∧ b.mode = .vbr
  · rw [if_pos hp, forall_prop_of_true hp.2, forall_prop_of_true hbps, forall_prop_of_true hp.1,
      percentageFits_iff]
    have hset : b.set (EncodeSession.targetBitrate rc) =
        if EncodeSession.targetBitrate rc = 0 then b else _ :=
      if_congr (or_iff_left (by rw [hp.2]; decide)) rfl rfl
    have hmode : ¬(b.set (EncodeSession.targetBitrate rc)).mode = .cbr := by
      rw [set_mode, hp.2]
      decide
    rw [hset] at *
    split at hmode
    · next hz =>
      -- the average stays as it was
      rw [if_pos hz, hz]
      refine ⟨fun hw => ⟨UInt32.zero_le, fun _ => hw.le⟩,
        fun hf => ⟨h.pos, hf.2 rfl, fun hc => absurd hc hmode⟩⟩
    · next hz =>
      rw [if_neg hz]
      exact ⟨fun hw => ⟨hw.le, fun hc => absurd hc hz⟩,
        fun hf => ⟨ne_zero_pos hz, hf.1, fun hc => absurd hc hmode⟩⟩
  · rw [if_neg hp]
    exact iff_of_true (h.set _) fun hm _ hne => absurd ⟨hne, hm⟩ hp

end BitRates

/-! ## Sessions -/

theorem setU32IfChanged_fst (dst value : UInt32) : (setU32IfChanged dst value).1 = value := by
  unfold setU32IfChanged
  split
  · assumption
  · rfl

namespace EncodeSession

variable {g : EncodeSettings} {s s' : EncodeSession}

def rates (s : EncodeSession) : BitRates :=
  let rc := s.encConfig.rcParams
  ⟨rc.rateControlMode, rc.averageBitRate, rc.maxBitRate⟩

@[simp] theorem rates_nvencSetBitrate (bps : UInt32) :
    (s.nvencSetBitrate bps).rates = s.rates.set bps := by
  unfold nvencSetBitrate BitRates.set
  by_cases hz : bps = 0
  · rw [if_pos hz, if_pos (Or.inl hz)]
  · by_cases hm : s.encConfig.rcParams.rateControlMode = .constqp
    · rw [if_neg hz, if_pos hm, if_pos (Or.inr hm : _ ∨ s.rates.mode = .constqp)]
    · rw [if_neg hz, if_neg hm, if_neg (not_or.mpr ⟨hz, hm⟩ : ¬(_ ∨ s.rates.mode = .constqp))]
      simp only [rates, markIf, setU32IfChanged_fst]
      rfl

@[simp] theorem rates_nvencSetFrameRate (num den : UInt32) :
    (s.nvencSetFrameRate num den).rates = s.rates := by
  unfold nvencSetFrameRate
  split <;> rfl

@[simp] theorem rates_nvencSetGop (gopLength idrPeriod : UInt32) :
    (s.nvencSetGop gopLength idrPeriod).rates = s.rates := by
  unfold nvencSetGop
  dsimp only
  split_ifs <;> rfl

@[simp] theorem rates_withSizes (f : EncodeContext → EncodeContext) :
    (s.withSizes f).rates = s.rates := rfl

@[simp] theorem rates_setMaxBitRate (bps : UInt32) :
    (s.setMaxBitRate bps).rates = { s.rates with max := bps } := by
  simp [setMaxBitRate, rates, markIf, setU32IfChanged_fst]

theorem rates_renderBitrate (rc : RateControl) : (s.renderBitrate rc).rates = s.rates.limit rc := by
  have hpos : rc.bits_per_second > 0 ↔ rc.bits_per_second ≠ 0 :=
    ⟨fun h hz => by simp [hz] at h, BitRates.ne_zero_pos⟩
  unfold renderBitrate BitRates.limit
  simp only [hpos, ite_not]
  split
  · rfl
  · show _ = if rc.target_percentage ≠ 0 ∧ s.encConfig.rcParams.rateControlMode = .vbr then _ else _
    split_ifs <;> simp

theorem rates_renderRateControl (rc : RateControl) :
    (s.renderRateControl rc).rates = s.rates.limit rc := by
  unfold renderRateControl
  dsimp only
  rw [← rates_renderBitrate]
  split_ifs <;> rfl

/-- A rendered buffer changes the rates by what it requests. -/
theorem rates_renderBuffer (buf : EncodeBuffer) :
    (s.renderBuffer g buf).rates = s.rates.request s.encIsHevc buf := by
  cases buf with
  | coded | other => rfl
  | sequenceParameter h264 hevc =>
    unfold renderBuffer BitRates.request
    cases s.encIsHevc with
    | true =>
      cases hevc with
      | none => rfl
      | some seq =>
        simp only [if_true, Option.elim_some, renderSequenceHevc]
        split <;> simp
    | false =>
      cases h264 with
      | none => rfl
      | some seq =>
        simp only [Bool.false_eq_true, if_false, Option.elim_some, renderSequenceH264]
        split <;> simp
  | pictureParameter h264 hevc =>
    show ((if s.encIsHevc then hevc else h264).elim s s.renderPictureParams).rates = s.rates
    cases (if s.encIsHevc then hevc else h264) <;> rfl
  | miscParameter misc =>
    match misc with
    | some (.rateControl rc) => exact rates_renderRateControl rc
    | some (.frameRate framerate) => exact rates_nvencSetFrameRate _ _
    | some .other | none => rfl

/-- The end of a picture leaves the rates as they are, if NVENC does. -/
theorem bookkeeping_rates {r : NvencReplies} (hr : r.reconfigure.changed = none)
    (hz : r.resize.changed = none)
    (b : BitRates) : Bookkeeping g r fun s => s.rates = b where
  reconfigure s hb := by
    unfold nvencReconfigureIfNeeded
    split_ifs
    iterate 4 exact hb
    simpa [reconfigured, takeParams, hr, rates, setParams, params, log] using hb
  resize s _ _ hb := by
    unfold resize
    dsimp only
    split
    · simpa [takeParams, hz, rates, setParams, resizedParams, params, log] using hb
    · exact hb
  log _ _ _ hb := hb
  forceIdr _ hb := hb
  ready _ hb := hb
  nextFrame _ _ _ hb := hb

end EncodeSession

/-! ## The system -/

/-- A turn of `nvRenderPicture` for a buffer, or another call. -/
inductive RateTurn where
  | buffer (buf : EncodeBuffer)
  | beginPicture (surface : Nat)
  | endPicture (t : EncodeTarget) (r : NvencReplies)

def rateStep (g : EncodeSettings) (s : EncodeSession) : RateTurn → Option EncodeSession
  | .buffer buf => some (s.renderBuffer g buf)
  | .beginPicture surface => sessionStep g s (.beginPicture surface)
  | .endPicture t r => sessionStep g s (.endPicture t r)

/-- A context that was created with a constant or a variable bit rate, and the turns for the buffers
that are rendered on it. -/
def rateSystem (g : EncodeSettings) : Lts EncodeSession RateTurn where
  init s := (∃ a, EncodeSession.nvCreateContext g a = some s) ∧ s.rates.mode ≠ .constqp
  step := rateStep g

/-- `nvRenderPicture` is a run of turns. -/
theorem rateSystem_render {g : EncodeSettings} {s : EncodeSession} (buffers : List EncodeBuffer) :
    (rateSystem g).run s (buffers.map .buffer) = some (s.nvRenderPicture g buffers) := by
  unfold EncodeSession.nvRenderPicture
  induction buffers generalizing s with
  | nil => rfl
  | cons buf buffers ih => exact ih

/-- NVENC leaves the configuration that it is given as it is. -/
def LeavesRates (_ : EncodeSession) : RateTurn → Prop
  | .endPicture _ r => r.reconfigure.changed = none ∧ r.resize.changed = none
  | _ => True

/-- A percentage that is requested of a variable bit rate fits. -/
def RequestFits (s : EncodeSession) : RateTurn → Prop
  | .buffer (.miscParameter (some (.rateControl rc))) =>
    s.rates.mode = .vbr → rc.bits_per_second ≠ 0 →
      rc.target_percentage ≠ 0 → BitRates.PercentageFits rc s.rates.average
  | _ => True

instance (s : EncodeSession) (turn : RateTurn) : Decidable (LeavesRates s turn) := by
  unfold LeavesRates
  split <;> infer_instance

instance (s : EncodeSession) (turn : RateTurn) : Decidable (RequestFits s turn) := by
  unfold RequestFits
  split <;> infer_instance

theorem wellFormed_create {g : EncodeSettings} {s : EncodeSession} (h : (rateSystem g).init s) :
    s.rates.WellFormed := by
  obtain ⟨⟨a, ha⟩, hm⟩ := h
  unfold EncodeSession.nvCreateContext at ha
  split at ha
  · cases ha
  · rw [← Option.some.inj ha] at hm ⊢
    clear ha
    unfold EncodeSession.rates EncConfig.ofPreset at *
    dsimp only at *
    have hcbr : BitRates.WellFormed ⟨.cbr, 5000000, 5000000⟩ := by decide
    split_ifs at *
    · exact hcbr
    · exact (by decide : BitRates.WellFormed ⟨.vbr, 5000000, 10000000⟩)
    · exact absurd rfl hm
    · exact hcbr

/-- What one turn does. -/
theorem rates_step {g : EncodeSettings} {s s' : EncodeSession} {turn : RateTurn}
    (hc : LeavesRates s turn) (hw : s.rates.WellFormed)
    (hs : (rateSystem g).step s turn = some s') : s'.rates.WellFormed ↔ RequestFits s turn := by
  cases turn with
  | beginPicture surface =>
    obtain rfl := Option.some.inj hs
    exact iff_of_true hw trivial
  | endPicture t r =>
    have hr : s'.rates = s.rates :=
      EncodeSession.endPicture_invariant (EncodeSession.bookkeeping_rates hc.1 hc.2 s.rates) hs rfl
    rw [hr]
    exact iff_of_true hw trivial
  | buffer buf =>
    obtain rfl := Option.some.inj hs
    rw [EncodeSession.rates_renderBuffer]
    unfold BitRates.request RequestFits
    split
    · next h264 hevc =>
      refine iff_of_true ?_ trivial
      cases s.encIsHevc <;> cases h264 <;> cases hevc <;> first | exact hw | exact hw.set _
    · next rc => exact BitRates.limit_wellFormed_iff hw rc
    · next hseq hrc =>
      refine iff_of_true hw ?_
      split
      · next rc he => exact absurd (RateTurn.buffer.inj he) (hrc rc)
      · trivial

/-- In a run of a context with a constant or a variable bit rate: the average is positive and at
most the maximum in every state, and the maximum where the rate is constant, exactly when every
percentage that is requested of a variable rate fits. -/
theorem rates_wellFormed_iff {g : EncodeSettings} {s₀ s : EncodeSession} {turns : List RateTurn}
    (h0 : (rateSystem g).init s₀) (hm : (rateSystem g).Meets LeavesRates s₀ turns)
    (hr : (rateSystem g).run s₀ turns = some s) :
    (rateSystem g).Always (fun s => s.rates.WellFormed) s₀ turns ↔
      (rateSystem g).Meets RequestFits s₀ turns :=
  Lts.always_iff_meets (I := fun _ => True) (fun _ _ _ _ _ _ => trivial)
    (fun _ _ _ _ hc hw hs => rates_step hc hw hs) trivial (wellFormed_create h0) hm hr

def vbrArgs : SessionArgs := { plainArgs with mode := ⟨false, true, false⟩ }

def percentageBuffer (bps percentage : UInt32) : EncodeBuffer :=
  .miscParameter (some (.rateControl ⟨bps, percentage, 0, 0⟩))

/-- Half of 2 Mbit/s. -/
theorem rates_wellFormed_iff_half :
    ∃ s : EncodeSession, s.rates = ⟨.vbr, 1000000, 2000000⟩ ∧ s.rates.WellFormed := by
  obtain ⟨s₀, h0, hm, hf, hr⟩ : ∃ s₀, (rateSystem plainSettings).init s₀ ∧
      (rateSystem plainSettings).Meets LeavesRates s₀ [.buffer (percentageBuffer 2000000 50)] ∧
      (rateSystem plainSettings).Meets RequestFits s₀ [.buffer (percentageBuffer 2000000 50)] ∧
      ((rateSystem plainSettings).run s₀ [.buffer (percentageBuffer 2000000 50)]).any
        fun s => s.rates = ⟨.vbr, 1000000, 2000000⟩ :=
    ⟨_, ⟨⟨vbrArgs, rfl⟩, by decide⟩, by decide, by decide, by decide⟩
  obtain ⟨s, hs, hv⟩ := (Option.any_eq_true _ _).mp hr
  exact ⟨s, of_decide_eq_true hv, ((rates_wellFormed_iff h0 hm hs).mpr hf).last hs⟩

/-- 150 % of 1 Mbit/s are more than the maximum that is set after it. -/
theorem rates_not_wellFormed : ∃ s : EncodeSession, (rateSystem plainSettings).Reach s ∧
    s.rates = ⟨.vbr, 1500000, 1000000⟩ ∧ ¬s.rates.WellFormed := by
  obtain ⟨s₀, h0, hr⟩ : ∃ s₀, (rateSystem plainSettings).init s₀ ∧
      (s₀.renderBuffer plainSettings (percentageBuffer 1000000 150)).rates = ⟨.vbr,
        1500000, 1000000⟩ :=
    ⟨_, ⟨⟨vbrArgs, rfl⟩, by decide⟩, by decide⟩
  refine ⟨_, .step (a := .buffer (percentageBuffer 1000000 150)) (.init h0) rfl, hr, ?_⟩
  rw [hr]
  decide

end NvVaapi
