import NvVaapi.Codec.AV1Params
import NvVaapi.Lib.Serial

/-!
# The skip mode of AV1

* `skipModeFrames`: the two references of the skip mode, by their distance to the picture.
* `getRelativeDist_toInt`: the code's distance is that of order hints that wrap.
  `getRelativeDist_signed_wrap` says which number that is.
* `Tracks`: what a loop has kept. `nearestLoop_tracks` and `secondLoop_tracks` are the two loops.
* `skipMode_frames`: where no reference is half a period away, the code finds these references.
-/

namespace NvVaapi.AV1

open References
open Serial (wrapDist greatest least keep)

/-- The nearest reference before the picture goes with the nearest one behind it, or else with the
next one before. A tie goes to the first. -/
def skipModeFrames (d : Nat → Int) : Nat × Nat :=
  match greatest d ((List.range 7).filter (d · < 0)) with
  | none => (0, 0)
  | some f =>
    match least d ((List.range 7).filter (0 < d ·)) with
    | some b => (min f b + 1, max f b + 1)
    | none =>
      match greatest d ((List.range 7).filter (d · < d f)) with
      | some s => (min f s + 1, max f s + 1)
      | none => (0, 0)

/-! ## The distance -/

theorem getRelativeDist_toInt {pps : CUVIDAV1PICPARAMS} (h : pps.enableOrderHint = true)
    (a b : Int32) :
    (getRelativeDist pps a b).toInt = wrapDist pps.orderHintBitsMinus1 a.toInt b.toInt := by
  have hm : ∀ k : Fin 8, ((1 : Int32) <<< Int32.ofNat k).toBitVec.toNat = 2 ^ k.val ∧
      ((1 : Int32) <<< Int32.ofNat k - 1).toBitVec.toNat = 2 ^ k.val - 1 := by decide
  obtain ⟨hm, hm1⟩ := hm pps.orderHintBitsMinus1
  rw [getRelativeDist, h]
  show (((a - b) &&& _) - ((a - b) &&& _)).toInt = _
  rw [Serial.toInt_masked _ _ (by omega) hm hm1, Int32.toInt_sub, wrapDist]
  exact Int.bmod_bmod_of_dvd (Nat.pow_dvd_pow 2 (by omega))

/-- With `k` for `order_hint_bits_minus1`, the distance is the one signed number of `k + 1` bits
that is the difference of the hints modulo `2 ^ (k + 1)`. Hints less than half a period apart have
their difference. -/
theorem getRelativeDist_signed_wrap {pps : CUVIDAV1PICPARAMS} (h : pps.enableOrderHint = true)
    (refHint orderHint : Int32) :
    let k := pps.orderHintBitsMinus1.val
    let diff := refHint.toInt - orderHint.toInt
    let dist := (getRelativeDist pps refHint orderHint).toInt
    (dist ≡ diff [ZMOD 2 ^ (k + 1)] ∧ -2 ^ k ≤ dist ∧ dist < 2 ^ k) ∧
      (∀ d : Int, d ≡ diff [ZMOD 2 ^ (k + 1)] → -2 ^ k ≤ d → d < 2 ^ k → d = dist) ∧
      (|diff| < 2 ^ k → dist = diff) := by
  intro k diff dist
  have hdist : dist = wrapDist k refHint.toInt orderHint.toInt :=
    getRelativeDist_toInt h refHint orderHint
  rw [hdist]
  refine ⟨⟨?_, ?_, ?_⟩, ?_, ?_⟩
  · exact Serial.wrapDist_modEq k refHint.toInt orderHint.toInt
  · exact Serial.le_wrapDist k refHint.toInt orderHint.toInt
  · exact Serial.wrapDist_lt k refHint.toInt orderHint.toInt
  · intro d hmod hle hlt
    exact Serial.eq_wrapDist_of_modEq hmod hle hlt
  · intro hclose
    exact Serial.wrapDist_eq_sub hclose

/-- With order hints of three bits, the hint 1 comes three after the hint 6. -/
theorem getRelativeDist_wrapped_ahead :
    let pps := { CUVIDAV1PICPARAMS.zero with enableOrderHint := true, orderHintBitsMinus1 := 2 }
    (getRelativeDist pps 1 6).toInt = 3 ∧
      (getRelativeDist pps 1 6).toInt ≡ (1 : Int32).toInt - (6 : Int32).toInt [ZMOD 2 ^ 3] :=
  ⟨by decide, (getRelativeDist_signed_wrap rfl 1 6).1.1⟩

section Loops

variable {pps : CUVIDAV1PICPARAMS} {orderHint : Int32} {hint : Nat → Int32}

/-- The distance of the reference `i` to the picture. -/
def refDist (pps : CUVIDAV1PICPARAMS) (orderHint : Int32) (hint : Nat → Int32) (i : Nat) : Int :=
  wrapDist pps.orderHintBitsMinus1 (hint i).toInt orderHint.toInt

/-- No reference is half a period away. -/
def Unambiguous (pps : CUVIDAV1PICPARAMS) (orderHint : Int32) (hint : Nat → Int32) : Prop :=
  ∀ i < 7, refDist pps orderHint hint i ≠ -2 ^ pps.orderHintBitsMinus1.val

/-- A candidate that holds the reference of `kept`, which has the property `p`. -/
def Tracks (hint : Nat → Int32) (p : Nat → Prop) (c : Candidate) : Option Nat → Prop
  | none => c.idx < 0
  | some i => c = ⟨i, hint i⟩ ∧ p i

theorem tracks_none (p : Nat → Prop) : Tracks hint p .none none := show (-1 : Int) < 0 by decide

/-- A reference with the property replaces the candidate where it is better. -/
theorem Tracks.keep {p : Nat → Prop} [DecidablePred p] {better : Nat → Nat → Prop}
    [DecidableRel better] {c : Candidate} {kept : Option Nat} (h : Tracks hint p c kept)
    {i : Nat} (hi : p i) {cond : Prop} [Decidable cond]
    (hcond : ∀ j, p j → c = ⟨j, hint j⟩ → (cond ↔ better i j)) :
    Tracks hint p (if c.idx < 0 ∨ cond then ⟨i, hint i⟩ else c) (keep p better kept i) := by
  rw [Serial.keep, if_pos hi]
  cases kept with
  | none =>
    rw [if_pos (.inl h)]
    exact ⟨rfl, hi⟩
  | some j =>
    obtain ⟨rfl, hj⟩ := h
    have hidx : ¬(j : Int) < 0 := by omega
    simp only [List.argAux, hidx, false_or]
    by_cases hb : better i j
    · rw [if_pos ((hcond j hj rfl).mpr hb), if_pos hb]
      exact ⟨rfl, hi⟩
    · rw [if_neg fun hc => hb ((hcond j hj rfl).mp hc), if_neg hb]
      exact ⟨rfl, hj⟩

theorem Tracks.pass {p : Nat → Prop} [DecidablePred p] {better : Nat → Nat → Prop}
    [DecidableRel better] {c : Candidate} {kept : Option Nat} (h : Tracks hint p c kept)
    {i : Nat} (hi : ¬p i) : Tracks hint p c (Serial.keep p better kept i) := by
  rwa [Serial.keep, if_neg hi]

/-- A reference before the picture. -/
def Before (pps : CUVIDAV1PICPARAMS) (orderHint : Int32) (hint : Nat → Int32) (i : Nat) : Prop :=
  i < 7 ∧ refDist pps orderHint hint i < 0

/-- A reference behind the picture. -/
def Behind (pps : CUVIDAV1PICPARAMS) (orderHint : Int32) (hint : Nat → Int32) (i : Nat) : Prop :=
  i < 7 ∧ 0 < refDist pps orderHint hint i

instance : DecidablePred (Before pps orderHint hint) := fun _ => inferInstanceAs (Decidable (_ ∧ _))

instance : DecidablePred (Behind pps orderHint hint) := fun _ => inferInstanceAs (Decidable (_ ∧ _))

theorem relativeDist_orderHint (h : pps.enableOrderHint = true) (i : Nat) :
    (getRelativeDist pps (hint i) orderHint).toInt = refDist pps orderHint hint i :=
  getRelativeDist_toInt h _ _

/-- References on one side of the picture are compared by their distances to it. -/
theorem relativeDist_refs (h : pps.enableOrderHint = true)
    (hun : Unambiguous pps orderHint hint) {i j : Nat} (hi : i < 7) (hj : j < 7)
    (hside : refDist pps orderHint hint i ≤ 0 ∧ refDist pps orderHint hint j ≤ 0 ∨
      0 ≤ refDist pps orderHint hint i ∧ 0 ≤ refDist pps orderHint hint j) :
    (getRelativeDist pps (hint i) (hint j)).toInt =
      refDist pps orderHint hint i - refDist pps orderHint hint j := by
  have hilt := Serial.wrapDist_lt pps.orderHintBitsMinus1 (hint i).toInt orderHint.toInt
  have hjlt := Serial.wrapDist_lt pps.orderHintBitsMinus1 (hint j).toInt orderHint.toInt
  have hile := Serial.le_wrapDist pps.orderHintBitsMinus1 (hint i).toInt orderHint.toInt
  have hjle := Serial.le_wrapDist pps.orderHintBitsMinus1 (hint j).toInt orderHint.toInt
  have hine := hun i hi
  have hjne := hun j hj
  rw [getRelativeDist_toInt h]
  unfold refDist at *
  exact Serial.wrapDist_of_wrapDist (by omega) (by omega)

/-! ## The first loop -/

theorem nearestTurn_before {c : Candidate × Candidate} {i : Nat}
    (h : getRelativeDist pps (hint i) orderHint < 0) : nearestTurn pps orderHint hint c i =
      (if c.1.idx < 0 ∨ getRelativeDist pps (hint i) c.1.hint > 0 then ⟨i, hint i⟩
        else c.1, c.2) := by
  rw [nearestTurn, if_pos h]
  split <;> rfl

theorem nearestTurn_behind {c : Candidate × Candidate} {i : Nat}
    (h : getRelativeDist pps (hint i) orderHint > 0)
    (h' : ¬getRelativeDist pps (hint i) orderHint < 0) :
    nearestTurn pps orderHint hint c i =
      (c.1, if c.2.idx < 0 ∨
        getRelativeDist pps (hint i) c.2.hint < 0 then ⟨i, hint i⟩ else c.2) := by
  rw [nearestTurn, if_neg h', if_pos h]
  split <;> rfl

theorem nearestTurn_same {c : Candidate × Candidate} {i : Nat}
    (h : ¬getRelativeDist pps (hint i) orderHint > 0)
    (h' : ¬getRelativeDist pps (hint i) orderHint < 0) :
    nearestTurn pps orderHint hint c i = c := by
  rw [nearestTurn, if_neg h', if_neg h]

/-- What the first loop keeps on the two sides of the picture. -/
structure NearestTracks (pps : CUVIDAV1PICPARAMS) (orderHint : Int32) (hint : Nat → Int32)
    (c : Candidate × Candidate) (before behind : Option Nat) : Prop where
  before : Tracks hint (Before pps orderHint hint) c.1 before
  behind : Tracks hint (Behind pps orderHint hint) c.2 behind

/-- The nearer one of two references before the picture, and of two behind it. -/
abbrev Later (pps : CUVIDAV1PICPARAMS) (orderHint : Int32) (hint : Nat → Int32)
    (i j : Nat) : Prop :=
  refDist pps orderHint hint j < refDist pps orderHint hint i

abbrev Earlier (pps : CUVIDAV1PICPARAMS) (orderHint : Int32) (hint : Nat → Int32)
    (i j : Nat) : Prop :=
  refDist pps orderHint hint i < refDist pps orderHint hint j

theorem nearestTurn_tracks (hen : pps.enableOrderHint = true) (hun : Unambiguous pps orderHint hint)
    {c : Candidate × Candidate} {f b : Option Nat} (h : NearestTracks pps orderHint hint c f b)
    {i : Nat} (hi : i < 7) :
    NearestTracks pps orderHint hint (nearestTurn pps orderHint hint c i)
      (keep (Before pps orderHint hint) (Later pps orderHint hint) f i)
      (keep (Behind pps orderHint hint) (Earlier pps orderHint hint) b i) := by
  have hneg : getRelativeDist pps (hint i) orderHint < 0 ↔ refDist pps orderHint hint i < 0 := by
    rw [Int32.lt_iff_toInt_lt, relativeDist_orderHint hen, Int32.toInt_zero]
  have hpos : getRelativeDist pps (hint i) orderHint > 0 ↔ 0 < refDist pps orderHint hint i := by
    rw [gt_iff_lt, Int32.lt_iff_toInt_lt, relativeDist_orderHint hen, Int32.toInt_zero]
  rcases lt_trichotomy (refDist pps orderHint hint i) 0 with hd | hd | hd
  · rw [nearestTurn_before (hneg.mpr hd)]
    refine ⟨h.before.keep ⟨hi, hd⟩ fun j hj hc => ?_, h.behind.pass fun hb => lt_asymm hd hb.2⟩
    rw [hc, gt_iff_lt, Int32.lt_iff_toInt_lt, Int32.toInt_zero,
      relativeDist_refs hen hun hi hj.1 (.inl ⟨hd.le, hj.2.le⟩)]
    exact ⟨Int.lt_of_sub_pos, Int.sub_pos_of_lt⟩
  · rw [nearestTurn_same (fun h => (hpos.mp h).ne' hd) (fun h => (hneg.mp h).ne hd)]
    exact ⟨h.before.pass fun hb => hb.2.ne hd, h.behind.pass fun hb => hb.2.ne' hd⟩
  · rw [nearestTurn_behind (hpos.mpr hd) (fun h => lt_asymm hd (hneg.mp h))]
    refine ⟨h.before.pass fun hb => lt_asymm hd hb.2, h.behind.keep ⟨hi, hd⟩ fun j hj hc => ?_⟩
    rw [hc, Int32.lt_iff_toInt_lt, Int32.toInt_zero,
      relativeDist_refs hen hun hi hj.1 (.inr ⟨hd.le, hj.2.le⟩)]
    exact ⟨Int.lt_of_sub_neg, Int.sub_neg_of_lt⟩

theorem nearestLoop_tracks (hen : pps.enableOrderHint = true) (hun : Unambiguous pps orderHint hint)
    {is : List Nat} (his : ∀ i ∈ is, i < 7) {c : Candidate × Candidate} {f b : Option Nat}
    (h : NearestTracks pps orderHint hint c f b) :
    NearestTracks pps orderHint hint (is.foldl (nearestTurn pps orderHint hint) c)
      (is.foldl (keep (Before pps orderHint hint) (Later pps orderHint hint)) f)
      (is.foldl (keep (Behind pps orderHint hint) (Earlier pps orderHint hint)) b) := by
  induction is generalizing c f b with
  | nil => exact h
  | cons i is ih =>
    rw [List.forall_mem_cons] at his
    exact ih his.2 (nearestTurn_tracks hen hun h his.1)

/-! ## The second loop -/

/-- A reference that comes before the reference `f`. -/
def BeforeRef (pps : CUVIDAV1PICPARAMS) (orderHint : Int32) (hint : Nat → Int32)
    (f i : Nat) : Prop :=
  i < 7 ∧ refDist pps orderHint hint i < refDist pps orderHint hint f

instance {f : Nat} : DecidablePred (BeforeRef pps orderHint hint f) :=
  fun _ => inferInstanceAs (Decidable (_ ∧ _))

theorem secondLoop_tracks (hen : pps.enableOrderHint = true) (hun : Unambiguous pps orderHint hint)
    {f : Nat} (hf : Before pps orderHint hint f) (hall : ∀ i < 7, refDist pps orderHint hint i ≤ 0)
    {is : List Nat} (his : ∀ i ∈ is, i < 7) {c : Candidate} {kept : Option Nat}
    (h : Tracks hint (BeforeRef pps orderHint hint f) c kept) :
    Tracks hint (BeforeRef pps orderHint hint f) (is.foldl (secondTurn pps ⟨f, hint f⟩ hint) c)
      (is.foldl (keep (BeforeRef pps orderHint hint f) (Later pps orderHint hint)) kept) := by
  induction is generalizing c kept with
  | nil => exact h
  | cons i is ih =>
    rw [List.forall_mem_cons] at his
    refine ih his.2 ?_
    have hneg : getRelativeDist pps (hint i) (hint f) < 0 ↔
        refDist pps orderHint hint i < refDist pps orderHint hint f := by
      rw [Int32.lt_iff_toInt_lt, Int32.toInt_zero,
        relativeDist_refs hen hun his.1 hf.1 (.inl ⟨hall i his.1, hall f hf.1⟩)]
      exact ⟨Int.lt_of_sub_neg, Int.sub_neg_of_lt⟩
    by_cases hd : refDist pps orderHint hint i < refDist pps orderHint hint f
    · have hturn : secondTurn pps ⟨f, hint f⟩ hint c i =
          if c.idx < 0 ∨ getRelativeDist pps (hint i) c.hint > 0 then ⟨i, hint i⟩
          else c := if_pos (hneg.mpr hd)
      rw [hturn]
      refine h.keep ⟨his.1, hd⟩ fun j hj hc => ?_
      rw [hc, gt_iff_lt, Int32.lt_iff_toInt_lt, Int32.toInt_zero,
        relativeDist_refs hen hun his.1 hj.1 (.inl ⟨hall i his.1, hall j hj.1⟩)]
      exact ⟨Int.lt_of_sub_pos, Int.sub_pos_of_lt⟩
    · have hturn : secondTurn pps ⟨f, hint f⟩ hint c i = c := if_neg fun hlt => hd (hneg.mp hlt)
      rw [hturn]
      exact h.pass fun hb => hd hb.2

/-! ## The skip mode -/

theorem filter_range {p : Nat → Prop} [DecidablePred p] {q : Nat → Prop} [DecidablePred q]
    (h : ∀ i < 7, p i ↔ q i) : (List.range 7).filter p = (List.range 7).filter q :=
  List.filter_congr fun i hi => decide_eq_decide.mpr (h i (List.mem_range.mp hi))

theorem toNat_min_succ (f b : Nat) : (min (f : Int) b + 1).toNat = min f b + 1 := by omega

theorem toNat_max_succ (f b : Nat) : (max (f : Int) b + 1).toNat = max f b + 1 := by omega

/-- The first loop keeps the nearest reference on each side. -/
theorem nearest_tracks (hen : pps.enableOrderHint = true) (hun : Unambiguous pps orderHint hint) :
    NearestTracks pps orderHint hint
      ((List.range 7).foldl (nearestTurn pps orderHint hint) (.none, .none))
      (greatest (refDist pps orderHint hint)
        ((List.range 7).filter (refDist pps orderHint hint · < 0)))
      (least (refDist pps orderHint hint)
        ((List.range 7).filter (0 < refDist pps orderHint hint ·))) := by
  have hbefore : (List.range 7).filter (Before pps orderHint hint) =
      (List.range 7).filter (refDist pps orderHint hint · < 0) :=
        filter_range fun i hi => and_iff_right hi
  have hbehind : (List.range 7).filter (Behind pps orderHint hint) =
      (List.range 7).filter (0 < refDist pps orderHint hint ·) :=
        filter_range fun i hi => and_iff_right hi
  have hnear : NearestTracks pps orderHint hint (.none, .none) none none :=
    ⟨tracks_none _, tracks_none _⟩
  have hnear := nearestLoop_tracks hen hun (fun i => List.mem_range.mp) hnear
  rwa [Serial.foldl_keep_greatest, Serial.foldl_keep_least, hbefore, hbehind] at hnear

/-- The second loop keeps the nearest reference before the reference `f`. -/
theorem second_tracks (hen : pps.enableOrderHint = true) (hun : Unambiguous pps orderHint hint)
    {f : Nat} (hf : Before pps orderHint hint f)
    (hb : least (refDist pps orderHint hint)
      ((List.range 7).filter (0 < refDist pps orderHint hint ·)) = none) :
    Tracks hint (BeforeRef pps orderHint hint f)
      ((List.range 7).foldl (secondTurn pps ⟨f, hint f⟩ hint) .none)
      (greatest (refDist pps orderHint hint)
        ((List.range 7).filter (refDist pps orderHint hint · < refDist pps orderHint hint f))) := by
  -- no reference is behind the picture
  have hall : ∀ i < 7, refDist pps orderHint hint i ≤ 0 := by
    intro i hi
    have hnil := List.filter_eq_nil_iff.mp (Serial.least_eq_none.mp hb) i (List.mem_range.mpr hi)
    exact Int.not_lt.mp (by simpa using hnil)
  have hbeforeRef : (List.range 7).filter (BeforeRef pps orderHint hint f) =
      (List.range 7).filter (refDist pps orderHint hint · < refDist pps orderHint hint f) :=
    filter_range fun i hi => and_iff_right hi
  have hsecond := secondLoop_tracks hen hun hf hall (fun i => List.mem_range.mp) (tracks_none _)
  rwa [Serial.foldl_keep_greatest, hbeforeRef] at hsecond

/-- The block of the skip mode finds the two references. -/
theorem setSkipMode_frames (hen : pps.enableOrderHint = true) (hun : Unambiguous pps orderHint hint)
    (h0 : pps.skipModeFrame0 = 0) (h1 : pps.skipModeFrame1 = 0) :
    ((setSkipMode pps orderHint hint).skipModeFrame0,
      (setSkipMode pps orderHint hint).skipModeFrame1) =
      skipModeFrames (refDist pps orderHint hint) := by
  obtain ⟨hforward, hbackward⟩ := nearest_tracks hen hun
  unfold setSkipMode skipModeFrames
  generalize (List.range 7).foldl (nearestTurn pps orderHint hint) (.none, .none) = nearest at *
  obtain ⟨forward, backward⟩ := nearest
  dsimp only at *
  cases hf : greatest (refDist pps orderHint hint)
      ((List.range 7).filter (refDist pps orderHint hint · < 0)) with
  | none =>
    rw [hf] at hforward
    have hidx : forward.idx < 0 := hforward
    rw [if_pos hidx, h0, h1]
  | some f =>
    rw [hf] at hforward
    obtain ⟨rfl, hfb⟩ := hforward
    have hidx : ¬(f : Int) < 0 := by omega
    rw [if_neg hidx]
    cases hb : least (refDist pps orderHint hint)
        ((List.range 7).filter (0 < refDist pps orderHint hint ·)) with
    | some b =>
      rw [hb] at hbackward
      obtain ⟨rfl, -⟩ := hbackward
      have hidx : (b : Int) ≥ 0 := by omega
      rw [if_pos hidx]
      dsimp only
      rw [toNat_min_succ, toNat_max_succ]
    | none =>
      rw [hb] at hbackward
      have hidx : ¬backward.idx ≥ 0 := Int.not_le.mpr hbackward
      rw [if_neg hidx]
      dsimp only
      have hsecond := second_tracks hen hun hfb hb
      generalize (List.range 7).foldl (secondTurn pps ⟨f, hint f⟩ hint) .none = second at *
      cases hs : greatest (refDist pps orderHint hint)
          ((List.range 7).filter (refDist pps orderHint hint · < refDist pps orderHint hint f)) with
      | none =>
        rw [hs] at hsecond
        have hidx : second.idx < 0 := hsecond
        rw [if_pos hidx, h0, h1]
      | some i =>
        rw [hs] at hsecond
        obtain ⟨rfl, -⟩ := hsecond
        have hidx : ¬(i : Int) < 0 := by omega
        rw [if_neg hidx]
        dsimp only
        rw [toNat_min_succ, toNat_max_succ]

end Loops

/-! ## The handler -/

/-- The order hints of the seven references, as the code finds them at the surfaces. -/
def orderHints (drv : Surfaces) (renderTarget : VASurfaceID) (stack : Nat → Int32)
    (buf : VADecPictureParameterBufferAV1) (i : Nat) : Int32 :=
  refOrderHint (setOrderHint drv renderTarget (Int32.ofNat buf.orderHint.toNat)) buf stack
    (buf.refFrameIdx i).toNat

/-- The distances of the seven references to the picture. -/
def distances (drv : Surfaces) (renderTarget : VASurfaceID) (stack : Nat → Int32)
    (buf : VADecPictureParameterBufferAV1) (i : Nat) : Int :=
  wrapDist buf.orderHintBitsMinus1.toNat
    (orderHints drv renderTarget stack buf i).toInt buf.orderHint.toNat

/-- With the skip mode on, the handler finds the references nearest to the picture. -/
theorem skipMode_frames (drv : Surfaces) (renderTarget : VASurfaceID) (stack : Nat → Int32)
    (buf : VADecPictureParameterBufferAV1) (pps : CUVIDAV1PICPARAMS)
    (hen : buf.enableOrderHint = true) (hskip : buf.skipModePresent = true)
    (hbits : buf.orderHintBitsMinus1.toNat ≤ 7)
    (hne : ∀ i < 7, distances drv renderTarget stack buf i ≠ -2 ^ buf.orderHintBitsMinus1.toNat) :
    let pps' := (copyAV1PicParam drv renderTarget stack buf pps).val.2
    (pps'.skipModeFrame0, pps'.skipModeFrame1) =
      skipModeFrames (distances drv renderTarget stack buf) := by
  let pps₀ : CUVIDAV1PICPARAMS := { pps with
    frameOffset := buf.orderHint.toUInt32
    enableOrderHint := buf.enableOrderHint
    orderHintBitsMinus1 := Fin.ofNat 8 buf.orderHintBitsMinus1.toNat
    skipMode := buf.skipModePresent
    numTileCols := buf.tileCols
    numTileRows := buf.tileRows
    skipModeFrame0 := 0
    skipModeFrame1 := 0 }
  have hbits' : (Fin.ofNat 8 buf.orderHintBitsMinus1.toNat).val = buf.orderHintBitsMinus1.toNat :=
    Nat.mod_eq_of_lt (by omega)
  have hcur : (Int32.ofNat buf.orderHint.toNat).toInt = buf.orderHint.toNat := by
    have hlt := buf.orderHint.toNat_lt
    exact Int32.toInt_ofNat_of_lt (by omega)
  have hdist :
      refDist pps₀ (Int32.ofNat buf.orderHint.toNat) (orderHints drv renderTarget stack buf) =
      distances drv renderTarget stack buf := by
    funext i
    rw [refDist, distances, hcur]
    exact congrArg (wrapDist · _ _) hbits'
  have hun :
      Unambiguous pps₀ (Int32.ofNat buf.orderHint.toNat)
        (orderHints drv renderTarget stack buf) := by
    intro i hi
    rw [hdist]
    show _ ≠ -2 ^ (Fin.ofNat 8 buf.orderHintBitsMinus1.toNat).val
    rw [hbits']
    exact hne i hi
  have hframes := setSkipMode_frames hen hun rfl rfl
  rw [hdist] at hframes
  rw [← hframes]
  simp only [copyAV1PicParam, Indexed.val_bind, Indexed.val_pure, UInt8.toNat_toUInt32]
  rw [if_pos hskip]
  rfl

/-- Surfaces with the order hints 2, 4 and 7. -/
def hintedSurfaces : Surfaces := fun id =>
  if id = 0 then some ⟨64, 64, 0, 2⟩ else if id = 1 then some ⟨64, 64, 1, 4⟩
  else if id = 2 then some ⟨64, 64, 2, 7⟩
  else none

/-- A picture with the order hint 5. -/
def hintedPicture : VADecPictureParameterBufferAV1 where
  orderHint := 5
  enableOrderHint := true
  orderHintBitsMinus1 := 6
  skipModePresent := true
  tileCols := 1
  tileRows := 1
  widthInSbsMinus1 := fun _ => 0
  heightInSbsMinus1 := fun _ => 0
  refFrameMap := fun i => if i < 3 then UInt32.ofNat i else 0
  refFrameIdx := fun i => UInt8.ofNat (i % 3)
  primaryRefFrame := 7

/-- The picture is between its second and its third reference. -/
theorem skipMode_frames_between :
    skipModeFrames (distances hintedSurfaces 3 (fun _ => 0) hintedPicture) = (2, 3) ∧
    let pps' := (copyAV1PicParam hintedSurfaces 3 (fun _ => 0) hintedPicture .zero).val.2
    (pps'.skipModeFrame0, pps'.skipModeFrame1) =
      skipModeFrames (distances hintedSurfaces 3 (fun _ => 0) hintedPicture) :=
  ⟨by decide, skipMode_frames hintedSurfaces 3 (fun _ =>
    0) hintedPicture .zero rfl rfl (by decide) (by decide)⟩

end NvVaapi.AV1
