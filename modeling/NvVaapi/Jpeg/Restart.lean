import NvVaapi.Jpeg.RoundTrip

/-!
# Restart intervals

* `RestartPreserved`: a reader that keeps the interval of the last DRI segment finds the data of
  every slice in a scan whose interval is the slice's own.
* `NoReturnToZero`: no slice without restart intervals comes after one with an interval.
* `restartPreserved_frame_iff`: when that holds of a frame. A scan header that slices share carries
  one interval, and an interval of 0 is never written.
-/

namespace NvVaapi

open Emit (Buf)
open Jfif (Header)

/-- The slices whose data a scan holds, scan by scan. -/
def scanGroups (s0 : VASliceParameterBufferJPEGBaseline)
    (sl : List VASliceParameterBufferJPEGBaseline) :
    List (List VASliceParameterBufferJPEGBaseline) :=
  if AllSameSOS s0 sl then [sl] else sl.map ([·])

/-- The scan holds the data of the slices, under the restart interval of each of them. -/
def ScanKeeps (d : Nat → UInt8) (g : List VASliceParameterBufferJPEGBaseline)
    (scan : Jfif.Scan) : Prop :=
  scan.data = g.flatMap (·.ecs d) ∧ ∀ s ∈ g, scan.header.restart = s.restartInterval

/-- Every slice's data is read under its own restart interval. -/
def RestartPreserved (s0 : VASliceParameterBufferJPEGBaseline)
    (sl : List VASliceParameterBufferJPEGBaseline) (d : Nat → UInt8) (frame : List UInt8) : Prop :=
  ∃ scans tail, Jfif.readImage (scanLengths s0 sl) frame = some (scans, tail) ∧
    List.Forall₂ (ScanKeeps d) (scanGroups s0 sl) scans

/-- No slice without restart intervals comes after one with an interval. -/
def NoReturnToZero (sl : List VASliceParameterBufferJPEGBaseline) : Prop :=
  sl.Pairwise fun s t => s.restartInterval ≠ 0 → t.restartInterval ≠ 0

instance (sl : List VASliceParameterBufferJPEGBaseline) : Decidable (NoReturnToZero sl) :=
  inferInstanceAs (Decidable (List.Pairwise _ _))

section Restart

variable {jpegCtx : JPEGContext} {s0 : VASliceParameterBufferJPEGBaseline}
  {sl : List VASliceParameterBufferJPEGBaseline} {d : Nat → UInt8} {sliceDataSize : UInt32}

/-- With one interval for all scans, each scan has it. -/
theorem scansFrom_keep_same {h : Header} (hsame : ∀ s ∈ sl, h.restart = s.restartInterval) :
    List.Forall₂ (ScanKeeps d) (sl.map ([·])) (scansFrom true d h sl) := by
  induction sl with
  | nil => exact .nil
  | cons s sl ih =>
    refine .cons ⟨?_, ?_⟩ (ih fun t ht => hsame t (List.mem_cons_of_mem _ ht))
    · exact (List.append_nil _).symm
    · simpa [scanHeaderState] using hsame s (List.mem_cons_self ..)

/-- With intervals that differ, a scan has its slice's interval unless that is 0 and an earlier one
was not. -/
theorem scansFrom_keep_iff (h : Header) (sl : List VASliceParameterBufferJPEGBaseline) :
    List.Forall₂ (ScanKeeps d) (sl.map ([·])) (scansFrom false d h sl) ↔
      (h.restart ≠ 0 → ∀ s ∈ sl, s.restartInterval ≠ 0) ∧ NoReturnToZero sl := by
  induction sl generalizing h with
  | nil => simp [scansFrom, NoReturnToZero]
  | cons s sl ih =>
    have hfirst : ScanKeeps d [s] ⟨scanHeaderOf s, scanHeaderState false h s, s.ecs d⟩ ↔
        (h.restart ≠ 0 → s.restartInterval ≠ 0) := by
      have hdata : s.ecs d = [s].flatMap (·.ecs d) := (List.append_nil _).symm
      simp only [ScanKeeps, scanHeaderState, ← hdata, List.mem_singleton, forall_eq, true_and]
      by_cases hs : s.restartInterval = 0
      · simp [hs]
      · simp [hs]
    have hnext : (h.restart ≠ 0 → s.restartInterval ≠ 0) →
        (scanHeaderState false h s).restart = s.restartInterval := by
      intro hz
      simp only [scanHeaderState]
      by_cases hs : s.restartInterval = 0
      · simpa [hs] using hz
      · simp [hs]
    rw [List.map_cons, scansFrom, List.forall₂_cons, hfirst, ih, NoReturnToZero, NoReturnToZero,
      List.pairwise_cons]
    constructor
    · rintro ⟨hz, hrest, hpw⟩
      rw [hnext hz] at hrest
      exact ⟨fun h0 => List.forall_mem_cons.mpr ⟨hz h0, hrest (hz h0)⟩,
        fun t ht hs => hrest hs t ht, hpw⟩
    · rintro ⟨hall, hfirst, hpw⟩
      have hz := fun h0 => hall h0 s (List.mem_cons_self ..)
      rw [hnext hz]
      exact ⟨hz, fun hs t ht => hfirst t ht hs, hpw⟩

/-- When a frame keeps the restart intervals of its slices. -/
theorem restartPreserved_frame_iff (hok : FrameOk jpegCtx (s0 :: sl) sliceDataSize) :
    RestartPreserved s0 (s0 :: sl) d (frameBytes jpegCtx s0 (s0 :: sl) d) ↔
      AllSameRestart s0 (s0 :: sl) ∨
        ¬ AllSameSOS s0 (s0 :: sl) ∧ NoReturnToZero (s0 :: sl) := by
  have h0 : s0 ∈ s0 :: sl := List.mem_cons_self ..
  have hread : RestartPreserved s0 (s0 :: sl) d (frameBytes jpegCtx s0 (s0 :: sl) d) ↔
      List.Forall₂ (ScanKeeps d) (scanGroups s0 (s0 :: sl))
        (if AllSameSOS s0 (s0 :: sl) then
          [⟨scanHeaderOf s0, headHeader jpegCtx s0 (s0 :: sl), (s0 :: sl).flatMap (·.ecs d)⟩]
        else scansFrom (decide (AllSameRestart s0 (s0 :: sl))) d
          (headHeader jpegCtx s0 (s0 :: sl)) (s0 :: sl)) := by
    by_cases hsos : AllSameSOS s0 (s0 :: sl)
    · simp [RestartPreserved, readImage_shared (d := d) hok h0 hsos, hsos]
    · simp only [RestartPreserved, readImage_single (d := d) hok hsos, if_neg hsos,
        Option.some.injEq, Prod.mk.injEq, exists_and_left, exists_eq_left', and_assoc]
  rw [hread, scanGroups]
  by_cases hri : AllSameRestart s0 (s0 :: sl)
  · have hrestart : ∀ s ∈ s0 :: sl, (headHeader jpegCtx s0 (s0 :: sl)).restart =
        s.restartInterval := fun s hs => by
      rw [hri s hs, headHeader, if_pos hri]
    simp only [hri, true_or, iff_true, decide_true]
    by_cases hsos : AllSameSOS s0 (s0 :: sl)
    · rw [if_pos hsos, if_pos hsos]
      exact .cons ⟨rfl, hrestart⟩ .nil
    · rw [if_neg hsos, if_neg hsos]
      exact scansFrom_keep_same hrestart
  · have hrestart : (headHeader jpegCtx s0 (s0 :: sl)).restart = 0 := by
      rw [headHeader, if_neg hri]
    simp only [hri, false_or, decide_false]
    by_cases hsos : AllSameSOS s0 (s0 :: sl)
    · -- one scan under interval 0 would make all intervals 0, and so equal
      rw [if_pos hsos, if_pos hsos]
      refine iff_of_false (fun h => hri fun s hs => ?_) fun h => h.1 hsos
      obtain ⟨-, hk⟩ := (List.forall₂_cons.mp h).1
      exact (hk s hs).symm.trans (hk s0 h0)
    · rw [if_neg hsos, if_neg hsos, scansFrom_keep_iff]
      simp [hrestart, hsos]

end Restart

/-- A frame that is rebuilt keeps the restart intervals of its slices exactly when they are all
equal, or the slices have different scan headers and no interval returns to 0. -/
theorem reconstructJPEG_restart_iff {mallocOk : Bool} {jpegCtx : JPEGContext}
    {slices : Nat → VASliceParameterBufferJPEGBaseline} {sliceCount sliceDataSize : UInt32}
    {d : Nat → UInt8} {frame : List UInt8}
    (h : (reconstructJPEG mallocOk jpegCtx slices sliceCount d sliceDataSize Buf.start).1 =
      some frame) :
    RestartPreserved (slices 0) (sliceList slices sliceCount) d frame ↔
      AllSameRestart (slices 0) (sliceList slices sliceCount) ∨
        ¬ AllSameSOS (slices 0) (sliceList slices sliceCount) ∧
          NoReturnToZero (sliceList slices sliceCount) := by
  obtain ⟨hok, -, rfl⟩ := reconstructJPEG_some h
  obtain ⟨tl, htl⟩ := sliceList_eq_cons hok.slices
  rw [htl] at hok ⊢
  exact restartPreserved_frame_iff hok

/-- Three slices of the gray frame, the last two under other tables and with their own restart
intervals `a` and `b`. -/
def restartSlices (a b : UInt16) : Nat → VASliceParameterBufferJPEGBaseline
  | 0 => ⟨4, 0, sliceDataFlagAll, 1, fun _ => ⟨1, 0, 0⟩, 0⟩
  | 1 => ⟨4, 4, sliceDataFlagAll, 1, fun _ => ⟨1, 1, 1⟩, a⟩
  | _ => ⟨4, 8, sliceDataFlagAll, 1, fun _ => ⟨1, 0, 1⟩, b⟩

/-- The frame of these slices. -/
theorem reconstructJPEG_restartSlices {a b : UInt16}
    (hok : FrameOk grayContext (sliceList (restartSlices a b) 3) 12)
    (hsize : worstSize grayContext.picParams (sliceList (restartSlices a b) 3).length
      (totalEcs (sliceList (restartSlices a b) 3)) ≤ 2 ^ 32 - 1) :
    (reconstructJPEG true grayContext (restartSlices a b) 3 (fun _ => 0) 12 Buf.start).1 =
      some (frameBytes grayContext (restartSlices a b 0) (sliceList (restartSlices a b) 3)
        fun _ => 0) := by
  obtain ⟨b, hrun, -⟩ := reconstructJPEG_written (d := fun _ => 0) hok (by decide)
  have hlen := frameBytes_length_le (d := fun _ => 0) hok (mem_sliceList hok.slices)
  rw [if_pos (Nat.le_trans hlen hsize)] at hrun
  exact congrArg Prod.fst hrun

/-- Intervals that only ever start are kept. -/
theorem reconstructJPEG_restart_iff_kept : ∃ frame,
    (reconstructJPEG true grayContext (restartSlices 4 8) 3 (fun _ => 0) 12 Buf.start).1 =
      some frame ∧
    RestartPreserved (restartSlices 4 8 0) (sliceList (restartSlices 4 8) 3) (fun _ => 0) frame :=
  have h := reconstructJPEG_restartSlices (a := 4) (b := 8) (by decide) (by decide)
  ⟨_, h, (reconstructJPEG_restart_iff h).mpr (by decide)⟩

/-- A third slice without an interval is read under the interval of the second one. -/
theorem reconstructJPEG_restart_lost : ∃ frame,
    (reconstructJPEG true grayContext (restartSlices 4 0) 3 (fun _ => 0) 12 Buf.start).1 =
      some frame ∧
    ¬ RestartPreserved (restartSlices 4 0 0) (sliceList (restartSlices 4 0) 3) (fun _ => 0)
      frame := by
  have hok : FrameOk grayContext (sliceList (restartSlices 4 0) 3) 12 := by decide
  refine ⟨_, reconstructJPEG_restartSlices hok (by decide), fun h => ?_⟩
  exact absurd ((restartPreserved_frame_iff hok).mp h) (by decide)

end NvVaapi
