import NvVaapi.Codec.Decode
import NvVaapi.Encode.Ending
import NvVaapi.Lib.Bracket

/-!
# Pictures that were begun

* `EncodeSession.pictureEvent`, `World.pictureEvent`: the calls on an encode and on a decode context
  as begins and ends of a picture, with whether the encoder or the decoder was given one.
* `Ends.submitted`: which `nvEndPicture` gives the encoder a picture. The others fail.
* `brackets_iff`: pictures are given only between a begin and an end exactly when every
  `nvEndPicture` that finds none begun fails before it gets to the encoder or the decoder.
-/

namespace NvVaapi

open Objects (NvencStatus nvencToVaStatus_ne_success)
open Bracket (Event Bracketed)

/-! ## Encode contexts -/

/-- The number of pictures that were handed to the encoder. -/
def submissions (calls : List NvencCall) : Nat := calls.countP fun call => call.submitted.isSome

namespace EncodeSession

variable {g : EncodeSettings} {s s' : EncodeSession} {t : EncodeTarget} {r : NvencReplies}
  {vas : Objects.VAStatus}

theorem submissions_log {c : NvencCall} (h : c.submitted = none) :
    submissions (s.log c).calls = submissions s.calls := by
  unfold submissions log
  rw [List.countP_cons_of_neg (by simp [h])]

/-- The checks of `nvEndPicture` succeed, and the input buffer is filled. -/
def GetsToEncoder (s : EncodeSession) (t : EncodeTarget) (r : NvencReplies) : Prop :=
  s.Checked t ∧ t.surface.isSome ∧ Fills r

instance : Decidable (s.GetsToEncoder t r) := inferInstanceAs (Decidable (_ ∧ _ ∧ _))

theorem Finds.getsToEncoder {sf : EncodeSurface} (h : s.Finds t sf) (hf : Fills r) :
    s.GetsToEncoder t r :=
  ⟨h.1, by rw [h.2]; rfl, hf⟩

theorem submissions_reconfiguredFor :
    submissions (s.reconfiguredFor g r).calls = submissions s.calls := by
  obtain hc | hc := s.reconfiguredFor_calls (g := g) (r := r)
  · rw [hc]
  · rw [hc]
    exact submissions_log (s := s) rfl

theorem submissions_copied : submissions (s.copied g r).calls = submissions s.calls := by
  show submissions (((s.reconfiguredFor g r).log _).log _).calls = _
  rw [submissions_log rfl, submissions_log rfl, submissions_reconfiguredFor]

theorem Submits.submitted {pic : EncPicParams} {nvs : NvencStatus} (h : Submits g s pic r nvs s') :
    submissions s.calls < submissions s'.calls := by
  obtain ⟨pic', attempts, hc, -, -⟩ := h.attempts
  rw [hc]
  show _ < List.countP _ (NvencCall.encodePicture pic' nvs :: (attempts ++ s.calls))
  rw [List.countP_cons_of_pos rfl, List.countP_append]
  exact Nat.lt_succ_of_le (Nat.le_add_left _ _)

/-- An `nvEndPicture` that gets to the encoder hands it a picture. Any other fails and hands it
nothing. -/
theorem Ends.submitted (he : Ends g s t r vas s') :
    (s.GetsToEncoder t r → submissions s.calls < submissions s'.calls) ∧
      (¬s.GetsToEncoder t r → vas ≠ .success ∧ submissions s'.calls = submissions s.calls) := by
  have hsub {sf : EncodeSurface} {nvs : NvencStatus} {s₁ : EncodeSession}
      (hs : Submits g (s.staged g r) (s.picture g sf r) r nvs s₁) :
        submissions s.calls < submissions s₁.calls :=
    (submissions_copied (g := g) (r := r) (s := s)).symm.trans_lt hs.submitted
  cases he with
  | unchecked hn hs =>
    refine ⟨fun hg => ?_, fun _ => ⟨hs, rfl⟩⟩
    obtain ⟨sf, hsf⟩ := Option.isSome_iff_exists.mp hg.2.1
    exact absurd ⟨hg.1, hsf⟩ (hn sf)
  | notPushed _ hp =>
    refine ⟨fun hg => ?_, fun _ => ⟨by decide, submissions_reconfiguredFor⟩⟩
    exact absurd hg.2.2.pushed (by simp [hp])
  | lockFailed _ _ hl =>
    refine ⟨fun hg => absurd hg.2.2.lockInputBuffer hl,
      fun _ => ⟨nvencToVaStatus_ne_success hl, ?_⟩⟩
    exact (submissions_log rfl).trans submissions_reconfiguredFor
  | unlockFailed _ _ _ hu =>
    refine ⟨fun hg => absurd hg.2.2.unlockInputBuffer hu, fun _ => ?_⟩
    exact ⟨nvencToVaStatus_ne_success hu, submissions_copied⟩
  | rejected hf hfill hs _ =>
    have hend := hsub hs
    exact ⟨fun _ => hend, fun hn => absurd (hf.getsToEncoder hfill) hn⟩
  | delayed hf hfill hs =>
    have hend := hsub hs
    refine ⟨fun _ => ?_, fun hn => absurd (hf.getsToEncoder hfill) hn⟩
    split
    · exact hend
    · exact hend
  | bitstreamFailed hf hfill hs _ =>
    have hend :=
      (hsub hs).trans_eq (submissions_log (c := .lockBitstream s.ioSlot r.lockBitstream) rfl).symm
    exact ⟨fun _ => hend, fun hn => absurd (hf.getsToEncoder hfill) hn⟩
  | @delivered sf s₁ hf hfill hs _ =>
    have hfetched : submissions (s₁.fetched s.ioSlot r).calls = submissions s₁.calls :=
      (submissions_log rfl).trans (submissions_log rfl)
    have hend := (hsub hs).trans_eq hfetched.symm
    refine ⟨fun _ => ?_, fun hn => absurd (hf.getsToEncoder hfill) hn⟩
    split
    · exact hend
    · exact hend

/-- A call on an encode context. An `nvBeginPicture` that fails does not get to the context. -/
def pictureEvent (g : EncodeSettings) (s : EncodeSession) : SessionCall → Event
  | .beginPicture _ => .begun
  | .renderPicture _ => .other
  | .endPicture t r =>
    match (nvEndPicture g t r).eval s with
    | some (vas, s') => .ended (vas = .success) (submissions s.calls < submissions s'.calls)
    | none => .other

/-- An `nvEndPicture` that finds no picture begun does not get to the encoder. -/
def ClosedFails (x : EncodeSession × Bool) : SessionCall → Prop
  | .endPicture t r => x.2 = false → ¬x.1.GetsToEncoder t r
  | _ => True

theorem respects_pictureEvent (x : EncodeSession × Bool) (call : SessionCall) :
    Bracket.Respects x.2 (x.1.pictureEvent g call) ↔ ClosedFails x call := by
  cases call with
  | beginPicture _ | renderPicture _ => exact Iff.rfl
  | endPicture t r =>
    obtain ⟨vas, s', he⟩ : ∃ vas s', (nvEndPicture g t r).eval x.1 = some (vas, s') :=
      endPicture_returns
    obtain ⟨hgets, hfails⟩ := Ends.submitted (endPicture_ends.eval he)
    unfold pictureEvent
    simp only [he]
    refine forall_congr' fun _ => ?_
    rw [decide_eq_false_iff_not, decide_eq_false_iff_not]
    refine ⟨fun h hg => h.2 (hgets hg), fun hn => ⟨(hfails hn).1, ?_⟩⟩
    rw [(hfails hn).2]
    exact Nat.lt_irrefl _

end EncodeSession

/-! ## Decode contexts -/

/-- `nvEndPicture` gets to `cuvidDecodePicture`. -/
def World.GetsToDecoder (w : World) (c : Addr) (o : EndOutcome) : Prop :=
  ∃ ctx ∈ w.contexts c, ctx.decoder ∧ o.pushed

instance (w : World) (c : Addr) (o : EndOutcome) : Decidable (w.GetsToDecoder c o) :=
  inferInstanceAs (Decidable (∃ ctx ∈ w.contexts c, _))

/-- It is then that the picture is handed to the decoder. -/
theorem getsToDecoder_iff {w : World} {c : Addr} {ctx : NVContext} (h : w.contexts c = some ctx)
    (o : EndOutcome)
    (st : PictureState) : w.GetsToDecoder c o ↔ (endPicture ctx.decoder o.pushed st).2.isSome := by
  unfold World.GetsToDecoder
  rw [h]
  cases hd : ctx.decoder <;> cases hp : o.pushed <;> simp [endPicture, hd]

/-- A call on the decode context at `c`. -/
def World.pictureEvent (c : Addr) (w : World) : DriverCall → Event
  | .createContext c' _ => if c' = c then .reset else .other
  | .beginPicture c' s => if c' = c ∧ (nvBeginPicture c s w).1 = .success then .begun else .other
  | .endPicture c' o =>
    if c' = c then .ended ((nvEndPicture o c w).any fun x => x.1 = .success) (w.GetsToDecoder c o)
    else .other
  | _ => .other

/-- An `nvEndPicture` on the context at `c` that finds no picture begun does not get to the
decoder. -/
def World.ClosedFails (c : Addr) (x : World × Bool) : DriverCall → Prop
  | .endPicture c' o => c' = c → x.2 = false → ¬x.1.GetsToDecoder c o
  | _ => True

/-- An `nvEndPicture` that does not get to the decoder fails. -/
theorem endPicture_fails {w : World} {c : Addr} {o : EndOutcome} (h : ¬w.GetsToDecoder c o) :
    ((nvEndPicture o c w).any fun x => x.1 = .success) = false := by
  unfold nvEndPicture
  cases hc : w.contexts c with
  | none => rfl
  | some ctx =>
    have hr : ¬o.Reaches ctx := fun hr => h ⟨ctx, hc, hr.1, hr.2.1⟩
    dsimp only
    rw [if_neg hr]
    cases ctx.decoder <;> rfl

theorem World.respects_pictureEvent (c : Addr) (x : World × Bool) (call : DriverCall) :
    Bracket.Respects x.2 (x.1.pictureEvent c call) ↔ ClosedFails c x call := by
  cases call with
  | createContext c' _ | beginPicture c' _ =>
    refine iff_of_true ?_ trivial
    unfold pictureEvent
    dsimp only
    split <;> trivial
  | endPicture c' o =>
    unfold pictureEvent ClosedFails
    dsimp only
    by_cases hc : c' = c
    · rw [if_pos hc, forall_prop_of_true hc]
      refine forall_congr' fun _ => ?_
      rw [decide_eq_false_iff_not]
      exact and_iff_right_of_imp endPicture_fails
    · rw [if_neg hc]
      exact iff_of_true trivial fun h => absurd h hc
  | _ => exact Iff.rfl

/-! ## Every run -/

/-- In every run of an encode and of a decode context: a picture is handed to the encoder or the
decoder only by an `nvEndPicture` after an `nvBeginPicture` that succeeded, with no `nvEndPicture`
between them that did, and any other fails and hands over nothing, exactly when every `nvEndPicture`
that finds no picture begun fails before it gets to the encoder or the decoder. -/
theorem brackets_iff (g : EncodeSettings) (s₀ : EncodeSession)
    (sessionCalls : List SessionCall) (c : Addr) (w₀ : World) (calls : List DriverCall) :
    (Bracketed ((encodeSession g).events (EncodeSession.pictureEvent g) s₀ sessionCalls) ↔
      ((encodeSession g).tracked (EncodeSession.pictureEvent g)).Meets EncodeSession.ClosedFails
        (s₀, false)
        sessionCalls) ∧
    (Bracketed (driver.events (World.pictureEvent c) w₀ calls) ↔
      (driver.tracked (World.pictureEvent c)).Meets (World.ClosedFails c) (w₀, false) calls) := by
  constructor
  · rw [Lts.bracketed_iff_meets]
    exact Lts.meets_iff_meets (I := fun _ => True) (fun x call _ =>
      EncodeSession.respects_pictureEvent x call)
      (fun _ _ _ _ _ _ => trivial) trivial sessionCalls
  · rw [Lts.bracketed_iff_meets]
    exact Lts.meets_iff_meets (I := fun _ => True) (fun x call _ =>
      World.respects_pictureEvent c x call)
      (fun _ _ _ _ _ _ => trivial) trivial calls

/-- An encode context: an `nvEndPicture` after one that succeeded hands the picture to the encoder
again, and succeeds. A decode context: an `nvEndPicture` hands a picture to the decoder, and none
was ever begun. -/
theorem not_brackets :
    (∃ s₀, EncodeSession.nvCreateContext plainSettings plainArgs = some s₀ ∧
      ¬Bracketed ((encodeSession plainSettings).events (EncodeSession.pictureEvent plainSettings) s₀
        (fullPicture (repliesAt 1000000000 .success) ++
          [.endPicture ⟨some (.created 64 64), true, true⟩ (repliesAt 2000000000 .success)]))) ∧
    ¬Bracketed (driver.events (World.pictureEvent 1) .empty
      [.createContext 1 4, .endPicture 1 ⟨true, true, true⟩]) := by
  refine ⟨⟨_, rfl, ?_⟩, ?_⟩
  · rw [Lts.bracketed_iff_meets]
    decide
  · rw [Lts.bracketed_iff_meets]
    decide

end NvVaapi
