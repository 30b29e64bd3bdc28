import NvVaapi.Driver.Indices
import Mathlib.Data.Finset.Card

/-!
# The picture indices that a context has given out

A context gives out the indices below `surfaceCount`, each once. No call gives one back.

* `givesOut`: the context whose next index a call gives out.
* `indexHistory`: the system, with the contexts of the indices that were given out.
* `CountsOk`: the counter of a context is the number of its indices that were given out.
* `beginPicture_exceeds_iff`: `nvBeginPicture` runs out of indices exactly when the surface needs a
  new one and as many as `surfaceCount` were given out. `index_not_released`: also when no surface
  holds one.
-/

namespace NvVaapi

/-- The context whose next index a call gives out, if it does. -/
def givesOut (w : World) : DriverCall → Option Generation
  | .beginPicture c s => do
    let ctx ← w.contexts c
    let sf ← w.surfaces s
    if (resetIndex c sf).pictureIdx = -1 ∧ ctx.currentPictureId ≠ ctx.surfaceCount then
      some ctx.generation
    else none
  | _ => none

/-- The system, with the contexts of the indices that were given out. -/
def indexHistory : Lts (World × List Generation) DriverCall :=
  driver.withGhost [] fun w call given => given ++ (givesOut w call).toList

/-- Contexts are told apart by their generations, and count the indices that they have given out. -/
structure CountsOk (w : World) (given : List Generation) : Prop where
  generation_lt : ∀ {c ctx}, w.contexts c = some ctx → ctx.generation < w.nextGeneration
  generation_ne : ∀ {c ctx c' ctx'}, w.contexts c = some ctx → w.contexts c' = some ctx' → c ≠ c' →
    ctx.generation ≠ ctx'.generation
  given_lt : ∀ g ∈ given, g < w.nextGeneration
  count : ∀ {c ctx}, w.contexts c = some ctx → ctx.currentPictureId = given.count ctx.generation

theorem CountsOk.generations {w : World} {given : List Generation} (hI : CountsOk w given) :
    GenerationsOk w :=
  ⟨hI.generation_lt, hI.generation_ne⟩

theorem countsOk_empty : CountsOk .empty [] := by
  constructor <;> intros <;> simp_all [World.empty]

section Steps

variable {w w' : World} {given : List Generation}

theorem driverStep_nextGeneration {call : DriverCall} (hn : ∀ c n, call ≠ .createContext c n)
    (h : driverStep w call = some w') : w'.nextGeneration = w.nextGeneration := by
  cases call with
  | createSurface s =>
    simp only [driverStep] at h
    split at h <;> cases h
    rfl
  | createContext c n => exact absurd rfl (hn c n)
  | beginPicture c s =>
    obtain ⟨st, hst⟩ := exists_beginPicture h
    rcases nvBeginPicture_cases hst with ⟨-, rfl⟩ |
      ⟨ctx, sf, -, -, ⟨-, -, rfl⟩ | ⟨ctx', sf', -, -, rfl⟩⟩ <;> rfl
  | endPicture c o =>
    obtain ⟨st, hst⟩ := exists_endPicture h
    rcases nvEndPicture_cases hst with ⟨-, rfl⟩ | ⟨ctx, -, ⟨-, rfl⟩ | ⟨sf, -, -, rfl⟩⟩ <;> rfl
  | destroyContext c pushed =>
    simp only [driverStep] at h
    split at h
    · cases h
      rfl
    · cases h
      cases pushed <;> rfl
  | deleteContext c joined =>
    simp only [driverStep] at h
    split at h
    · cases h
    · split at h <;> cases h
      rfl
  | resolve c o =>
    obtain ⟨ctx, -, ⟨-, rfl⟩ | ⟨s, sf, -, -, rfl⟩⟩ := resolveStep_cases h <;> rfl
  | destroySurface | renderPicture =>
    cases h
    rfl

/-- A step that leaves every context its counter. -/
theorem CountsOk.of_same (hI : CountsOk w given) (hg : w'.nextGeneration = w.nextGeneration)
    (hc : ∀ c ctx', w'.contexts c = some ctx' →
      ∃ ctx, w.contexts c = some ctx ∧ SameCount ctx ctx') :
    CountsOk w' given := by
  have hG : GenerationsOk w' := hI.generations.of_same hg fun c ctx' h =>
    (hc c ctx' h).imp fun _ hctx => ⟨hctx.1, hctx.2.generation⟩
  refine ⟨hG.lt, hG.ne, fun g hm => hg ▸ hI.given_lt g hm, fun h => ?_⟩
  obtain ⟨ctx, hctx, hsame⟩ := hc _ _ h
  rw [hsame.currentPictureId, hsame.generation]
  exact hI.count hctx

theorem countsOk_createContext (hI : CountsOk w given) (c : Addr) (n : Int) :
    CountsOk
      { w.setContext c (.init w.nextGeneration n) with
        nextGeneration := w.nextGeneration + 1 } given := by
  have hG := hI.generations.createContext c n
  refine ⟨hG.lt, hG.ne, fun g hm => Nat.lt_succ_of_lt (hI.given_lt g hm), fun h => ?_⟩
  rcases World.contexts_setContext_cases h with ⟨-, rfl⟩ | ⟨-, h⟩
  · have hnew : w.nextGeneration ∉ given := fun hm => Nat.lt_irrefl _ (hI.given_lt _ hm)
    change 0 = (given.count w.nextGeneration : Int)
    rw [List.count_eq_zero_of_not_mem hnew]
    rfl
  · exact hI.count h

/-- A context gives out its next index. -/
theorem countsOk_giveOut (hI : CountsOk w given) {c : Addr} {ctx ctx' : NVContext}
    (hc : w.contexts c = some ctx) (hg : ctx'.generation = ctx.generation)
    (hn : ctx'.currentPictureId = ctx.currentPictureId + 1) :
    CountsOk (w.setContext c ctx') (given ++ [ctx.generation]) := by
  have hG := hI.generations.setContext hc hg
  refine ⟨hG.lt, hG.ne, fun g hm => ?_, fun {c₁ ctx₁} h => ?_⟩
  · rcases List.mem_append.mp hm with hm | hm
    · exact hI.given_lt g hm
    · obtain rfl := List.mem_singleton.mp hm
      exact hI.generation_lt hc
  · rw [List.count_append, Int.natCast_add]
    rcases World.contexts_setContext_cases h with ⟨-, rfl⟩ | ⟨hc₁, h⟩
    · rw [hg, hn, hI.count hc, List.count_singleton_self]
      rfl
    · have hother : [ctx.generation].count ctx₁.generation = 0 := by
        apply List.count_eq_zero_of_not_mem
        intro hm
        exact hI.generation_ne h hc hc₁ (List.mem_singleton.mp hm)
      rw [hother, hI.count h]
      rfl

/-- A call that begins no picture gives out no index. -/
theorem countsOk_step_of_ne {call : DriverCall} (hI : CountsOk w given)
    (hb : ∀ c s, call ≠ .beginPicture c s) (h : driverStep w call = some w') :
    CountsOk w' given := by
  by_cases hn : ∃ c n, call = .createContext c n
  · obtain ⟨c, n, rfl⟩ := hn
    simp only [driverStep] at h
    split at h <;> cases h
    exact countsOk_createContext hI c n
  · refine hI.of_same (driverStep_nextGeneration (fun c n he => hn ⟨c, n, he⟩) h)
      fun c ctx' hc => ?_
    rcases driverStep_contexts h hc with ⟨ctx, hctx, hstep⟩ | ⟨n, he, -⟩
    · exact ⟨ctx, hctx, contextStep_same (hb c) hstep⟩
    · exact absurd ⟨c, n, he⟩ hn

theorem givesOut_of_ne (w : World) {call : DriverCall} (hb : ∀ c s, call ≠ .beginPicture c s) :
    givesOut w call = none := by
  cases call with
  | beginPicture c s => exact absurd rfl (hb c s)
  | _ => rfl

theorem givesOut_beginPicture {c s : Addr} {ctx : NVContext} {sf : NVSurface}
    (hc : w.contexts c = some ctx) (hs : w.surfaces s = some sf) :
    givesOut w (.beginPicture c s) =
      if (resetIndex c sf).pictureIdx = -1 ∧ ctx.currentPictureId ≠ ctx.surfaceCount then
        some ctx.generation
      else none := by
  simp only [givesOut, hc, hs, Option.bind_eq_bind, Option.bind_some]

theorem assignIndex_eq_none_iff {ctx : NVContext} {sf : NVSurface} :
    assignIndex ctx sf = none ↔ sf.pictureIdx = -1 ∧ ctx.currentPictureId = ctx.surfaceCount := by
  unfold assignIndex
  split <;> [split; skip] <;> simp_all

/-- A picture that is begun has its index from the surface, or the next one of the context. -/
theorem countsOk_begin (hI : CountsOk w given) (c s : Addr) :
    CountsOk (nvBeginPicture c s w).2 (given ++ (givesOut w (.beginPicture c s)).toList) := by
  cases hc : w.contexts c with
  | none => simpa [nvBeginPicture, givesOut, hc] using hI
  | some ctx =>
    cases hs : w.surfaces s with
    | none => simpa [nvBeginPicture, givesOut, hc, hs] using hI
    | some sf =>
      rw [givesOut_beginPicture hc hs]
      simp only [nvBeginPicture, hc, hs]
      -- the surface plays no part
      have hsame : ∀ sf', CountsOk (w.setSurface s sf') given := fun sf' =>
        hI.of_same rfl fun _ ctx h => ⟨ctx, h, .refl ctx⟩
      cases ha : assignIndex ctx (resetIndex c sf) with
      | none =>
        have hnone := assignIndex_eq_none_iff.mp ha
        rw [if_neg fun hnew => hnew.2 hnone.2, Option.toList_none, List.append_nil]
        exact hsame _
      | some out =>
        obtain ⟨ctx', sf'⟩ := out
        rcases assignIndex_cases ha with ⟨hi, rfl, rfl⟩ | ⟨hi, hne, rfl, rfl⟩
        · rw [if_neg fun hnew => hi hnew.1, Option.toList_none, List.append_nil]
          refine hI.of_same rfl fun c₁ ctx₁ h => ?_
          rcases World.contexts_setContext_cases h with ⟨rfl, rfl⟩ | ⟨-, h⟩
          · exact ⟨ctx', hc, rfl, rfl, rfl⟩
          · exact ⟨ctx₁, h, .refl ctx₁⟩
        · rw [if_pos ⟨hi, hne⟩]
          exact countsOk_giveOut (hsame _) hc rfl rfl

theorem countsOk_step {call : DriverCall} (hI : CountsOk w given)
    (h : driverStep w call = some w') : CountsOk w' (given ++ (givesOut w call).toList) := by
  by_cases hb : ∃ c s, call = .beginPicture c s
  · obtain ⟨c, s, rfl⟩ := hb
    cases h
    exact countsOk_begin hI c s
  · have hb : ∀ c s, call ≠ .beginPicture c s := fun c s he => hb ⟨c, s, he⟩
    rw [givesOut_of_ne w hb, Option.toList_none, List.append_nil]
    exact countsOk_step_of_ne hI hb h

end Steps

theorem countsOk_reach {x : World × List Generation} (h : indexHistory.Reach x) :
    CountsOk x.1 x.2 := by
  refine h.invariant (I := fun x => CountsOk x.1 x.2) ?_ ?_
  · rintro ⟨w, given⟩ ⟨rfl, rfl⟩
    exact countsOk_empty
  · rintro ⟨w, given⟩ call ⟨w', given'⟩ hI hs
    obtain ⟨hstep, rfl⟩ := Lts.withGhost_step_iff.mp hs
    exact countsOk_step hI hstep

/-- In every run, `nvBeginPicture` runs out of indices exactly when the surface needs a new one and
the context has given out as many as it has decode surfaces. What became of the surfaces that got
them makes no difference. -/
theorem beginPicture_exceeds_iff {w : World} {given : List Generation}
    (h : indexHistory.Reach (w, given)) {c s : Addr} {ctx : NVContext} {sf : NVSurface}
    (hc : w.contexts c = some ctx) (hs : w.surfaces s = some sf) :
    (nvBeginPicture c s w).1 = .errorMaxNumExceeded ↔
      (sf.pictureIdx = -1 ∨ (sf.context ≠ 0 ∧ sf.context ≠ c)) ∧
        given.count ctx.generation = ctx.surfaceCount := by
  have hreset : (resetIndex c sf).pictureIdx = -1 ↔
      sf.pictureIdx = -1 ∨ (sf.context ≠ 0 ∧ sf.context ≠ c) := by
    by_cases hr : sf.context ≠ 0 ∧ sf.context ≠ c
    · rw [resetIndex, if_pos hr]
      exact iff_of_true rfl (.inr hr)
    · rw [resetIndex, if_neg hr, or_iff_left hr]
  have hstatus : (nvBeginPicture c s w).1 = .errorMaxNumExceeded ↔
      assignIndex ctx (resetIndex c sf) = none := by
    simp only [nvBeginPicture, hc, hs]
    split <;> simp_all
  rw [hstatus, assignIndex_eq_none_iff, hreset, (countsOk_reach h).count hc]

/-- A picture on a surface that is destroyed after its frame was resolved, and a new surface. The
context has one decode surface. -/
def oneIndexCalls : List DriverCall :=
  [DriverCall.createSurface 3, .createContext 1 1, .beginPicture 1 3, .endPicture 1 endOk] ++
    List.replicate 7 (DriverCall.resolve 1 resolveOk) ++ [DriverCall.destroySurface 3,
      .createSurface 4]

theorem beginPicture_exceeds_iff_oneIndex : ∃ w given ctx sf,
    indexHistory.run (.empty, []) oneIndexCalls = some (w, given) ∧ w.contexts 1 = some ctx ∧
    w.surfaces 4 = some sf ∧ ((nvBeginPicture 1 4 w).1 = .errorMaxNumExceeded ↔
      (sf.pictureIdx = -1 ∨ (sf.context ≠ 0 ∧ sf.context ≠ 1)) ∧
        given.count ctx.generation = ctx.surfaceCount) := by
  obtain ⟨w, given, ctx, sf, hrun, hc, hs⟩ : ∃ w given ctx sf,
      indexHistory.run (.empty, []) oneIndexCalls = some (w, given) ∧ w.contexts 1 = some ctx ∧
      w.surfaces 4 = some sf := ⟨_, _, _, _, rfl, rfl, rfl⟩
  have h₀ : indexHistory.Reach (.empty, []) := .init ⟨rfl, rfl⟩
  exact ⟨w, given, ctx, sf, hrun, hc, hs, beginPicture_exceeds_iff (h₀.run hrun) hc hs⟩

/-- The surface has an index, and was last begun on the context. -/
def NVSurface.HoldsIndex (sf : NVSurface) (ctx : NVContext) : Prop :=
  sf.pictureIdx ≠ -1 ∧ sf.lastBegun = some ctx.generation

/-- The only index stays with the surface that is gone: no surface holds one, and the new surface
gets none. -/
theorem index_not_released :
    ¬∀ w, driver.Reach w → ∀ c s ctx (holders : Finset Addr), w.contexts c = some ctx →
    (∀ s', s' ∈ holders ↔ s' ≠ s ∧ ∃ sf, w.surfaces s' = some sf ∧ sf.HoldsIndex ctx) →
    (holders.card : Int) < ctx.surfaceCount → (nvBeginPicture c s w).1 ≠ .errorMaxNumExceeded := by
  intro h
  obtain ⟨w, ctx, hrun, hc, hcount, hsurf, hb⟩ : ∃ w ctx, driver.run .empty oneIndexCalls = some w ∧
      w.contexts 1 = some ctx ∧ ctx.surfaceCount = 1 ∧ (∀ s', s' ≠ 4 → w.surfaces s' = none) ∧
      (nvBeginPicture 1 4 w).1 = .errorMaxNumExceeded := by
    refine ⟨_, _, rfl, rfl, rfl, fun s' hs' => ?_, rfl⟩
    by_cases h3 : s' = 3
    · subst h3
      rfl
    · repeat
        first
          | rfl
          | refine (Function.update_of_ne hs' _ _).trans ?_
          | refine (Function.update_of_ne h3 _ _).trans ?_
  refine h w (Lts.Reach.run (.init rfl) hrun) 1 4 ctx ∅ hc (fun s' =>
    ?_) (hcount ▸ Int.zero_lt_one) hb
  apply iff_of_false (Finset.notMem_empty s')
  rintro ⟨hs', sf, hsf, -⟩
  rw [hsurf s' hs'] at hsf
  cases hsf

end NvVaapi
