import NvVaapi.Driver.Indices

/-!
# What a picture index stands for

The decoder of a context has a decode surface for each picture index. `cuvidDecodePicture` writes
the picture into the one that `CurrPicIdx` names, and a later picture names its references by their
indices.

* `DecodeSurfaces`: history, the surface whose picture each of them got last.
* `decoding`: the driver with this history.
* `SlotsOk`: the decode surface under whose index a surface was begun has no other surface's
  picture.
* `slotsOk_of_reach`: it holds in every run in which surfaces own their indices and pictures are
  begun before they are ended.
-/

namespace NvVaapi

/-- For each context and index the surface whose picture the decoder wrote there last. -/
abbrev DecodeSurfaces := Generation → Int → Option Addr

/-- `cuvidDecodePicture` -/
def DecodeSurfaces.decode (slots : DecodeSurfaces) (ctx : NVContext) : DecodeSurfaces :=
  Function.update slots ctx.generation
    (Function.update (slots ctx.generation) ctx.currPicIdx (some ctx.renderTarget))

def nextSlots (w : World) (call : DriverCall) (slots : DecodeSurfaces) : DecodeSurfaces :=
  match call with
  | .endPicture c o => (w.contexts c).elim slots fun ctx =>
    if ctx.decoder ∧ o.pushed then slots.decode ctx else slots
  | _ => slots

def decoding : Lts (World × DecodeSurfaces) DriverCall :=
  driver.withGhost (fun _ _ => none) nextSlots

/-- A picture that is ended was begun, some time. -/
def EndsPicture (w : World) : DriverCall → Prop
  | .endPicture c _ => ∀ ctx ∈ w.contexts c, ctx.renderTarget ≠ 0
  | _ => True

instance (w : World) (call : DriverCall) : Decidable (EndsPicture w call) :=
  match call with
  | .endPicture c _ => inferInstanceAs (Decidable (∀ ctx ∈ w.contexts c, _ ≠ _))
  | .createSurface .. | .destroySurface .. | .createContext .. | .beginPicture ..
  | .renderPicture ..
  | .destroyContext .. | .deleteContext .. | .resolve .. => .isTrue trivial

/-- The surface owns the index that it is begun with, and a picture is begun before it is ended. -/
def KeepsSlots (x : World × DecodeSurfaces) (call : DriverCall) : Prop :=
  OwnsIndex x.1 call ∧ EndsPicture x.1 call

instance (x : World × DecodeSurfaces) (call : DriverCall) : Decidable (KeepsSlots x call) :=
  inferInstanceAs (Decidable (_ ∧ _))

structure SlotsOk (w : World) (slots : DecodeSurfaces) : Prop where
  indices : IndicesOk w
  /-- What was decoded under the index of a surface is a picture of that surface. -/
  owner : ∀ {s sf g i s'}, w.surfaces s = some sf → sf.begun g = some i →
    slots g i = some s' → s' = s
  /-- The picture that is next decoded under the index of a surface is one of that surface. -/
  target : ∀ {c ctx s sf}, w.contexts c = some ctx → ctx.renderTarget ≠ 0 → w.surfaces s = some sf →
    sf.begun ctx.generation = some ctx.currPicIdx → ctx.renderTarget = s
  given : ∀ {c ctx}, w.contexts c = some ctx → ctx.renderTarget ≠ 0 →
    ctx.currPicIdx < ctx.currentPictureId
  used : ∀ {c ctx i}, w.contexts c = some ctx → slots ctx.generation i ≠ none →
    i < ctx.currentPictureId
  generation : ∀ {g i}, slots g i ≠ none → g < w.nextGeneration
  surfaceCount : ∀ {c ctx}, w.contexts c = some ctx → ctx.surfaceCount ≤ 32
  /-- NULL is no surface. -/
  surface : w.surfaces 0 = none

theorem decodeSurfaceCount_le (n : Int) : decodeSurfaceCount n ≤ 32 := by
  simp only [decodeSurfaceCount]
  split <;> omega

theorem slotsOk_empty : SlotsOk .empty fun _ _ => none := by
  refine ⟨indicesOk_empty, ?_, ?_, ?_, ?_, ?_, ?_, rfl⟩ <;> intros <;> simp_all [World.empty]

/-- The context counts and decodes as before. -/
structure SameTarget (ctx ctx' : NVContext) : Prop where
  count : SameCount ctx ctx'
  renderTarget : ctx'.renderTarget = ctx.renderTarget
  currPicIdx : ctx'.currPicIdx = ctx.currPicIdx

theorem SameTarget.refl (ctx : NVContext) : SameTarget ctx ctx := ⟨.refl ctx, rfl, rfl⟩

theorem contextStep_sameTarget {w : World} {c : Addr} {ctx ctx' : NVContext} {call : DriverCall}
    (hb : ∀ s, call ≠ .beginPicture c s) (h : ContextStep w c ctx call ctx') :
    SameTarget ctx ctx' := by
  refine ⟨contextStep_same hb h, ?_, ?_⟩
  · cases h with
    | begin => exact absurd rfl (hb _)
    | await =>
      unfold awaitFrame
      split <;> rfl
    | _ => rfl
  · cases h with
    | begin => exact absurd rfl (hb _)
    | await =>
      unfold awaitFrame
      split <;> rfl
    | _ => rfl

section Steps

variable {w w' : World} {slots : DecodeSurfaces}

/-- A step that neither begins nor decodes a picture, and creates no context. -/
theorem SlotsOk.of_same (h : SlotsOk w slots) (hI : IndicesOk w')
    (hg : w'.nextGeneration = w.nextGeneration)
    (hc : ∀ c ctx', w'.contexts c = some ctx' →
      ∃ ctx, w.contexts c = some ctx ∧ SameTarget ctx ctx')
    (hs : ∀ s sf', w'.surfaces s = some sf' →
      s ≠ 0 ∧ ((∃ sf, w.surfaces s = some sf ∧ sf'.begun = sf.begun) ∨ sf' = .init)) : SlotsOk
        w' slots := by
  refine ⟨hI, ?_, ?_, ?_, ?_, ?_, ?_, ?_⟩
  · intro s sf' g i s' hsf hb hslot
    obtain ⟨-, ⟨sf, hsf, hsame⟩ | rfl⟩ := hs s sf' hsf
    · exact h.owner hsf (hsame ▸ hb) hslot
    · cases hb
  · intro c ctx' s sf' hctx hne hsf hb
    obtain ⟨ctx, hctx, hsame⟩ := hc c ctx' hctx
    obtain ⟨-, ⟨sf, hsf, hbegun⟩ | rfl⟩ := hs s sf' hsf
    · rw [hsame.count.generation, hsame.currPicIdx, hbegun] at hb
      rw [hsame.renderTarget] at hne ⊢
      exact h.target hctx hne hsf hb
    · cases hb
  · intro c ctx' hctx hne
    obtain ⟨ctx, hctx, hsame⟩ := hc c ctx' hctx
    rw [hsame.renderTarget] at hne
    rw [hsame.currPicIdx, hsame.count.currentPictureId]
    exact h.given hctx hne
  · intro c ctx' i hctx hslot
    obtain ⟨ctx, hctx, hsame⟩ := hc c ctx' hctx
    rw [hsame.count.generation] at hslot
    rw [hsame.count.currentPictureId]
    exact h.used hctx hslot
  · intro g i hslot
    rw [hg]
    exact h.generation hslot
  · intro c ctx' hctx
    obtain ⟨ctx, hctx, hsame⟩ := hc c ctx' hctx
    rw [hsame.count.surfaceCount]
    exact h.surfaceCount hctx
  · by_contra hne
    obtain ⟨sf, hsf⟩ := Option.ne_none_iff_exists'.mp hne
    exact (hs 0 sf hsf).1 rfl

/-- The surfaces and the contexts stay, and a picture is decoded. -/
theorem SlotsOk.decode (h : SlotsOk w slots) {c : Addr} {ctx : NVContext}
    (hc : w.contexts c = some ctx) (hne : ctx.renderTarget ≠ 0) : SlotsOk w (slots.decode ctx) := by
  have hslot {g : Generation} {i : Int} : slots.decode ctx g i =
      if g = ctx.generation ∧ i = ctx.currPicIdx then some ctx.renderTarget else slots g i := by
    unfold DecodeSurfaces.decode
    by_cases hg : g = ctx.generation
    · subst hg
      simp [Function.update_apply]
    · simp [hg]
  refine ⟨h.indices, ?_, h.target, h.given, ?_, ?_, h.surfaceCount, h.surface⟩
  · intro s sf g i s' hsf hb hs'
    rw [hslot] at hs'
    split at hs'
    · next he =>
      obtain ⟨rfl, rfl⟩ := he
      exact (Option.some_inj.mp hs').symm.trans (h.target hc hne hsf hb)
    · exact h.owner hsf hb hs'
  · intro c' ctx' i hc' hs'
    rw [hslot] at hs'
    split at hs'
    · next he =>
      obtain ⟨hg, rfl⟩ := he
      have hsame : c' = c := by
        by_contra hcc
        exact h.indices.generation_ne hc' hc hcc hg
      subst hsame
      obtain rfl := Option.some_inj.mp (hc'.symm.trans hc)
      exact h.given hc hne
    · exact h.used hc' hs'
  · intro g i hs'
    rw [hslot] at hs'
    split at hs'
    · next he => exact he.1 ▸ h.indices.generation_lt hc
    · exact h.generation hs'

theorem SlotsOk.createContext (h : SlotsOk w slots) (c : Addr) (n : Int) :
    SlotsOk
      { w.setContext c (.init w.nextGeneration n) with
        nextGeneration := w.nextGeneration + 1 } slots := by
  refine ⟨indicesOk_createContext c n h.indices, h.owner, ?_, ?_, ?_,
    fun hs => Nat.lt_succ_of_lt (h.generation hs), ?_, h.surface⟩
  · intro c' ctx s sf hctx hne hsf hb
    rcases World.contexts_setContext_cases hctx with ⟨-, rfl⟩ | ⟨-, hctx⟩
    · exact absurd rfl hne
    · exact h.target hctx hne hsf hb
  · intro c' ctx hctx hne
    rcases World.contexts_setContext_cases hctx with ⟨-, rfl⟩ | ⟨-, hctx⟩
    · exact absurd rfl hne
    · exact h.given hctx hne
  · intro c' ctx i hctx hslot
    rcases World.contexts_setContext_cases hctx with ⟨-, rfl⟩ | ⟨-, hctx⟩
    · exact absurd (h.generation hslot) (Nat.lt_irrefl _)
    · exact h.used hctx hslot
  · intro c' ctx hctx
    rcases World.contexts_setContext_cases hctx with ⟨-, rfl⟩ | ⟨-, hctx⟩
    · exact decodeSurfaceCount_le n
    · exact h.surfaceCount hctx

/-- A surface that is begun gets an index under which nothing was decoded, or only its own
pictures. -/
theorem SlotsOk.begin {c s : Addr} {ctx ctx' : NVContext} {sf sf' : NVSurface} (h : SlotsOk w slots)
    (hok : OwnsIndex w (.beginPicture c s)) (hc : w.contexts c = some ctx)
    (hs : w.surfaces s = some sf) (ha : assignIndex ctx (resetIndex c sf) = some (ctx', sf')) :
    SlotsOk ((w.setSurface s (sf'.rendering ctx'.generation)).setContext c
      (ctx'.rendering s sf'.pictureIdx)) slots := by
  have hI := indicesOk_begin h.indices hok hc hs ha
  obtain ⟨hbegun, hgen, hcount, -, hidx⟩ := assignIndex_owned h.indices hok hc hs ha
  have hnew (g : Generation) : (sf'.rendering ctx'.generation).begun g =
      if g = ctx.generation then some sf'.pictureIdx else sf.begun g := by
    simp only [NVSurface.rendering, Function.update_apply, hgen, hbegun]
  have hgrow : ctx.currentPictureId ≤ (ctx'.rendering s sf'.pictureIdx).currentPictureId := by
    show ctx.currentPictureId ≤ ctx'.currentPictureId
    obtain ⟨-, he⟩ | ⟨-, he⟩ := hidx <;> omega
  have hself : ((w.setSurface s (sf'.rendering ctx'.generation)).setContext c
      (ctx'.rendering s sf'.pictureIdx)).surfaces s =
        some (sf'.rendering ctx'.generation) := by simp
  have hctx' : ((w.setSurface s (sf'.rendering ctx'.generation)).setContext c
      (ctx'.rendering s sf'.pictureIdx)).contexts c =
        some (ctx'.rendering s sf'.pictureIdx) := by simp
  have hhere : (sf'.rendering ctx'.generation).begun (ctx'.rendering s sf'.pictureIdx).generation =
      some sf'.pictureIdx := Function.update_self ..
  refine ⟨hI, ?_, ?_, ?_, ?_, fun hslot => h.generation hslot, ?_, ?_⟩
  · intro s₁ sf₁ g i s' hs₁ hb hslot
    rcases World.surfaces_setSurface_cases hs₁ with ⟨rfl, rfl⟩ | ⟨-, hs₁⟩
    · rw [hnew] at hb
      split at hb
      · next hg =>
        subst hg
        obtain rfl := Option.some_inj.mp hb
        obtain ⟨hfresh, -⟩ | ⟨hold, -⟩ := hidx
        · -- a new index
          have hlt := h.used hc (hslot ▸ Option.some_ne_none s')
          omega
        · exact h.owner hs hold hslot
      · exact h.owner hs hb hslot
    · exact h.owner hs₁ hb hslot
  · intro c₁ ctx₁ s₁ sf₁ hc₁ hne hs₁ hb
    rcases World.contexts_setContext_cases hc₁ with ⟨rfl, rfl⟩ | ⟨hcc, hc₁⟩
    · by_contra hss
      exact hI.begun_ne hself hs₁ hss hhere hb
    · rcases World.surfaces_setSurface_cases hs₁ with ⟨rfl, rfl⟩ | ⟨-, hs₁⟩
      · rw [hnew, if_neg (h.indices.generation_ne hc₁ hc hcc)] at hb
        exact h.target hc₁ hne hs hb
      · exact h.target hc₁ hne hs₁ hb
  · intro c₁ ctx₁ hc₁ hne
    rcases World.contexts_setContext_cases hc₁ with ⟨rfl, rfl⟩ | ⟨-, hc₁⟩
    · exact (hI.begun_range hctx' hself hhere).2
    · exact h.given hc₁ hne
  · intro c₁ ctx₁ i hc₁ hslot
    rcases World.contexts_setContext_cases hc₁ with ⟨rfl, rfl⟩ | ⟨-, hc₁⟩
    · have hg : (ctx'.rendering s sf'.pictureIdx).generation = ctx.generation := hgen
      rw [hg] at hslot
      exact Int.lt_of_lt_of_le (h.used hc hslot) hgrow
    · exact h.used hc₁ hslot
  · intro c₁ ctx₁ hc₁
    rcases World.contexts_setContext_cases hc₁ with ⟨rfl, rfl⟩ | ⟨-, hc₁⟩
    · exact (Int.le_of_eq hcount).trans (h.surfaceCount hc)
    · exact h.surfaceCount hc₁
  · have hzero : (0 : Addr) ≠ s := by
      rintro rfl
      exact absurd (hs.symm.trans h.surface) (Option.some_ne_none sf)
    simp [hzero, h.surface]

theorem SlotsOk.step {call : DriverCall} (h : SlotsOk w slots) (hok : KeepsSlots (w, slots) call)
    (hst : driverStep w call = some w') : SlotsOk w' (nextSlots w call slots) := by
  have hI := indicesOk_step h.indices hok.1 hst
  have hctx (hb : ∀ c s, call ≠ .beginPicture c s) (hn : ∀ c n,
      call ≠ .createContext c n) (c : Addr)
      (ctx' : NVContext) (hc : w'.contexts c = some ctx') :
        ∃ ctx, w.contexts c = some ctx ∧ SameTarget ctx ctx' := by
    rcases driverStep_contexts hst hc with ⟨ctx, hctx, hstep⟩ | ⟨n, he, -⟩
    · exact ⟨ctx, hctx, contextStep_sameTarget (hb c) hstep⟩
    · exact absurd he (hn c n)
  have hlive {s : Addr} {sf : NVSurface} (hs : w.surfaces s = some sf) : s ≠ 0 := by
    rintro rfl
    exact absurd (hs.symm.trans h.surface) (Option.some_ne_none sf)
  have hkeep (s : Addr) (sf' : NVSurface) (hs : w.surfaces s = some sf') :
      s ≠ 0 ∧ ((∃ sf, w.surfaces s = some sf ∧ sf'.begun = sf.begun) ∨ sf' = .init) :=
    ⟨hlive hs, .inl ⟨sf', hs, rfl⟩⟩
  have hset {s : Addr} {sf sf' : NVSurface} (hs : w.surfaces s = some sf)
      (hsame : sf'.begun = sf.begun) (s₁ : Addr)
      (sf₁ : NVSurface) (hs₁ : (w.setSurface s sf').surfaces s₁ = some sf₁) :
      s₁ ≠ 0 ∧ ((∃ sf, w.surfaces s₁ = some sf ∧ sf₁.begun = sf.begun) ∨ sf₁ = .init) := by
    rcases World.surfaces_setSurface_cases hs₁ with ⟨rfl, rfl⟩ | ⟨-, hs₁⟩
    · exact ⟨hlive hs, .inl ⟨sf, hs, hsame⟩⟩
    · exact hkeep s₁ sf₁ hs₁
  cases call with
  | createSurface s =>
    have hw := hctx (by simp) (by simp)
    simp only [driverStep] at hst
    split at hst
    · next hu =>
      cases hst
      refine h.of_same hI rfl hw fun s₁ sf₁ hs₁ => ?_
      rcases World.surfaces_setSurface_cases hs₁ with ⟨rfl, rfl⟩ | ⟨-, hs₁⟩
      · exact ⟨hu.1, .inr rfl⟩
      · exact hkeep s₁ sf₁ hs₁
    · cases hst
  | destroySurface s =>
    have hw := hctx (by simp) (by simp)
    cases hst
    refine h.of_same hI rfl hw fun s₁ sf₁ hs₁ => ?_
    by_cases hss : s₁ = s
    · simp [hss] at hs₁
    · exact hkeep s₁ sf₁ (by simpa [hss] using hs₁)
  | createContext c n =>
    simp only [driverStep] at hst
    split at hst
    · cases hst
      exact h.createContext c n
    · cases hst
  | beginPicture c s =>
    obtain ⟨st, hb⟩ := exists_beginPicture hst
    rcases nvBeginPicture_cases hb with ⟨-, rfl⟩ |
      ⟨ctx, sf, hc, hs, ⟨-, -, rfl⟩ | ⟨ctx', sf', -, ha, rfl⟩⟩
    · exact h
    · exact h.of_same hI rfl (fun _ ctx hc =>
        ⟨ctx, hc, .refl ctx⟩) (hset hs (resetIndex_same c sf).begun)
    · exact h.begin hok.1 hc hs ha
  | renderPicture c =>
    cases hst
    exact h
  | endPicture c o =>
    have hw := hctx (by simp) (by simp)
    obtain ⟨st, he⟩ := exists_endPicture hst
    have hdecode : SlotsOk w (nextSlots w (.endPicture c o) slots) := by
      show SlotsOk w ((w.contexts c).elim slots fun ctx => if ctx.decoder ∧
          o.pushed then slots.decode ctx else slots)
      cases hc : w.contexts c with
      | none => exact h
      | some ctx =>
        rw [Option.elim_some]
        split
        · exact h.decode hc (hok.2 ctx hc)
        · exact h
    rcases nvEndPicture_cases he with ⟨-, rfl⟩ | ⟨ctx, hc, ⟨hr, rfl⟩ | ⟨sf, hr, hs, rfl⟩⟩
    · exact hdecode
    · exact hdecode.of_same hI rfl hw hkeep
    · exact hdecode.of_same hI rfl hw (hset hs rfl)
  | destroyContext c pushed =>
    have hw := hctx (by simp) (by simp)
    simp only [driverStep] at hst
    split at hst
    · cases hst
      exact h
    · cases hst
      cases pushed <;> exact h.of_same hI rfl hw hkeep
  | deleteContext c joined =>
    have hw := hctx (by simp) (by simp)
    simp only [driverStep] at hst
    split at hst
    · cases hst
    · split at hst
      · cases hst
        exact h.of_same hI rfl hw hkeep
      · cases hst
  | resolve c o =>
    have hw := hctx (by simp) (by simp)
    obtain ⟨ctx, hc, ⟨hp, rfl⟩ | ⟨s, sf, hp, hs, rfl⟩⟩ := resolveStep_cases hst
    · exact h.of_same hI rfl hw hkeep
    · exact h.of_same hI rfl hw (hset hs (resolveFrame_same o ctx.thread sf).begun)

end Steps

theorem slotsOk_of_reach {x : World × DecodeSurfaces} (h : decoding.ReachWhen KeepsSlots x) :
    SlotsOk x.1 x.2 := by
  refine Lts.ReachWhen.invariant (I := fun x => SlotsOk x.1 x.2) ?_ ?_ h
  · rintro ⟨w, slots⟩ ⟨hw, hslots⟩
    obtain rfl : w = .empty := hw
    obtain rfl : slots = fun _ _ => none := hslots
    exact slotsOk_empty
  · rintro ⟨w, slots⟩ call ⟨w', slots'⟩ hi hok hst
    obtain ⟨hstep, rfl⟩ := Lts.withGhost_step_iff.mp hst
    exact hi.step hok hstep

end NvVaapi
