import NvVaapi.Driver.Queue

/-!
# Picture indices

`nvBeginPicture` keeps the index of a surface unless the surface was last ended on another context.

* `OwnsIndex`: the surface has no index, or it loses it, or it got it on this context.
* `IndicesOk`: the indices under which live surfaces were last begun on a context are below the next
  one, and differ. `indicesOk_begin` is the step that gives them out.
* `beginPicture_index`: so the index of a new picture is in range and its own.
-/

namespace NvVaapi

/-- The surface has no index, it was last ended on another context, or it was last begun on this
one. -/
def OwnsIndex (w : World) : DriverCall → Prop
  | .beginPicture c s => ∀ ctx ∈ w.contexts c, ∀ sf ∈ w.surfaces s,
      sf.pictureIdx = -1 ∨ (sf.context ≠ 0 ∧ sf.context ≠ c) ∨ sf.lastBegun = some ctx.generation
  | _ => True

instance (w : World) (call : DriverCall) : Decidable (OwnsIndex w call) :=
  match call with
  | .beginPicture c s =>
    inferInstanceAs (Decidable (∀ ctx ∈ w.contexts c, ∀ sf ∈ w.surfaces s, _ ∨ _))
  | .createSurface .. | .destroySurface .. | .createContext .. | .renderPicture .. | .endPicture ..
  | .destroyContext .. | .deleteContext .. | .resolve .. => .isTrue trivial

/-- What holds of the indices in a run. -/
structure IndicesOk (w : World) : Prop where
  generation_lt : ∀ {c ctx}, w.contexts c = some ctx → ctx.generation < w.nextGeneration
  generation_ne : ∀ {c ctx c' ctx'}, w.contexts c = some ctx → w.contexts c' = some ctx' → c ≠ c' →
    ctx.generation ≠ ctx'.generation
  count : ∀ {c ctx}, w.contexts c = some ctx →
    0 ≤ ctx.currentPictureId ∧ ctx.currentPictureId ≤ ctx.surfaceCount
  begun_lt : ∀ {s sf g i}, w.surfaces s = some sf → sf.begun g = some i → g < w.nextGeneration
  begun_range : ∀ {c ctx s sf i}, w.contexts c = some ctx → w.surfaces s = some sf →
    sf.begun ctx.generation = some i → 0 ≤ i ∧ i < ctx.currentPictureId
  begun_ne : ∀ {s sf s' sf' g i}, w.surfaces s = some sf → w.surfaces s' = some sf' → s ≠ s' →
    sf.begun g = some i → sf'.begun g ≠ some i
  lastBegun : ∀ {s sf g}, w.surfaces s = some sf → sf.lastBegun = some g →
    sf.pictureIdx = -1 ∨ sf.begun g = some sf.pictureIdx

/-- The contexts are told apart by their generations, of which there are later ones to come. -/
structure GenerationsOk (w : World) : Prop where
  lt : ∀ {c ctx}, w.contexts c = some ctx → ctx.generation < w.nextGeneration
  ne : ∀ {c ctx c' ctx'}, w.contexts c = some ctx → w.contexts c' = some ctx' → c ≠ c' →
    ctx.generation ≠ ctx'.generation

theorem IndicesOk.generations {w : World} (hI : IndicesOk w) : GenerationsOk w :=
  ⟨hI.generation_lt, hI.generation_ne⟩

/-- The context counts indices as before. -/
structure SameCount (ctx ctx' : NVContext) : Prop where
  generation : ctx'.generation = ctx.generation
  currentPictureId : ctx'.currentPictureId = ctx.currentPictureId
  surfaceCount : ctx'.surfaceCount = ctx.surfaceCount

/-- The surface was begun as before, and its index stays or is dropped. -/
structure SameIndex (sf sf' : NVSurface) : Prop where
  begun : sf'.begun = sf.begun
  lastBegun : sf'.lastBegun = sf.lastBegun
  pictureIdx : sf'.pictureIdx = sf.pictureIdx ∨ sf'.pictureIdx = -1

theorem decodeSurfaceCount_pos (n : Int) : 0 < decodeSurfaceCount n := by
  simp only [decodeSurfaceCount]
  split <;> split <;> omega

theorem indicesOk_empty : IndicesOk .empty := by
  constructor <;> intros <;> simp_all [World.empty]

section Steps

variable {w w' : World}

theorem GenerationsOk.of_same (hG : GenerationsOk w) (hg : w'.nextGeneration = w.nextGeneration)
    (hc : ∀ c ctx', w'.contexts c = some ctx' →
      ∃ ctx, w.contexts c = some ctx ∧ ctx'.generation = ctx.generation) : GenerationsOk w' where
  lt h := by
    obtain ⟨ctx, hctx, hsame⟩ := hc _ _ h
    rw [hsame, hg]
    exact hG.lt hctx
  ne h h' hne := by
    obtain ⟨ctx, hctx, hsame⟩ := hc _ _ h
    obtain ⟨ctx', hctx', hsame'⟩ := hc _ _ h'
    rw [hsame, hsame']
    exact hG.ne hctx hctx' hne

/-- A context that stays the one it was. -/
theorem GenerationsOk.setContext (hG : GenerationsOk w) {c : Addr} {ctx ctx' : NVContext}
    (hc : w.contexts c = some ctx) (hg : ctx'.generation = ctx.generation) :
    GenerationsOk (w.setContext c ctx') := by
  refine hG.of_same rfl fun c₁ ctx₁ h => ?_
  rcases World.contexts_setContext_cases h with ⟨rfl, rfl⟩ | ⟨-, h⟩
  · exact ⟨ctx, hc, hg⟩
  · exact ⟨ctx₁, h, rfl⟩

/-- A new context is younger than the others. -/
theorem GenerationsOk.createContext (hG : GenerationsOk w) (c : Addr) (n : Int) :
    GenerationsOk { w.setContext c (.init w.nextGeneration n) with
      nextGeneration := w.nextGeneration + 1 } := by
  constructor
  · intro c' ctx h
    rcases World.contexts_setContext_cases h with ⟨-, rfl⟩ | ⟨-, h⟩
    · exact Nat.lt_succ_self _
    · exact Nat.lt_succ_of_lt (hG.lt h)
  · intro c₁ ctx₁ c₂ ctx₂ h₁ h₂ hne
    rcases World.contexts_setContext_cases h₁ with ⟨hc₁, rfl⟩ | ⟨-, hw₁⟩ <;>
      rcases World.contexts_setContext_cases h₂ with ⟨hc₂, rfl⟩ | ⟨-, hw₂⟩
    · exact absurd (hc₁.trans hc₂.symm) hne
    · exact (Nat.ne_of_lt (hG.lt hw₂)).symm
    · exact Nat.ne_of_lt (hG.lt hw₁)
    · exact hG.ne hw₁ hw₂ hne

/-- A step that gives out no index and creates no context. -/
theorem indicesOk_of_same (hI : IndicesOk w) (hg : w'.nextGeneration = w.nextGeneration)
    (hc : ∀ c ctx', w'.contexts c = some ctx' → ∃ ctx, w.contexts c = some ctx ∧ SameCount ctx ctx')
    (hs : ∀ s sf', w'.surfaces s = some sf' →
      (∃ sf, w.surfaces s = some sf ∧ SameIndex sf sf') ∨ sf' = .init) : IndicesOk w' := by
  have hG : GenerationsOk w' := hI.generations.of_same hg fun c ctx' h =>
    (hc c ctx' h).imp fun _ hctx => ⟨hctx.1, hctx.2.generation⟩
  refine ⟨hG.lt, hG.ne, ?_, ?_, ?_, ?_, ?_⟩
  · intro c ctx' h
    obtain ⟨ctx, hctx, hsame⟩ := hc _ _ h
    rw [hsame.currentPictureId, hsame.surfaceCount]
    exact hI.count hctx
  · intro s sf' g i h hb
    rcases hs _ _ h with ⟨sf, hsf, hsame⟩ | rfl
    · rw [hg]
      exact hI.begun_lt hsf (hsame.begun ▸ hb)
    · cases hb
  · intro c ctx' s sf' i h h' hb
    obtain ⟨ctx, hctx, hsame⟩ := hc _ _ h
    rcases hs _ _ h' with ⟨sf, hsf, hsame'⟩ | rfl
    · rw [hsame.generation, hsame'.begun] at hb
      rw [hsame.currentPictureId]
      exact hI.begun_range hctx hsf hb
    · cases hb
  · intro s₁ sf₁ s₂ sf₂ g i h h' hne hb
    rcases hs _ _ h with ⟨sf, hsf, hsame⟩ | rfl
    · rcases hs _ _ h' with ⟨sf', hsf', hsame'⟩ | rfl
      · rw [hsame'.begun]
        exact hI.begun_ne hsf hsf' hne (hsame.begun ▸ hb)
      · exact nofun
    · cases hb
  · intro s sf' g h hl
    rcases hs _ _ h with ⟨sf, hsf, hsame⟩ | rfl
    · rcases hsame.pictureIdx with he | he
      · rw [he, hsame.begun]
        exact hI.lastBegun hsf (hsame.lastBegun ▸ hl)
      · exact .inl he
    · cases hl

theorem resetIndex_same (c : Addr) (sf : NVSurface) : SameIndex sf (resetIndex c sf) := by
  unfold resetIndex
  split
  · exact ⟨rfl, rfl, .inr rfl⟩
  · exact ⟨rfl, rfl, .inl rfl⟩

theorem resolveFrame_same (o : ResolveOutcome) (pc : ThreadPc) (sf : NVSurface) :
    SameIndex sf (resolveFrame o pc sf).2 := by
  have hr : ∀ failed, SameIndex sf (sf.resolved failed) := fun _ => ⟨rfl, rfl, .inl rfl⟩
  have hrefl : SameIndex sf sf := ⟨rfl, rfl, .inl rfl⟩
  cases pc with
  | mapping s =>
    simp only [resolveFrame]
    split
    · exact hr true
    · split
      · exact hr true
      · exact hrefl
  | exporting s null =>
    cases he : o.exported <;> cases null <;> simp only [resolveFrame, exportCudaPtr, he] <;>
      first | exact hrefl | exact hr false
  | unmapping s exported =>
    cases exported
    · exact hr true
    · exact hrefl
  | _ => exact hrefl

theorem SameIndex.refl (sf : NVSurface) : SameIndex sf sf := ⟨rfl, rfl, .inl rfl⟩

theorem SameCount.refl (ctx : NVContext) : SameCount ctx ctx := ⟨rfl, rfl, rfl⟩

theorem awaitFrame_same (pushed : Bool) (ctx : NVContext) :
    SameCount ctx (awaitFrame pushed ctx) := by
  cases h : ctx.thread <;> simp only [awaitFrame, h] <;> exact ⟨rfl, rfl, rfl⟩

/-- Only `nvBeginPicture` counts. -/
theorem contextStep_same {c : Addr} {ctx ctx' : NVContext} {call : DriverCall}
    (hb : ∀ s, call ≠ .beginPicture c s) (h : ContextStep w c ctx call ctx') :
    SameCount ctx ctx' := by
  cases h with
  | same => exact .refl ctx
  | begin => exact absurd rfl (hb _)
  | enqueue => exact ⟨rfl, rfl, rfl⟩
  | giveUp => exact ⟨rfl, rfl, rfl⟩
  | exit => exact ⟨rfl, rfl, rfl⟩
  | await => exact awaitFrame_same _ ctx
  | frame => exact ⟨rfl, rfl, rfl⟩

/-- An update of one surface that leaves its indices. -/
theorem surfaces_of_setSurface {s : Addr} {sf sf' : NVSurface} (hs : w.surfaces s = some sf)
    (hsame : SameIndex sf sf') (s₁ : Addr) (sf₁ : NVSurface)
    (h : (w.setSurface s sf').surfaces s₁ = some sf₁) :
    (∃ sf, w.surfaces s₁ = some sf ∧ SameIndex sf sf₁) ∨ sf₁ = .init := by
  rcases World.surfaces_setSurface_cases h with ⟨rfl, rfl⟩ | ⟨-, h⟩
  · exact .inl ⟨sf, hs, hsame⟩
  · exact .inl ⟨sf₁, h, .refl sf₁⟩

theorem indicesOk_createContext (c : Addr) (n : Int) (hI : IndicesOk w) :
    IndicesOk { w.setContext c (.init w.nextGeneration n) with
      nextGeneration := w.nextGeneration + 1 } := by
  have hG := hI.generations.createContext c n
  refine ⟨hG.lt, hG.ne, ?_, ?_, ?_, hI.begun_ne, hI.lastBegun⟩
  · intro c' ctx h
    rcases World.contexts_setContext_cases h with ⟨-, rfl⟩ | ⟨-, h⟩
    · exact ⟨Int.le_refl 0, Int.le_of_lt (decodeSurfaceCount_pos n)⟩
    · exact hI.count h
  · intro s sf g i h hb
    exact Nat.lt_succ_of_lt (hI.begun_lt h hb)
  · intro c' ctx s sf i h hs hb
    rcases World.contexts_setContext_cases h with ⟨-, rfl⟩ | ⟨-, h⟩
    · exact absurd (hI.begun_lt hs hb) (Nat.lt_irrefl _)
    · exact hI.begun_range h hs hb

/-- The index that a surface gets: the next one, or the one under which it was last begun here. -/
theorem assignIndex_owned {c s : Addr} {ctx ctx' : NVContext} {sf sf' : NVSurface}
    (hI : IndicesOk w) (hok : OwnsIndex w (.beginPicture c s)) (hc : w.contexts c = some ctx)
    (hs : w.surfaces s = some sf) (ha : assignIndex ctx (resetIndex c sf) = some (ctx', sf')) :
    sf'.begun = sf.begun ∧ ctx'.generation = ctx.generation ∧
      ctx'.surfaceCount = ctx.surfaceCount ∧ ctx'.currentPictureId ≤ ctx.surfaceCount ∧
      ((sf'.pictureIdx = ctx.currentPictureId ∧
          ctx'.currentPictureId = ctx.currentPictureId + 1) ∨
        (sf.begun ctx.generation = some sf'.pictureIdx ∧
          ctx'.currentPictureId = ctx.currentPictureId)) := by
  have hsame := resetIndex_same c sf
  have hcount := hI.count hc
  rcases assignIndex_cases ha with ⟨hi, rfl, rfl⟩ | ⟨-, hne, rfl, rfl⟩
  · refine ⟨hsame.begun, rfl, rfl, hcount.2, .inr ⟨?_, rfl⟩⟩
    have hpic : (resetIndex c sf).pictureIdx = sf.pictureIdx := hsame.pictureIdx.resolve_right hi
    have hkeep : ¬(sf.context ≠ 0 ∧ sf.context ≠ c) := fun hr => hi (by rw [resetIndex, if_pos hr])
    have hlast : sf.lastBegun = some ctx'.generation :=
      ((hok _ hc sf hs).resolve_left (hpic ▸ hi)).resolve_left hkeep
    rw [hpic]
    exact (hI.lastBegun hs hlast).resolve_left (hpic ▸ hi)
  · exact ⟨hsame.begun, rfl, rfl, by change ctx.currentPictureId + 1 ≤ _; omega, .inl ⟨rfl, rfl⟩⟩

/-- `nvBeginPicture` that succeeds on a surface which owns its index. -/
theorem indicesOk_begin {c s : Addr} {ctx ctx' : NVContext} {sf sf' : NVSurface}
    (hI : IndicesOk w) (hok : OwnsIndex w (.beginPicture c s)) (hc : w.contexts c = some ctx)
    (hs : w.surfaces s = some sf) (ha : assignIndex ctx (resetIndex c sf) = some (ctx', sf')) :
    IndicesOk ((w.setSurface s (sf'.rendering ctx'.generation)).setContext c
      (ctx'.rendering s sf'.pictureIdx)) := by
  obtain ⟨hbegun, hgen, hcnt, hle, hidx⟩ := assignIndex_owned hI hok hc hs ha
  have hcount := hI.count hc
  have hrange : 0 ≤ sf'.pictureIdx ∧ sf'.pictureIdx < ctx'.currentPictureId := by
    rcases hidx with ⟨h₁, h₂⟩ | ⟨h₁, h₂⟩
    · omega
    · rw [h₂]
      exact hI.begun_range hc hs h₁
  have hother : ∀ {s₁ sf₁}, w.surfaces s₁ = some sf₁ → s₁ ≠ s →
      sf₁.begun ctx.generation ≠ some sf'.pictureIdx := by
    intro s₁ sf₁ hs₁ hne hb
    rcases hidx with ⟨h₁, -⟩ | ⟨h₁, -⟩
    · have := hI.begun_range hc hs₁ hb
      omega
    · exact hI.begun_ne hs₁ hs hne hb h₁
  have hnew : ∀ g, (sf'.rendering ctx'.generation).begun g =
      if g = ctx.generation then some sf'.pictureIdx else sf.begun g := by
    intro g
    simp only [NVSurface.rendering, Function.update_apply, hgen, hbegun]
  have hsurface : GenerationsOk (w.setSurface s (sf'.rendering ctx'.generation)) :=
    hI.generations.of_same rfl fun _ ctx h => ⟨ctx, h, rfl⟩
  have hG : GenerationsOk ((w.setSurface s (sf'.rendering ctx'.generation)).setContext c
      (ctx'.rendering s sf'.pictureIdx)) := hsurface.setContext hc hgen
  refine ⟨hG.lt, hG.ne, ?_, ?_, ?_, ?_, ?_⟩
  · intro c₁ ctx₁ h
    rcases World.contexts_setContext_cases h with ⟨-, rfl⟩ | ⟨-, h⟩
    · exact ⟨Int.le_of_lt (Int.lt_of_le_of_lt hrange.1 hrange.2), hcnt ▸ hle⟩
    · exact hI.count h
  · intro s₁ sf₁ g i h hb
    rcases World.surfaces_setSurface_cases h with ⟨-, rfl⟩ | ⟨-, h⟩
    · rw [hnew] at hb
      split at hb
      · next hg => exact hg ▸ hI.generation_lt hc
      · exact hI.begun_lt hs hb
    · exact hI.begun_lt h hb
  · intro c₁ ctx₁ s₁ sf₁ i h h' hb
    rcases World.contexts_setContext_cases h with ⟨-, rfl⟩ | ⟨hc₁, hw⟩ <;>
      rcases World.surfaces_setSurface_cases h' with ⟨-, rfl⟩ | ⟨-, hw'⟩
    · have hg : (ctx'.rendering s sf'.pictureIdx).generation = ctx.generation := hgen
      rw [hnew, if_pos hg] at hb
      exact Option.some_inj.mp hb ▸ hrange
    · have hlt := hI.begun_range hc hw' (i := i) (hgen ▸ hb)
      refine ⟨hlt.1, Int.lt_of_lt_of_le hlt.2 ?_⟩
      change ctx.currentPictureId ≤ ctx'.currentPictureId
      rcases hidx with ⟨-, h₂⟩ | ⟨-, h₂⟩ <;> omega
    · rw [hnew, if_neg (hI.generation_ne hw hc hc₁)] at hb
      exact hI.begun_range hw hs hb
    · exact hI.begun_range hw hw' hb
  · intro s₁ sf₁ s₂ sf₂ g i h₁ h₂ hne hb
    rcases World.surfaces_setSurface_cases h₁ with ⟨hs₁, rfl⟩ | ⟨hs₁, hw₁⟩ <;>
      rcases World.surfaces_setSurface_cases h₂ with ⟨hs₂, rfl⟩ | ⟨hs₂, hw₂⟩
    · exact absurd (hs₁.trans hs₂.symm) hne
    · rw [hnew] at hb
      split at hb
      · next hg =>
        rw [hg, ← Option.some_inj.mp hb]
        exact hother hw₂ hs₂
      · exact hI.begun_ne hs hw₂ hs₂.symm hb
    · rw [hnew]
      split
      · next hg =>
        intro he
        rw [hg, ← Option.some_inj.mp he] at hb
        exact hother hw₁ hs₁ hb
      · exact hI.begun_ne hw₁ hs hs₁ hb
    · exact hI.begun_ne hw₁ hw₂ hne hb
  · intro s₁ sf₁ g h hl
    rcases World.surfaces_setSurface_cases h with ⟨-, rfl⟩ | ⟨-, h⟩
    · obtain rfl : ctx'.generation = g := Option.some_inj.mp hl
      exact .inr ((hnew _).trans (if_pos hgen))
    · exact hI.lastBegun h hl

/-- A step that gives out an index gives out one that the surface owns. -/
theorem indicesOk_step {call : DriverCall} (hI : IndicesOk w) (hok : OwnsIndex w call)
    (h : driverStep w call = some w') : IndicesOk w' := by
  have hctx : (∀ c s, call ≠ .beginPicture c s) → (∀ c n, call ≠ .createContext c n) →
      ∀ c ctx', w'.contexts c = some ctx' →
      ∃ ctx, w.contexts c = some ctx ∧ SameCount ctx ctx' := by
    intro hb hn c ctx' hc
    rcases driverStep_contexts h hc with ⟨ctx, hctx, hstep⟩ | ⟨n, he, -⟩
    · exact ⟨ctx, hctx, contextStep_same (hb c) hstep⟩
    · exact absurd he (hn c n)
  have hkeep : ∀ s sf', w.surfaces s = some sf' →
      (∃ sf, w.surfaces s = some sf ∧ SameIndex sf sf') ∨ sf' = .init :=
    fun _ _ hs => .inl ⟨_, hs, .refl _⟩
  cases call with
  | createSurface s =>
    have hw := hctx (by simp) (by simp)
    simp only [driverStep] at h
    split at h
    · cases h
      refine indicesOk_of_same hI rfl hw fun s₁ sf₁ hs => ?_
      rcases World.surfaces_setSurface_cases hs with ⟨-, rfl⟩ | ⟨-, hs⟩
      · exact .inr rfl
      · exact hkeep s₁ sf₁ hs
    · cases h
  | destroySurface s =>
    have hw := hctx (by simp) (by simp)
    cases h
    refine indicesOk_of_same hI rfl hw fun s₁ sf₁ hs => ?_
    by_cases hss : s₁ = s
    · simp [hss] at hs
    · exact hkeep s₁ sf₁ (by simpa [hss] using hs)
  | createContext c n =>
    simp only [driverStep] at h
    split at h
    · cases h
      exact indicesOk_createContext c n hI
    · cases h
  | beginPicture c s =>
    obtain ⟨st, hst⟩ := exists_beginPicture h
    rcases nvBeginPicture_cases hst with
      ⟨-, rfl⟩ | ⟨ctx, sf, hc, hs, ⟨-, -, rfl⟩ | ⟨ctx', sf', -, ha, rfl⟩⟩
    · exact hI
    · exact indicesOk_of_same hI rfl (fun _ ctx h => ⟨ctx, h, .refl ctx⟩)
        (surfaces_of_setSurface hs (resetIndex_same c sf))
    · exact indicesOk_begin hI hok hc hs ha
  | renderPicture c =>
    cases h
    exact hI
  | endPicture c o =>
    have hw := hctx (by simp) (by simp)
    obtain ⟨st, hst⟩ := exists_endPicture h
    rcases nvEndPicture_cases hst with ⟨-, rfl⟩ | ⟨ctx, hc, ⟨hr, rfl⟩ | ⟨sf, hr, hs, rfl⟩⟩
    · exact hI
    · exact indicesOk_of_same hI rfl hw hkeep
    · exact indicesOk_of_same hI rfl hw (surfaces_of_setSurface hs ⟨rfl, rfl, .inl rfl⟩)
  | destroyContext c pushed =>
    have hw := hctx (by simp) (by simp)
    simp only [driverStep] at h
    split at h
    · cases h
      exact hI
    · cases h
      cases pushed <;> exact indicesOk_of_same hI rfl hw hkeep
  | deleteContext c joined =>
    have hw := hctx (by simp) (by simp)
    simp only [driverStep] at h
    split at h
    · cases h
    · split at h
      · cases h
        exact indicesOk_of_same hI rfl hw hkeep
      · cases h
  | resolve c o =>
    have hw := hctx (by simp) (by simp)
    obtain ⟨ctx, hc, ⟨hp, rfl⟩ | ⟨s, sf, hp, hs, rfl⟩⟩ := resolveStep_cases h
    · exact indicesOk_of_same hI rfl hw hkeep
    · exact indicesOk_of_same hI rfl hw
        (surfaces_of_setSurface hs (resolveFrame_same o ctx.thread sf))

end Steps

/-- In every run whose pictures are begun on surfaces that own their index, the index of a new
picture is in range, and no other live surface was last begun under it on the same context. -/
theorem beginPicture_index {w w' : World} (h : driver.ReachWhen OwnsIndex w) {c s : Addr}
    {ctx : NVContext} (hok : OwnsIndex w (.beginPicture c s))
    (hb : nvBeginPicture c s w = (.success, w')) (hc : w'.contexts c = some ctx) :
    0 ≤ ctx.currPicIdx ∧ ctx.currPicIdx < ctx.surfaceCount ∧
      ∀ s' sf, s' ≠ s → w'.surfaces s' = some sf →
      sf.begun ctx.generation ≠ some ctx.currPicIdx := by
  have hI : IndicesOk w := by
    refine Lts.ReachWhen.invariant (I := IndicesOk) ?_ (fun w call w' => indicesOk_step) h
    rintro w rfl
    exact indicesOk_empty
  rcases nvBeginPicture_cases hb with
    ⟨hne, -⟩ | ⟨ctx₀, sf, hc₀, hs, ⟨hne, -⟩ | ⟨ctx', sf', -, ha, rfl⟩⟩
  · exact absurd rfl hne
  · exact absurd rfl hne
  · have hI' := indicesOk_begin hI hok hc₀ hs ha
    have hctx : ctx = ctx'.rendering s sf'.pictureIdx := by simpa using hc.symm
    have hself : (sf'.rendering ctx'.generation).begun ctx.generation = some ctx.currPicIdx := by
      rw [hctx]
      exact Function.update_self _ _ _
    have hsurf : ((w.setSurface s (sf'.rendering ctx'.generation)).setContext c
        (ctx'.rendering s sf'.pictureIdx)).surfaces s = some (sf'.rendering ctx'.generation) := by
      simp
    have hrange := hI'.begun_range hc hsurf hself
    have hcount := (hI'.count hc).2
    exact ⟨hrange.1, Int.lt_of_lt_of_le hrange.2 hcount,
      fun s' sf hne hs' => hI'.begun_ne hsurf hs' hne.symm hself⟩

/-- A picture on one of two surfaces. -/
def twoSurfacesCalls : List DriverCall :=
  [.createSurface 3, .createSurface 4, .createContext 1 0, .beginPicture 1 3]

theorem beginPicture_index_second : ∃ w w' ctx,
    driver.run .empty twoSurfacesCalls = some w ∧ nvBeginPicture 1 4 w = (.success, w') ∧
    w'.contexts 1 = some ctx ∧ ctx.currPicIdx = 1 ∧ 0 ≤ ctx.currPicIdx ∧
    ctx.currPicIdx < ctx.surfaceCount ∧
      ∀ s' sf, s' ≠ 4 → w'.surfaces s' = some sf →
      sf.begun ctx.generation ≠ some ctx.currPicIdx := by
  obtain ⟨w, w', ctx, hrun, hok, hb, hc, hi⟩ : ∃ w w' ctx,
      driver.run .empty twoSurfacesCalls = some w ∧ OwnsIndex w (.beginPicture 1 4) ∧
      nvBeginPicture 1 4 w = (.success, w') ∧ w'.contexts 1 = some ctx ∧ ctx.currPicIdx = 1 :=
    ⟨_, _, _, rfl, by decide, rfl, rfl, rfl⟩
  exact ⟨w, w', ctx, hrun, hb, hc, hi,
    beginPicture_index (.run (.init rfl) (by decide) hrun) hok hb hc⟩

/-- A surface that is begun on a second context before it was ended on the first one. -/
def twoContextsCalls : List DriverCall :=
  [.createSurface 3, .createSurface 4, .createContext 1 0, .createContext 2 0, .beginPicture 1 3,
    .beginPicture 2 3]

/-- The surface keeps the index 0 of the first context, and the next surface gets the index 0 of the
second one. -/
theorem beginPicture_index_twice : ¬∀ w w' c s ctx, driver.Reach w →
    nvBeginPicture c s w = (.success, w') → w'.contexts c = some ctx →
    0 ≤ ctx.currPicIdx ∧ ctx.currPicIdx < ctx.surfaceCount ∧
      ∀ s' sf, s' ≠ s → w'.surfaces s' = some sf →
      sf.begun ctx.generation ≠ some ctx.currPicIdx := by
  intro h
  obtain ⟨w, w', ctx, sf, hrun, hb, hc, hs, hsame⟩ : ∃ w w' ctx sf,
      driver.run .empty twoContextsCalls = some w ∧ nvBeginPicture 2 4 w = (.success, w') ∧
      w'.contexts 2 = some ctx ∧ w'.surfaces 3 = some sf ∧
      sf.begun ctx.generation = some ctx.currPicIdx := ⟨_, _, _, _, rfl, rfl, rfl, rfl, rfl⟩
  exact (h w w' 2 4 ctx (Lts.Reach.run (.init rfl) hrun) hb hc).2.2 3 sf (by decide) hs hsame

end NvVaapi
