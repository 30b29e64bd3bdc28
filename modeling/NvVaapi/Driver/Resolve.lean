import NvVaapi.Driver.Queue

/-!
# Surfaces that wait to be resolved

`nvSyncSurface` waits while `resolving` is set. `Held w s` says that somebody is there to clear it:
a live context renders to the surface, or has it in its queue, or its thread is processing it.

* `KeepsHold`: a condition on the state and the step with which no surface that waits is dropped.
* `allKept_step`: such a step keeps every resolving surface in somebody's hands.
* `resolving_held`: so in every run of such steps.
-/

namespace NvVaapi

/-- `nvSyncSurface` on the surface at `s` waits. -/
def Resolving (w : World) (s : Addr) : Prop := ∃ sf ∈ w.surfaces s, sf.resolving = true

/-- The surface is the render target of an open picture, it is in the queue, or the thread is
processing it. -/
def NVContext.Holds (ctx : NVContext) (s : Addr) : Prop :=
  (ctx.inPicture = true ∧ ctx.renderTarget = s) ∨ s ∈ ctx.surfaceQueue.pending ∨
    ctx.thread.surface = some s

/-- A live context holds the surface. -/
def Held (w : World) (s : Addr) : Prop := ∃ c ctx, w.contexts c = some ctx ∧ ctx.Holds s

/-- The surfaces that the context holds. -/
def NVContext.held (ctx : NVContext) : List Addr :=
  (if ctx.inPicture then [ctx.renderTarget] else []) ++ ctx.surfaceQueue.pending ++
    ctx.thread.surface.toList

theorem mem_held (ctx : NVContext) (s : Addr) : s ∈ ctx.held ↔ ctx.Holds s := by
  unfold NVContext.held NVContext.Holds
  cases ctx.inPicture <;> simp [eq_comm]

/-- The context is deleted with nothing in its hands that waits. -/
def NVContext.Idle (w : World) (ctx : NVContext) : Prop := ∀ s ∈ ctx.held, ¬Resolving w s

/-- The step drops no surface that waits.
* `nvBeginPicture` does not replace the open picture of another surface.
* `nvEndPicture` does not return early, and it finds room in the queue.
* A context is deleted when it holds nothing.
* No frame is exported from a NULL pointer. -/
def KeepsHold (w : World) : DriverCall → Prop
  | .beginPicture c s => ∀ ctx ∈ w.contexts c, ∀ sf ∈ w.surfaces s,
      (assignIndex ctx (resetIndex c sf)).isSome = true → ctx.inPicture = true →
        ctx.renderTarget ≠ s → ¬Resolving w ctx.renderTarget
  | .endPicture c o => ∀ ctx ∈ w.contexts c,
      if o.Reaches ctx then ¬ctx.surfaceQueue.IsFull
      else ctx.inPicture = true → ¬Resolving w ctx.renderTarget
  | .destroyContext c pushed => pushed = false → ∀ ctx ∈ w.contexts c, ctx.Idle w
  | .deleteContext c _ => ∀ ctx ∈ w.contexts c, ctx.Idle w
  | .resolve c o => ∀ ctx ∈ w.contexts c, ∀ s ∈ ctx.thread.surface,
      ctx.thread = .exporting s true → o.exported ≠ .realiseFailed → ¬Resolving w s
  | _ => True

instance (w : World) (s : Addr) : Decidable (Resolving w s) :=
  inferInstanceAs (Decidable (∃ sf ∈ w.surfaces s, _ = _))

instance (w : World) (ctx : NVContext) : Decidable (ctx.Idle w) :=
  inferInstanceAs (Decidable (∀ s ∈ ctx.held, ¬Resolving w s))

instance (w : World) (call : DriverCall) : Decidable (KeepsHold w call) :=
  match call with
  | .beginPicture c s =>
    inferInstanceAs (Decidable (∀ ctx ∈ w.contexts c, ∀ sf ∈ w.surfaces s, _ → _ → _ → _))
  | .endPicture c o =>
    inferInstanceAs (Decidable (∀ ctx ∈ w.contexts c, if o.Reaches ctx then ¬_ else _ → ¬_))
  | .destroyContext c _ => inferInstanceAs (Decidable (_ → ∀ ctx ∈ w.contexts c, ctx.Idle w))
  | .deleteContext c _ => inferInstanceAs (Decidable (∀ ctx ∈ w.contexts c, ctx.Idle w))
  | .resolve c _ =>
    inferInstanceAs (Decidable (∀ ctx ∈ w.contexts c, ∀ s ∈ ctx.thread.surface, _ → _ → _))
  | .createSurface .. | .destroySurface .. | .createContext .. | .renderPicture .. =>
    .isTrue trivial

/-! ## The invariant -/

/-- The surface that the thread still has to clear. After a successful export it has. -/
def ThreadPc.unresolved : ThreadPc → Option Addr
  | .unmapping _ true => none
  | pc => pc.surface

/-- The context will clear the surface. -/
def NVContext.Keeps (ctx : NVContext) (s : Addr) : Prop :=
  (ctx.inPicture = true ∧ ctx.renderTarget = s) ∨ s ∈ ctx.surfaceQueue.pending ∨
    ctx.thread.unresolved = some s

/-- Every resolving surface will be cleared. -/
def AllKept (w : World) : Prop :=
  ∀ s, Resolving w s → ∃ c ctx, w.contexts c = some ctx ∧ ctx.Keeps s

theorem ThreadPc.surface_of_unresolved {pc : ThreadPc} {s : Addr} (h : pc.unresolved = some s) :
    pc.surface = some s := by
  unfold unresolved at h
  split at h
  · cases h
  · exact h

theorem NVContext.Keeps.holds {ctx : NVContext} {s : Addr} (h : ctx.Keeps s) : ctx.Holds s :=
  h.imp_right (Or.imp_right ThreadPc.surface_of_unresolved)

section Steps

variable {w w' : World} {c s : Addr} {ctx ctx' : NVContext}

theorem resolving_iff {sf : NVSurface} (h : w.surfaces s = some sf) :
    Resolving w s ↔ sf.resolving = true := by
  simp [Resolving, h]

theorem resolving_setSurface_self (sf : NVSurface) :
    Resolving (w.setSurface s sf) s ↔ sf.resolving = true := by
  simp [Resolving]

/-- A step that changes one context: every resolving surface is kept by the new one, or it was
resolving before and the old one did not keep it. -/
theorem allKept_setContext (hI : AllKept w)
    (hw : ∀ c', w'.contexts c' = if c' = c then some ctx' else w.contexts c')
    (hs : ∀ s, Resolving w' s → ctx'.Keeps s ∨
      (Resolving w s ∧ ∀ ctx, w.contexts c = some ctx → ¬ctx.Keeps s)) : AllKept w' := by
  intro s hres
  rcases hs s hres with hk | ⟨hres', hno⟩
  · exact ⟨c, ctx', by rw [hw, if_pos rfl], hk⟩
  · obtain ⟨c₁, ctx₁, hc₁, hk₁⟩ := hI s hres'
    have hne : c₁ ≠ c := by
      rintro rfl
      exact hno ctx₁ hc₁ hk₁
    exact ⟨c₁, ctx₁, by rw [hw, if_neg hne, hc₁], hk₁⟩

/-- The same when the new context keeps what the old one kept. -/
theorem allKept_of_keeps (hI : AllKept w) (hc : w.contexts c = some ctx)
    (hw : ∀ c', w'.contexts c' = if c' = c then some ctx' else w.contexts c')
    (hres : ∀ s, Resolving w' s → Resolving w s)
    (hk : ∀ s, Resolving w s → ctx.Keeps s → ctx'.Keeps s) : AllKept w' := by
  refine allKept_setContext hI hw fun s hs => ?_
  by_cases hkeep : ctx.Keeps s
  · exact .inl (hk s (hres s hs) hkeep)
  · refine .inr ⟨hres s hs, fun ctx₁ hc₁ => ?_⟩
    obtain rfl : ctx = ctx₁ := Option.some_inj.mp (hc.symm.trans hc₁)
    exact hkeep

theorem allKept_freeContext (hI : AllKept w) (hidle : ∀ ctx ∈ w.contexts c, ctx.Idle w) :
    AllKept (w.freeContext c) := by
  intro s hres
  obtain ⟨c₁, ctx₁, hc₁, hk₁⟩ := hI s hres
  have hne : c₁ ≠ c := by
    rintro rfl
    exact hidle ctx₁ hc₁ s ((mem_held _ _).mpr hk₁.holds) hres
  exact ⟨c₁, ctx₁, by simp [hne, hc₁], hk₁⟩

/-- An update of a surface that does not set `resolving`. -/
theorem resolving_of_setSurface {sf sf' : NVSurface} (hs : w.surfaces s = some sf)
    (he : sf'.resolving = true → sf.resolving = true) {s₁ : Addr}
    (h : Resolving (w.setSurface s sf') s₁) : Resolving w s₁ := by
  by_cases hne : s₁ = s
  · subst hne
    exact (resolving_iff hs).mpr (he ((resolving_iff (by simp)).mp h))
  · simpa [Resolving, hne] using h

theorem resetIndex_resolving (c : Addr) (sf : NVSurface) :
    (resetIndex c sf).resolving = sf.resolving := by
  unfold resetIndex
  split <;> rfl

theorem allKept_beginPicture (hI : AllKept w) (hok : KeepsHold w (.beginPicture c s))
    (h : driverStep w (.beginPicture c s) = some w') : AllKept w' := by
  obtain ⟨st, hst⟩ := exists_beginPicture h
  rcases nvBeginPicture_cases hst with
    ⟨-, rfl⟩ | ⟨ctx, sf, hc, hs, ⟨-, -, rfl⟩ | ⟨ctx₁, sf₁, -, ha, rfl⟩⟩
  · exact hI
  · -- the index of the surface changes at most
    intro s₁ hres
    refine hI s₁ (resolving_of_setSurface hs (fun hr => ?_) hres)
    rwa [resetIndex_resolving] at hr
  · have hq : ctx₁.surfaceQueue = ctx.surfaceQueue ∧ ctx₁.thread = ctx.thread := by
      obtain ⟨-, rfl, -⟩ | ⟨-, -, rfl, -⟩ := assignIndex_cases ha <;> exact ⟨rfl, rfl⟩
    refine allKept_setContext hI (World.setContext_contexts _ _ _) fun s₁ hres => ?_
    by_cases hs₁ : s₁ = s
    · exact .inl (.inl ⟨rfl, hs₁.symm⟩)
    · have hres' : Resolving w s₁ := by simpa [Resolving, hs₁] using hres
      by_cases hkeep : ctx.Keeps s₁
      · rcases hkeep with ⟨hp, rfl⟩ | hk
        · exact absurd hres' (hok ctx hc sf hs (by simp [ha]) hp hs₁)
        · refine .inl (.inr ?_)
          change s₁ ∈ ctx₁.surfaceQueue.pending ∨ ctx₁.thread.unresolved = some s₁
          rwa [hq.1, hq.2]
      · refine .inr ⟨hres', fun ctx₂ hc₂ => ?_⟩
        obtain rfl : ctx = ctx₂ := Option.some_inj.mp (hc.symm.trans hc₂)
        exact hkeep

theorem allKept_endPicture {o : EndOutcome} (hI : AllKept w) (hok : KeepsHold w (.endPicture c o))
    (h : driverStep w (.endPicture c o) = some w') : AllKept w' := by
  obtain ⟨st, hst⟩ := exists_endPicture h
  rcases nvEndPicture_cases hst with ⟨-, rfl⟩ | ⟨ctx, hc, ⟨hr, rfl⟩ | ⟨sf, hr, hs, rfl⟩⟩
  · exact hI
  · have hopen := hok ctx hc
    rw [if_neg hr] at hopen
    refine allKept_of_keeps hI hc (World.setContext_contexts _ _ _) (fun _ hres => hres)
      fun s₁ hres hk => ?_
    rcases hk with ⟨hp, rfl⟩ | hk
    · exact absurd hres (hopen hp)
    · exact .inr hk
  · have hfull := hok ctx hc
    rw [if_pos hr] at hfull
    have hp := ctx.surfaceQueue.pending_enqueue ctx.renderTarget hfull
    refine allKept_of_keeps hI hc (World.setContext_contexts _ _ _)
      (fun _ hres => resolving_of_setSurface hs ?_ hres) fun s₁ _ hk => ?_
    · exact id
    have hmem : s₁ ∈ ctx.surfaceQueue.pending ++ [ctx.renderTarget] ∨
        ctx.thread.unresolved = some s₁ := by
      rcases hk with ⟨-, rfl⟩ | hk | hk
      · exact .inl (by simp)
      · exact .inl (List.mem_append_left _ hk)
      · exact .inr hk
    rw [← hp] at hmem
    exact .inr hmem

/-- A thread without a surface keeps what it has, and what it takes from the queue. -/
theorem keeps_awaitFrame {pushed : Bool} (hp : ctx.thread.surface = none) (hk : ctx.Keeps s) :
    (awaitFrame pushed ctx).Keeps s := by
  have hno : ctx.thread.unresolved ≠ some s := fun h => by
    rw [ThreadPc.surface_of_unresolved h] at hp
    cases hp
  have hk' : (ctx.inPicture = true ∧ ctx.renderTarget = s) ∨ s ∈ ctx.surfaceQueue.pending := by
    rcases hk with hk | hk | hk
    · exact .inl hk
    · exact .inr hk
    · exact absurd hk hno
  cases ht : ctx.thread with
  | take =>
    simp only [awaitFrame, ht]
    rcases hk' with hk | hk
    · exact .inl hk
    · have hne : ¬ctx.surfaceQueue.IsEmpty := by
        rw [RingBuffer.isEmpty_iff]
        exact List.ne_nil_of_mem hk
      rw [ctx.surfaceQueue.pending_dequeue hne] at hk
      rcases List.mem_cons.mp hk with rfl | hk
      · exact .inr (.inr rfl)
      · exact .inr (.inl hk)
  | _ =>
    simp only [awaitFrame, ht]
    exact hk'.imp_right Or.inl

/-- A step of a thread with a surface clears it, or goes on with it, or leaves it: after the export,
or because there was nothing to copy. -/
theorem resolveFrame_cases (o : ResolveOutcome) {pc : ThreadPc} (sf : NVSurface)
    (hp : pc.surface = some s) :
    (resolveFrame o pc sf).2.resolving = false ∨
      ((resolveFrame o pc sf).2.resolving = sf.resolving ∧
        ((resolveFrame o pc sf).1.unresolved = some s ∨ pc = .unmapping s true ∨
          (pc = .exporting s true ∧ o.exported ≠ .realiseFailed))) := by
  cases pc with
  | mapping s' =>
    obtain rfl : s' = s := Option.some_inj.mp hp
    simp only [resolveFrame]
    split
    · exact .inl rfl
    · split
      · exact .inl rfl
      · exact .inr ⟨rfl, .inl rfl⟩
  | exporting s' null =>
    obtain rfl : s' = s := Option.some_inj.mp hp
    cases he : o.exported <;> cases null <;> simp [resolveFrame, exportCudaPtr, he,
      NVSurface.resolved, ThreadPc.unresolved, ThreadPc.surface]
  | unmapping s' exported =>
    obtain rfl : s' = s := Option.some_inj.mp hp
    cases exported
    · exact .inl rfl
    · exact .inr ⟨rfl, .inr (.inl rfl)⟩
  | _ => cases hp

theorem allKept_resolve {o : ResolveOutcome} (hI : AllKept w) (hok : KeepsHold w (.resolve c o))
    (h : driverStep w (.resolve c o) = some w') : AllKept w' := by
  obtain ⟨ctx, hc, ⟨hp, rfl⟩ | ⟨s, sf, hp, hs, rfl⟩⟩ := resolveStep_cases h
  · exact allKept_of_keeps hI hc (World.setContext_contexts _ _ _) (fun _ hres => hres)
      fun s₁ _ hk => keeps_awaitFrame hp hk
  · refine allKept_setContext hI (World.setContext_contexts _ _ _) fun s₁ hres => ?_
    have hother : Resolving w s₁ → (ctx.thread.unresolved = some s₁ →
        (resolveFrame o ctx.thread sf).1.unresolved = some s₁) →
        (ctx.goto (resolveFrame o ctx.thread sf).1).Keeps s₁ ∨
          (Resolving w s₁ ∧ ∀ ctx', w.contexts c = some ctx' → ¬ctx'.Keeps s₁) := by
      intro hres' hthread
      by_cases hk : ctx.Keeps s₁
      · exact .inl (hk.imp_right (Or.imp_right hthread))
      · refine .inr ⟨hres', fun ctx₁ hc₁ => ?_⟩
        obtain rfl : ctx = ctx₁ := Option.some_inj.mp (hc.symm.trans hc₁)
        exact hk
    by_cases hs₁ : s₁ = s
    · subst hs₁
      have hr : (resolveFrame o ctx.thread sf).2.resolving = true :=
        (resolving_iff (by simp)).mp hres
      rcases resolveFrame_cases o sf hp with hfalse | ⟨hsame, hk | hdone | ⟨hnull, hfail⟩⟩
      · rw [hfalse] at hr
        cases hr
      · exact .inl (.inr (.inr hk))
      · have hres' : Resolving w s₁ := (resolving_iff hs).mpr (hsame ▸ hr)
        refine hother hres' fun hu => ?_
        rw [hdone] at hu
        cases hu
      · have hres' : Resolving w s₁ := (resolving_iff hs).mpr (hsame ▸ hr)
        exact absurd hres' (hok ctx hc s₁ hp hnull hfail)
    · refine hother (by simpa [Resolving, hs₁] using hres) fun hu => ?_
      have hsurf := ThreadPc.surface_of_unresolved hu
      rw [hp] at hsurf
      exact absurd (Option.some_inj.mp hsurf).symm hs₁

/-- A step that drops no surface keeps every one that waits. -/
theorem allKept_step {call : DriverCall} (hI : AllKept w) (hok : KeepsHold w call)
    (h : driverStep w call = some w') : AllKept w' := by
  cases call with
  | createSurface s =>
    simp only [driverStep] at h
    split at h
    · cases h
      intro s₁ hres
      by_cases hs₁ : s₁ = s
      · subst hs₁
        cases (resolving_setSurface_self _).mp hres
      · exact hI s₁ (by simpa [Resolving, hs₁] using hres)
    · cases h
  | destroySurface s =>
    cases h
    intro s₁ hres
    by_cases hs₁ : s₁ = s
    · simp [Resolving, hs₁] at hres
    · exact hI s₁ (by simpa [Resolving, hs₁] using hres)
  | createContext c n =>
    simp only [driverStep] at h
    split at h
    · next hu =>
      cases h
      refine allKept_setContext hI (c :=
        c) (World.setContext_contexts w c (.init w.nextGeneration n))
        fun s₁ hres => .inr ⟨hres, fun ctx hc => ?_⟩
      have hnone := hu.2.2
      rw [hc] at hnone
      cases hnone
    · cases h
  | beginPicture c s => exact allKept_beginPicture hI hok h
  | renderPicture c =>
    cases h
    exact hI
  | endPicture c o => exact allKept_endPicture hI hok h
  | destroyContext c pushed =>
    simp only [driverStep] at h
    split at h
    · cases h
      exact hI
    · next ctx hc =>
      cases h
      cases pushed with
      | false => exact allKept_freeContext hI (hok rfl)
      | true =>
        exact allKept_of_keeps hI hc (World.setContext_contexts _ _ _) (fun _ hres => hres)
          fun _ _ hk => hk
  | deleteContext c joined =>
    simp only [driverStep] at h
    split at h
    · cases h
    · split at h
      · cases h
        exact allKept_freeContext hI hok
      · cases h
  | resolve c o => exact allKept_resolve hI hok h

end Steps

/-- In every run whose steps drop no surface, somebody is there to clear every surface that
waits. -/
theorem resolving_held {w : World} (h : driver.ReachWhen KeepsHold w) {s : Addr}
    (hs : Resolving w s) : Held w s := by
  have hI : AllKept w := by
    refine Lts.ReachWhen.invariant (I := AllKept) ?_ (fun w call w' => allKept_step) h
    rintro w rfl s ⟨sf, hsf, -⟩
    cases hsf
  obtain ⟨c, ctx, hc, hk⟩ := hI s hs
  exact ⟨c, ctx, hc, hk.holds⟩

/-- One picture, and the thread up to the surface that it takes. -/
def onePictureCalls : List DriverCall :=
  [.createSurface 2, .createContext 1 0, .beginPicture 1 2, .endPicture 1 endOk] ++
    List.replicate 4 (.resolve 1 resolveOk)

theorem resolving_held_one : ∃ w, driver.run .empty onePictureCalls = some w ∧ Resolving w 2 ∧
    Held w 2 := by
  obtain ⟨w, hrun, hres⟩ : ∃ w, driver.run .empty onePictureCalls = some w ∧ Resolving w 2 :=
    ⟨_, rfl, by decide⟩
  exact ⟨w, hrun, hres, resolving_held (.run (.init rfl) (by decide) hrun) hres⟩

/-- A context that is destroyed before its thread looks at the queue: the thread leaves at the head
of its loop. -/
def destroyedCalls : List DriverCall :=
  [.createSurface 2, .createContext 1 0, .beginPicture 1 2, .endPicture 1 endOk,
    .destroyContext 1 true] ++ List.replicate 3 (.resolve 1 resolveOk) ++ [.deleteContext 1 true]

/-- The surface of the picture waits, and no context is left. -/
theorem resolving_not_held : ¬∀ w, driver.Reach w → ∀ s, Resolving w s → Held w s := by
  intro h
  obtain ⟨w, hrun, hres, hnone⟩ : ∃ w, driver.run .empty destroyedCalls = some w ∧ Resolving w 2 ∧
      ∀ c, w.contexts c = none := by
    refine ⟨_, rfl, by decide, fun c => ?_⟩
    by_cases hc : c = 1
    · subst hc
      rfl
    · repeat first | rfl | refine (Function.update_of_ne hc _ _).trans ?_
  obtain ⟨c, ctx, hc, -⟩ := h w (Lts.Reach.run (.init rfl) hrun) 2 hres
  rw [hnone c] at hc
  cases hc

end NvVaapi
