import NvVaapi.Driver.State

/-!
# The queue between `nvEndPicture` and the resolve thread

* `ContextStep`: what one step of the system does to one context. `driverStep_contexts` says that
  there is nothing else, so an invariant of single contexts is a case analysis over it.
* `QueueOk`: what the thread took and what is pending make up what was enqueued.
* `taken_prefix`: it holds in every run that never puts a surface into a full queue.
-/

namespace NvVaapi

/-- What the step `call` can make of the context `ctx` at `c`. -/
inductive ContextStep (w : World) (c : Addr) (ctx : NVContext) : DriverCall → NVContext → Prop
  | same (call : DriverCall) : ContextStep w c ctx call ctx
  | begin {s : Addr} {sf sf' : NVSurface} {ctx' : NVContext} : w.surfaces s = some sf →
      assignIndex ctx (resetIndex c sf) = some (ctx', sf') →
      ContextStep w c ctx (.beginPicture c s) (ctx'.rendering s sf'.pictureIdx)
  | enqueue {o : EndOutcome} : o.Reaches ctx → ContextStep w c ctx (.endPicture c o) ctx.enqueue
  | giveUp {o : EndOutcome} : ¬o.Reaches ctx →
      ContextStep w c ctx (.endPicture c o) { ctx with inPicture := false }
  | exit : ContextStep w c ctx (.destroyContext c true) { ctx with exiting := true }
  | await {o : ResolveOutcome} : ctx.thread.surface = none →
      ContextStep w c ctx (.resolve c o) (awaitFrame o.pushed ctx)
  | frame {o : ResolveOutcome} {s : Addr} {sf : NVSurface} : ctx.thread.surface = some s →
      w.surfaces s = some sf →
      ContextStep w c ctx (.resolve c o) (ctx.goto (resolveFrame o ctx.thread sf).1)

/-- A context was there before and took a step, or it was created. -/
theorem driverStep_contexts {w w' : World} {call : DriverCall} {c : Addr} {ctx' : NVContext}
    (h : driverStep w call = some w') (hc : w'.contexts c = some ctx') :
    (∃ ctx, w.contexts c = some ctx ∧ ContextStep w c ctx call ctx') ∨
      ∃ n, call = .createContext c n ∧ w.Unused c ∧ ctx' = .init w.nextGeneration n := by
  have keep (hc : w.contexts c = some ctx') : (∃ ctx, w.contexts c = some ctx ∧
      ContextStep w c ctx call ctx') ∨ ∃ n, call = .createContext c n ∧ w.Unused c ∧
        ctx' = .init w.nextGeneration n :=
    .inl ⟨ctx', hc, .same call⟩
  cases call with
  | createSurface s =>
    simp only [driverStep] at h
    split at h
    · cases h
      exact keep hc
    · cases h
  | destroySurface s =>
    cases h
    exact keep hc
  | createContext c₁ n =>
    simp only [driverStep] at h
    split at h
    · next hu =>
      cases h
      rcases World.contexts_setContext_cases hc with ⟨rfl, rfl⟩ | ⟨-, hc⟩
      · exact .inr ⟨n, rfl, hu, rfl⟩
      · exact keep hc
    · cases h
  | beginPicture c₁ s =>
    obtain ⟨st, hst⟩ := exists_beginPicture h
    rcases nvBeginPicture_cases hst with
      ⟨-, rfl⟩ | ⟨ctx, sf, hctx, hs, ⟨-, -, rfl⟩ | ⟨ctx₁, sf₁, -, ha, rfl⟩⟩
    · exact keep hc
    · exact keep hc
    · rcases World.contexts_setContext_cases hc with ⟨rfl, rfl⟩ | ⟨-, hc⟩
      · exact .inl ⟨ctx, hctx, .begin hs ha⟩
      · exact keep hc
  | renderPicture c₁ =>
    cases h
    exact keep hc
  | endPicture c₁ o =>
    obtain ⟨st, hst⟩ := exists_endPicture h
    rcases nvEndPicture_cases hst with ⟨-, rfl⟩ | ⟨ctx, hctx, ⟨hr, rfl⟩ | ⟨sf, hr, hs, rfl⟩⟩
    · exact keep hc
    · rcases World.contexts_setContext_cases hc with ⟨rfl, rfl⟩ | ⟨-, hc⟩
      · exact .inl ⟨ctx, hctx, .giveUp hr⟩
      · exact keep hc
    · rcases World.contexts_setContext_cases hc with ⟨rfl, rfl⟩ | ⟨-, hc⟩
      · exact .inl ⟨ctx, hctx, .enqueue hr⟩
      · exact keep hc
  | destroyContext c₁ pushed =>
    simp only [driverStep] at h
    split at h
    · cases h
      exact keep hc
    · next ctx hctx =>
      cases h
      cases pushed with
      | false => exact keep (World.contexts_freeContext hc).2
      | true =>
        rcases World.contexts_setContext_cases hc with ⟨rfl, rfl⟩ | ⟨-, hc⟩
        · exact .inl ⟨ctx, hctx, .exit⟩
        · exact keep hc
  | deleteContext c₁ joined =>
    simp only [driverStep] at h
    split at h
    · cases h
    · split at h
      · cases h
        exact keep (World.contexts_freeContext hc).2
      · cases h
  | resolve c₁ o =>
    obtain ⟨ctx, hctx, ⟨hp, rfl⟩ | ⟨s, sf, hp, hs, rfl⟩⟩ := resolveStep_cases h
    · rcases World.contexts_setContext_cases hc with ⟨rfl, rfl⟩ | ⟨-, hc⟩
      · exact .inl ⟨ctx, hctx, .await hp⟩
      · exact keep hc
    · rcases World.contexts_setContext_cases hc with ⟨rfl, rfl⟩ | ⟨-, hc⟩
      · exact .inl ⟨ctx, hctx, .frame hp hs⟩
      · exact keep hc

/-- What holds of one context: the thread took a prefix of what was enqueued and the rest is
pending, and a thread that saw an entry still has one to take. -/
structure QueueOk (ctx : NVContext) : Prop where
  taken_append : ctx.taken ++ ctx.surfaceQueue.pending = ctx.enqueued
  take : ctx.thread = .take → ¬ctx.surfaceQueue.IsEmpty

/-- No surface is put into a full queue. -/
def HasRoom (w : World) : DriverCall → Prop
  | .endPicture c o => ∀ ctx ∈ w.contexts c, o.Reaches ctx → ¬ctx.surfaceQueue.IsFull
  | _ => True

instance (w : World) (call : DriverCall) : Decidable (HasRoom w call) :=
  match call with
  | .endPicture c o => inferInstanceAs (Decidable (∀ ctx ∈ w.contexts c, o.Reaches ctx → _))
  | .createSurface .. | .destroySurface .. | .createContext .. | .beginPicture ..
  | .renderPicture ..
  | .destroyContext .. | .deleteContext .. | .resolve .. => .isTrue trivial

theorem queueOk_init (g : Generation) (n : Int) : QueueOk (.init g n) := ⟨rfl, nofun⟩

theorem queueOk_enqueue {ctx : NVContext} (h : QueueOk ctx) (hf : ¬ctx.surfaceQueue.IsFull) :
    QueueOk ctx.enqueue := by
  have hp := ctx.surfaceQueue.pending_enqueue ctx.renderTarget hf
  constructor
  · change ctx.taken ++ (ctx.surfaceQueue.enqueue ctx.renderTarget).pending =
      ctx.enqueued ++ [ctx.renderTarget]
    rw [hp, ← List.append_assoc, h.taken_append]
  · intro _
    change ¬(ctx.surfaceQueue.enqueue ctx.renderTarget).IsEmpty
    rw [RingBuffer.isEmpty_iff, hp]
    simp

theorem queueOk_dequeue {ctx : NVContext} (h : QueueOk ctx) (he : ¬ctx.surfaceQueue.IsEmpty) :
    QueueOk ctx.dequeue := by
  refine ⟨?_, nofun⟩
  change ctx.taken ++ [ctx.surfaceQueue.front] ++ ctx.surfaceQueue.dequeue.pending = ctx.enqueued
  rw [← h.taken_append, ctx.surfaceQueue.pending_dequeue he, List.append_assoc]
  rfl

theorem queueOk_await {ctx : NVContext} (h : QueueOk ctx) (pushed : Bool) :
    QueueOk (awaitFrame pushed ctx) := by
  cases hp : ctx.thread with
  | take =>
    simp only [awaitFrame, hp]
    exact queueOk_dequeue h (h.take hp)
  | check =>
    simp only [awaitFrame, hp]
    refine ⟨h.taken_append, fun ht he => ?_⟩
    have hemp : ctx.surfaceQueue.IsEmpty := he
    rw [if_pos hemp] at ht
    cases ht
  | start =>
    simp only [awaitFrame, hp]
    exact ⟨h.taken_append, by cases pushed <;> exact nofun⟩
  | head | woken =>
    simp only [awaitFrame, hp]
    exact ⟨h.taken_append, by cases ctx.exiting <;> exact nofun⟩
  | waiting | out =>
    simp only [awaitFrame, hp]
    exact ⟨h.taken_append, nofun⟩
  | mapping s | exporting s null | unmapping s exported | exited =>
    simp only [awaitFrame, hp]
    exact h

/-- A thread with a surface does not look at the queue. -/
theorem resolveFrame_ne_take {o : ResolveOutcome} {pc : ThreadPc} {s : Addr} (sf : NVSurface)
    (hp : pc.surface = some s) : (resolveFrame o pc sf).1 ≠ .take := by
  cases pc with
  | mapping s =>
    simp only [resolveFrame]
    split
    · exact nofun
    · split <;> exact nofun
  | exporting s null => exact nofun
  | unmapping s exported => exact nofun
  | _ => cases hp

theorem queueOk_step {w : World} {c : Addr} {ctx ctx' : NVContext} {call : DriverCall}
    (h : QueueOk ctx) (hc : w.contexts c = some ctx) (hr : HasRoom w call)
    (hs : ContextStep w c ctx call ctx') : QueueOk ctx' := by
  cases hs with
  | same => exact h
  | begin hsf ha =>
    obtain ⟨-, rfl, -⟩ | ⟨-, -, rfl, -⟩ := assignIndex_cases ha <;> exact ⟨h.taken_append, h.take⟩
  | enqueue hreach => exact queueOk_enqueue h (hr ctx hc hreach)
  | giveUp => exact ⟨h.taken_append, h.take⟩
  | exit => exact ⟨h.taken_append, h.take⟩
  | await => exact queueOk_await h _
  | frame hp hsf => exact ⟨h.taken_append, fun ht => absurd ht (resolveFrame_ne_take _ hp)⟩

theorem queueOk_of_reach {w : World} (h : driver.ReachWhen HasRoom w) {c : Addr} {ctx : NVContext}
    (hc : w.contexts c = some ctx) : QueueOk ctx := by
  refine Lts.ReachWhen.invariant (I := fun w => ∀ c ctx, w.contexts c = some ctx → QueueOk ctx)
    ?_ ?_ h c ctx hc
  · rintro w rfl c ctx hc
    cases hc
  · intro w call w' hI hr hs c ctx' hc
    rcases driverStep_contexts hs hc with ⟨ctx, hctx, hstep⟩ | ⟨n, -, -, rfl⟩
    · exact queueOk_step (hI c ctx hctx) hctx hr hstep
    · exact queueOk_init _ n

/-- In every run that puts no surface into a full queue, the resolve thread of every context takes
the surfaces in the order in which they were enqueued, and those that it has not taken yet are the
ones between the indices. -/
theorem taken_prefix {w : World} (h : driver.ReachWhen HasRoom w) {c : Addr} {ctx : NVContext}
    (hc : w.contexts c = some ctx) :
    ctx.taken <+: ctx.enqueued ∧ ctx.enqueued = ctx.taken ++ ctx.surfaceQueue.pending := by
  have hq := queueOk_of_reach h hc
  exact ⟨⟨_, hq.taken_append⟩, hq.taken_append.symm⟩

/-- Everything succeeds. -/
def endOk : EndOutcome := ⟨true, true, true⟩
def resolveOk : ResolveOutcome := ⟨true, .mapped false, .copied⟩

/-- Two pictures, and the thread up to the surface that it takes first. -/
def twoPictureCalls : List DriverCall :=
  [.createSurface 2, .createSurface 3, .createContext 1 0, .beginPicture 1 2, .endPicture 1 endOk,
    .beginPicture 1 3, .endPicture 1 endOk] ++ List.replicate 4 (.resolve 1 resolveOk)

/-- The second surface is in the queue. -/
theorem taken_prefix_two : ∃ w ctx, driver.run .empty twoPictureCalls = some w ∧
    w.contexts 1 = some ctx ∧ ctx.taken = [2] ∧ ctx.surfaceQueue.pending = [3] ∧
    ctx.taken <+: ctx.enqueued ∧ ctx.enqueued = ctx.taken ++ ctx.surfaceQueue.pending := by
  obtain ⟨w, ctx, hrun, hc, ht, hpending⟩ : ∃ w ctx, driver.run .empty twoPictureCalls = some w ∧
      w.contexts 1 = some ctx ∧ ctx.taken = [2] ∧ ctx.surfaceQueue.pending = [3] :=
    ⟨_, _, rfl, rfl, rfl, rfl⟩
  exact ⟨w, ctx, hrun, hc, ht, hpending, taken_prefix (.run (.init rfl) (by decide) hrun) hc⟩

/-- Seventeen pictures on one context, and the thread up to the surface that it takes. -/
def seventeenPictureCalls : List DriverCall :=
  (List.range 17).map (fun i => .createSurface (i + 2)) ++ [.createContext 1 0] ++
    (List.range 17).flatMap (fun i => [.beginPicture 1 (i + 2), .endPicture 1 endOk]) ++
    List.replicate 4 (.resolve 1 resolveOk)

/-- The seventeenth surface replaces the first one in the queue, and is the first one to be
taken. -/
theorem taken_not_prefix : ¬∀ w, driver.Reach w → ∀ c ctx, w.contexts c = some ctx →
    ctx.taken <+: ctx.enqueued := by
  intro h
  obtain ⟨w, ctx, hrun, hc, ht⟩ : ∃ w ctx, driver.run .empty seventeenPictureCalls = some w ∧
      w.contexts 1 = some ctx ∧ ¬ctx.taken <+: ctx.enqueued := ⟨_, _, rfl, rfl, by decide⟩
  exact ht (h w (Lts.Reach.run (.init rfl) hrun) 1 ctx hc)

end NvVaapi
