import NvVaapi.Driver.Resolve
import NvVaapi.Lib.Rank

/-!
# Surfaces that get resolved

* `NVContext.finished`: the surfaces that the thread has taken and is done with.
* `Serves`: the steps that let the thread of a context go on: the context is not destroyed, the
  thread enters the CUDA context at its start, and no surface that waits is dropped. A frame that is
  mapped at NULL is dropped.
* `resolve_progress`: in a run of such steps, six steps of the thread for each surface in the queue,
  and three, are enough for all of them, whatever else happens between them.
* `resolve_terminates`: a thread that is left alone can take these steps.

Where the thread waits for its condition variable, that it is woken is one of its steps.
-/

namespace NvVaapi

/-- The surfaces that the thread took, without the one that it is processing. -/
def NVContext.finished (ctx : NVContext) : List Addr :=
  if ctx.thread.surface.isSome then ctx.taken.dropLast else ctx.taken

/-- The thread is not told to leave, and it has not left. -/
structure NVContext.Runs (ctx : NVContext) : Prop where
  exiting : ctx.exiting = false
  out : ctx.thread ≠ .out
  exited : ctx.thread ≠ .exited

instance (ctx : NVContext) : Decidable ctx.Runs :=
  decidable_of_iff (ctx.exiting = false ∧ ctx.thread ≠ .out ∧ ctx.thread ≠ .exited)
    ⟨fun h => ⟨h.1, h.2.1, h.2.2⟩, fun h => ⟨h.exiting, h.out, h.exited⟩⟩

/-- The thread of the context at `c` can go on. -/
def LetsRun (c : Addr) (w : World) : DriverCall → Prop
  | .destroyContext c' _ => c' ≠ c
  | .resolve c' o => c' = c → ∀ ctx ∈ w.contexts c, ctx.thread = .start → o.pushed = true
  | _ => True

instance (c : Addr) (w : World) (call : DriverCall) : Decidable (LetsRun c w call) :=
  match call with
  | .destroyContext c' _ => inferInstanceAs (Decidable (c' ≠ c))
  | .resolve c' o =>
    inferInstanceAs (Decidable (c' = c → ∀ ctx ∈ w.contexts c, ctx.thread = .start →
      o.pushed = true))
  | .createSurface .. | .destroySurface .. | .createContext .. | .beginPicture ..
  | .renderPicture ..
  | .endPicture .. | .deleteContext .. => .isTrue trivial

/-- It can go on, and no surface that waits is dropped: in particular its frame is not mapped at
NULL. -/
def Serves (c : Addr) (w : World) (call : DriverCall) : Prop := KeepsHold w call ∧ LetsRun c w call

instance (c : Addr) (w : World) (call : DriverCall) : Decidable (Serves c w call) :=
  inferInstanceAs (Decidable (_ ∧ _))

/-- A step of the thread of the context at `c`. -/
def DriverCall.isResolve (c : Addr) : DriverCall → Bool
  | .resolve c' _ => c' = c
  | _ => false

theorem hasRoom_of_keepsHold {w : World} {call : DriverCall} (h : KeepsHold w call) :
    HasRoom w call := by
  cases call with
  | endPicture c o =>
    intro ctx hc hr
    have hfull := h ctx hc
    rwa [if_pos hr] at hfull
  | _ => trivial

/-! ## One step of the thread -/

section Thread

variable {ctx : NVContext} {s : Addr} {base : List Addr}

/-- The steps of the thread until it is done with a surface, where there is one in the queue. -/
def ThreadPc.toHead : ThreadPc → Nat
  | .out | .exited => 0
  | .unmapping .. => 1
  | .exporting .. => 2
  | .mapping _ => 3
  | .take => 4
  | .check => 5
  | .head | .woken => 6
  | .start | .waiting => 7

/-- The steps until `n` surfaces are done with. -/
def ThreadPc.rank (pc : ThreadPc) (n : Nat) : Nat := if n = 0 then 0 else 6 * (n - 1) + pc.toHead

/-- The steps until all of `base` is done with. -/
def NVContext.rank (base : List Addr) (ctx : NVContext) : Nat :=
  ctx.thread.rank (base.length - ctx.finished.length)

/-- The thread gets to what was put into the queue, of which `base` is the first part. -/
structure Draining (base : List Addr) (ctx : NVContext) : Prop where
  queue : QueueOk ctx
  /-- The surface that is processed is the last one that was taken. -/
  processing : ∀ s, ctx.thread.surface = some s → ctx.taken.getLast? = some s
  runs : ctx.Runs
  base : base <+: ctx.enqueued

theorem finished_of_none (h : ctx.thread.surface = none) : ctx.finished = ctx.taken := by
  simp [NVContext.finished, h]

theorem finished_concat (h : Draining base ctx) (hs : ctx.thread.surface = some s) :
    ctx.finished ++ [s] = ctx.taken := by
  rw [NVContext.finished, hs, Option.isSome_some, if_pos rfl]
  exact List.dropLast_append_getLast? s (h.processing s hs)

/-- An empty queue has nothing left of `base`. -/
theorem Draining.sub_eq_zero (h : Draining base ctx) (hp : ctx.thread.surface = none)
    (he : ctx.surfaceQueue.IsEmpty) : base.length - ctx.finished.length = 0 := by
  have htaken := h.queue.taken_append
  rw [(ctx.surfaceQueue.isEmpty_iff).mp he, List.append_nil] at htaken
  have hle := h.base.length_le
  rw [finished_of_none hp, htaken]
  omega

/-- A thread that changes nothing but its place, in front of a surface. -/
theorem Draining.goto (h : Draining base ctx) {pc : ThreadPc} (hp : ctx.thread.surface = none)
    (hp' : pc.surface = none) (htake : pc = .take → ¬ctx.surfaceQueue.IsEmpty) (hout : pc ≠ .out)
    (hexited : pc ≠ .exited)
    (hrank : base.length - ctx.finished.length ≠ 0 → pc.toHead + 1 ≤ ctx.thread.toHead) :
    Draining base (ctx.goto pc) ∧ (ctx.goto pc).rank base ≤ ctx.rank base - 1 := by
  refine ⟨⟨⟨h.queue.taken_append, htake⟩, fun s hs => ?_, ⟨h.runs.exiting, hout, hexited⟩, h.base⟩,
    ?_⟩
  · have hs : pc.surface = some s := hs
    rw [hp'] at hs
    cases hs
  · have hf : (ctx.goto pc).finished = ctx.finished := by
      have hnone : (ctx.goto pc).finished = ctx.taken := finished_of_none hp'
      rw [hnone, finished_of_none hp]
    rw [NVContext.rank, NVContext.rank, hf]
    show pc.rank _ ≤ _
    unfold ThreadPc.rank
    split
    · omega
    · next hn =>
      have hlt := hrank hn
      omega

/-- A thread without a surface takes one, or has none afterwards. -/
theorem awaitFrame_cases (pushed : Bool) (hp : ctx.thread.surface = none) :
    (ctx.thread = .take ∧ awaitFrame pushed ctx = ctx.dequeue) ∨
      (awaitFrame pushed ctx).thread.surface = none ∧
      (awaitFrame pushed ctx).taken = ctx.taken := by
  cases ht : ctx.thread with
  | take => exact .inl ⟨rfl, by simp only [awaitFrame, ht]⟩
  | start =>
    right
    cases pushed <;> simp [awaitFrame, ht, NVContext.goto, ThreadPc.surface]
  | head | woken =>
    right
    cases he : ctx.exiting <;> simp [awaitFrame, ht, he, NVContext.goto, ThreadPc.surface]
  | check =>
    right
    by_cases he : ctx.surfaceQueue.IsEmpty <;>
      simp [awaitFrame, ht, he, NVContext.goto, ThreadPc.surface]
  | waiting | out | exited =>
    right
    simp [awaitFrame, ht, NVContext.goto, ThreadPc.surface]
  | mapping s | exporting s null | unmapping s exported =>
    rw [ht] at hp
    cases hp

theorem Draining.await (h : Draining base ctx) {pushed : Bool} (hp : ctx.thread.surface = none)
    (hstart : ctx.thread = .start → pushed = true) :
    Draining base (awaitFrame pushed ctx) ∧
      (awaitFrame pushed ctx).rank base ≤ ctx.rank base - 1 := by
  have hexit := h.runs.exiting
  cases ht : ctx.thread with
  | start =>
    simp only [awaitFrame, ht, hstart ht, if_true]
    exact h.goto hp rfl (by simp) (by simp) (by simp) fun _ => by simp [ht, ThreadPc.toHead]
  | head | woken =>
    simp only [awaitFrame, ht, hexit]
    exact h.goto hp rfl (by simp) (by simp) (by simp) fun _ => by simp [ht, ThreadPc.toHead]
  | waiting =>
    simp only [awaitFrame, ht]
    exact h.goto hp rfl (by simp) (by simp) (by simp) fun _ => by simp [ht, ThreadPc.toHead]
  | check =>
    simp only [awaitFrame, ht]
    by_cases he : ctx.surfaceQueue.IsEmpty
    · rw [if_pos he]
      exact h.goto hp rfl (by simp) (by simp) (by simp) fun hn => absurd (h.sub_eq_zero hp he) hn
    · rw [if_neg he]
      exact h.goto hp rfl (fun _ => he) (by simp) (by simp) fun _ => by simp [ht, ThreadPc.toHead]
  | take =>
    simp only [awaitFrame, ht]
    refine ⟨⟨queueOk_dequeue h.queue (h.queue.take ht), fun s hs => ?_,
      ⟨hexit, by simp [NVContext.dequeue], by simp [NVContext.dequeue]⟩, h.base⟩, ?_⟩
    · rw [NVContext.dequeue, List.getLast?_concat]
      exact hs
    · have hf : ctx.dequeue.finished = ctx.finished := by
        rw [finished_of_none hp]
        exact List.dropLast_concat
      rw [NVContext.rank, NVContext.rank, hf, ht]
      show ThreadPc.rank (.mapping _) _ ≤ _
      unfold ThreadPc.rank
      split <;> simp [ThreadPc.toHead]
  | out => exact absurd ht h.runs.out
  | exited => exact absurd ht h.runs.exited
  | mapping s | exporting s null | unmapping s exported =>
    rw [ht] at hp
    cases hp

/-- A thread with a surface goes on with it, or is done with it. -/
theorem resolveFrame_rank (o : ResolveOutcome) {pc : ThreadPc} (sf : NVSurface)
    (hp : pc.surface = some s) :
    0 < pc.toHead ∧ ((resolveFrame o pc sf).1 = .head ∨
      (resolveFrame o pc sf).1.surface = some s ∧
      (resolveFrame o pc sf).1.toHead + 1 ≤ pc.toHead) := by
  cases pc with
  | mapping s' =>
    refine ⟨by simp [ThreadPc.toHead], ?_⟩
    simp only [resolveFrame]
    split
    · exact .inl rfl
    · split
      · exact .inl rfl
      · exact .inr ⟨hp, Nat.le_refl _⟩
  | exporting s' null => exact ⟨by simp [ThreadPc.toHead], .inr ⟨hp, Nat.le_refl _⟩⟩
  | unmapping s' exported => exact ⟨by simp [ThreadPc.toHead], .inl rfl⟩
  | _ => cases hp

theorem Draining.frame (h : Draining base ctx) (o : ResolveOutcome) (sf : NVSurface)
    (hp : ctx.thread.surface = some s) :
    Draining base (ctx.goto (resolveFrame o ctx.thread sf).1) ∧
      (ctx.goto (resolveFrame o ctx.thread sf).1).rank base ≤ ctx.rank base - 1 := by
  have htaken := congrArg List.length (finished_concat h hp)
  rw [List.length_append, List.length_singleton] at htaken
  obtain ⟨hpos, hhead | ⟨hsame, hlt⟩⟩ := resolveFrame_rank o sf hp
  · rw [hhead]
    have hgoto {pc : ThreadPc} (hpc : pc ≠ .head) : (ctx.goto .head).thread ≠ pc := hpc.symm
    refine ⟨⟨⟨h.queue.taken_append, fun ht => absurd ht (hgoto (by simp))⟩,
      fun _ hs => absurd hs (by simp [NVContext.goto, ThreadPc.surface]),
      ⟨h.runs.exiting, hgoto (by simp), hgoto (by simp)⟩, h.base⟩, ?_⟩
    have hf : (ctx.goto .head).finished.length = ctx.finished.length + 1 := by
      rw [finished_of_none rfl]
      exact htaken.symm
    rw [NVContext.rank, NVContext.rank, hf]
    show ThreadPc.rank .head _ ≤ _
    have hhead : ThreadPc.toHead .head = 6 := rfl
    unfold ThreadPc.rank
    split <;> split <;> omega
  · generalize (resolveFrame o ctx.thread sf).1 = pc at *
    refine ⟨⟨⟨h.queue.taken_append, ?_⟩, fun s' hs => ?_, ⟨h.runs.exiting, ?_, ?_⟩, h.base⟩, ?_⟩
    · rintro rfl
      cases hsame
    · have hs : pc.surface = some s' := hs
      exact h.processing s' (by rw [hp, ← hsame, hs])
    · rintro rfl
      cases hsame
    · rintro rfl
      cases hsame
    · have hf : (ctx.goto pc).finished = ctx.finished := by
        have hs : (ctx.goto pc).thread.surface.isSome = ctx.thread.surface.isSome := by
          rw [hp, ← hsame]
          rfl
        rw [NVContext.finished, NVContext.finished, hs]
        rfl
      rw [NVContext.rank, NVContext.rank, hf]
      show pc.rank _ ≤ _
      unfold ThreadPc.rank
      split <;> omega

end Thread

/-! ## One step of the system -/

section System

variable {w w' : World} {c : Addr} {ctx ctx' : NVContext} {base : List Addr}

/-- A context whose thread is not told to leave stays. -/
theorem driverStep_persists {call : DriverCall} (h : driverStep w call = some w')
    (hc : w.contexts c = some ctx) (hexit : ctx.exiting = false)
    (hd : ∀ pushed, call ≠ .destroyContext c pushed) :
    ∃ ctx', w'.contexts c = some ctx' := by
  have hset (c₁ : Addr) (ctx₁ : NVContext) (w₁ : World) (hw : w₁.contexts c = w.contexts c) :
      ∃ ctx', (w₁.setContext c₁ ctx₁).contexts c = some ctx' := by
    rw [World.setContext_contexts]
    split
    · exact ⟨ctx₁, rfl⟩
    · exact ⟨ctx, hw.trans hc⟩
  have hfree (c₁ : Addr) (hne : c ≠ c₁) : ∃ ctx', (w.freeContext c₁).contexts c = some ctx' := by
    rw [World.freeContext_contexts, if_neg hne]
    exact ⟨ctx, hc⟩
  cases call with
  | createSurface s =>
    obtain ⟨-, h⟩ := Option.ite_none_right_eq_some.mp h
    cases h
    exact ⟨ctx, hc⟩
  | destroySurface s | renderPicture c₁ =>
    cases h
    exact ⟨ctx, hc⟩
  | createContext c₁ n =>
    obtain ⟨-, h⟩ := Option.ite_none_right_eq_some.mp h
    cases h
    exact hset c₁ _ w rfl
  | beginPicture c₁ s =>
    obtain ⟨st, hst⟩ := exists_beginPicture h
    obtain ⟨-, rfl⟩ | ⟨-, -, -, -, ⟨-, -, rfl⟩ | ⟨-, -, -, -, rfl⟩⟩ := nvBeginPicture_cases hst
    · exact ⟨ctx, hc⟩
    · exact ⟨ctx, hc⟩
    · exact hset c₁ _ _ rfl
  | endPicture c₁ o =>
    obtain ⟨st, hst⟩ := exists_endPicture h
    obtain ⟨-, rfl⟩ | ⟨-, -, ⟨-, rfl⟩ | ⟨-, -, -, rfl⟩⟩ := nvEndPicture_cases hst
    · exact ⟨ctx, hc⟩
    · exact hset c₁ _ _ rfl
    · exact hset c₁ _ _ rfl
  | destroyContext c₁ pushed =>
    simp only [driverStep] at h
    split at h
    · cases h
      exact ⟨ctx, hc⟩
    · cases h
      cases pushed with
      | true => exact hset c₁ _ w rfl
      | false => exact hfree c₁ fun he => hd false (by rw [he])
  | deleteContext c₁ joined =>
    simp only [driverStep] at h
    split at h
    · cases h
    · next ctx₁ hc₁ =>
      obtain ⟨⟨hleave, -⟩, h⟩ := Option.ite_none_right_eq_some.mp h
      cases h
      refine hfree c₁ fun he => ?_
      subst he
      obtain rfl : ctx = ctx₁ := Option.some_inj.mp (hc.symm.trans hc₁)
      rw [hexit] at hleave
      cases hleave
  | resolve c₁ o =>
    obtain ⟨-, -, ⟨-, rfl⟩ | ⟨-, -, -, -, rfl⟩⟩ := resolveStep_cases h
    · exact hset c₁ _ _ rfl
    · exact hset c₁ _ _ rfl

/-- What the clients do leaves the thread of a context where it is. -/
theorem Draining.other {call : DriverCall} (h : Draining base ctx)
    (hr : ContextStep w c ctx call ctx') (hroom : HasRoom w call) (hc : w.contexts c = some ctx)
    (hcall : call.isResolve c = false) (hd : ∀ pushed, call ≠ .destroyContext c pushed) :
    Draining base ctx' ∧ ctx'.rank base = ctx.rank base := by
  have hq := queueOk_step h.queue hc hroom hr
  cases hr with
  | same => exact ⟨h, rfl⟩
  | begin hsf ha =>
    obtain ⟨-, rfl, -⟩ | ⟨-, -, rfl, -⟩ := assignIndex_cases ha <;>
      exact ⟨⟨hq, h.processing, ⟨h.runs.exiting, h.runs.out, h.runs.exited⟩, h.base⟩, rfl⟩
  | enqueue =>
    have hbase : base <+: ctx.enqueue.enqueued := h.base.trans (List.prefix_append _ _)
    exact ⟨⟨hq, h.processing, ⟨h.runs.exiting, h.runs.out, h.runs.exited⟩, hbase⟩, rfl⟩
  | giveUp => exact ⟨⟨hq, h.processing, ⟨h.runs.exiting, h.runs.out, h.runs.exited⟩, h.base⟩, rfl⟩
  | exit => exact absurd rfl (hd true)
  | await | frame => simp [DriverCall.isResolve] at hcall

/-- The rank of the context at `c`. -/
def World.rank (c : Addr) (base : List Addr) (w : World) : Nat :=
  ((w.contexts c).map (·.rank base)).getD 0

theorem World.rank_eq (hc : w.contexts c = some ctx) : w.rank c base = ctx.rank base := by
  rw [World.rank, hc]
  rfl

/-- The context at `c` is there, and its thread gets to all of `base`. -/
def Drains (c : Addr) (base : List Addr) (w : World) : Prop :=
  ∃ ctx, w.contexts c = some ctx ∧ Draining base ctx

theorem drains_step {call : DriverCall} (h : Drains c base w) (hok : Serves c w call)
    (hs : driverStep w call = some w') :
    Drains c base w' ∧ w'.rank c base ≤ w.rank c base - if call.isResolve c then 1 else 0 := by
  obtain ⟨ctx, hc, hdrain⟩ := h
  obtain ⟨hkeep, hserve⟩ := hok
  rw [World.rank_eq hc]
  have hthread {ctx' : NVContext} (hc' : w'.contexts c = some ctx')
      (hd : Draining base ctx' ∧ ctx'.rank base ≤ ctx.rank base - 1) :
      Drains c base w' ∧ w'.rank c base ≤ ctx.rank base - 1 :=
    ⟨⟨ctx', hc', hd.1⟩, (World.rank_eq hc').trans_le hd.2⟩
  cases hcall : call.isResolve c with
  | true =>
    cases call with
    | resolve c₁ o =>
      obtain rfl : c₁ = c := of_decide_eq_true hcall
      obtain ⟨ctx₁, hc₁, hcases⟩ := resolveStep_cases hs
      obtain rfl : ctx = ctx₁ := Option.some_inj.mp (hc.symm.trans hc₁)
      obtain ⟨hp, rfl⟩ | ⟨s, sf, hp, -, rfl⟩ := hcases
      · exact hthread (by simp) (hdrain.await hp (hserve rfl ctx hc))
      · exact hthread (by simp) (hdrain.frame o sf hp)
    | _ => cases hcall
  | false =>
    have hd (pushed : Bool) : call ≠ .destroyContext c pushed := by
      rintro rfl
      exact hserve rfl
    obtain ⟨ctx', hc'⟩ := driverStep_persists hs hc hdrain.runs.exiting hd
    obtain ⟨ctx₁, hc₁, hstep⟩ | ⟨n, -, hunused, -⟩ := driverStep_contexts hs hc'
    · obtain rfl : ctx = ctx₁ := Option.some_inj.mp (hc.symm.trans hc₁)
      obtain ⟨hdrain', hrank⟩ := hdrain.other hstep (hasRoom_of_keepsHold hkeep) hc hcall hd
      exact ⟨⟨ctx', hc', hdrain'⟩, by simp [World.rank_eq hc', hrank]⟩
    · have hnone := hunused.2.2
      rw [hc] at hnone
      cases hnone

end System

/-! ## Runs -/

/-- A thread that processes a surface has taken it last. -/
theorem processing_of_reach {w : World} (h : driver.Reach w) {c : Addr} {ctx : NVContext}
    (hc : w.contexts c = some ctx) {s : Addr} (hs : ctx.thread.surface = some s) :
    ctx.taken.getLast? = some s := by
  refine Lts.Reach.invariant (I := fun w => ∀ c ctx, w.contexts c = some ctx → ∀ s,
    ctx.thread.surface = some s → ctx.taken.getLast? = some s) ?_ ?_ h c ctx hc s hs
  · rintro w rfl c ctx hc
    cases hc
  · intro w call w' hI hst c ctx' hc s hs
    obtain ⟨ctx, hctx, hstep⟩ | ⟨n, -, -, rfl⟩ := driverStep_contexts hst hc
    · have hold := hI c ctx hctx
      cases hstep with
      | same | enqueue | giveUp | exit => exact hold s hs
      | begin hsf ha =>
        obtain ⟨-, rfl, -⟩ | ⟨-, -, rfl, -⟩ := assignIndex_cases ha <;> exact hold s hs
      | @await o hp =>
        obtain ⟨-, htake⟩ | ⟨hnone, -⟩ := awaitFrame_cases o.pushed hp
        · rw [htake] at hs ⊢
          rw [NVContext.dequeue, List.getLast?_concat]
          exact hs
        · rw [hnone] at hs
          cases hs
      | @frame o s₁ sf hp hsf =>
        obtain ⟨-, hhead | ⟨hsame, -⟩⟩ := resolveFrame_rank o sf hp
        · have hs : (resolveFrame o ctx.thread sf).1.surface = some s := hs
          rw [hhead] at hs
          cases hs
        · have hs : (resolveFrame o ctx.thread sf).1.surface = some s := hs
          exact hold s (by rw [hp, ← hsame, hs])
    · cases hs

theorem allKept_of_reach {w : World} (h : driver.ReachWhen KeepsHold w) : AllKept w := by
  refine Lts.ReachWhen.invariant (I := AllKept) ?_ (fun w call w' => allKept_step) h
  rintro w rfl s ⟨sf, hsf, -⟩
  cases hsf

theorem Draining.of_reach {w : World} (h : driver.ReachWhen KeepsHold w) {c : Addr}
    {ctx : NVContext} (hc : w.contexts c = some ctx) (hr : ctx.Runs) :
    Draining ctx.enqueued ctx := by
  have hroom : driver.ReachWhen HasRoom w := h.mono fun _ _ => hasRoom_of_keepsHold
  have hreach : driver.Reach w := h.mono fun _ _ _ => trivial
  exact ⟨queueOk_of_reach hroom hc, fun s hs => processing_of_reach hreach hc hs, hr,
    List.prefix_rfl⟩

/-- The thread is done with all of it after six steps for each surface in the queue, and three. -/
theorem Draining.rank_le {ctx : NVContext} (h : Draining ctx.enqueued ctx) :
    ctx.rank ctx.enqueued ≤ 6 * ctx.surfaceQueue.pending.length + 3 := by
  have hlen := congrArg List.length h.queue.taken_append
  rw [List.length_append] at hlen
  unfold NVContext.rank ThreadPc.rank
  cases hp : ctx.thread.surface with
  | none =>
    have hle : ctx.thread.toHead ≤ 7 := by cases ctx.thread <;> simp [ThreadPc.toHead]
    rw [finished_of_none hp]
    split <;> omega
  | some s =>
    have hle : ctx.thread.toHead ≤ 3 := by
      cases ht : ctx.thread <;> simp [ThreadPc.toHead] <;> simp [ht, ThreadPc.surface] at hp
    have htaken := congrArg List.length (finished_concat h hp)
    rw [List.length_append, List.length_singleton] at htaken
    split <;> omega

/-- At rank 0 it is. -/
theorem Draining.length_le_of_rank {base : List Addr} {ctx : NVContext} (h : Draining base ctx)
    (hz : ctx.rank base = 0) : base.length ≤ ctx.finished.length := by
  have hpos : 0 < ctx.thread.toHead := by
    cases ht : ctx.thread with
    | out => exact absurd ht h.runs.out
    | exited => exact absurd ht h.runs.exited
    | _ => simp [ThreadPc.toHead]
  unfold NVContext.rank ThreadPc.rank at hz
  split at hz <;> omega

theorem Draining.finished_isPrefix {base : List Addr} {ctx : NVContext} (h : Draining base ctx)
    (hle : base.length ≤ ctx.finished.length) : base <+: ctx.finished := by
  have htaken : ctx.finished <+: ctx.taken := by
    unfold NVContext.finished
    split
    · exact List.dropLast_prefix _
    · exact List.prefix_rfl
  have hall : ctx.finished <+: ctx.enqueued := htaken.trans ⟨_, h.queue.taken_append⟩
  exact List.prefix_of_prefix_length_le h.base hall hle

/-- What the thread of a draining context still keeps came into the queue after `base`. -/
theorem Draining.keeps {base : List Addr} {ctx : NVContext} (h : Draining base ctx)
    (hle : base.length ≤ ctx.finished.length) {s : Addr} (hk : ctx.Keeps s) :
    (ctx.inPicture = true ∧ ctx.renderTarget = s) ∨ s ∈ ctx.enqueued.drop base.length := by
  obtain hk | hk | hk := hk
  · exact .inl hk
  · refine .inr ?_
    have hlen : base.length ≤ ctx.taken.length := by
      refine hle.trans ?_
      unfold NVContext.finished
      split <;> simp
    rw [← h.queue.taken_append, List.drop_append_of_le_length hlen]
    exact List.mem_append_right _ hk
  · refine .inr ?_
    rw [← h.queue.taken_append, ← finished_concat h (ThreadPc.surface_of_unresolved hk),
      List.append_assoc, List.drop_append_of_le_length hle]
    simp

/-- After a run in which the thread takes so many steps, its context is still draining, and `base`
is finished. -/
theorem Drains.run {w w' : World} {calls : List DriverCall} {c : Addr} {ctx : NVContext}
    {base : List Addr} (hdrain : Draining base ctx) (hc : w.contexts c = some ctx)
    (hm : driver.Meets (Serves c) w calls) (hr : driver.run w calls = some w')
    (hn : ctx.rank base ≤ calls.countP (·.isResolve c)) :
    ∃ ctx', w'.contexts c = some ctx' ∧ Draining base ctx' ∧
      base.length ≤ ctx'.finished.length := by
  obtain ⟨⟨ctx', hc', hdrain'⟩, hrank⟩ := Lts.run_rank (I := Drains c base) (p := (·.isResolve c))
    (fun _ _ _ hd hok hst => drains_step hd hok hst) ⟨ctx, hc, hdrain⟩ hm hr
  rw [World.rank_eq hc', World.rank_eq hc] at hrank
  refine ⟨ctx', hc', hdrain', ?_⟩
  apply hdrain'.length_le_of_rank
  omega

/-- What is waited for after such a run is the render target of the open picture, was queued since,
or is in the hands of another context. -/
theorem Draining.resolving {w : World} {c : Addr} {ctx : NVContext} {base : List Addr}
    (hdrain : Draining base ctx) (h : driver.ReachWhen KeepsHold w) (hc : w.contexts c = some ctx)
    (hle : base.length ≤ ctx.finished.length) {s : Addr} (hs : Resolving w s) :
    ∃ c₁ ctx₁, w.contexts c₁ = some ctx₁ ∧ ctx₁.Keeps s ∧
      (c₁ = c → (ctx₁.inPicture = true ∧ ctx₁.renderTarget = s) ∨
        s ∈ ctx₁.enqueued.drop base.length) := by
  obtain ⟨c₁, ctx₁, hc₁, hk⟩ := allKept_of_reach h s hs
  refine ⟨c₁, ctx₁, hc₁, hk, ?_⟩
  rintro rfl
  obtain rfl : ctx = ctx₁ := Option.some_inj.mp (hc.symm.trans hc₁)
  exact hdrain.keeps hle hk

/-- Whatever the clients and the other threads do in a run that drops no surface, a thread that
takes six steps for each surface in its queue, and three, is done with all of them. A surface that
is still waited for then is the render target of its context's open picture, was put into its queue
since, or is in the hands of another context. -/
theorem resolve_progress {w w' : World} {calls : List DriverCall} {c : Addr} {ctx : NVContext}
    (h : driver.ReachWhen KeepsHold w) (hc : w.contexts c = some ctx) (hruns : ctx.Runs)
    (hm : driver.Meets (Serves c) w calls) (hr : driver.run w calls = some w')
    (hn : 6 * ctx.surfaceQueue.pending.length + 3 ≤ calls.countP (·.isResolve c)) :
    ∃ ctx', w'.contexts c = some ctx' ∧ ctx.enqueued <+: ctx'.finished ∧
      ∀ s, Resolving w' s → ∃ c₁ ctx₁, w'.contexts c₁ = some ctx₁ ∧ ctx₁.Keeps s ∧
        (c₁ = c → (ctx₁.inPicture = true ∧ ctx₁.renderTarget = s) ∨
          s ∈ ctx₁.enqueued.drop ctx.enqueued.length) := by
  have hdrain := Draining.of_reach h hc hruns
  obtain ⟨ctx', hc', hdrain', hfinished⟩ := Drains.run hdrain hc hm hr (hdrain.rank_le.trans hn)
  have hreach := h.run (hm.mono fun _ _ hok => hok.1) hr
  exact ⟨ctx', hc', hdrain'.finished_isPrefix hfinished,
    fun s hs => hdrain'.resolving hreach hc' hfinished hs⟩

/-- One picture that waits in the queue, and another one that is begun. -/
def waitingCalls : List DriverCall :=
  [.createSurface 2, .createSurface 3, .createContext 1 0, .beginPicture 1 2, .endPicture 1 endOk,
    .beginPicture 1 3]

/-- The second picture is ended, and the thread gets to the first one. -/
def servingCalls : List DriverCall := .endPicture 1 endOk :: List.replicate 9 (.resolve 1 resolveOk)

theorem resolve_progress_one : ∃ w w' ctx ctx', driver.run .empty waitingCalls = some w ∧
    w.contexts 1 = some ctx ∧ ctx.enqueued = [2] ∧ driver.run w servingCalls = some w' ∧
    w'.contexts 1 = some ctx' ∧ ctx.enqueued <+: ctx'.finished := by
  obtain ⟨w, w', ctx, hrun, hc, he, hr, hruns, hm, hn⟩ :
      ∃ w w' ctx, driver.run .empty waitingCalls = some w ∧
      w.contexts 1 = some ctx ∧ ctx.enqueued = [2] ∧
      driver.run w servingCalls = some w' ∧ ctx.Runs ∧
      driver.Meets (Serves 1) w servingCalls ∧
      6 * ctx.surfaceQueue.pending.length + 3 ≤ servingCalls.countP (·.isResolve 1) :=
    ⟨_, _, _, rfl, rfl, rfl, rfl, by decide, by decide, by decide⟩
  have hreach : driver.ReachWhen KeepsHold w := .run (.init rfl) (by decide) hrun
  obtain ⟨ctx', hc', hall, -⟩ := resolve_progress hreach hc hruns hm hr hn
  exact ⟨w, w', ctx, ctx', hrun, hc, he, hr, hc', hall⟩

/-! ## A thread on its own -/

/-- The surfaces that the thread gets to are there. -/
def Live (w : World) (ctx : NVContext) : Prop :=
  ∀ s, s ∈ ctx.surfaceQueue.pending ∨ ctx.thread.surface = some s → w.surfaces s ≠ none

/-- What a thread leaves of the clients and of the other threads. -/
structure Apart (c : Addr) (w w' : World) (ctx ctx' : NVContext) : Prop where
  contexts : ∀ c₁, c₁ ≠ c → w'.contexts c₁ = w.contexts c₁
  enqueued : ctx'.enqueued = ctx.enqueued
  inPicture : ctx'.inPicture = ctx.inPicture
  renderTarget : ctx'.renderTarget = ctx.renderTarget

theorem Apart.trans {c : Addr} {w w₁ w' : World} {ctx ctx₁ ctx' : NVContext}
    (h : Apart c w w₁ ctx ctx₁) (h' : Apart c w₁ w' ctx₁ ctx') : Apart c w w' ctx ctx' :=
  ⟨fun c₁ hne => (h'.contexts c₁ hne).trans (h.contexts c₁ hne), h'.enqueued.trans h.enqueued,
    h'.inPicture.trans h.inPicture, h'.renderTarget.trans h.renderTarget⟩

section Alone

variable {w : World} {c : Addr} {ctx : NVContext} {base : List Addr}

theorem awaitFrame_apart (pushed : Bool) (ctx : NVContext) :
    (awaitFrame pushed ctx).enqueued = ctx.enqueued ∧ (awaitFrame pushed ctx).inPicture =
      ctx.inPicture ∧ (awaitFrame pushed ctx).renderTarget = ctx.renderTarget := by
  unfold awaitFrame
  split <;> exact ⟨rfl, rfl, rfl⟩

theorem awaitFrame_pending {pushed : Bool} (ht : ctx.thread ≠ .take) :
    (awaitFrame pushed ctx).surfaceQueue = ctx.surfaceQueue := by
  unfold awaitFrame
  split <;> first | rfl | contradiction

/-- A thread whose surfaces are there can take its next step. -/
theorem live_step (hq : QueueOk ctx) (hc : w.contexts c = some ctx) (hl : Live w ctx)
    (o : ResolveOutcome) :
    ∃ w' ctx', driverStep w (.resolve c o) = some w' ∧ w'.contexts c = some ctx' ∧ Live w' ctx' ∧
      Apart c w w' ctx ctx' := by
  cases hp : ctx.thread.surface with
  | none =>
    refine ⟨w.setContext c (awaitFrame o.pushed ctx), awaitFrame o.pushed ctx, ?_, by simp, ?_, ?_⟩
    · simp [driverStep, resolveStep, hc, hp]
    · intro s hs
      by_cases ht : ctx.thread = .take
      · have hdeq : awaitFrame o.pushed ctx = ctx.dequeue := by simp only [awaitFrame, ht]
        have hpend := ctx.surfaceQueue.pending_dequeue (hq.take ht)
        refine hl s (.inl ?_)
        rw [hdeq] at hs
        rw [hpend, List.mem_cons]
        obtain hs | hs := hs
        · exact .inr hs
        · exact .inl (Option.some_inj.mp hs).symm
      · obtain ⟨he, -⟩ | ⟨hnone, -⟩ := awaitFrame_cases o.pushed hp
        · exact absurd he ht
        · rw [awaitFrame_pending ht, hnone] at hs
          exact hl s (.inl (hs.resolve_right (by simp)))
    · obtain ⟨he, hi, hr⟩ := awaitFrame_apart o.pushed ctx
      exact ⟨fun c₁ hne => by simp [hne], he, hi, hr⟩
  | some s =>
    obtain ⟨sf, hsf⟩ := Option.ne_none_iff_exists'.mp (hl s (.inr hp))
    refine ⟨(w.setSurface s (resolveFrame o ctx.thread sf).2).setContext c
      (ctx.goto (resolveFrame o ctx.thread sf).1), ctx.goto (resolveFrame o ctx.thread sf).1, ?_,
        by simp, ?_, ?_⟩
    · simp [driverStep, resolveStep, hc, hp, hsf]
    · intro s' hs
      have hlive : w.surfaces s' ≠ none := by
        obtain hs | hs := hs
        · exact hl s' (.inl hs)
        · have hs : (resolveFrame o ctx.thread sf).1.surface = some s' := hs
          obtain ⟨-, hhead | ⟨hsame, -⟩⟩ := resolveFrame_rank o sf hp
          · rw [hhead] at hs
            cases hs
          · exact hl s' (.inr (by rw [hp, ← hsame, hs]))
      rw [World.setContext_surfaces, World.setSurface_surfaces]
      split
      · exact Option.some_ne_none _
      · exact hlive
    · exact ⟨fun c₁ hne => by simp [hne], rfl, rfl, rfl⟩

/-- So it can take all of them. -/
theorem live_run {os : List ResolveOutcome} (h : Drains c base w) (hc : w.contexts c = some ctx)
    (hl : Live w ctx) (hm : driver.Meets (Serves c) w (os.map (.resolve c))) :
    ∃ w' ctx', driver.run w (os.map (.resolve c)) = some w' ∧ w'.contexts c = some ctx' ∧
      Apart c w w' ctx ctx' := by
  induction os generalizing w ctx with
  | nil => exact ⟨w, ctx, rfl, hc, ⟨fun _ _ => rfl, rfl, rfl, rfl⟩⟩
  | cons o os ih =>
    obtain ⟨ctx₀, hc₀, hdrain⟩ := h
    obtain rfl : ctx = ctx₀ := Option.some_inj.mp (hc.symm.trans hc₀)
    obtain ⟨w₁, ctx₁, hst, hc₁, hl₁, hapart⟩ := live_step hdrain.queue hc hl o
    obtain ⟨h₁, -⟩ := drains_step ⟨ctx, hc, hdrain⟩ hm.1 hst
    obtain ⟨w', ctx', hr, hc', hapart'⟩ := ih h₁ hc₁ hl₁ (hm.2 w₁ hst)
    refine ⟨w', ctx', ?_, hc', hapart.trans hapart'⟩
    rw [List.map_cons, Lts.run_cons]
    show (driverStep w (.resolve c o)).bind _ = _
    rw [hst]
    exact hr

end Alone

/-- A thread whose surfaces are there and that is left alone takes six steps for each surface in its
queue, and three, with any results of its calls but a frame at NULL. Then nobody waits for a surface
of its queue any more, unless it is the render target of the open picture or is in the hands of
another context. -/
theorem resolve_terminates {w : World} {c : Addr} {ctx : NVContext} {os : List ResolveOutcome}
    (h : driver.ReachWhen KeepsHold w) (hc : w.contexts c = some ctx) (hruns : ctx.Runs)
    (hl : Live w ctx) (hm : driver.Meets (Serves c) w (os.map (.resolve c)))
    (hn : 6 * ctx.surfaceQueue.pending.length + 3 ≤ os.length) :
    ∃ w', driver.run w (os.map (.resolve c)) = some w' ∧ ∀ s, Resolving w' s →
      (ctx.inPicture = true ∧ ctx.renderTarget = s) ∨
        ∃ c₁ ctx₁, c₁ ≠ c ∧ w.contexts c₁ = some ctx₁ ∧ ctx₁.Keeps s := by
  have hdrain : Draining ctx.enqueued ctx := .of_reach h hc hruns
  obtain ⟨w', ctx', hr, hc', hapart⟩ := live_run ⟨ctx, hc, hdrain⟩ hc hl hm
  have hcount : (os.map (DriverCall.resolve c)).countP (·.isResolve c) = os.length := by
    rw [List.countP_map, List.countP_eq_length.mpr fun o _ => by simp [DriverCall.isResolve]]
  obtain ⟨ctx₂, hc₂, hdrain₂, hfinished⟩ :=
    Drains.run hdrain hc hm hr (hdrain.rank_le.trans (by rwa [hcount]))
  have hreach := h.run (hm.mono fun _ _ hok => hok.1) hr
  refine ⟨w', hr, fun s hs => ?_⟩
  obtain ⟨c₁, ctx₁, hc₁, hk, hown⟩ := hdrain₂.resolving hreach hc₂ hfinished hs
  by_cases hne : c₁ = c
  · subst hne
    obtain rfl : ctx' = ctx₁ := Option.some_inj.mp (hc'.symm.trans hc₁)
    left
    obtain ⟨hi, ht⟩ | hd := hown rfl
    · exact ⟨hapart.inPicture ▸ hi, hapart.renderTarget ▸ ht⟩
    · rw [hapart.enqueued, List.drop_length] at hd
      cases hd
  · exact .inr ⟨c₁, ctx₁, hne, (hapart.contexts c₁ hne).symm.trans hc₁, hk⟩

theorem resolve_terminates_one :
    ∃ w w' ctx, driver.run .empty waitingCalls = some w ∧ Resolving w 2 ∧
    w.contexts 1 = some ctx ∧
    driver.run w ((List.replicate 9 resolveOk).map (.resolve 1)) = some w' ∧
    ∀ s, Resolving w' s → (ctx.inPicture = true ∧ ctx.renderTarget = s) ∨
      ∃ c₁ ctx₁, c₁ ≠ 1 ∧ w.contexts c₁ = some ctx₁ ∧ ctx₁.Keeps s := by
  obtain ⟨w, ctx, hrun, hres, hc, hp, ht, hs, hruns, hm, hn⟩ :
      ∃ w ctx, driver.run .empty waitingCalls = some w ∧
      Resolving w 2 ∧ w.contexts 1 = some ctx ∧ ctx.surfaceQueue.pending = [2] ∧
      ctx.thread = .start ∧
      w.surfaces 2 ≠ none ∧ ctx.Runs ∧
      driver.Meets (Serves 1) w ((List.replicate 9 resolveOk).map (.resolve 1)) ∧
      6 * ctx.surfaceQueue.pending.length + 3 ≤ (List.replicate 9 resolveOk).length :=
    ⟨_, _, rfl, by decide, rfl, by decide, by decide, nofun, by decide, by decide, by decide⟩
  have hreach : driver.ReachWhen KeepsHold w := .run (.init rfl) (by decide) hrun
  have hl : Live w ctx := by
    intro s hmem
    rw [hp, ht] at hmem
    obtain rfl : s = 2 := by simpa [ThreadPc.surface] using hmem
    exact hs
  obtain ⟨w', hr, hall⟩ := resolve_terminates hreach hc hruns hl hm hn
  exact ⟨w, w', ctx, hrun, hres, hc, hr, hall⟩

end NvVaapi
