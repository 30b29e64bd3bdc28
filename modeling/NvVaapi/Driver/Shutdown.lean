import NvVaapi.Driver.State

/-!
# Stopping a resolve thread

The steps of `Driver/State.lean` with the mutex, the condition variable and every test of a flag on
its own, for one context.

* `ResolvePc`, `ClientPc`: where the resolve thread is in `resolveSurfaces`, and the client in
  `nvEndPicture` or `destroyContext`.
* `shutdown`: the system of their steps. A wait can end without a signal.
* `LostWakeup`: the signal was sent, and the thread waits or is about to.
* `Heard`: the signal is not sent between the thread's test of `exiting` and its wait.
* `finishes_of_heard`: then it is not lost, and the thread ends.
-/

namespace NvVaapi

/-- The next step of the resolve thread. -/
inductive ResolvePc where
  /-- `cuCtxPushCurrent` -/
  | start
  /-- The test of `exiting` in the loop. -/
  | loopTest
  | lock
  /-- The test whether the queue is empty. -/
  | queueTest
  /-- The call of `pthread_cond_wait`. -/
  | wait
  | blocked
  /-- The end of `pthread_cond_wait`, which takes the mutex again. -/
  | relock
  /-- The test of `exiting` after the wait. -/
  | retest
  | unlockOut
  | unlock
  | dequeue
  /-- Map, export and unmap the surface, whatever fails. -/
  | resolve
  | out
  | exited
  deriving DecidableEq

/-- The next step of the client. -/
inductive ClientPc where
  | idle
  /-- `nvEndPicture` holds the mutex. -/
  | enqueue
  | unlock
  | signalPicture
  /-- `destroyContext` has set `exiting`. -/
  | signalExit
  | join
  | joined
  deriving DecidableEq

inductive MutexHolder where
  | thread
  | client
  deriving DecidableEq

structure ResolveState where
  thread : ResolvePc
  client : ClientPc
  resolveMutex : Option MutexHolder
  exiting : Bool
  surfaceQueueReadIdx : Nat
  surfaceQueueWriteIdx : Nat
  deriving DecidableEq

inductive ResolveAction where
  /-- `pushed` is the result of `cuCtxPushCurrent`. -/
  | thread (pushed : Bool)
  /-- The wait ends without a signal. -/
  | wakeup
  | submit
  | destroy
  | client
  deriving DecidableEq

def ResolveAction.isThread : ResolveAction → Bool
  | .thread _ => true
  | _ => false

namespace ResolveState

variable (s : ResolveState)

@[grind =] def QueueEmpty : Prop := s.surfaceQueueReadIdx = s.surfaceQueueWriteIdx

instance : Decidable s.QueueEmpty := inferInstanceAs (Decidable (_ = _))

/-- An index that is advanced. -/
def advance (i : Nat) : Nat := if i + 1 ≥ surfaceQueueSize then 0 else i + 1

/-- `pthread_cond_signal` -/
def condSignal : ResolveState :=
  if s.thread = .blocked then { s with thread := .relock } else s

/-- A step of `resolveSurfaces`. -/
def threadStep (pushed : Bool) : Option ResolveState :=
  match s.thread with
  | .start => some { s with thread := if pushed then .loopTest else .exited }
  | .loopTest => some { s with thread := if s.exiting then .out else .lock }
  | .lock =>
    if s.resolveMutex = none then some { s with thread := .queueTest, resolveMutex := some .thread }
    else none
  | .queueTest => some { s with thread := if s.QueueEmpty then .wait else .unlock }
  | .wait => some { s with thread := .blocked, resolveMutex := none }
  | .blocked => none
  | .relock =>
    if s.resolveMutex = none then some { s with thread := .retest, resolveMutex := some .thread }
    else none
  | .retest => some { s with thread := if s.exiting then .unlockOut else .queueTest }
  | .unlockOut => some { s with thread := .out, resolveMutex := none }
  | .unlock => some { s with thread := .dequeue, resolveMutex := none }
  | .dequeue =>
    some { s with thread := .resolve, surfaceQueueReadIdx := advance s.surfaceQueueReadIdx }
  | .resolve => some { s with thread := .loopTest }
  | .out => some { s with thread := .exited }
  | .exited => none

/-- The next step of the call that the client is in. -/
def clientStep : Option ResolveState :=
  match s.client with
  | .enqueue =>
    some { s with client := .unlock, surfaceQueueWriteIdx := advance s.surfaceQueueWriteIdx }
  | .unlock => some { s with client := .signalPicture, resolveMutex := none }
  | .signalPicture => some { s.condSignal with client := .idle }
  | .signalExit => some { s.condSignal with client := .join }
  | .join => if s.thread = .exited then some { s with client := .joined } else none
  | .idle | .joined => none

def step : ResolveAction → Option ResolveState
  | .thread pushed => s.threadStep pushed
  | .wakeup => if s.thread = .blocked then some { s with thread := .relock } else none
  | .submit =>
    if s.client = .idle ∧ s.resolveMutex = none then
      some { s with client := .enqueue, resolveMutex := some .client }
    else none
  | .destroy =>
    if s.client = .idle then some { s with client := .signalExit, exiting := true } else none
  | .client => s.clientStep

/-- `destroyContext` has sent its signal. -/
@[grind =] def Signalled : Prop := s.client = .join ∨ s.client = .joined

instance : Decidable s.Signalled := inferInstanceAs (Decidable (_ ∨ _))

/-- The thread is in `pthread_cond_wait` or about to call it, and nobody will wake it. -/
def LostWakeup : Prop :=
  s.exiting ∧ s.Signalled ∧ (s.thread = .wait ∨ s.thread = .blocked) ∧ s.QueueEmpty

instance : Decidable s.LostWakeup := inferInstanceAs (Decidable (_ ∧ _ ∧ _ ∧ _))

/-- The thread has tested `exiting` and will wait. -/
@[grind =] def GoesToWait : Prop :=
  (s.thread = .lock ∨ s.thread = .queueTest ∨ s.thread = .wait) ∧ s.QueueEmpty

instance : Decidable s.GoesToWait := inferInstanceAs (Decidable (_ ∧ _))

/-- The signal of `destroyContext` does not come while the thread goes to wait. -/
def Heard : ResolveAction → Prop
  | .client => s.client = .signalExit → ¬s.GoesToWait
  | _ => True

instance (a : ResolveAction) : Decidable (s.Heard a) :=
  match a with
  | .client => inferInstanceAs (Decidable (_ → _))
  | .thread _ | .wakeup | .submit | .destroy => inferInstanceAs (Decidable True)

end ResolveState

/-- A context whose thread was just created. -/
def shutdown : Lts ResolveState ResolveAction where
  init s := s = ⟨.start, .idle, none, false, 0, 0⟩
  step := ResolveState.step

/-! ## The invariant -/

/-- The pieces of `resolveSurfaces` under the mutex. -/
@[grind] def ResolvePc.holds : ResolvePc → Bool
  | .queueTest | .wait | .retest | .unlockOut | .unlock => true
  | _ => false

@[grind] def ClientPc.holds : ClientPc → Bool
  | .enqueue | .unlock => true
  | _ => false

@[grind] def ClientPc.exiting : ClientPc → Bool
  | .signalExit | .join | .joined => true
  | _ => false

structure Handshake (s : ResolveState) : Prop where
  thread : s.resolveMutex = some .thread ↔ s.thread.holds
  client : s.resolveMutex = some .client ↔ s.client.holds
  exiting : s.exiting = s.client.exiting
  /-- A queue that was found empty stays empty while the mutex is held. -/
  empty : s.thread = .wait → s.QueueEmpty
  heard : s.Signalled → ¬s.GoesToWait ∧ s.thread ≠ .blocked

section Steps

open ResolveState

variable {s s' : ResolveState}

theorem handshake_init (h : shutdown.init s) : Handshake s := by
  obtain rfl := h
  exact ⟨by decide, by decide, rfl, nofun, by decide⟩

theorem handshake_thread (h : Handshake s) {pushed : Bool} (hs : s.threadStep pushed = some s') :
    Handshake s' := by
  obtain ⟨ht, hc, he, hq, hh⟩ := h
  unfold threadStep at hs
  cases hpc : s.thread <;>
    simp only [hpc, ResolvePc.holds, Option.some_inj, reduceCtorEq] at hs ht hq
  case lock | relock =>
    split at hs
    · obtain rfl := Option.some_inj.mp hs
      constructor <;> grind
    · cases hs
  all_goals
    subst hs
    constructor <;> grind

theorem handshake_client (h : Handshake s) (hok : s.Heard .client) (hs : s.clientStep = some s') :
    Handshake s' := by
  obtain ⟨ht, hc, he, hq, hh⟩ := h
  unfold Heard at hok
  unfold clientStep condSignal at hs
  cases hcl : s.client <;>
    simp only [hcl, ClientPc.holds, Option.some_inj, reduceCtorEq] at hs hc hok
  case join =>
    split at hs
    · obtain rfl := Option.some_inj.mp hs
      constructor <;> grind
    · cases hs
  all_goals
    subst hs
    constructor <;> grind

theorem handshake_step (h : Handshake s) {a : ResolveAction} (hok : s.Heard a)
    (hs : shutdown.step s a = some s') : Handshake s' := by
  cases a with
  | thread pushed => exact handshake_thread h hs
  | client => exact handshake_client h hok hs
  | wakeup =>
    obtain ⟨ht, hc, he, hq, hh⟩ := h
    obtain ⟨hblocked, hs⟩ := Option.ite_none_right_eq_some.mp hs
    obtain rfl := Option.some_inj.mp hs
    constructor <;> grind
  | submit =>
    obtain ⟨ht, hc, he, hq, hh⟩ := h
    obtain ⟨hfree, hs⟩ := Option.ite_none_right_eq_some.mp hs
    obtain rfl := Option.some_inj.mp hs
    constructor <;> grind
  | destroy =>
    obtain ⟨ht, hc, he, hq, hh⟩ := h
    obtain ⟨hidle, hs⟩ := Option.ite_none_right_eq_some.mp hs
    obtain rfl := Option.some_inj.mp hs
    constructor <;> grind

theorem handshake_of_heard (h : shutdown.ReachWhen ResolveState.Heard s) : Handshake s :=
  h.invariant (fun _ => handshake_init) fun _ _ _ hi hok hs => handshake_step hi hok hs

theorem Handshake.mutex_free (h : Handshake s) (ht : s.thread.holds = false)
    (hc : s.client.holds = false) : s.resolveMutex = none := by
  cases hm : s.resolveMutex with
  | none => rfl
  | some holder =>
    cases holder with
    | thread =>
      have hholds := h.thread.mp hm
      rw [ht] at hholds
      cases hholds
    | client =>
      have hholds := h.client.mp hm
      rw [hc] at hholds
      cases hholds

/-! ## After the signal -/

/-- A bound of the steps of the thread, once `exiting` is set and it does not wait. -/
def ResolvePc.rank : ResolvePc → Nat
  | .exited | .wait | .blocked => 0
  | .out => 1
  | .loopTest | .unlockOut => 2
  | .start | .retest | .resolve => 3
  | .relock | .dequeue => 4
  | .unlock => 5
  | .queueTest => 6
  | .lock => 7

theorem rank_le (pc : ResolvePc) : pc.rank ≤ 7 := by cases pc <;> decide

/-- The signal is not lost, and the thread is nearer to its end. -/
theorem signalled_thread (h : Handshake s) (hsig : s.Signalled) {pushed : Bool}
    (hs : s.threadStep pushed = some s') : s'.Signalled ∧ s'.thread.rank + 1 ≤ s.thread.rank := by
  obtain ⟨-, -, he, hq, hh⟩ := h
  have hexit : s.exiting = true := by
    rw [he]
    obtain hc | hc := hsig <;> rw [hc] <;> rfl
  unfold threadStep at hs
  cases hpc : s.thread <;> simp only [hpc, Option.some_inj, reduceCtorEq] at hs
  case lock | relock =>
    split at hs
    · obtain rfl := Option.some_inj.mp hs
      exact ⟨hsig, Nat.le_refl _⟩
    · cases hs
  all_goals
    subst hs
    refine ⟨hsig, ?_⟩
    grind [ResolvePc.rank]

theorem signalled_other (h : Handshake s) (hsig : s.Signalled) {a : ResolveAction}
    (ha : a.isThread = false) (hs : shutdown.step s a = some s') :
    s'.Signalled ∧ s'.thread = s.thread := by
  have hbusy : s.client ≠ .idle := by
    intro hidle
    obtain hc | hc := hsig <;> rw [hidle] at hc <;> cases hc
  cases a with
  | thread pushed => cases ha
  | wakeup => exact absurd (Option.ite_none_right_eq_some.mp hs).1 (h.heard hsig).2
  | submit => exact absurd (Option.ite_none_right_eq_some.mp hs).1.1 hbusy
  | destroy => exact absurd (Option.ite_none_right_eq_some.mp hs).1 hbusy
  | client =>
    have hstep : s.clientStep = some s' := hs
    unfold clientStep at hstep
    obtain hc | hc := hsig
    · rw [hc] at hstep
      obtain ⟨-, hstep⟩ := Option.ite_none_right_eq_some.mp hstep
      obtain rfl := Option.some_inj.mp hstep
      exact ⟨.inr rfl, rfl⟩
    · rw [hc] at hstep
      cases hstep

/-- Until it has ended the thread can take its next step. -/
theorem thread_enabled (h : Handshake s) (hsig : s.Signalled) (hne : s.thread ≠ .exited)
    (pushed : Bool) : (s.threadStep pushed).isSome := by
  unfold threadStep
  cases hpc : s.thread
  case lock | relock =>
    have ht : s.thread.holds = false := by rw [hpc]; rfl
    have hc : s.client.holds = false := by obtain hc | hc := hsig <;> rw [hc] <;> rfl
    dsimp only
    rw [if_pos (h.mutex_free ht hc)]
    rfl
  case blocked => exact absurd hpc (h.heard hsig).2
  case exited => exact absurd hpc hne
  all_goals rfl

end Steps

/-- However the steps are interleaved, the thread can take its next one until it has ended, and it
takes at most 7. -/
def ResolveState.Finishes (s : ResolveState) : Prop :=
  ∀ as s', shutdown.run s as = some s' →
    as.countP ResolveAction.isThread ≤ 7 ∧
      (s'.thread ≠ .exited → ∀ pushed, (shutdown.step s' (.thread pushed)).isSome)

section Runs

variable {s s' : ResolveState}

theorem heard_of_signalled (hsig : s.Signalled) (a : ResolveAction) : s.Heard a := by
  cases a with
  | client =>
    intro hc
    obtain hj | hj := hsig <;> rw [hc] at hj <;> cases hj
  | _ => trivial

/-- A run after the signal: what its steps of the thread cost is what the thread comes nearer to its
end. -/
theorem signalled_run {as : List ResolveAction} (h : Handshake s) (hsig : s.Signalled)
    (hr : shutdown.run s as = some s') :
    Handshake s' ∧ s'.Signalled ∧
      as.countP ResolveAction.isThread + s'.thread.rank ≤ s.thread.rank := by
  induction as generalizing s with
  | nil =>
    obtain rfl := Option.some_inj.mp hr
    exact ⟨h, hsig, by simp⟩
  | cons a as ih =>
    obtain ⟨s₁, hs, hrest⟩ := Option.bind_eq_some_iff.mp hr
    have h₁ := handshake_step h (heard_of_signalled hsig a) hs
    cases ha : a.isThread with
    | true =>
      obtain ⟨pushed, rfl⟩ : ∃ pushed, a = .thread pushed := by
        cases a <;> simp_all [ResolveAction.isThread]
      obtain ⟨hsig₁, hrank⟩ := signalled_thread h hsig hs
      obtain ⟨h', hsig', hle⟩ := ih h₁ hsig₁ hrest
      refine ⟨h', hsig', ?_⟩
      rw [List.countP_cons_of_pos ha]
      omega
    | false =>
      obtain ⟨hsig₁, hpc⟩ := signalled_other h hsig ha hs
      obtain ⟨h', hsig', hle⟩ := ih h₁ hsig₁ hrest
      refine ⟨h', hsig', ?_⟩
      rw [List.countP_cons_of_neg (by simp [ha])]
      rwa [← hpc]

theorem Handshake.finishes (h : Handshake s) (hsig : s.Signalled) : s.Finishes := by
  intro as s' hr
  obtain ⟨h', hsig', hle⟩ := signalled_run h hsig hr
  have hrank := rank_le s.thread
  exact ⟨by omega, fun hne pushed => thread_enabled h' hsig' hne pushed⟩

/-- A signal that is heard is not lost, and the thread ends. -/
theorem finishes_of_heard (h : shutdown.ReachWhen ResolveState.Heard s) :
    ¬s.LostWakeup ∧ (s.Signalled → s.Finishes) := by
  have hi := handshake_of_heard h
  refine ⟨?_, fun hsig => hi.finishes hsig⟩
  rintro ⟨-, hsig, hwait | hblocked, hempty⟩
  · exact (hi.heard hsig).1 ⟨.inr (.inr hwait), hempty⟩
  · exact (hi.heard hsig).2 hblocked

/-- A signal that is not heard is lost: whatever the thread does next, it waits. -/
theorem lost_of_not_heard (h : Handshake s) (hc : s.client = .signalExit) (hw : s.GoesToWait) :
    ∃ n s', shutdown.run s (.client :: List.replicate n (.thread true)) = some s' ∧
      s'.LostWakeup := by
  obtain ⟨pc, client, mutex, exiting, r, w⟩ := s
  obtain rfl : client = .signalExit := hc
  obtain rfl : exiting = true := h.exiting
  obtain ⟨hpc, rfl⟩ : (pc = .lock ∨ pc = .queueTest ∨ pc = .wait) ∧ r = w := hw
  have htest (m : Option MutexHolder) :
      shutdown.step ⟨.queueTest, .join, m, true, r, r⟩ (.thread true) =
      some ⟨.wait, .join, m, true, r, r⟩ := by
    simp [shutdown, ResolveState.step, ResolveState.threadStep, ResolveState.QueueEmpty]
  obtain rfl | rfl | rfl := hpc
  · obtain rfl : mutex = none := h.mutex_free rfl rfl
    refine ⟨2, ⟨.wait, .join, some .thread, true, r, r⟩, ?_, rfl, .inl rfl, .inl rfl, rfl⟩
    refine Option.bind_eq_some_iff.mpr ⟨_, rfl, ?_⟩
    refine Option.bind_eq_some_iff.mpr ⟨_, rfl, ?_⟩
    exact Option.bind_eq_some_iff.mpr ⟨_, htest _, rfl⟩
  · refine ⟨1, ⟨.wait, .join, mutex, true, r, r⟩, ?_, rfl, .inl rfl, .inl rfl, rfl⟩
    refine Option.bind_eq_some_iff.mpr ⟨_, rfl, ?_⟩
    exact Option.bind_eq_some_iff.mpr ⟨_, htest _, rfl⟩
  · exact ⟨0, ⟨.wait, .join, mutex, true, r, r⟩, rfl, rfl, .inl rfl, .inl rfl, rfl⟩

end Runs

/-- The thread waits, a picture wakes it, and the signal comes before it tests `exiting` again. -/
theorem finishes_of_heard_woken : ∃ s, shutdown.run ⟨.start, .idle, none, false, 0, 0⟩
    (List.replicate 5 (.thread true) ++
      [.submit, .client, .client, .client, .destroy, .client]) = some s ∧ s.Signalled ∧
        s.Finishes := by
  have hm : shutdown.Meets ResolveState.Heard ⟨.start, .idle, none, false, 0, 0⟩
      (List.replicate 5 (ResolveAction.thread true) ++
        [ResolveAction.submit, .client, .client, .client, .destroy, .client]) := by decide
  have hsig : (⟨.relock, .join, none, true, 0, 1⟩ : ResolveState).Signalled := by decide
  exact ⟨_, rfl, hsig, (finishes_of_heard (.run (.init rfl) hm rfl)).2 hsig⟩

/-- The thread has tested `exiting` when it is set and the signal is sent, and then waits. -/
theorem shutdown_lostWakeup : ∃ s, shutdown.run ⟨.start, .idle, none, false, 0, 0⟩
    [.thread true, .thread true, .destroy, .client, .thread true, .thread true,
      .thread true] = some s ∧
    s.LostWakeup ∧ s.thread = .blocked ∧ ∀ a, a ≠ .wakeup → shutdown.step s a = none := by
  refine ⟨_, rfl, by decide, rfl, fun a ha => ?_⟩
  cases a <;> first | rfl | exact absurd rfl ha

end NvVaapi
