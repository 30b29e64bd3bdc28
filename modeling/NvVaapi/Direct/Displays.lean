import NvVaapi.Direct.Lifetime
import NvVaapi.Direct.Search
import NvVaapi.Driver.Instances
import Mathlib.Algebra.Order.Sub.Basic

/-!
# The descriptors of the direct backend

* `initNvdriver`, `freeNvdriver`, `directInitExporter`: how the backend opens the devices of a
  display, and closes them.
* `Displays`: the displays of a process, each with its driver, and all descriptors that their
  drivers have open.
* `displays_instances`: to the counter of instances they are inits and terminations as in `Process`.
* `Settled`: the drivers have open what their contexts record, and nothing else.
* `KeepsSettled`: an init whose exporter runs finds no device, or all of it succeeds.
* `displays_settled_iff`: the first holds throughout a run exactly when the second does.

The objects of the resource manager go with the descriptor of their client. They are left out.
-/

namespace NvVaapi.Direct

variable {ρ : Type}

/-! ## The exporter -/

/-- 0 stands for a descriptor that is not there. -/
structure NVDriverContext where
  nvctlFd : Fd
  nv0Fd : Fd
  drmFd : Fd

def NVDriverContext.zero : NVDriverContext := ⟨0, 0, 0⟩

def NVDriverContext.fds (context : NVDriverContext) : List Fd :=
  [context.nvctlFd, context.drmFd, context.nv0Fd]

/-- The descriptors that `free_nvdriver` closes. -/
def NVDriverContext.closes (context : NVDriverContext) : List Fd := context.fds.filter (0 < ·)

/-- The results of the calls in `init_nvdriver`. -/
structure NvdriverReplies where
  /-- `open("/dev/nvidiactl")` -/
  nvctl : Option Fd
  /-- `open("/dev/nvidia0")` -/
  nv0 : Option Fd
  /-- `get_device_info` of a device -/
  deviceInfo : Bool
  rootObject : Bool
  attached : Bool
  deviceObject : Bool
  subdeviceObject : Bool
  registered : Bool

/-- What is asked of the resource manager succeeds. -/
def NvdriverReplies.Granted (r : NvdriverReplies) : Prop :=
  r.rootObject ∧ r.attached ∧ r.deviceObject ∧ r.subdeviceObject ∧ r.registered

instance (r : NvdriverReplies) : Decidable r.Granted := inferInstanceAs (Decidable (_ ∧ _))

/-- `drmFd` is there if it is open. The information about a device is only there for one that is. -/
def initNvdriver (drmFd : Option Fd) (r : NvdriverReplies) :
    Prog (Ledger Fd) ρ (Option NVDriverContext) :=
  match r.nvctl with
  | none => return none
  | some nvctlFd => do
    acquireFd nvctlFd
    match r.nv0 with
    | none =>
      releaseFd nvctlFd
      return none
    | some nv0Fd => do
      acquireFd nv0Fd
      match drmFd with
      -- this return leaves both open
      | none => return none
      | some drmFd =>
        if !r.deviceInfo then return none
        else if r.Granted then return some ⟨nvctlFd, nv0Fd, drmFd⟩
        else
          releaseFd nvctlFd
          releaseFd nv0Fd
          return none

/-- It leaves the context zero. -/
def freeNvdriver (context : NVDriverContext) (l : Ledger Fd) : Ledger Fd :=
  l.releaseAll context.closes

structure ExporterReplies extends NvdriverReplies where
  /-- What opening `/dev/dri/renderD<i>` gives. -/
  nodes : Nat → Option (Fd × DrmDevice)
  dup : Option Fd

/-- The descriptor of the device that the exporter goes on with, if it is open. -/
def exporterDevice (passed : Option (Fd × DrmDevice)) (cudaGpuId : Int) (r : ExporterReplies) :
    Prog (Ledger Fd) (Option NVDriverContext) (Option Fd) :=
  match passed with
  | none => do
    match ← searchNodes r.nodes (if cudaGpuId = -1 then 0 else cudaGpuId) with
    | .found fd => return some fd
    | .failed => Prog.leave none
    | .lost => return none
  | some (fd, device) =>
    if !isNvidiaDrmFd fd device || !checkModesetParameterFromFd fd device then Prog.leave none
    else
      match r.dup with
      | none => return none
      | some fd => do
        acquireFd fd
        return some fd

/-- `passed` is `drmFd`, with its device. The context is there if it succeeds. -/
def directInitExporter (passed : Option (Fd × DrmDevice)) (cudaGpuId : Int) (r : ExporterReplies) :
    Prog (Ledger Fd) (Option NVDriverContext) (Option NVDriverContext) := do
  let drmFd ← exporterDevice passed cudaGpuId r
  initNvdriver drmFd r.toNvdriverReplies

/-! ## Displays -/

structure DisplayReplies extends ExporterReplies where
  /-- The descriptor in `drm_state`, with its device. -/
  drmState : Option (Fd × DrmDevice)
  functions : Bool
  cuCtxCreate : Bool

inductive DisplayCall where
  | init (r : DisplayReplies)
  | terminate (n : Nat) (r : TerminateResults)

/-- The drivers of a process. `gpu` is what its environment asks for. -/
structure Displays where
  process : Process
  gpu : Int
  contexts : Nat → NVDriverContext
  /-- What the drivers opened and did not close. -/
  descriptors : Ledger Fd

namespace Displays

variable (d : Displays)

/-- The descriptor that the init passes to the exporter: not that of another driver. -/
def passed (r : DisplayReplies) : Option (Fd × DrmDevice) :=
  if d.gpu = -1 then r.drmState.filter fun node => isNvidiaDrmFd node.1 node.2 else none

/-- The device passed in, if there is one, has modeset. -/
def modeset (r : DisplayReplies) : Bool :=
  (d.passed r).all fun node => checkModesetParameterFromFd node.1 node.2

/-- The init comes to the exporter. -/
def Exports (r : DisplayReplies) : Prop := d.modeset r ∧ ¬d.process.Full ∧ r.functions

instance (r : DisplayReplies) : Decidable (d.Exports r) := inferInstanceAs (Decidable (_ ∧ _))

/-- The context that the exporter makes, and the descriptors behind it. -/
def exported (r : DisplayReplies) : Option (Option NVDriverContext × Ledger Fd) :=
  if d.Exports r then (directInitExporter (d.passed r) d.gpu r.toExporterReplies).eval d.descriptors
  else some (none, d.descriptors)

/-- The counter and the drivers are those of the process. -/
def vaDriverInit_1_0 (r : DisplayReplies) : Option (VAStatus × Displays) := do
  let (context, descriptors) ← d.exported r
  let (status, process) :=
    d.process.vaDriverInit_1_0 ⟨d.modeset r, r.functions, context.isSome, r.cuCtxCreate⟩
  match context with
  | none => return (status, { d with process, descriptors })
  | some context =>
    if r.cuCtxCreate then
      return (status, { d with
        process
        contexts := Function.update d.contexts d.process.nextDriver context
        descriptors })
    else return (status, { d with process, descriptors := freeNvdriver context descriptors })

/-- What comes between the push and the exporter leaves its descriptors alone. -/
def nvTerminate (n : Nat) (r : TerminateResults) : VAStatus × Displays :=
  let (status, process) := d.process.nvTerminate n r
  if !r.cuCtxPushCurrent then (status, { d with process })
  else
    (status, { d with
      process
      contexts := Function.update d.contexts n .zero
      descriptors := freeNvdriver (d.contexts n) d.descriptors })

end Displays

/-- A process without a display. Its environment gives `gpu` and `max_instances`. -/
def displays : Lts Displays DisplayCall where
  init d := instances.init d.process ∧ d.contexts = (fun _ => .zero) ∧ d.descriptors = .empty
  step d
    | .init r => (d.vaDriverInit_1_0 r).map Prod.snd
    | .terminate n r => if n ∈ d.process.drivers then some (d.nvTerminate n r).2 else none

/-! ## What the exporter leaves open -/

section Exporter

variable {l : Ledger Fd}

/-- The context of an init that succeeds. -/
def NvdriverReplies.context (r : NvdriverReplies) (drmFd : Fd) : Option NVDriverContext := do
  let nvctlFd ← r.nvctl
  let nv0Fd ← r.nv0
  if r.deviceInfo ∧ r.Granted then return ⟨nvctlFd, nv0Fd, drmFd⟩ else none

theorem acquire_two (a b : Fd) : (l.acquire a).acquire b = l.hold {a, b} := by
  rw [Ledger.acquire_eq_hold, Ledger.acquire_eq_hold, Ledger.hold_hold, add_comm]
  rfl

theorem release_two (a b : Fd) : ((l.hold {a, b}).release a).release b = l := by
  show (l.hold ([a, b] : List Fd)).releaseAll [a, b] = l
  exact (Ledger.releaseAll_hold (add_zero _).symm).trans Ledger.hold_zero

/-- A failure leaves nothing open where the devices of the resource manager cannot be opened, and
where the information about the DRM device is there. -/
theorem initNvdriver_ensures (drmFd : Option Fd) (r : NvdriverReplies) {E : ρ → Ledger Fd → Prop} :
    (initNvdriver drmFd r).Ensures l (fun
      | some c, l' =>
        drmFd = some c.drmFd ∧ r.context c.drmFd = some c ∧ l' = l.hold {c.nvctlFd, c.nv0Fd}
      | none, l' => (∀ fd, drmFd = some fd → r.context fd = none) ∧ ∃ ks, l' = l.hold ks ∧
          (ks = 0 ↔ r.nvctl = none ∨ r.nv0 = none ∨ drmFd.isSome ∧ r.deviceInfo)) E := by
  unfold initNvdriver NvdriverReplies.context
  rcases r.nvctl with _ | nvctlFd
  · exact ⟨fun _ _ => rfl, 0, Ledger.hold_zero.symm, by simp⟩
  rcases r.nv0 with _ | nv0Fd
  · simp only [acquireFd, releaseFd, Prog.ensures_bind, Prog.ensures_wait, Prog.ensures_update,
      Prog.ensures_pure, acquire_release]
    exact fun _ => ⟨fun _ _ => rfl, 0, Ledger.hold_zero.symm, by simp⟩
  simp only [acquireFd, releaseFd, Prog.ensures_bind, Prog.ensures_wait,
    Prog.ensures_update, acquire_two]
  intro _ _
  rcases drmFd with _ | drmFd
  · exact ⟨by simp, {nvctlFd, nv0Fd}, rfl, by simp⟩
  simp only [Prog.ensures_ite, Prog.ensures_bind, Prog.ensures_update,
    Prog.ensures_pure, release_two]
  refine ⟨fun hi => ?_, fun hi => ⟨fun hg => ?_, fun hg => ?_⟩⟩
  · have hinfo : r.deviceInfo = false := by simpa using hi
    exact ⟨by simp [hinfo], {nvctlFd, nv0Fd}, rfl, by simp [hinfo]⟩
  · have hinfo : r.deviceInfo = true := by simpa using hi
    exact ⟨trivial, by simp [hinfo, hg], trivial⟩
  · have hinfo : r.deviceInfo = true := by simpa using hi
    exact ⟨by simp [hg], 0, Ledger.hold_zero.symm, by simp [hinfo]⟩

variable {passed : Option (Fd × DrmDevice)} {cudaGpuId : Int} {r : ExporterReplies}

/-- What the exporter comes to in its search for a device. -/
def ExporterReplies.device (r : ExporterReplies) (passed : Option (Fd × DrmDevice))
    (cudaGpuId : Int) : SearchResult :=
  match passed with
  | none =>
    searchResult (if cudaGpuId = -1 then 0 else cudaGpuId) ((List.range' 128 16).map r.nodes)
  | some node =>
    if usable node then
      match r.dup with
      | none => .lost
      | some fd => .found fd
    else .failed

theorem exporterDevice_ensures : (exporterDevice passed cudaGpuId r).Ensures l
    (fun drmFd l' => r.device passed cudaGpuId = drmFd.elim .lost .found ∧
      l' = l.hold (r.device passed cudaGpuId).left)
    fun ret l' => r.device passed cudaGpuId = .failed ∧ ret = none ∧ l' = l := by
  rcases passed with _ | ⟨fd, device⟩
  · refine (Prog.ensures_bind _ _).mpr ((searchTurns_ensures 0 l).mono ?_ fun _ _ h => h.elim)
    rintro result _ ⟨hresult, rfl⟩
    rw [Int.sub_zero] at hresult
    rw [ExporterReplies.device, ← hresult]
    cases result with
    | found fd => exact ⟨rfl, rfl⟩
    | failed => exact ⟨rfl, rfl, Ledger.hold_zero⟩
    | lost => exact ⟨rfl, rfl⟩
  · simp only [exporterDevice, ExporterReplies.device, skip_eq]
    by_cases hu : usable (fd, device)
    · rcases r.dup with _ | dup
      · simp [hu, SearchResult.left]
      · simp [hu, acquireFd, SearchResult.left, Ledger.acquire_eq_hold]
    · simp [hu]

/-- The exporter succeeds. -/
def ExporterReplies.Opens (r : ExporterReplies) (passed : Option (Fd × DrmDevice)) (cudaGpuId : Int)
    (c : NVDriverContext) : Prop :=
  r.device passed cudaGpuId = .found c.drmFd ∧ r.context c.drmFd = some c

/-- The exporter fails before it comes to a device, or it comes to none and a device of the resource
manager cannot be opened. -/
def ExporterReplies.FailsFirst (r : ExporterReplies) (passed : Option (Fd × DrmDevice))
    (cudaGpuId : Int) : Prop :=
  r.device passed cudaGpuId = .failed ∨ r.device passed cudaGpuId = .lost ∧
    (r.nvctl = none ∨ r.nv0 = none)

theorem directInitExporter_returns : (directInitExporter passed cudaGpuId r).Returns l fun
    | some c, l' => r.Opens passed cudaGpuId c ∧ l' = l.hold c.fds
    | none, l' => (∀ c, ¬r.Opens passed cudaGpuId c) ∧ ∃ ks, l' = l.hold ks ∧
        (ks = 0 ↔ r.FailsFirst passed cudaGpuId) := by
  refine (Prog.ensures_bind _ _).mpr (exporterDevice_ensures.mono ?_ ?_)
  · rintro drmFd _ ⟨hdevice, rfl⟩
    refine (initNvdriver_ensures drmFd r.toNvdriverReplies).mono ?_ fun _ _ h => h
    rintro (_ | c) l' h
    · obtain ⟨hnone, ks, rfl, hks⟩ := h
      rw [hdevice, Ledger.hold_hold]
      cases drmFd with
      | none =>
        refine ⟨fun c hc => ?_, ks + 0, rfl, ?_⟩
        · cases hdevice.symm.trans hc.1
        · simp [hks, ExporterReplies.FailsFirst, hdevice]
      | some fd =>
        -- the device stays open
        refine ⟨fun c hc => ?_, ks + {fd}, rfl, ?_⟩
        · obtain rfl := SearchResult.found.inj (hdevice.symm.trans hc.1)
          cases (hnone c.drmFd rfl).symm.trans hc.2
        · simp [ExporterReplies.FailsFirst, hdevice]
    · obtain ⟨rfl, hcontext, rfl⟩ := h
      refine ⟨⟨hdevice, hcontext⟩, ?_⟩
      rw [hdevice, Ledger.hold_hold]
      have hperm : [c.nvctlFd, c.nv0Fd, c.drmFd].Perm c.fds := .cons _ (.swap _ _ _)
      exact congrArg l.hold (Multiset.coe_eq_coe.mpr hperm)
  · rintro _ _ ⟨hdevice, rfl, rfl⟩
    have hfails : r.FailsFirst passed cudaGpuId := .inl hdevice
    refine ⟨fun c hc => ?_, 0, Ledger.hold_zero.symm, iff_of_true rfl hfails⟩
    cases hdevice.symm.trans hc.1

/-- All of the init succeeds, with descriptors that the driver will close, or it fails before
anything stays open. -/
def ExporterReplies.Clean (r : ExporterReplies) (passed : Option (Fd × DrmDevice))
    (cudaGpuId : Int) : Prop :=
  (∃ c, r.Opens passed cudaGpuId c ∧ ∀ fd ∈ c.fds, 0 < fd) ∨ r.FailsFirst passed cudaGpuId

theorem ExporterReplies.Opens.clean_iff {c : NVDriverContext} (h : r.Opens passed cudaGpuId c) :
    r.Clean passed cudaGpuId ↔ ∀ fd ∈ c.fds, 0 < fd := by
  refine ⟨?_, fun hpos => .inl ⟨c, h, hpos⟩⟩
  rintro (⟨c', h', hpos⟩ | hfails | ⟨hlost, -⟩)
  · have hdrm : c.drmFd = c'.drmFd := SearchResult.found.inj (h.1.symm.trans h'.1)
    have hsame : some c = some c' := by rw [← h.2, ← h'.2, hdrm]
    rwa [Option.some.inj hsame]
  · cases h.1.symm.trans hfails
  · cases h.1.symm.trans hlost

end Exporter

/-! ## The counter of instances -/

/-- The drivers have different numbers, which were given out. -/
structure Numbered (p : Process) : Prop where
  nodup : p.drivers.Nodup
  lt : ∀ n ∈ p.drivers, n < p.nextDriver

theorem Numbered.fresh {p : Process} (h : Numbered p) : p.nextDriver ∉ p.drivers :=
  fun hin => absurd (h.lt _ hin) (lt_irrefl _)

/-- There is a new driver exactly when all of the init succeeds. -/
theorem init_drivers (p : Process) (r : InitResults) :
    ((p.vaDriverInit_1_0 r).2.drivers, (p.vaDriverInit_1_0 r).2.nextDriver) =
      if r.modeset ∧ ¬p.Full ∧ r.functions ∧ r.initExporter ∧ r.cuCtxCreate then
        (p.nextDriver :: p.drivers, p.nextDriver + 1)
      else (p.drivers, p.nextDriver) := by
  by_cases hm : r.modeset
  · by_cases hf : p.Full
    · simp [Process.vaDriverInit_1_0, hm, hf]
    · rw [vaDriverInit_of_not_full hm hf]
      simp only [hm, hf, not_false_iff, true_and]
      split <;> rfl
  · simp [Process.vaDriverInit_1_0, hm]

theorem numbered_of_reach {p : Process} (h : instances.Reach p) : Numbered p := by
  refine h.invariant (fun p hp => ?_) fun p a p' hn hs => ?_
  · rw [instances] at hp
    exact ⟨by simp [hp.2], by simp [hp.2]⟩
  obtain ⟨⟨status, p'⟩, hc, rfl⟩ := Option.map_eq_some_iff.mp hs
  cases a with
  | init r =>
    have hp' : (p.vaDriverInit_1_0 r).2 = p' := congrArg Prod.snd (Option.some.inj hc)
    have hdrivers := init_drivers p r
    rw [hp'] at hdrivers
    split at hdrivers <;> obtain ⟨hd, hnext⟩ := Prod.mk.inj hdrivers <;> constructor <;> rw [hd]
    · exact List.nodup_cons.mpr ⟨hn.fresh, hn.nodup⟩
    · rw [hnext]
      intro n hin
      rcases List.mem_cons.mp hin with rfl | hin
      · exact Nat.lt_succ_self _
      · exact Nat.lt_succ_of_lt (hn.lt n hin)
    · exact hn.nodup
    · rw [hnext]
      exact hn.lt
  | terminate n r =>
    obtain ⟨-, hc⟩ : n ∈ p.drivers ∧ p.nvTerminate n r = (status, p') := by
      simpa [Process.call] using hc
    have hp' : (p.nvTerminate n r).2 = p' := by rw [hc]
    rw [← hp', nvTerminate_eq]
    split_ifs
    · exact ⟨hn.nodup.erase n, fun k hk => hn.lt k (List.mem_of_mem_erase hk)⟩
    · exact ⟨hn.nodup, hn.lt⟩
    · exact hn

/-! ## Runs -/

namespace Displays

variable {d d' : Displays}

/-- What an init does, with the context that its exporter gives it. -/
theorem init_cases {r : DisplayReplies} (h : displays.step d (.init r) = some d') :
    ∃ context l, d.exported r = some (context, l) ∧
      d'.process =
        (d.process.vaDriverInit_1_0 ⟨d.modeset r, r.functions, context.isSome, r.cuCtxCreate⟩).2 ∧
      match context with
      | none => d'.contexts = d.contexts ∧ d'.descriptors = l
      | some c =>
        if r.cuCtxCreate then
          d'.contexts = Function.update d.contexts d.process.nextDriver c ∧ d'.descriptors = l
        else d'.contexts = d.contexts ∧ d'.descriptors = freeNvdriver c l := by
  obtain ⟨⟨status, e⟩, hinit, rfl⟩ := Option.map_eq_some_iff.mp h
  unfold vaDriverInit_1_0 at hinit
  obtain ⟨⟨context, l⟩, hexport, hret⟩ := Option.bind_eq_some_iff.mp hinit
  refine ⟨context, l, hexport, ?_⟩
  cases context with
  | none =>
    obtain ⟨-, rfl⟩ := Prod.mk.inj (Option.some.inj hret)
    exact ⟨rfl, rfl, rfl⟩
  | some c =>
    dsimp only at hret ⊢
    split at hret
    · obtain ⟨-, rfl⟩ := Prod.mk.inj (Option.some.inj hret)
      exact ⟨rfl, by simp [*]⟩
    · obtain ⟨-, rfl⟩ := Prod.mk.inj (Option.some.inj hret)
      exact ⟨rfl, by simp [*]⟩

theorem displays_instances {c : DisplayCall} (h : displays.step d c = some d') :
    ∃ a, instances.step d.process a = some d'.process := by
  cases c with
  | init r =>
    obtain ⟨context, -, -, hp, -⟩ := init_cases h
    exact ⟨.init ⟨d.modeset r, r.functions, context.isSome, r.cuCtxCreate⟩, by rw [hp]; rfl⟩
  | terminate n r =>
    obtain ⟨hn, rfl⟩ : n ∈ d.process.drivers ∧ (d.nvTerminate n r).2 = d' := by
      simpa [displays] using h
    refine ⟨.terminate n r, ?_⟩
    have hp : (d.nvTerminate n r).2.process = (d.process.nvTerminate n r).2 := by
      unfold nvTerminate
      dsimp only
      split <;> rfl
    rw [hp]
    simp [instances, Process.call, hn]

/-- The drivers have open what their contexts record, and closed nothing else. -/
def Settled (d : Displays) : Prop :=
  d.descriptors.OwnedBy d.process.drivers.toFinset fun n => ((d.contexts n).closes : Multiset Fd)

/-- The exporter of an init leaves nothing open that its driver does not close. -/
def KeepsSettled (d : Displays) : DisplayCall → Prop
  | .init r => d.Exports r → r.Clean (d.passed r) d.gpu
  | .terminate _ _ => True

theorem closes_le (c : NVDriverContext) : (c.closes : Multiset Fd) ≤ c.fds :=
  Multiset.coe_le.mpr List.filter_sublist.subperm

/-- The descriptors of a context that are closed are all of them exactly when none is 0. -/
theorem closes_eq_iff (c : NVDriverContext) :
    (c.closes : Multiset Fd) = c.fds ↔ ∀ fd ∈ c.fds, 0 < fd := by
  rw [NVDriverContext.closes, DirectPool.coe_filter_eq_iff]
  simp

/-- What a context has and does not close stays open. -/
theorem freeNvdriver_hold (c : NVDriverContext) (l : Ledger Fd) :
    ∃ ks, freeNvdriver c (l.hold c.fds) = l.hold ks ∧ (ks = 0 ↔ ∀ fd ∈ c.fds, 0 < fd) := by
  refine ⟨(c.fds : Multiset Fd) - c.closes, Ledger.releaseAll_hold ?_, ?_⟩
  · exact (add_tsub_cancel_of_le (closes_le c)).symm
  · rw [← closes_eq_iff, tsub_eq_zero_iff_le]
    exact ⟨fun h => (closes_le c).antisymm h, fun h => h.ge⟩

section Drivers

variable {n : Nat} (h : Settled d)

include h

/-- A new driver closes all that was opened for it exactly when no descriptor of its context is
0. -/
theorem Settled.new_iff (hn : n ∉ d.process.drivers) (c : NVDriverContext) :
    (d.descriptors.hold c.fds).OwnedBy (n :: d.process.drivers).toFinset
      (fun k => ((Function.update d.contexts n c k).closes : Multiset Fd)) ↔
        ∀ fd ∈ c.fds, 0 < fd := by
  have hfresh : n ∉ d.process.drivers.toFinset := fun hin => hn (List.mem_toFinset.mp hin)
  have hold : d.descriptors.OwnedBy d.process.drivers.toFinset fun k =>
      ((Function.update d.contexts n c k).closes : Multiset Fd) := by
    refine (Ledger.OwnedBy.congr fun k hk => ?_).mp h
    rw [Function.update_of_ne (ne_of_mem_of_not_mem hk hfresh)]
  rw [List.toFinset_cons, hold.insert_iff hfresh, Function.update_self, closes_eq_iff]

/-- The other drivers keep what they have open. -/
theorem Settled.free (hin : n ∈ d.process.drivers) :
    (freeNvdriver (d.contexts n) d.descriptors).OwnedBy (d.process.drivers.toFinset.erase n)
      fun k => ((Function.update d.contexts n .zero k).closes : Multiset Fd) := by
  refine (Ledger.OwnedBy.congr fun k hk => ?_).mp (h.releaseAll (List.mem_toFinset.mpr hin) rfl)
  rw [Function.update_of_ne (Finset.ne_of_mem_erase hk)]

/-- A driver that stays behind has a context of zeros. -/
theorem Settled.free_zero (hin : n ∈ d.process.drivers) :
    (freeNvdriver (d.contexts n) d.descriptors).OwnedBy d.process.drivers.toFinset
      fun k => ((Function.update d.contexts n .zero k).closes : Multiset Fd) := by
  have hzero := @Ledger.OwnedBy.insert_iff _ _ _ _ _ n _ 0 (h.free hin) (Finset.notMem_erase n _)
  rw [Ledger.hold_zero, Finset.insert_erase (List.mem_toFinset.mpr hin)] at hzero
  rw [hzero, Function.update_self]
  rfl

end Drivers

theorem Settled.init_iff {r : DisplayReplies} (h : Settled d) (hn : Numbered d.process)
    (hs : displays.step d (.init r) = some d') :
    Settled d' ↔ (d.Exports r → r.Clean (d.passed r) d.gpu) := by
  obtain ⟨context, l, hexport, hp, hc⟩ := init_cases hs
  have hdrivers := init_drivers d.process ⟨d.modeset r, r.functions, context.isSome, r.cuCtxCreate⟩
  rw [← hp] at hdrivers
  unfold exported at hexport
  unfold Settled
  split at hexport
  · next hexports =>
    rw [forall_prop_of_true hexports]
    have hret := directInitExporter_returns.eval hexport
    cases context with
    | none =>
      obtain ⟨hnone, ks, rfl, hks⟩ := hret
      have hsame : d'.process.drivers = d.process.drivers := by
        simpa using congrArg Prod.fst hdrivers
      have hclean : r.Clean (d.passed r) d.gpu ↔ r.FailsFirst (d.passed r) d.gpu :=
        or_iff_right fun ⟨c, hopens, _⟩ => hnone c hopens
      rw [hsame, hc.1, hc.2, Ledger.OwnedBy.hold_iff h, hks, hclean]
    | some c =>
      obtain ⟨hopens, rfl⟩ := hret
      rw [hopens.clean_iff]
      cases hctx : r.cuCtxCreate with
      | false =>
        obtain ⟨ks, hfree, hks⟩ := freeNvdriver_hold c d.descriptors
        have hsame : d'.process.drivers = d.process.drivers := by
          simpa [hctx] using congrArg Prod.fst hdrivers
        rw [hctx] at hc
        rw [hsame, hc.1, hc.2, hfree, Ledger.OwnedBy.hold_iff h, hks]
      | true =>
        obtain ⟨hmodeset, hfull, hfunctions⟩ := hexports
        have hnew : d'.process.drivers = d.process.nextDriver :: d.process.drivers := by
          simpa [hctx, hmodeset, hfull, hfunctions] using congrArg Prod.fst hdrivers
        rw [hctx] at hc
        rw [hnew, hc.1, hc.2, h.new_iff hn.fresh]
  · next hexports =>
    obtain ⟨rfl, rfl⟩ := Prod.mk.inj (Option.some.inj hexport)
    have hsame : d'.process.drivers = d.process.drivers := by simpa using congrArg Prod.fst hdrivers
    rw [hsame, hc.1, hc.2]
    exact iff_of_true h fun hexports' => absurd hexports' hexports

theorem Settled.terminate (h : Settled d) (hn : Numbered d.process) {n : Nat}
    (hin : n ∈ d.process.drivers) (r : TerminateResults) : Settled (d.nvTerminate n r).2 := by
  unfold nvTerminate
  rw [nvTerminate_eq]
  cases hpush : r.cuCtxPushCurrent with
  | false => simpa using h
  | true =>
    have herase : (d.process.drivers.erase n).toFinset = d.process.drivers.toFinset.erase n := by
      ext k
      simp [hn.nodup.mem_erase_iff]
    cases r.cuCtxPopCurrent with
    | false => exact h.free_zero hin
    | true =>
      cases r.cuCtxDestroy with
      | false => exact h.free_zero hin
      | true =>
        have hothers := h.free hin
        rw [← herase] at hothers
        exact hothers

theorem Settled.step_iff (h : Settled d) (hn : Numbered d.process) {c : DisplayCall}
    (hs : displays.step d c = some d') : Settled d' ↔ d.KeepsSettled c := by
  cases c with
  | init r => exact h.init_iff hn hs
  | terminate n r =>
    obtain ⟨hin, rfl⟩ : n ∈ d.process.drivers ∧ (d.nvTerminate n r).2 = d' := by
      simpa [displays] using hs
    exact iff_of_true (h.terminate hn hin r) trivial

/-- In a run of inits and terminations of any displays, with any results of what they call, the
drivers have open what their contexts record, and have closed nothing else, exactly when no init
leaves anything open that its driver does not close. -/
theorem displays_settled_iff {d₀ : Displays} (h₀ : displays.init d₀) {calls : List DisplayCall}
    (hr : displays.run d₀ calls = some d) :
    displays.Always Settled d₀ calls ↔ displays.Meets KeepsSettled d₀ calls := by
  have hnumbered : instances.Reach d₀.process := .init h₀.1
  have hsettled : Settled d₀ := by
    rw [Settled, h₀.2.2, h₀.1.2]
    rfl
  refine Lts.always_iff_meets (I := fun d => instances.Reach d.process) ?_ ?_ hnumbered hsettled
    (Lts.meets_true _ _) hr
  · intro d c d' hreach _ hs
    obtain ⟨a, ha⟩ := displays_instances hs
    exact hreach.step ha
  · exact fun _ _ _ hreach _ h hs => h.step_iff (numbered_of_reach hreach) hs

def oneDisplay : List DisplayCall :=
  let device name : DrmDevice := ⟨some name, true⟩
  let nodes i :=
    if i = 128 then some (3, device "i915".toList)
    else if i = 129 then some (3, device "nvidia-drm".toList) else none
  [.init ⟨⟨⟨some 4, some 5, true, true, true, true, true, true⟩, nodes, none⟩, none, true, true⟩,
    .terminate 0 ⟨true, true, true⟩]

/-- One display, whose GPU is behind a device of another driver. -/
theorem displays_settled_oneDisplay :
    displays.Always Settled ⟨⟨0, 0, [], 0⟩, -1, fun _ => .zero, .empty⟩ oneDisplay := by
  obtain ⟨d, hr⟩ :
      ∃ d, displays.run ⟨⟨0, 0, [], 0⟩, -1, fun _ => .zero, .empty⟩ oneDisplay = some d := ⟨_, rfl⟩
  refine (displays_settled_iff ⟨⟨rfl, rfl⟩, rfl, rfl⟩ hr).mpr ⟨fun _ =>
    .inl ⟨⟨4, 5, 3⟩, ⟨by decide, rfl⟩, by decide⟩, ?_⟩
  exact fun _ _ => ⟨trivial, fun _ _ => trivial⟩

end Displays

end NvVaapi.Direct
