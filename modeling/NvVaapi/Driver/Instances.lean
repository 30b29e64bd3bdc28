import NvVaapi.Driver.State

/-!
# The instances of the driver

* `Process`: the counter of instances, and the drivers that were initialized and not yet terminated.
* `vaDriverInit_1_0`, `nvTerminate`: the calls, with the results of what can fail in them.
* `Accounted`: after the call the counter is right, and if it was an init that was refused, there
  are as many drivers as are allowed.
* `Balanced`: the init is refused or completes, and the termination does not fail behind the
  counter.
* `accounted_iff_balanced`: every call of a run is accounted for exactly when every call is
  balanced.
-/

namespace NvVaapi

/-- What the driver shares between its instances. 0 is no maximum. -/
structure Process where
  instances : UInt32
  max_instances : UInt32
  /-- History: the drivers that were initialized and not yet terminated. -/
  drivers : List Nat
  nextDriver : Nat

structure InitResults where
  /-- No DRM file descriptor was passed in, or not one of a device without modeset. -/
  modeset : Bool
  /-- `cu` and `cv` were loaded. -/
  functions : Bool
  initExporter : Bool
  cuCtxCreate : Bool
  deriving DecidableEq

structure TerminateResults where
  cuCtxPushCurrent : Bool
  cuCtxPopCurrent : Bool
  cuCtxDestroy : Bool
  deriving DecidableEq

inductive InstanceCall where
  | init (r : InitResults)
  | terminate (d : Nat) (r : TerminateResults)
  deriving DecidableEq

namespace Process

variable (p : Process)

/-- There are as many instances as are allowed. -/
def Full : Prop := p.max_instances > 0 ∧ p.instances ≥ p.max_instances

instance : Decidable p.Full := inferInstanceAs (Decidable (_ ∧ _))

/-- `__vaDriverInit_1_0`. Behind `cuCtxCreate` nothing is fatal. -/
def vaDriverInit_1_0 (r : InitResults) : VAStatus × Process :=
  if !r.modeset then (.errorOperationFailed, p)
  else if p.Full then (.errorHwBusy, p)
  else
    let p := { p with instances := p.instances + 1 }
    if !r.functions then (.errorOperationFailed, p)
    else if !r.initExporter then (.errorOperationFailed, p)
    else if !r.cuCtxCreate then (.errorOperationFailed, p)
    else (.success, { p with drivers := p.nextDriver :: p.drivers, nextDriver := p.nextDriver + 1 })

def nvTerminate (d : Nat) (r : TerminateResults) : VAStatus × Process :=
  if !r.cuCtxPushCurrent then (.errorOperationFailed, p)
  else if !r.cuCtxPopCurrent then (.errorOperationFailed, p)
  else
    let p := { p with instances := p.instances - 1 }
    if !r.cuCtxDestroy then (.errorOperationFailed, p)
    else (.success, { p with drivers := p.drivers.erase d })

/-- A call. Only a driver that is there can be terminated. -/
def call : InstanceCall → Option (VAStatus × Process)
  | .init r => some (p.vaDriverInit_1_0 r)
  | .terminate d r => if d ∈ p.drivers then some (p.nvTerminate d r) else none

/-- The counter is the number of drivers. -/
def Counts : Prop := p.instances.toNat = p.drivers.length

instance : Decidable p.Counts := inferInstanceAs (Decidable (_ = _))

def Accounted (a : InstanceCall) : Prop :=
  ∀ status p', p.call a = some (status, p') →
    p'.Counts ∧ (status = .errorHwBusy → p'.drivers.length = p'.max_instances.toNat)

/-- With the counter below its own limit. -/
def Balanced : InstanceCall → Prop
  | .init r => r.modeset = false ∨ p.Full ∨
      r.functions ∧ r.initExporter ∧ r.cuCtxCreate ∧ p.instances.toNat + 1 < 2 ^ 32
  | .terminate d r => d ∈ p.drivers → r.cuCtxPushCurrent → r.cuCtxPopCurrent → r.cuCtxDestroy

instance (a : InstanceCall) : Decidable (p.Balanced a) :=
  match a with
  | .init _ => inferInstanceAs (Decidable (_ ∨ _ ∨ _ ∧ _ ∧ _ ∧ _))
  | .terminate _ _ => inferInstanceAs (Decidable (_ → _ → _ → _))

end Process

/-- The process before the first init. The environment gives `max_instances`. -/
def instances : Lts Process InstanceCall where
  init p := p.instances = 0 ∧ p.drivers = []
  step p a := (p.call a).map Prod.snd

/-! ## One call -/

section Calls

variable {p : Process}

/-- The counter is right, and there are not more drivers than are allowed. -/
structure Process.Limited (p : Process) : Prop where
  counts : p.Counts
  limit : p.max_instances > 0 → p.drivers.length ≤ p.max_instances.toNat

theorem toNat_succ_eq_iff {n : UInt32} {m : Nat} :
    (n + 1).toNat = m ↔ if n.toNat + 1 < 2 ^ 32 then m = n.toNat + 1 else m = 0 := by
  have hlt := n.toNat_lt
  rw [UInt32.toNat_add, UInt32.toNat_one]
  split <;> omega

theorem accounted_iff {a : InstanceCall} {t : VAStatus × Process} (h : p.call a = some t) :
    p.Accounted a ↔
      t.2.Counts ∧ (t.1 = .errorHwBusy → t.2.drivers.length = t.2.max_instances.toNat) := by
  unfold Process.Accounted
  rw [h]
  constructor
  · exact fun hall => hall _ _ rfl
  · rintro ht status p' he
    obtain rfl := Option.some_inj.mp he
    exact ht

/-- A refused init finds as many drivers as are allowed. -/
theorem Process.Limited.full (h : p.Limited) (hf : p.Full) :
    p.drivers.length = p.max_instances.toNat := by
  have hle := h.limit hf.1
  have hge : p.max_instances.toNat ≤ p.instances.toNat := UInt32.le_iff_toNat_le.mp hf.2
  have hcounts : p.instances.toNat = p.drivers.length := h.counts
  omega

/-- What an init does that is neither refused before nor at the counter. -/
theorem vaDriverInit_of_not_full {r : InitResults} (hm : r.modeset) (hf : ¬p.Full) :
    p.vaDriverInit_1_0 r =
      if r.functions ∧ r.initExporter ∧ r.cuCtxCreate then
        (.success, { p with
          instances := p.instances + 1
          drivers := p.nextDriver :: p.drivers
          nextDriver := p.nextDriver + 1 })
      else (.errorOperationFailed, { p with instances := p.instances + 1 }) := by
  unfold Process.vaDriverInit_1_0
  cases r.functions <;> cases r.initExporter <;> cases r.cuCtxCreate <;> simp [hm, hf]

theorem init_accounted_iff (h : p.Limited) (r : InitResults) :
    p.Accounted (.init r) ↔ p.Balanced (.init r) := by
  have hcounts : p.instances.toNat = p.drivers.length := h.counts
  have hlt := p.instances.toNat_lt
  rw [accounted_iff rfl, Process.Balanced]
  by_cases hm : r.modeset = false
  · simp [Process.vaDriverInit_1_0, hm, h.counts]
  by_cases hf : p.Full
  · simp [Process.vaDriverInit_1_0, hm, hf, h.counts, h.full hf]
  rw [vaDriverInit_of_not_full (by simpa using hm) hf, or_iff_right hm, or_iff_right hf]
  split
  · next hdone =>
    rw [and_iff_left (fun hbusy => by cases hbusy), ← and_assoc, ← and_assoc,
      and_iff_right ⟨⟨hdone.1, hdone.2.1⟩, hdone.2.2⟩]
    show (p.instances + 1).toNat = p.drivers.length + 1 ↔ _
    rw [toNat_succ_eq_iff]
    split <;> omega
  · next hfail =>
    -- the counter is one too high
    refine iff_of_false (fun hc => ?_) fun hb => hfail ⟨hb.1, hb.2.1, hb.2.2.1⟩
    have hleak : (p.instances + 1).toNat = p.drivers.length := hc.1
    rw [toNat_succ_eq_iff] at hleak
    split at hleak <;> omega

theorem nvTerminate_eq (p : Process) (d : Nat) (r : TerminateResults) : p.nvTerminate d r =
    if r.cuCtxPushCurrent ∧ r.cuCtxPopCurrent then
      if r.cuCtxDestroy then
        (.success, { p with instances := p.instances - 1, drivers := p.drivers.erase d })
      else (.errorOperationFailed, { p with instances := p.instances - 1 })
    else (.errorOperationFailed, p) := by
  unfold Process.nvTerminate
  cases r.cuCtxPushCurrent <;> cases r.cuCtxPopCurrent <;> cases r.cuCtxDestroy <;> simp

theorem terminate_accounted_iff (h : p.Limited) (d : Nat) (r : TerminateResults) :
    p.Accounted (.terminate d r) ↔ p.Balanced (.terminate d r) := by
  have hcounts : p.instances.toNat = p.drivers.length := h.counts
  by_cases hd : d ∈ p.drivers
  · have hpos := List.length_pos_of_mem hd
    have hless : (p.instances - 1).toNat = p.drivers.length - 1 := by
      rw [UInt32.toNat_sub_of_le _ _ (by rw [UInt32.le_iff_toNat_le, UInt32.toNat_one]; omega),
        hcounts]
      rfl
    have hcall : p.call (.terminate d r) = some (p.nvTerminate d r) := if_pos hd
    rw [accounted_iff hcall, nvTerminate_eq, Process.Balanced]
    split
    · next hpop =>
      split
      · next hdone =>
        refine iff_of_true ⟨?_, fun hbusy => by cases hbusy⟩ fun _ _ _ => hdone
        exact hless.trans (List.length_erase_of_mem hd).symm
      · next hfail =>
        -- the counter is one too low
        refine iff_of_false (fun hc => ?_) fun hb => hfail (hb hd hpop.1 hpop.2)
        have hlow : (p.instances - 1).toNat = p.drivers.length := hc.1
        omega
    · next hkept =>
      refine iff_of_true ⟨h.counts, fun hbusy => by cases hbusy⟩ fun _ hpush hpop => ?_
      exact absurd ⟨hpush, hpop⟩ hkept
  · refine iff_of_true (fun _ _ he => ?_) fun hd' => absurd hd' hd
    simp [Process.call, hd] at he

theorem accounted_iff_balanced_step (h : p.Limited) :
    (a : InstanceCall) → (p.Accounted a ↔ p.Balanced a)
  | .init r => init_accounted_iff h r
  | .terminate d r => terminate_accounted_iff h d r

/-- A balanced call leaves at most as many drivers as are allowed. -/
theorem limited_step {a : InstanceCall} {p' : Process} (h : p.Limited) (hb : p.Balanced a)
    (hs : instances.step p a = some p') : p'.Limited := by
  obtain ⟨t, hc, rfl⟩ := Option.map_eq_some_iff.mp hs
  refine ⟨((accounted_iff hc).mp ((accounted_iff_balanced_step h a).mpr hb)).1, ?_⟩
  have hcounts : p.instances.toNat = p.drivers.length := h.counts
  cases a with
  | init r =>
    obtain rfl := Option.some_inj.mp hc
    by_cases hm : r.modeset = false
    · simpa [Process.vaDriverInit_1_0, hm] using h.limit
    by_cases hf : p.Full
    · simpa [Process.vaDriverInit_1_0, hm, hf] using h.limit
    rw [vaDriverInit_of_not_full (by simpa using hm) hf]
    split
    · intro hmax
      -- the drivers were fewer
      have hlt : p.instances < p.max_instances := UInt32.not_le.mp fun hge => hf ⟨hmax, hge⟩
      rw [UInt32.lt_iff_toNat_lt] at hlt
      show p.drivers.length + 1 ≤ p.max_instances.toNat
      omega
    · exact h.limit
  | terminate d r =>
    obtain ⟨-, hc⟩ : d ∈ p.drivers ∧ p.nvTerminate d r = t := by simpa [Process.call] using hc
    rw [← hc, nvTerminate_eq]
    split_ifs
    · exact fun hmax => Nat.le_trans List.length_erase_le (h.limit hmax)
    · exact h.limit
    · exact h.limit

end Calls

/-! ## A run -/

/-- After every call of a run the counter is the number of drivers, and a refused init finds as many
as are allowed, exactly when every call is balanced. -/
theorem accounted_iff_balanced {p : Process} (hp : instances.init p) (as : List InstanceCall) :
    instances.Meets Process.Accounted p as ↔ instances.Meets Process.Balanced p as := by
  have hlimited : p.Limited := by
    obtain ⟨hi, hd⟩ := hp
    refine ⟨?_, fun _ => ?_⟩
    · rw [Process.Counts, hi, hd]
      rfl
    · rw [hd]
      exact Nat.zero_le _
  refine Lts.meets_iff_meets (I := Process.Limited) (fun _ a h =>
    accounted_iff_balanced_step h a) ?_
    hlimited as
  exact fun _ a _ h ha hs => limited_step h ((accounted_iff_balanced_step h a).mp ha) hs

/-- Two drivers are allowed and initialized, a third is refused, and one is terminated. -/
theorem accounted_iff_balanced_two : instances.Meets Process.Accounted ⟨0, 2, [], 0⟩
    [.init ⟨true, true, true, true⟩, .init ⟨true, true, true, true⟩, .init ⟨true, true, true, true⟩,
      .terminate 0 ⟨true, true, true⟩] :=
  (accounted_iff_balanced ⟨rfl, rfl⟩ _).mpr (by decide)

/-- After an init whose exporter fails, the only driver that is allowed is refused. -/
theorem failed_init_not_accounted : ∃ p p₁, instances.init p ∧ p.max_instances = 1 ∧
    instances.run p [.init ⟨true, true, false, true⟩] = some p₁ ∧ ¬p₁.Counts ∧ p₁.drivers = [] ∧
    (p₁.vaDriverInit_1_0 ⟨true, true, true, true⟩).1 = .errorHwBusy :=
  ⟨⟨0, 1, [], 0⟩, _, ⟨rfl, rfl⟩, rfl, rfl, by decide, rfl, by decide⟩

end NvVaapi
