import Mathlib.Data.List.Basic

/-!
# Devices that keep the buffers of a job

A device takes jobs, each with the slot that its input and output are in. It may delay a job, and
then the slot is the device's until the next job that it finishes. With that one it finishes the
delayed ones.

* `Device.touch`, `Device.submit`, `Device.fetch`: what is done with a slot.
* `Device.InOrder`: no slot was touched that was the device's, and every job that is finished was
  fetched once, in the order of the submissions.
* `fetch_inOrder`: a job that is finished and fetched at once keeps it exactly when none was
  delayed.
-/

/-- What the device says to a job. -/
inductive Device.Reply where
  | refused
  | delayed
  | finished
  deriving DecidableEq

/-- The jobs are numbered as they were accepted. -/
structure Device where
  accepted : Nat
  /-- The delayed jobs with their slots, the oldest first. -/
  pending : List (Nat × Nat)
  /-- The finished jobs with their slots, the latest first. -/
  outputs : List (Nat × Nat)
  /-- The jobs whose outputs were fetched, the first of them first. -/
  fetched : List Nat
  /-- A slot was touched while it was the device's. -/
  touched : Bool
  deriving DecidableEq

namespace Device

def empty : Device := ⟨0, [], [], [], false⟩

variable (d : Device) (slot : Nat)

/-- The slot is the device's. -/
def Owns : Prop := slot ∈ d.pending.map Prod.snd

instance : Decidable (d.Owns slot) := inferInstanceAs (Decidable (_ ∈ _))

/-- Write to the slot, or hand it to the device. -/
def touch : Device := { d with touched := d.touched || decide (d.Owns slot) }

/-- Hand a job in the slot to the device. -/
def submit (reply : Reply) : Device :=
  let d := d.touch slot
  match reply with
  | .refused => d
  | .delayed => { d with accepted := d.accepted + 1, pending := d.pending ++ [(d.accepted, slot)] }
  | .finished =>
    { d with
      accepted := d.accepted + 1
      pending := []
      outputs := (d.accepted, slot) :: d.pending.reverse ++ d.outputs }

/-- Fetch what is in the slot. -/
def fetch : Device :=
  { d with fetched := d.fetched ++ ((d.outputs.find? fun job => job.2 = slot).map Prod.fst).toList }

/-- No slot was touched that was the device's. The jobs that were fetched, with those that are
delayed, are all that were accepted. -/
structure InOrder : Prop where
  untouched : d.touched = false
  inOrder : d.fetched ++ d.pending.map Prod.fst = List.range d.accepted

instance : Decidable d.InOrder :=
  decidable_of_iff (d.touched = false ∧ d.fetched ++ d.pending.map Prod.fst = List.range d.accepted)
    ⟨fun ⟨ht, ho⟩ => ⟨ht, ho⟩, fun h => ⟨h.untouched, h.inOrder⟩⟩

variable {d slot}

theorem inOrder_empty : empty.InOrder := ⟨rfl, rfl⟩

@[simp] theorem touch_touch : (d.touch slot).touch slot = d.touch slot := by
  unfold touch
  dsimp only
  rw [Bool.or_assoc]
  exact congrArg (fun b => { d with touched := d.touched || b }) (Bool.or_self _)

@[simp] theorem submit_refused : d.submit slot .refused = d.touch slot := rfl

@[simp] theorem submit_touch (reply : Reply) :
    (d.touch slot).submit slot reply = d.submit slot reply := by
  unfold submit
  rw [touch_touch]

theorem touch_inOrder (h : d.InOrder) : (d.touch slot).InOrder ↔ ¬d.Owns slot := by
  refine ⟨fun ht hs => ?_, fun hs => ⟨?_, h.inOrder⟩⟩
  · have hu := (Bool.or_eq_false_iff.mp ht.untouched).2
    exact of_decide_eq_false hu hs
  · exact Bool.or_eq_false_iff.mpr ⟨h.untouched, decide_eq_false hs⟩

theorem submit_delayed_inOrder (h : d.InOrder) :
    (d.submit slot .delayed).InOrder ↔ ¬d.Owns slot := by
  rw [← touch_inOrder h]
  have horder : d.fetched ++ (d.pending ++ [(d.accepted, slot)]).map Prod.fst =
      List.range (d.accepted + 1) := by
    rw [List.map_append, ← List.append_assoc, h.inOrder, List.range_succ]
    rfl
  exact ⟨fun hs => ⟨hs.untouched, h.inOrder⟩, fun ht => ⟨ht.untouched, horder⟩⟩

/-- A finished job that was not fetched is missing. -/
theorem submit_finished_not_inOrder (h : d.InOrder) : ¬(d.submit slot .finished).InOrder := by
  intro hs
  have hlen := congrArg List.length h.inOrder
  have hlen' := congrArg List.length hs.inOrder
  rw [List.length_append, List.length_range] at hlen hlen'
  change d.fetched.length + 0 = d.accepted + 1 at hlen'
  omega

/-- A job that is finished and fetched at once: the delayed ones are missing. -/
theorem fetch_inOrder (h : d.InOrder) :
    ((d.submit slot .finished).fetch slot).InOrder ↔ ¬d.Owns slot ∧ d.pending = [] := by
  have hfetch : ((d.submit slot .finished).fetch slot).fetched = d.fetched ++ [d.accepted] := by
    show d.fetched ++
        ((((d.accepted, slot) :: _).find? fun job => job.2 = slot).map Prod.fst).toList = _
    rw [List.find?_cons_of_pos (by simp)]
    rfl
  have horder : ((d.submit slot .finished).fetch slot).fetched ++ [] = List.range (d.accepted + 1) ↔
      d.pending = [] := by
    rw [hfetch, List.append_nil, List.range_succ, List.append_left_inj, ← h.inOrder,
      List.self_eq_append_right, List.map_eq_nil_iff]
  rw [← touch_inOrder h, ← horder]
  exact ⟨fun hs => ⟨⟨hs.untouched, h.inOrder⟩, hs.inOrder⟩, fun ⟨ht, ho⟩ => ⟨ht.untouched, ho⟩⟩

end Device
