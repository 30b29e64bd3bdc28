import Mathlib.Data.List.Nodup
import Mathlib.Data.UInt

/-!
# Which CUDA device belongs to the DRM device

* `getDeviceUuid`, `findGPUIndexFromFd`: the search for the CUDA device with the UUID of the DRM
  device. The array on the stack that the UUID is to be written to has any bytes before.
* `MatchesGpu`: the device is found if it is there, and a UUID is reported exactly when it was
  written.
* `matchesGpu_iff`: the query succeeds and the bytes on the stack happen to lead to the device.
-/

namespace NvVaapi.Direct

abbrev Uuid := Vector UInt8 16

def nvOk : UInt32 := 0

/-- What `ioctl` makes of a query for the UUID of a GPU. -/
structure RmReply where
  ret : Int32
  status : UInt32
  /-- `uuidParams.gpuUuid` after the call. -/
  gpuUuid : Uuid

/-- `nv_rm_control` -/
def nvRmControl (r : RmReply) : Bool := if r.ret ≠ 0 ∨ r.status ≠ nvOk then false else true

/-- `get_device_uuid`: its result, and what it writes to `uuid`. -/
def getDeviceUuid (r : RmReply) : Bool × Option Uuid :=
  let ret := nvRmControl r
  if ret then (false, none) else (true, some r.gpuUuid)

/-- A CUDA device, and whether `cuDeviceGetUuid` succeeds for it. -/
structure CudaDevice where
  uuid : Uuid
  readable : Bool

def CudaDevice.getUuid (d : CudaDevice) : Option Uuid := if d.readable then some d.uuid else none

/-- The loop over the devices. -/
def findDevice (devices : List CudaDevice) (drmUuid : Uuid) : Option Nat :=
  devices.findIdx? fun d => d.getUuid = some drmUuid

/-- The new `cudaGpuId`. There are no devices where `cuDeviceGetCount` fails. -/
def findGPUIndexFromFd (r : RmReply) (devices : Option (List CudaDevice)) (stack : Uuid)
    (cudaGpuId : Int) : Int :=
  let drmUuid := (getDeviceUuid r).2.getD stack
  match devices with
  | none => cudaGpuId
  | some devices =>
    match findDevice devices drmUuid with
    | some i => i
    -- the default
    | none => 0

/-! ## What the search finds -/

def RmReply.Succeeds (r : RmReply) : Prop := r.ret = 0 ∧ r.status = nvOk

instance (r : RmReply) : Decidable r.Succeeds := inferInstanceAs (Decidable (_ ∧ _))

theorem nvRmControl_eq_true_iff (r : RmReply) : nvRmControl r = true ↔ r.Succeeds := by
  unfold nvRmControl RmReply.Succeeds
  split
  · next h => exact iff_of_false Bool.false_ne_true (not_and_or.mpr h)
  · next h => exact iff_of_true rfl (by simpa using h)

theorem getDeviceUuid_of_succeeds {r : RmReply} (h : r.Succeeds) :
    getDeviceUuid r = (false, none) :=
  if_pos ((nvRmControl_eq_true_iff r).mpr h)

theorem getDeviceUuid_of_fails {r : RmReply} (h : ¬r.Succeeds) :
    getDeviceUuid r = (true, some r.gpuUuid) :=
  if_neg fun hr => h ((nvRmControl_eq_true_iff r).mp hr)

/-- The device `i` is there, its UUID can be read, and it is `uuid`. -/
def HasUuid (devices : List CudaDevice) (i : Nat) (uuid : Uuid) : Prop :=
  ∃ d, devices[i]? = some d ∧ d.readable ∧ d.uuid = uuid

section Search

variable {devices : List CudaDevice} {i j : Nat} {uuid uuid' : Uuid}

theorem CudaDevice.getUuid_eq_some_iff {d : CudaDevice} :
    d.getUuid = some uuid ↔ d.readable ∧ d.uuid = uuid := by
  unfold getUuid
  split <;> simp_all

theorem HasUuid.index_eq (hn : (devices.map CudaDevice.uuid).Nodup) (hi : HasUuid devices i uuid)
    (hj : HasUuid devices j uuid) : i = j := by
  obtain ⟨d, hd, -, rfl⟩ := hi
  obtain ⟨d', hd', -, he⟩ := hj
  have hlt : i < (devices.map CudaDevice.uuid).length := by
    rw [List.length_map]
    exact (List.getElem?_eq_some_iff.mp hd).1
  refine (List.getElem?_inj hlt hn).mp ?_
  rw [List.getElem?_map, List.getElem?_map, hd, hd', Option.map_some, Option.map_some, he]

theorem HasUuid.uuid_eq (hi : HasUuid devices i uuid) (hj : HasUuid devices i uuid') :
    uuid = uuid' := by
  obtain ⟨d, hd, -, rfl⟩ := hi
  obtain ⟨d', hd', -, rfl⟩ := hj
  rw [Option.some_inj.mp (hd.symm.trans hd')]

theorem findDevice_eq_none_iff : findDevice devices uuid = none ↔ ∀ i, ¬HasUuid devices i uuid := by
  rw [findDevice, List.findIdx?_eq_none_iff]
  constructor
  · rintro h i ⟨d, hd, hr⟩
    exact of_decide_eq_false (h d (List.mem_of_getElem? hd)) (CudaDevice.getUuid_eq_some_iff.mpr hr)
  · intro h d hm
    obtain ⟨i, hi⟩ := List.mem_iff_getElem?.mp hm
    exact decide_eq_false fun he => h i ⟨d, hi, CudaDevice.getUuid_eq_some_iff.mp he⟩

/-- The first device that is found is the only one. -/
theorem findDevice_eq_some_iff (hn : (devices.map CudaDevice.uuid).Nodup) :
    findDevice devices uuid = some i ↔ HasUuid devices i uuid := by
  have hfound {j : Nat} (h : findDevice devices uuid = some j) : HasUuid devices j uuid := by
    obtain ⟨hlt, hj, -⟩ := List.findIdx?_eq_some_iff_getElem.mp h
    exact ⟨_, List.getElem?_eq_getElem hlt,
      CudaDevice.getUuid_eq_some_iff.mp (of_decide_eq_true hj)⟩
  refine ⟨hfound, fun h => ?_⟩
  cases hf : findDevice devices uuid with
  | none => exact absurd h (findDevice_eq_none_iff.mp hf i)
  | some j => rw [(hfound hf).index_eq hn h]

end Search

/-! ## Whether the device is found -/

/-- The device that has the UUID of the DRM device is found if the query succeeds, and
`get_device_uuid` returns true exactly when it has written that UUID. -/
structure MatchesGpu (r : RmReply) (devices : List CudaDevice) (stack : Uuid)
    (cudaGpuId : Int) : Prop where
  found : r.Succeeds → ∀ i, HasUuid devices i r.gpuUuid →
    findGPUIndexFromFd r (some devices) stack cudaGpuId = i
  written : (getDeviceUuid r).1 = true ↔ r.Succeeds ∧ (getDeviceUuid r).2 = some r.gpuUuid

/-- The bytes on the stack lead to the device with the UUID, if there is one: they are its UUID, or
it is the default and they are the UUID of no device. -/
def LeadsTo (devices : List CudaDevice) (stack uuid : Uuid) : Prop :=
  (∀ i, ¬HasUuid devices i uuid) ∨ stack = uuid ∨
    (HasUuid devices 0 uuid ∧ ∀ i, ¬HasUuid devices i stack)

theorem findGPUIndexFromFd_of_succeeds {r : RmReply} (h : r.Succeeds) (devices : List CudaDevice)
    (stack : Uuid) (cudaGpuId : Int) :
    findGPUIndexFromFd r (some devices) stack cudaGpuId =
      ((findDevice devices stack).getD 0 : Nat) := by
  simp only [findGPUIndexFromFd, getDeviceUuid_of_succeeds h, Option.getD_none]
  cases findDevice devices stack <;> rfl

theorem leadsTo_iff {devices : List CudaDevice} (hn : (devices.map CudaDevice.uuid).Nodup)
    {stack uuid : Uuid} :
    LeadsTo devices stack uuid ↔
      ∀ i, HasUuid devices i uuid → (findDevice devices stack).getD 0 = i := by
  constructor
  · rintro (hnone | rfl | ⟨h0, hnone⟩) i hi
    · exact absurd hi (hnone i)
    · rw [(findDevice_eq_some_iff hn).mpr hi, Option.getD_some]
    · rw [findDevice_eq_none_iff.mpr hnone, Option.getD_none]
      exact h0.index_eq hn hi
  · intro h
    by_cases hnone : ∀ i, ¬HasUuid devices i uuid
    · exact .inl hnone
    · obtain ⟨i, hi⟩ := not_forall_not.mp hnone
      have hfound := h i hi
      cases hf : findDevice devices stack with
      | none =>
        rw [hf, Option.getD_none] at hfound
        exact .inr (.inr ⟨hfound ▸ hi, findDevice_eq_none_iff.mp hf⟩)
      | some j =>
        rw [hf, Option.getD_some] at hfound
        have hj := (findDevice_eq_some_iff hn).mp hf
        exact .inr (.inl (hj.uuid_eq (hfound ▸ hi)))

/-- For every list of devices with different UUIDs. -/
theorem matchesGpu_iff {r : RmReply} {devices : List CudaDevice} {stack : Uuid} {cudaGpuId : Int}
    (hn : (devices.map CudaDevice.uuid).Nodup) :
    MatchesGpu r devices stack cudaGpuId ↔ r.Succeeds ∧ LeadsTo devices stack r.gpuUuid := by
  rw [leadsTo_iff hn]
  constructor
  · rintro ⟨hfound, hwritten⟩
    by_cases hr : r.Succeeds
    · refine ⟨hr, fun i hi => ?_⟩
      have h := hfound hr i hi
      rw [findGPUIndexFromFd_of_succeeds hr] at h
      exact Int.natCast_inj.mp h
    · rw [getDeviceUuid_of_fails hr] at hwritten
      exact absurd (hwritten.mp rfl).1 hr
  · rintro ⟨hr, hfound⟩
    refine ⟨fun _ i hi => ?_, ?_⟩
    · rw [findGPUIndexFromFd_of_succeeds hr, hfound i hi]
    · rw [getDeviceUuid_of_succeeds hr]
      exact iff_of_false Bool.false_ne_true fun h => nomatch h.2

/-- The UUID of which all bytes are `b`. -/
def uuidOf (b : UInt8) : Uuid := .replicate 16 b

def twoDevices : List CudaDevice := [⟨uuidOf 1, true⟩, ⟨uuidOf 2, true⟩]

/-- With the UUID of the second device on the stack, that one is taken. -/
theorem matchesGpu_iff_twoDevices : MatchesGpu ⟨0, nvOk, uuidOf 2⟩ twoDevices (uuidOf 2) 0 :=
  (matchesGpu_iff (by decide)).mpr ⟨by decide, .inr (.inl rfl)⟩

/-- The UUID is that of the second device, and the first one is taken. -/
theorem not_matchesGpu :
    ¬∀ (r : RmReply) (devices : List CudaDevice) (stack : Uuid) (cudaGpuId : Int),
    (devices.map CudaDevice.uuid).Nodup → MatchesGpu r devices stack cudaGpuId := by
  intro h
  have hfound := (h ⟨0, nvOk, uuidOf 2⟩ twoDevices (uuidOf 0) 0 (by decide)).found (by decide) 1
    ⟨⟨uuidOf 2, true⟩, rfl, rfl, rfl⟩
  exact absurd hfound (by decide)

end NvVaapi.Direct
