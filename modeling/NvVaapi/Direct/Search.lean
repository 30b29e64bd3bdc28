import NvVaapi.Direct.Images
import NvVaapi.Lib.Owners

/-!
# The search for a GPU

* `isNvidiaDrmFd`, `checkModesetParameterFromFd`: what a DRM device is asked for.
* `searchNodes`: the loop over the render nodes, with the descriptors that it opens and closes.
* `gpuAt`: the device with the number that is looked for, among those that can be used.
* `searchNodes_ensures`: the loop leaves that device open, and no other one. It fails where a node
  is missing before, and behind the last node it goes on with a descriptor that it has closed.
-/

namespace NvVaapi.Direct

variable {ρ : Type}

/-- A system call that returns a new descriptor. -/
def acquireFd (fd : Fd) : Prog (Ledger Fd) ρ Unit := do
  Prog.wait fun l => fd ∉ l.held
  Prog.update fun l => l.acquire fd

/-- `close` -/
def releaseFd (fd : Fd) : Prog (Ledger Fd) ρ Unit := Prog.update fun l => l.release fd

/-! ## Devices -/

/-- What a DRM device answers. -/
structure DrmDevice where
  /-- `DRM_IOCTL_VERSION`: the name of the driver. -/
  name : Option (List Char)
  /-- `DRM_IOCTL_GET_CAP` -/
  dumbBuffer : Bool
  deriving DecidableEq

def isNvidiaDrmFd (fd : Fd) (device : DrmDevice) : Bool :=
  if fd > 0 then
    match device.name with
    | none => false
    | some name => name.take 10 == "nvidia-drm".toList
  else false

def checkModesetParameterFromFd (fd : Fd) (device : DrmDevice) : Bool :=
  if fd > 0 then device.dumbBuffer else true

/-- A device that the driver can use. -/
def usable (node : Fd × DrmDevice) : Bool :=
  isNvidiaDrmFd node.1 node.2 && checkModesetParameterFromFd node.1 node.2

theorem skip_eq (fd : Fd) (device : DrmDevice) :
    (!isNvidiaDrmFd fd device || !checkModesetParameterFromFd fd device) =
      !usable (fd, device) := by
  simp [usable]

/-! ## The loop -/

inductive SearchResult where
  | found (fd : Fd)
  | failed
  /-- The loop ends with a descriptor that is closed. -/
  | lost
  deriving DecidableEq

/-- The turns of the loop for the nodes that are left. -/
def searchTurns (nvdGpu : Int) :
    List (Option (Fd × DrmDevice)) → (nvIdx : Int) → Prog (Ledger Fd) ρ SearchResult
  | [], _ => return .lost
  | none :: _, _ => return .failed
  | some (fd, device) :: nodes, nvIdx => do
    acquireFd fd
    if !isNvidiaDrmFd fd device || !checkModesetParameterFromFd fd device then
      releaseFd fd
      searchTurns nvdGpu nodes nvIdx
    else if nvIdx ≠ nvdGpu then
      releaseFd fd
      searchTurns nvdGpu nodes (nvIdx + 1)
    else return .found fd

/-- `nodes i` is what opening `/dev/dri/renderD<i>` gives. -/
def searchNodes (nodes : Nat → Option (Fd × DrmDevice)) (nvdGpu : Int) :
    Prog (Ledger Fd) ρ SearchResult :=
  searchTurns nvdGpu ((List.range' 128 16).map nodes) 0

/-! ## What it finds -/

/-- The nodes before the first one that is missing. -/
def present : List (Option (Fd × DrmDevice)) → List (Fd × DrmDevice)
  | some node :: nodes => node :: present nodes
  | _ => []

/-- The device with the number `nvdGpu` among those that can be used. -/
def gpuAt (nvdGpu : Int) (nodes : List (Option (Fd × DrmDevice))) : Option (Fd × DrmDevice) :=
  if 0 ≤ nvdGpu then ((present nodes).filter usable)[nvdGpu.toNat]? else none

/-- What the search comes to. -/
def searchResult (nvdGpu : Int) (nodes : List (Option (Fd × DrmDevice))) : SearchResult :=
  match gpuAt nvdGpu nodes with
  | some (fd, _) => .found fd
  | none => if none ∈ nodes then .failed else .lost

/-- The descriptor that a search leaves open. -/
def SearchResult.left : SearchResult → Multiset Fd
  | .found fd => {fd}
  | _ => 0

section Turns

variable {nvdGpu : Int} {node : Fd × DrmDevice} {nodes : List (Option (Fd × DrmDevice))}

theorem gpuAt_of_not_usable (h : ¬usable node) :
    gpuAt nvdGpu (some node :: nodes) = gpuAt nvdGpu nodes := by
  unfold gpuAt
  rw [present, List.filter_cons_of_neg h]

theorem gpuAt_of_usable (h : usable node) :
    gpuAt nvdGpu (some node :: nodes) =
      if nvdGpu = 0 then some node else gpuAt (nvdGpu - 1) nodes := by
  unfold gpuAt
  rw [present, List.filter_cons_of_pos h]
  rcases lt_trichotomy nvdGpu 0 with hneg | rfl | hpos
  · rw [if_neg (by omega), if_neg (by omega), if_neg (by omega)]
  · rfl
  · have hnum : nvdGpu.toNat = (nvdGpu - 1).toNat + 1 := by omega
    rw [if_pos (by omega), if_neg (by omega), if_pos (by omega), hnum, List.getElem?_cons_succ]

theorem searchResult_of_not_usable (h : ¬usable node) :
    searchResult nvdGpu (some node :: nodes) = searchResult nvdGpu nodes := by
  unfold searchResult
  rw [gpuAt_of_not_usable h]
  simp

theorem searchResult_of_usable (h : usable node) : searchResult nvdGpu (some node :: nodes) =
    if nvdGpu = 0 then .found node.1 else searchResult (nvdGpu - 1) nodes := by
  unfold searchResult
  rw [gpuAt_of_usable h]
  by_cases hz : nvdGpu = 0
  · rw [if_pos hz, if_pos hz]
  · rw [if_neg hz, if_neg hz]
    simp

theorem acquire_release {l : Ledger Fd} (fd : Fd) : (l.acquire fd).release fd = l := by
  rw [Ledger.release_of_mem (Multiset.mem_cons_self _ _)]
  simp [Ledger.acquire]

/-- The turns that are left look for the device with the number that is left. -/
theorem searchTurns_ensures (nvIdx : Int) (l : Ledger Fd) :
    (searchTurns nvdGpu nodes nvIdx : Prog (Ledger Fd) ρ SearchResult).Ensures l
      (fun r l' => r = searchResult (nvdGpu - nvIdx) nodes ∧ l' = l.hold r.left)
      fun _ _ => False := by
  induction nodes generalizing nvIdx with
  | nil => simp [searchTurns, searchResult, gpuAt, present, SearchResult.left]
  | cons node? nodes ih =>
    rcases node? with _ | ⟨fd, device⟩
    · simp [searchTurns, searchResult, gpuAt, present, SearchResult.left]
    · simp only [searchTurns, skip_eq, acquireFd, releaseFd, Prog.ensures_bind, Prog.ensures_wait,
        Prog.ensures_update, Prog.ensures_ite, Prog.ensures_pure, acquire_release]
      intro _
      refine ⟨fun hu => ?_, fun hu => ⟨fun hne => ?_, fun heq => ?_⟩⟩
      · rw [searchResult_of_not_usable (by simpa using hu)]
        exact ih nvIdx
      · rw [searchResult_of_usable (by simpa using hu), if_neg (by omega), Int.sub_sub]
        exact ih (nvIdx + 1)
      · rw [searchResult_of_usable (by simpa using hu), if_pos (by omega)]
        exact ⟨rfl, rfl⟩

end Turns

/-- The loop leaves the device with the number `nvdGpu` open, among the devices that can be used,
and closes every other one. If there is no such device it leaves none open: it fails if a node is
missing, and is lost if not. -/
theorem searchNodes_ensures (nodes : Nat → Option (Fd × DrmDevice)) (nvdGpu : Int) (l : Ledger Fd) :
    (searchNodes nodes nvdGpu : Prog (Ledger Fd) ρ SearchResult).Ensures l
      (fun r l' => r = searchResult nvdGpu ((List.range' 128 16).map nodes) ∧ l' = l.hold r.left)
      fun _ _ => False := by
  have hturns := @searchTurns_ensures ρ nvdGpu ((List.range' 128 16).map nodes) 0 l
  rwa [Int.sub_zero] at hturns

example : searchResult 0 [some (3, ⟨some "i915".toList, true⟩),
    some (4, ⟨some "nvidia-drm".toList, true⟩)] =
    .found 4 := by decide

end NvVaapi.Direct
