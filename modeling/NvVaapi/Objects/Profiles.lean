import NvVaapi.Objects.Attributes
import NvVaapi.Lib.Compact
import Mathlib.Data.List.Flatten

/-!
# The profiles that are advertised

* `checks`: what `nvQueryConfigProfiles2` asks the device, in order, with the profiles that it lists
  for it.
* `nvQueryConfigProfiles2`: the list, with the walk that removes what no codec decodes.
* `profilesAtInit`: the profiles of a driver, as `__vaDriverInit_1_0` leaves them.
* `Supported`: the device decodes a profile, with the codec that the driver takes for it.
* `profiles_advertised`: the list has those and the profiles of the encoder, each one once and all
  of them usable.
-/

namespace NvVaapi.Objects

/-- The codecs that the device is asked about. -/
inductive CudaVideoCodec where
  | mpeg2
  | mpeg4
  | vc1
  | h264
  | jpeg
  | h264Svc
  | h264Mvc
  | hevc
  | vp8
  | vp9
  | av1
  deriving DecidableEq

def cudaVideoCodec : Codec → CudaVideoCodec
  | .h264 => .h264
  | .hevc => .hevc
  | .mpeg2 => .mpeg2
  | .vc1 => .vc1
  | .vp8 => .vp8
  | .vp9 => .vp9
  | .av1 => .av1
  | .jpeg => .jpeg

/-- `bIsSupported`, if `cuvidGetDecoderCaps` succeeds. -/
abbrev DecoderCaps := CudaVideoCodec → (bitDepth : Nat) → ChromaFormat → Option UInt8

def doesGPUSupportCodec (caps : DecoderCaps) (codec : CudaVideoCodec) (bitDepth : Nat)
    (chromaFormat : ChromaFormat) : Bool :=
  match caps codec bitDepth chromaFormat with
  | none => false
  | some bIsSupported => bIsSupported == 1

/-! ## The list -/

/-- A question to the device, and the profiles that are listed if it supports the codec. -/
structure ProfileCheck where
  /-- It is asked if there are 16 bit surfaces. -/
  needs16Bit : Bool
  /-- It is asked if there are 4:4:4 surfaces. -/
  needs444 : Bool
  codec : CudaVideoCodec
  bitDepth : Nat
  chromaFormat : ChromaFormat
  profiles : List VAProfile

/-- The profiles of MPEG-4, and those of H.264 with layers or views, are profiles that no codec
decodes. -/
def checks : List ProfileCheck := [
  ⟨false, false, .mpeg2, 8, .yuv420, [.mpeg2Simple, .mpeg2Main]⟩,
  ⟨false, false, .mpeg4, 8, .yuv420, [.other, .other, .other]⟩,
  ⟨false, false, .vc1, 8, .yuv420, [.vc1Simple, .vc1Main, .vc1Advanced]⟩,
  ⟨false, false, .h264, 8, .yuv420, [.h264Main, .h264High, .h264ConstrainedBaseline]⟩,
  ⟨false, false, .jpeg, 8, .yuv420, [.jpegBaseline]⟩,
  ⟨false, false, .h264Svc, 8, .yuv420, [.other]⟩,
  ⟨false, false, .h264Mvc, 8, .yuv420, [.other]⟩,
  ⟨false, false, .hevc, 8, .yuv420, [.hevcMain]⟩,
  ⟨false, false, .vp8, 8, .yuv420, [.vp8Version0_3]⟩,
  ⟨false, false, .vp9, 8, .yuv420, [.vp9Profile0]⟩,
  ⟨false, false, .av1, 8, .yuv420, [.av1Profile0]⟩,
  ⟨true, false, .hevc, 10, .yuv420, [.hevcMain10]⟩,
  ⟨true, false, .hevc, 12, .yuv420, [.hevcMain12]⟩,
  ⟨true, false, .vp9, 10, .yuv420, [.vp9Profile2]⟩,
  ⟨false, true, .hevc, 8, .yuv444, [.hevcMain444]⟩,
  ⟨false, true, .vp9, 8, .yuv444, [.vp9Profile1]⟩,
  ⟨false, true, .av1, 8, .yuv444, [.av1Profile1]⟩,
  ⟨true, true, .hevc, 10, .yuv444, [.hevcMain444_10]⟩,
  ⟨true, true, .hevc, 12, .yuv444, [.hevcMain444_12]⟩,
  ⟨true, true, .vp9, 10, .yuv444, [.vp9Profile3]⟩]

/-- The profiles that a check adds to the list. -/
def ProfileCheck.listed (check : ProfileCheck) (info : DriverInfo) (caps : DecoderCaps) :
    List VAProfile :=
  if (!check.needs16Bit || info.supports16BitSurface) &&
      (!check.needs444 || info.supports444Surface) &&
      doesGPUSupportCodec caps check.codec check.bitDepth check.chromaFormat then
    check.profiles
  else []

def profileList (info : DriverInfo) (caps : DecoderCaps) : List VAProfile :=
  checks.flatMap (·.listed info caps)

/-- An array behind writes at its indices in order. -/
def written (list : List VAProfile) (memory : Nat → VAProfile) (i : Nat) : VAProfile :=
  (list[i]?).getD (memory i)

/-- An array of profiles and how many there are: `drv->profiles` and `drv->profileCount`. -/
structure Profiles where
  profiles : Nat → VAProfile
  profileCount : Nat

def Profiles.list (d : Profiles) : List VAProfile := Compact.items d.profiles d.profileCount

/-- What the query leaves in `memory`. -/
def nvQueryConfigProfiles2 (info : DriverInfo) (caps : DecoderCaps)
    (memory : Nat → VAProfile) : Profiles :=
  let list := profileList info caps
  let (profiles, profileCount) :=
    Compact.compact (fun profile => (vaToCuCodec profile).isSome) (written list memory) list.length
  ⟨profiles, profileCount⟩

/-! ## The profiles of a driver -/

def maxProfiles : Nat := 32

def appendProfileIfMissing (d : Profiles) (profile : VAProfile) : Profiles :=
  if profile ∈ d.list then d
  else if d.profileCount ≥ maxProfiles then d
  else ⟨Function.update d.profiles d.profileCount profile, d.profileCount + 1⟩

/-- The profiles of the decoder. Without `cuCtxPushCurrent` the query does nothing; its status is
also an error without `cuCtxPopCurrent`. -/
def decodeProfiles (info : DriverInfo) (caps : DecoderCaps) (pushed popped : Bool)
    (memory : Nat → VAProfile) :
    Profiles :=
  let d := if pushed then nvQueryConfigProfiles2 info caps memory else ⟨memory, 0⟩
  if info.disableDecoder || !(pushed && popped) then { d with profileCount := 0 } else d

/-- The profiles that the init adds for the encoder. -/
def encodeProfiles : List VAProfile :=
  [.h264ConstrainedBaseline, .h264Main, .h264High, .hevcMain, .hevcMain10]

/-- What the init does to the profiles. -/
def profilesAtInit (info : DriverInfo) (caps : DecoderCaps) (pushed popped : Bool)
    (memory : Nat → VAProfile) :
    Profiles :=
  let d := decodeProfiles info caps pushed popped memory
  if info.nvencAvailable then encodeProfiles.foldl appendProfileIfMissing d else d

/-- The list that a client gets. -/
def nvQueryConfigProfiles (d : Profiles) : List VAProfile := d.list

/-! ## What the query lists -/

def VAProfile.bitDepth : VAProfile → Nat
  | .hevcMain10 | .hevcMain444_10 | .vp9Profile2 | .vp9Profile3 => 10
  | .hevcMain12 | .hevcMain444_12 => 12
  | _ => 8

def VAProfile.chromaFormat : VAProfile → ChromaFormat
  | .hevcMain444 | .hevcMain444_10 | .hevcMain444_12 | .vp9Profile1 | .vp9Profile3 | .av1Profile1 =>
    .yuv444
  | _ => .yuv420

/-- The device decodes the profile with the codec that the driver takes for it, and there are
surfaces for it. -/
def Supported (info : DriverInfo) (caps : DecoderCaps) (profile : VAProfile) : Prop :=
  ∃ codec, vaToCuCodec profile = some codec ∧
    doesGPUSupportCodec caps (cudaVideoCodec codec) profile.bitDepth profile.chromaFormat ∧
    (profile.bitDepth ≠ 8 → info.supports16BitSurface) ∧
    (profile.chromaFormat = .yuv444 → info.supports444Surface)

section Query

variable {info : DriverInfo} {caps : DecoderCaps} {profile : VAProfile}

/-- A check that lists a profile that can be decoded asks for its codec. -/
theorem check_asks : ∀ check ∈ checks, ∀ profile ∈ check.profiles, ∀ codec ∈ vaToCuCodec profile,
    check.codec = cudaVideoCodec codec ∧ check.bitDepth = profile.bitDepth ∧
      check.chromaFormat = profile.chromaFormat ∧ (check.needs16Bit ↔ profile.bitDepth ≠ 8) ∧
      (check.needs444 ↔ profile.chromaFormat = .yuv444) := by
  decide

theorem exists_check (profile : VAProfile) : ∃ check ∈ checks, profile ∈ check.profiles := by
  cases profile <;> decide

theorem mem_listed {check : ProfileCheck} : profile ∈ check.listed info caps ↔
    profile ∈ check.profiles ∧ (check.needs16Bit → info.supports16BitSurface) ∧
      (check.needs444 → info.supports444Surface) ∧
      doesGPUSupportCodec caps check.codec check.bitDepth check.chromaFormat := by
  unfold ProfileCheck.listed
  cases check.needs16Bit <;> cases check.needs444 <;> simp <;> tauto

/-- Of the profiles that can be decoded, those are listed that the device supports. -/
theorem mem_profileList {codec : Codec} (hd : vaToCuCodec profile = some codec) :
    profile ∈ profileList info caps ↔ Supported info caps profile := by
  unfold profileList Supported
  rw [List.mem_flatMap]
  constructor
  · rintro ⟨check, hc, hp⟩
    obtain ⟨hprofile, h16, h444, hsupported⟩ := mem_listed.mp hp
    obtain ⟨hcodec, hdepth, hchroma, hneeds16, hneeds444⟩ :=
      check_asks check hc profile hprofile codec hd
    rw [hcodec, hdepth, hchroma] at hsupported
    exact ⟨codec, hd, hsupported, fun h => h16 (hneeds16.mpr h), fun h => h444 (hneeds444.mpr h)⟩
  · rintro ⟨codec', hd', hsupported, h16, h444⟩
    obtain ⟨check, hc, hprofile⟩ := exists_check profile
    obtain ⟨hcodec, hdepth, hchroma, hneeds16, hneeds444⟩ :=
      check_asks check hc profile hprofile codec' hd'
    rw [← hcodec, ← hdepth, ← hchroma] at hsupported
    exact ⟨check, hc,
      mem_listed.mpr ⟨hprofile, fun h => h16 (hneeds16.mp h), fun h => h444 (hneeds444.mp h),
      hsupported⟩⟩

theorem profileList_sublist :
    (profileList info caps).Sublist (checks.flatMap ProfileCheck.profiles) := by
  refine List.Sublist.flatMap_right _ fun check _ => ?_
  unfold ProfileCheck.listed
  split
  · exact List.Sublist.refl _
  · exact List.nil_sublist _

theorem items_written (list : List VAProfile) (memory : Nat → VAProfile) :
    Compact.items (written list memory) list.length = list := by
  refine List.ext_getElem? fun i => ?_
  rw [Compact.items_getElem?]
  split
  · next h => simp [written, List.getElem?_eq_getElem h]
  · next h => rw [List.getElem?_eq_none (by omega)]

/-- The query leaves the profiles that can be decoded of those that it listed. -/
theorem query_list (memory : Nat → VAProfile) : (nvQueryConfigProfiles2 info caps memory).list =
    (profileList info caps).filter fun profile => (vaToCuCodec profile).isSome := by
  unfold nvQueryConfigProfiles2 Profiles.list
  dsimp only
  rw [Compact.items_compact, items_written]

theorem query_nodup (memory : Nat → VAProfile) :
    (nvQueryConfigProfiles2 info caps memory).list.Nodup ∧
    (nvQueryConfigProfiles2 info caps memory).list.length ≤ 22 := by
  rw [query_list]
  have hsub : ((profileList info caps).filter fun profile => (vaToCuCodec profile).isSome).Sublist
      ((checks.flatMap ProfileCheck.profiles).filter fun profile => (vaToCuCodec profile).isSome) :=
    profileList_sublist.filter _
  exact ⟨hsub.nodup (by decide), hsub.length_le.trans (by decide)⟩

theorem mem_query (memory : Nat → VAProfile) :
    profile ∈ (nvQueryConfigProfiles2 info caps memory).list ↔ Supported info caps profile := by
  rw [query_list, List.mem_filter]
  constructor
  · rintro ⟨hp, hd⟩
    obtain ⟨codec, hcodec⟩ := Option.isSome_iff_exists.mp hd
    exact (mem_profileList hcodec).mp hp
  · intro hs
    have ⟨codec, hcodec, _⟩ := hs
    exact ⟨(mem_profileList hcodec).mpr hs, Option.isSome_iff_exists.mpr ⟨codec, hcodec⟩⟩

end Query

/-! ## What is advertised -/

section Append

variable {d : Profiles} {profile : VAProfile}

theorem append_list (h : d.list.length < maxProfiles) :
    (appendProfileIfMissing d profile).list =
      if profile ∈ d.list then d.list else d.list ++ [profile] := by
  unfold appendProfileIfMissing
  rw [Profiles.list, Compact.length_items] at h
  split
  · rfl
  · rw [if_neg (by omega)]
    exact Compact.items_update

/-- As long as there is room, the profiles are added that are missing. -/
theorem foldl_append {profiles : List VAProfile} (h : d.list.length + profiles.length ≤ maxProfiles)
    (hn : d.list.Nodup) : (profiles.foldl appendProfileIfMissing d).list.Nodup ∧
      (profiles.foldl appendProfileIfMissing d).list.length ≤ d.list.length + profiles.length ∧
      ∀ p, p ∈ (profiles.foldl appendProfileIfMissing d).list ↔ p ∈ d.list ∨ p ∈ profiles := by
  induction profiles generalizing d with
  | nil => exact ⟨hn, le_refl _, by simp⟩
  | cons profile profiles ih =>
    rw [List.length_cons] at h ⊢
    have hlist := @append_list d profile (by omega)
    rw [List.foldl_cons]
    by_cases hin : profile ∈ d.list
    · rw [if_pos hin] at hlist
      rw [← hlist] at h hn hin ⊢
      obtain ⟨hnodup, hlength, hmem⟩ := ih (by omega) hn
      refine ⟨hnodup, by omega, fun p => ?_⟩
      rw [hmem, List.mem_cons]
      constructor
      · tauto
      · rintro (hp | rfl | hp)
        · exact .inl hp
        · exact .inl hin
        · exact .inr hp
    · rw [if_neg hin] at hlist
      have hadded : (appendProfileIfMissing d profile).list.length = d.list.length + 1 := by
        rw [hlist, List.length_append, List.length_singleton]
      have hnew : (appendProfileIfMissing d profile).list.Nodup := by
        rw [hlist, List.nodup_append]
        refine ⟨hn, List.nodup_singleton _, fun p hp q hq => ?_⟩
        rintro rfl
        exact hin (List.mem_singleton.mp hq ▸ hp)
      obtain ⟨hnodup, hlength, hmem⟩ := ih (by omega) hnew
      refine ⟨hnodup, by omega, fun p => ?_⟩
      rw [hmem, hlist, List.mem_append, List.mem_singleton, List.mem_cons, or_assoc]

end Append

theorem mem_encodeProfiles (profile : VAProfile) :
    profile ∈ encodeProfiles ↔ profile.isEncodeProfile := by
  cases profile <;> decide

/-- The array of the driver holds what the query writes before it removes anything. -/
theorem profileList_length (info : DriverInfo) (caps : DecoderCaps) :
    (profileList info caps).length ≤ maxProfiles :=
  profileList_sublist.length_le.trans (by decide)

section Init

variable {info : DriverInfo} {caps : DecoderCaps} {pushed popped : Bool} {memory : Nat → VAProfile}

theorem decodeProfiles_list : (decodeProfiles info caps pushed popped memory).list =
    if info.disableDecoder = false ∧ pushed ∧ popped then
      (nvQueryConfigProfiles2 info caps memory).list
    else [] := by
  unfold decodeProfiles
  cases info.disableDecoder <;> cases pushed <;> cases popped <;> rfl

theorem decodeProfiles_room : (decodeProfiles info caps pushed popped memory).list.Nodup ∧
    (decodeProfiles info caps pushed popped memory).list.length + encodeProfiles.length ≤
      maxProfiles := by
  rw [decodeProfiles_list]
  split
  · obtain ⟨hnodup, hlength⟩ := @query_nodup info caps memory
    exact ⟨hnodup, Nat.add_le_add_right (hlength.trans (by decide)) 5⟩
  · exact ⟨List.nodup_nil, by decide⟩

theorem mem_decodeProfiles {p : VAProfile} :
    p ∈ (decodeProfiles info caps pushed popped memory).list ↔
    (info.disableDecoder = false ∧ pushed ∧ popped) ∧ Supported info caps p := by
  rw [decodeProfiles_list]
  split
  · next h => rw [mem_query, and_iff_right h]
  · next h => exact iff_of_false List.not_mem_nil fun hs => h hs.1

theorem profilesAtInit_spec : (profilesAtInit info caps pushed popped memory).list.Nodup ∧
    (profilesAtInit info caps pushed popped memory).list.length ≤ maxProfiles ∧
    ∀ p, p ∈ (profilesAtInit info caps pushed popped memory).list ↔
      (info.disableDecoder = false ∧ pushed ∧ popped) ∧ Supported info caps p ∨
        info.nvencAvailable ∧ p.isEncodeProfile := by
  obtain ⟨hnodup, hroom⟩ := @decodeProfiles_room info caps pushed popped memory
  unfold profilesAtInit
  dsimp only
  split
  · next hnvenc =>
    obtain ⟨hnodup', hlength, hmem⟩ := foldl_append hroom hnodup
    refine ⟨hnodup', hlength.trans hroom, fun p => ?_⟩
    rw [hmem, mem_decodeProfiles, mem_encodeProfiles, and_iff_right hnvenc]
  · next hnvenc =>
    refine ⟨hnodup, by omega, fun p => ?_⟩
    rw [mem_decodeProfiles, or_iff_left fun h => hnvenc h.1]

end Init

/-- The driver advertises each profile once and none that it cannot use: those that the device
decodes, and those of the encoder. Its array has room for all that is written. Each profile has an
entrypoint that a configuration can be created with. -/
theorem profiles_advertised (info : DriverInfo) (caps : DecoderCaps) (pushed popped : Bool)
    (memory : Nat → VAProfile) :
    let list := nvQueryConfigProfiles (profilesAtInit info caps pushed popped memory)
    (profileList info caps).length ≤ maxProfiles ∧ list.Nodup ∧ list.length ≤ maxProfiles ∧
    (∀ p, p ∈ list ↔ (info.disableDecoder = false ∧ pushed ∧ popped) ∧ Supported info caps p ∨
      info.nvencAvailable ∧ p.isEncodeProfile) ∧
    ∀ p ∈ list, ∃ e ∈ nvQueryConfigEntrypoints info p,
      ∀ (w : World) (attribs : List VAConfigAttrib) (addr : Addr),
      w.info = info → w.Fresh addr → ∃ cfg : NVConfig, cfg.profile = p ∧
        (nvCreateConfig p e attribs addr).eval w = some (.success,
          w.allocate addr (.config cfg)) := by
  obtain ⟨hnodup, hlength, hmem⟩ := @profilesAtInit_spec info caps pushed popped memory
  refine ⟨profileList_length info caps, hnodup, hlength, hmem, fun p hp => ?_⟩
  have hentry : ∃ e, e ∈ nvQueryConfigEntrypoints info p := by
    rcases (hmem p).mp hp with ⟨⟨hdecoder, -⟩, codec, hcodec, -⟩ | ⟨hnvenc, hencode⟩
    · exact ⟨.vld, mem_entrypoints.mpr (.inl ⟨rfl, hdecoder, by rw [hcodec]; rfl⟩)⟩
    · exact ⟨.encSlice, mem_entrypoints.mpr (.inr ⟨.inl rfl, hnvenc, hencode⟩)⟩
  obtain ⟨e, he⟩ := hentry
  refine ⟨e, he, ?_⟩
  rintro w attribs addr rfl hfresh
  obtain ⟨cfg, hcreate, hprofile, -⟩ := nvCreateConfig_listed he attribs hfresh
  exact ⟨cfg, hprofile, hcreate⟩

end NvVaapi.Objects
