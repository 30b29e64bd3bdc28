import NvVaapi.Objects.Create
import NvVaapi.Objects.Steps

/-!
# What the driver says about configurations

* `nvQueryConfigEntrypoints`: the entrypoints that are listed for a profile.
* `nvGetConfigAttributes`: the attributes of a profile and an entrypoint.
* `nvQueryConfigAttributes`: those of a configuration.
* `Usable`: the attributes can be asked for, a configuration can be created, and both say the same.
* `usable_iff`: of the entrypoints that are listed, that is so for `VAEntrypointVLD` only.

`caps` is what `cuvidGetDecoderCaps` says about the sizes that the device decodes with a codec.
-/

namespace NvVaapi.Objects

def vaAttribNotSupported : UInt32 := 0x80000000

/-! The `VA_ENC_PACKED_HEADER` values. -/

def packedHeaderSequence : UInt32 := 0x1
def packedHeaderPicture : UInt32 := 0x2
def packedHeaderSlice : UInt32 := 0x4

def nvQueryConfigEntrypoints (info : DriverInfo) (profile : VAProfile) : List VAEntrypoint :=
  (if !info.disableDecoder ∧ (vaToCuCodec profile).isSome then [.vld] else []) ++
    if info.nvencAvailable ∧ profile.isEncodeProfile then [.encSlice, .encSliceLP] else []

/-- The switch over the profile, with its cases that fall through, and the masks behind it. It
stands in `nvGetConfigAttributes` and again in `nvQueryConfigAttributes`. -/
def rtFormats (info : DriverInfo) (profile : VAProfile) : UInt32 :=
  let value := match profile with
    | .hevcMain12 | .vp9Profile2 => rtFormatYuv420 ||| rtFormatYuv420_12 ||| rtFormatYuv420_10
    | .hevcMain10 | .av1Profile0 => rtFormatYuv420 ||| rtFormatYuv420_10
    | .hevcMain444_12 | .vp9Profile3 =>
      rtFormatYuv420 ||| (rtFormatYuv444_12 ||| rtFormatYuv420_12) |||
        (rtFormatYuv444_10 ||| rtFormatYuv420_10) ||| rtFormatYuv444
    | .hevcMain444_10 | .av1Profile1 =>
      rtFormatYuv420 ||| (rtFormatYuv444_10 ||| rtFormatYuv420_10) ||| rtFormatYuv444
    | .hevcMain444 | .vp9Profile1 => rtFormatYuv420 ||| rtFormatYuv444
    | _ => rtFormatYuv420
  let value :=
    if info.supports16BitSurface then value
    else value &&& ~~~(rtFormatYuv420_10 ||| rtFormatYuv420_12 ||| rtFormatYuv444_10 |||
      rtFormatYuv444_12)
  if info.supports444Surface then value
  else value &&& ~~~(rtFormatYuv444 ||| rtFormatYuv444_10 ||| rtFormatYuv444_12)

/-- The value of an attribute of an encoder. -/
def encodeAttrib : VAConfigAttribType → UInt32
  | .rtFormat => rtFormatYuv420
  | .rateControl => rcCbr ||| rcVbr ||| rcCqp
  | .encMaxRefFrames => 4
  | .maxPictureWidth | .maxPictureHeight => 8192
  | .encPackedHeaders => packedHeaderSequence ||| packedHeaderPicture ||| packedHeaderSlice
  | .other => vaAttribNotSupported

section Attributes

variable (info : DriverInfo) (caps : Codec → Option (UInt32 × UInt32))

/-- A size that the device knows, or else 8192. -/
def maxSize (size : Option UInt32) : UInt32 :=
  match size with
  | some n => if n = 0 then 8192 else n
  | none => 8192

/-- The value of an attribute of a decoder. -/
def decodeAttrib (profile : VAProfile) (cudaCodec : Codec) : VAConfigAttribType → UInt32
  | .rtFormat => rtFormats info profile
  | .maxPictureWidth => maxSize ((caps cudaCodec).map Prod.fst)
  | .maxPictureHeight => maxSize ((caps cudaCodec).map Prod.snd)
  | _ => vaAttribNotSupported

def nvGetConfigAttributes (profile : VAProfile) (entrypoint : VAEntrypoint)
    (attribs : List VAConfigAttrib) : Except VAStatus (List VAConfigAttrib) :=
  if entrypoint ≠ .vld then .error .errorUnsupportedEntrypoint
  else if info.disableDecoder ∧ entrypoint = .vld then .error .errorUnsupportedEntrypoint
  else if (entrypoint = .encSlice ∨ entrypoint = .encSliceLP) ∧ info.nvencAvailable then
    if !profile.isEncodeProfile then .error .errorUnsupportedProfile
    else .ok (attribs.map fun a => { a with value := encodeAttrib a.type })
  else
    match vaToCuCodec profile with
    | none => .error .errorUnsupportedProfile
    | some cudaCodec =>
      .ok (attribs.map fun a => { a with value := decodeAttrib info caps profile cudaCodec a.type })

end Attributes

/-- What `nvQueryConfigAttributes` writes. -/
structure ConfigAttributes where
  profile : VAProfile
  entrypoint : VAEntrypoint
  /-- `none` where the client passed NULL. -/
  attrib_list : Option (List VAConfigAttrib)
  num_attribs : Nat

/-- `wantsList` and `wantsCount` are whether `attrib_list` and `num_attribs` are not NULL. -/
def nvQueryConfigAttributes (w : World) (config : VAGenericID) (wantsList wantsCount : Bool) :
    Except VAStatus ConfigAttributes :=
  match w.getConfig config with
  | none => .error .errorInvalidConfig
  | some (_, cfg) =>
    if !wantsCount then .error .errorInvalidParameter
    else
      let attribs : List VAConfigAttrib :=
        if cfg.isEncode then [⟨.rtFormat, rtFormatYuv420⟩, ⟨.rateControl, cfg.encodeRCMode⟩]
        else [⟨.rtFormat, rtFormats w.info cfg.profile⟩]
      .ok ⟨cfg.profile, cfg.entrypoint, if wantsList then some attribs else none, attribs.length⟩

/-! ## The property -/

/-- The `RTFormat` of a list of attributes. -/
def reportedRTFormat (attribs : List VAConfigAttrib) : Option UInt32 :=
  (attribs.find? fun a => a.type = .rtFormat).map VAConfigAttrib.value

/-- The id that `nvCreateConfig` returns finds the new configuration as long as ids are not
reused. -/
structure Usable (w : World) (caps : Codec → Option (UInt32 × UInt32)) (profile : VAProfile)
    (entrypoint : VAEntrypoint) : Prop where
  attributes : ∀ attribs, ∃ got,
    nvGetConfigAttributes w.info caps profile entrypoint attribs = .ok got
  created : ∀ attribs addr, w.Fresh addr → ∃ w' cfg,
    (nvCreateConfig profile entrypoint attribs addr).eval w = some (.success, w') ∧
      (w.FreshId → w.nextObjId + 1 ≠ vaInvalidId →
        w'.getConfig (w.nextObjId + 1) = some (addr, cfg))
  agree : ∀ asked got, nvGetConfigAttributes w.info caps profile entrypoint asked = .ok got →
    ∀ attribs addr w', w.Fresh addr →
    (nvCreateConfig profile entrypoint attribs addr).eval w = some (.success, w') →
    ∀ config cfg, w'.getConfig config = some (addr, cfg) → ∃ queried list,
      nvQueryConfigAttributes w' config true true = .ok queried ∧ queried.attrib_list = some list ∧
      ∀ a ∈ got, a.type = .rtFormat → reportedRTFormat list = some a.value

/-! ## What is created -/

section Created

variable {cfg : NVConfig} {rtFormat : Option UInt32}

theorem use16Bit_kept : (cfg.use16Bit rtFormat).profile = cfg.profile ∧
    (cfg.use16Bit rtFormat).isEncode = cfg.isEncode := by
  unfold NVConfig.use16Bit
  split
  · exact ⟨rfl, rfl⟩
  · exact ⟨rfl, rfl⟩
  · split <;> split_ifs <;> exact ⟨rfl, rfl⟩
  · split <;> split_ifs <;> exact ⟨rfl, rfl⟩
  · exact ⟨rfl, rfl⟩

theorem use444_kept : cfg.use444.profile = cfg.profile ∧ cfg.use444.isEncode = cfg.isEncode := by
  unfold NVConfig.use444
  split <;> exact ⟨rfl, rfl⟩

theorem use444_16Bit_kept : (cfg.use444_16Bit rtFormat).profile = cfg.profile ∧
    (cfg.use444_16Bit rtFormat).isEncode = cfg.isEncode := by
  unfold NVConfig.use444_16Bit
  split
  · exact ⟨rfl, rfl⟩
  · exact ⟨rfl, rfl⟩
  · split <;> split_ifs <;> exact ⟨rfl, rfl⟩
  · split <;> split_ifs <;> exact ⟨rfl, rfl⟩
  · exact ⟨rfl, rfl⟩

/-- The formats are chosen for the profile, which stays. -/
theorem decodeConfig_kept (info : DriverInfo) (profile : VAProfile) (entrypoint : VAEntrypoint)
    (cudaCodec : Codec) (attribs : List VAConfigAttrib) :
    (NVConfig.decodeConfig info profile entrypoint cudaCodec attribs).profile = profile ∧
      (NVConfig.decodeConfig info profile entrypoint cudaCodec attribs).isEncode = false := by
  unfold NVConfig.decodeConfig
  dsimp only
  split_ifs <;> simp only [use16Bit_kept, use444_kept, use444_16Bit_kept, and_self]

end Created

section Listed

variable {info : DriverInfo} {profile : VAProfile} {entrypoint : VAEntrypoint}

theorem mem_entrypoints : entrypoint ∈ nvQueryConfigEntrypoints info profile ↔
    entrypoint = .vld ∧ info.disableDecoder = false ∧ (vaToCuCodec profile).isSome ∨
      (entrypoint = .encSlice ∨ entrypoint = .encSliceLP) ∧ info.nvencAvailable ∧
        profile.isEncodeProfile := by
  unfold nvQueryConfigEntrypoints
  rw [List.mem_append]
  refine or_congr ?_ ?_
  · split_ifs with h
    · simpa using fun _ => h
    · simp_all
  · split_ifs with h
    · simpa using fun _ => h
    · simp_all

/-- What `nvCreateConfig` creates for a profile that can be decoded. -/
theorem nvCreateConfig_decode {w : World} {addr : Addr}
    (h : .vld ∈ nvQueryConfigEntrypoints w.info profile) (ha : w.Fresh addr) :
    ∃ cudaCodec, ∀ attribs, (nvCreateConfig profile .vld attribs addr).eval w =
      some (.success,
        w.allocate addr (.config (.decodeConfig w.info profile .vld cudaCodec attribs))) := by
  obtain ⟨-, hd, hc⟩ | ⟨he | he, -⟩ := mem_entrypoints.mp h
  · obtain ⟨cudaCodec, hc⟩ := Option.isSome_iff_exists.mp hc
    refine ⟨cudaCodec, fun attribs => ?_⟩
    simp [Prog.eval, nvCreateConfig, bind, pure, Prog.read, allocateObject, Prog.wait,
      Prog.update, hc, hd, ha, World.allocate]
  · cases he
  · cases he

/-- `nvCreateConfig` takes every entrypoint that is listed. -/
theorem nvCreateConfig_listed {w : World} (h : entrypoint ∈ nvQueryConfigEntrypoints w.info profile)
    (attribs : List VAConfigAttrib) {addr : Addr} (ha : w.Fresh addr) : ∃ cfg : NVConfig,
    (nvCreateConfig profile entrypoint attribs addr).eval w =
        some (.success, w.allocate addr (.config cfg)) ∧
      cfg.profile = profile ∧ (cfg.isEncode = false ↔ entrypoint = .vld) := by
  obtain ⟨rfl, -, -⟩ | ⟨he, hn, hp⟩ := mem_entrypoints.mp h
  · obtain ⟨cudaCodec, hcreate⟩ := nvCreateConfig_decode h ha
    obtain ⟨hprofile, henc⟩ := decodeConfig_kept w.info profile .vld cudaCodec attribs
    exact ⟨_, hcreate attribs, hprofile, by simp [henc]⟩
  · refine ⟨.encodeConfig profile entrypoint attribs, ?_, rfl, ?_⟩
    · simp [Prog.eval, nvCreateConfig, bind, pure, Prog.read, allocateObject, Prog.wait,
        Prog.update, he, hn, hp, ha, World.allocate]
    · obtain rfl | rfl := he <;> simp [NVConfig.encodeConfig]

end Listed

/-! ## Asking and creating -/

section Agree

variable {w : World} {caps : Codec → Option (UInt32 × UInt32)} {profile : VAProfile}

/-- The object that was allocated is the only one at its address. -/
theorem getConfig_allocate {addr : Addr} {cfg cfg' : NVConfig} (ha : w.Fresh addr)
    {config : VAGenericID}
    (h : (w.allocate addr (.config cfg)).getConfig config = some (addr, cfg')) : cfg' = cfg := by
  obtain ⟨o, ho, -, -, hobj⟩ := World.getConfig_mem h
  simp only [World.allocate_objects, List.mem_append, List.mem_singleton] at ho
  obtain ho | rfl := ho
  · refine absurd (List.mem_flatMap.mpr ⟨o, ho, ?_⟩) ha.2
    simp [hobj]
  · simpa using hobj.symm

theorem getConfig_allocate_new {addr : Addr} {cfg : NVConfig} (hid : w.FreshId)
    (hv : w.nextObjId + 1 ≠ vaInvalidId) :
    (w.allocate addr (.config cfg)).getConfig (w.nextObjId + 1) = some (addr, cfg) := by
  have hold : (w.objects.find? fun o => o.id = w.nextObjId + 1 ∧ o.type = .config) = none := by
    rw [List.find?_eq_none]
    exact fun o ho => by simp [hid o ho]
  have hfind : findObject (w.allocate addr (.config cfg)).objects .config (w.nextObjId + 1) =
      some ⟨.config, w.nextObjId + 1, addr, .config cfg⟩ := by
    rw [findObject, if_neg hv, World.allocate_objects, List.find?_append, hold]
    simp [Payload.type]
  rw [World.getConfig, World.getObjectPtr, hfind]
  rfl

theorem nvGetConfigAttributes_vld (hd : w.info.disableDecoder = false)
    (attribs : List VAConfigAttrib) :
    nvGetConfigAttributes w.info caps profile .vld attribs =
      match vaToCuCodec profile with
      | none => .error .errorUnsupportedProfile
      | some cudaCodec =>
        .ok (attribs.map fun a =>
          { a with value := decodeAttrib w.info caps profile cudaCodec a.type }) := by
  simp [nvGetConfigAttributes, hd]

/-- The configurations of the decoder. -/
theorem usable_vld (h : .vld ∈ nvQueryConfigEntrypoints w.info profile) :
    Usable w caps profile .vld := by
  have hlist := mem_entrypoints.mp h
  simp only [true_and, reduceCtorEq, or_self, false_and, or_false] at hlist
  obtain ⟨hd, hc⟩ := hlist
  obtain ⟨cudaCodec, hc⟩ := Option.isSome_iff_exists.mp hc
  have hget (attribs : List VAConfigAttrib) :
      nvGetConfigAttributes w.info caps profile .vld attribs =
      .ok (attribs.map fun a =>
        { a with value := decodeAttrib w.info caps profile cudaCodec a.type }) := by
    rw [nvGetConfigAttributes_vld hd, hc]
  refine ⟨fun attribs => ⟨_, hget attribs⟩, fun attribs addr ha => ?_, ?_⟩
  · obtain ⟨cfg, hcreate, -, -⟩ := nvCreateConfig_listed h attribs ha
    exact ⟨_, cfg, hcreate, getConfig_allocate_new⟩
  · intro asked got hgot attribs addr w' ha hcreate config cfg' hcfg
    obtain ⟨cfg, hcreate', hprofile, hvld⟩ := nvCreateConfig_listed h attribs ha
    obtain rfl : w.allocate addr (.config cfg) = w' := by
      simpa using hcreate'.symm.trans hcreate
    obtain rfl := getConfig_allocate ha hcfg
    have henc := hvld.mpr rfl
    refine ⟨⟨cfg'.profile, cfg'.entrypoint, some [⟨.rtFormat, rtFormats w.info profile⟩], 1⟩, _,
      ?_, rfl, fun a hmem ht => ?_⟩
    · simp [nvQueryConfigAttributes, hcfg, henc, hprofile]
    · obtain rfl := Except.ok.inj ((hget asked).symm.trans hgot)
      obtain ⟨b, -, rfl⟩ := List.mem_map.mp hmem
      have hb : b.type = .rtFormat := ht
      simp [reportedRTFormat, hb, decodeAttrib]

/-- Of the listed entrypoints those for encoding are refused by `nvGetConfigAttributes`. -/
theorem usable_iff (w : World) (caps : Codec → Option (UInt32 × UInt32)) {profile : VAProfile}
    {entrypoint : VAEntrypoint} (h : entrypoint ∈ nvQueryConfigEntrypoints w.info profile) :
    Usable w caps profile entrypoint ↔ entrypoint = .vld := by
  constructor
  · intro hu
    obtain ⟨got, hgot⟩ := hu.attributes []
    by_contra hne
    simp [nvGetConfigAttributes, hne] at hgot
  · rintro rfl
    exact usable_vld h

end Agree

/-- HEVC Main 10 on a device that can do everything. -/
theorem usable_iff_hevcMain10 :
    Usable (.init ⟨true, true, true, false, false⟩ 1 []) (fun _ =>
      some (8192, 8192)) .hevcMain10 .vld :=
  (usable_iff _ _ (by decide)).mpr rfl

/-- `VAEntrypointEncSlice` is listed for H.264, and its attributes cannot be asked for. -/
theorem encSlice_not_usable : ∃ w : World, .encSlice ∈ nvQueryConfigEntrypoints w.info .h264High ∧
    ¬Usable w (fun _ => none) .h264High .encSlice := by
  refine ⟨.init ⟨true, true, true, false, false⟩ 1 [], by decide, fun hu => ?_⟩
  obtain ⟨got, hgot⟩ := hu.attributes []
  cases hgot

end NvVaapi.Objects
