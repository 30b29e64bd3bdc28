import NvVaapi.Objects.Attributes
import Mathlib.Data.List.Pairwise

/-!
# The order of the attributes of a configuration

`nvCreateConfig` looks at the first attribute only, and takes its value when it is an `RTFormat`.

* `DistinctTypes`: no type comes twice, but for the types that are not told apart.
* `TakesDefault`: the `RTFormat` gives the format that the profile gets without one.
* `orderFree_iff`: every order of the attributes gives the same format exactly when there are fewer
  than two attributes, or the `RTFormat` takes the default.
-/

namespace NvVaapi.Objects

/-- No type comes twice. `other` stands for several types. -/
def DistinctTypes (attribs : List VAConfigAttrib) : Prop :=
  attribs.Pairwise fun a b => a.type = b.type → a.type = .other

/-- What the decoder is created with. -/
def NVConfig.formats (cfg : NVConfig) : SurfaceFormat × ChromaFormat × Nat :=
  (cfg.surfaceFormat, cfg.chromaFormat, cfg.bitDepth)

/-- Every order of the attributes creates a configuration with the same formats. -/
def OrderFree (w : World) (profile : VAProfile) (addr : Addr)
    (attribs : List VAConfigAttrib) : Prop :=
  ∃ f, ∀ attribs', attribs'.Perm attribs → ∃ cfg,
    (nvCreateConfig profile .vld attribs' addr).eval w = some (.success,
      w.allocate addr (.config cfg)) ∧
      cfg.formats = f

/-- The value of an `RTFormat` gives the formats that the profile gets without one. -/
def TakesDefault (info : DriverInfo) (profile : VAProfile) (value : UInt32) : Prop :=
  match profile with
  | .vp9Profile2 => info.supports16BitSurface → value = rtFormatYuv420_10
  | .av1Profile0 =>
    info.supports16BitSurface → value ≠ rtFormatYuv420_12 ∧ value ≠ rtFormatYuv420_10
  | .vp9Profile3 => info.supports16BitSurface → info.supports444Surface → value = rtFormatYuv444_10
  | .av1Profile1 => info.supports16BitSurface → info.supports444Surface →
      value ≠ rtFormatYuv444_12 ∧ value ≠ rtFormatYuv444_10
  | _ => True

/-! ## What is looked at -/

section First

open NVConfig

variable {attribs attribs' : List VAConfigAttrib} {a b : VAConfigAttrib}

theorem firstRTFormat_eq_some {value : UInt32} (h : firstRTFormat attribs = some value) :
    ∃ a ∈ attribs, a.type = .rtFormat ∧ a.value = value := by
  cases attribs with
  | nil => cases h
  | cons a attribs =>
    by_cases ht : a.type = .rtFormat
    · rw [firstRTFormat, if_pos ht] at h
      exact ⟨a, List.mem_cons_self, ht, Option.some_inj.mp h⟩
    · rw [firstRTFormat, if_neg ht] at h
      cases h

theorem DistinctTypes.perm (h : DistinctTypes attribs) (hp : attribs'.Perm attribs) :
    DistinctTypes attribs' :=
  (hp.pairwise_iff fun hab hba => hba ▸ hab hba.symm).mpr h

/-- Fewer than two attributes have one order. -/
theorem eq_of_perm_of_short :
    ∀ {attribs : List VAConfigAttrib}, attribs.length < 2 → attribs'.Perm attribs →
      attribs' = attribs
  | [], _, hp => hp.eq_nil
  | [_], _, hp => List.perm_singleton.mp hp

/-- A list with an `RTFormat` and another attribute can be ordered with either of them first. -/
theorem exists_orders (h : DistinctTypes attribs) (hl : 2 ≤ attribs.length) (ha : a ∈ attribs)
    (ht : a.type = .rtFormat) :
    (∃ attribs', attribs'.Perm attribs ∧ firstRTFormat attribs' = some a.value) ∧
      ∃ attribs', attribs'.Perm attribs ∧ firstRTFormat attribs' = none := by
  obtain ⟨s, t, rfl⟩ := List.append_of_mem ha
  have hp : (a :: (s ++ t)).Perm (s ++ a :: t) := List.perm_middle.symm
  cases hrest : s ++ t with
  | nil =>
    obtain ⟨rfl, rfl⟩ := List.append_eq_nil_iff.mp hrest
    exact absurd hl (Nat.lt_irrefl 1)
  | cons b l =>
    rw [hrest] at hp
    have hb : b.type ≠ .rtFormat := by
      intro hb
      have hab := List.rel_of_pairwise_cons (h.perm hp) List.mem_cons_self (ht.trans hb.symm)
      cases ht.symm.trans hab
    refine ⟨⟨_, hp, by simp [firstRTFormat, ht]⟩, ⟨b :: a :: l, ?_, by simp [firstRTFormat, hb]⟩⟩
    exact (List.Perm.swap a b l).trans hp

/-- The formats depend on the `RTFormat` that comes first. -/
theorem decodeConfig_congr (h : firstRTFormat attribs = firstRTFormat attribs') (info : DriverInfo)
    (profile : VAProfile) (entrypoint : VAEntrypoint) (cudaCodec : Codec) :
    decodeConfig info profile entrypoint cudaCodec attribs =
      decodeConfig info profile entrypoint cudaCodec attribs' := by
  simp only [decodeConfig, h]

end First

/-! ## The formats -/

section Formats

open NVConfig

variable (cfg : NVConfig) (value : UInt32)

/-- What the first switch makes of the `RTFormat`. -/
theorem use16Bit_some (hp : cfg.profile = .vp9Profile2 ∨ cfg.profile = .av1Profile0) :
    cfg.use16Bit (some value) =
      if value = rtFormatYuv420_12 then cfg.setFormat .p016 cfg.chromaFormat 12
      else if value = rtFormatYuv420_10 then cfg.setFormat .p016 cfg.chromaFormat 10 else cfg := by
  unfold use16Bit
  obtain hp | hp := hp <;> rw [hp]

/-- What the last switch makes of the `RTFormat`. -/
theorem use444_16Bit_some (hp : cfg.profile = .vp9Profile3 ∨ cfg.profile = .av1Profile1) :
    cfg.use444_16Bit (some value) =
      if value = rtFormatYuv444_12 then cfg.setFormat .yuv444_16Bit .yuv444 12
      else if value = rtFormatYuv444_10 then cfg.setFormat .yuv444_16Bit .yuv444 10
      else if value = rtFormatYuv444 then cfg.setFormat .yuv444 .yuv444 8 else cfg := by
  unfold use444_16Bit
  obtain hp | hp := hp <;> rw [hp]

variable {info : DriverInfo} {profile : VAProfile} (entrypoint : VAEntrypoint) (cudaCodec : Codec)
  (attribs : List VAConfigAttrib)

/-- What the switches start from. -/
def baseConfig (profile : VAProfile) (entrypoint : VAEntrypoint) (cudaCodec : Codec) : NVConfig :=
  ⟨profile, entrypoint, .nv12, .yuv420, 8, cudaCodec, false, 0⟩

/-- Two of the profiles are left to the first switch. -/
theorem decodeConfig_use16Bit (h16 : info.supports16BitSurface = true)
    (hp : profile = .vp9Profile2 ∨ profile = .av1Profile0) :
    decodeConfig info profile entrypoint cudaCodec attribs =
      (baseConfig profile entrypoint cudaCodec).use16Bit (firstRTFormat attribs) := by
  let cfg := (baseConfig profile entrypoint cudaCodec).use16Bit (firstRTFormat attribs)
  have hk : cfg.profile = profile := use16Bit_kept.1
  have h444 : cfg.use444 = cfg := by
    unfold use444
    rw [hk]
    obtain rfl | rfl := hp <;> rfl
  have hboth : cfg.use444_16Bit (firstRTFormat attribs) = cfg := by
    unfold use444_16Bit
    rw [hk]
    obtain rfl | rfl := hp <;> rfl
  simp only [decodeConfig, if_pos h16]
  change (if info.supports444Surface ∧ info.supports16BitSurface then
    (if info.supports444Surface then cfg.use444 else cfg).use444_16Bit (firstRTFormat attribs)
    else if info.supports444Surface then cfg.use444 else cfg) = cfg
  rw [h444, ite_self, hboth, ite_self]

/-- Two are left to the others. -/
theorem decodeConfig_use444 (h16 : info.supports16BitSurface = true)
    (h444 : info.supports444Surface = true) (hp : profile = .vp9Profile3 ∨ profile = .av1Profile1) :
    decodeConfig info profile entrypoint cudaCodec attribs =
      (baseConfig profile entrypoint cudaCodec).use444.use444_16Bit (firstRTFormat attribs) := by
  have h : (baseConfig profile entrypoint cudaCodec).use16Bit (firstRTFormat attribs) =
      baseConfig profile entrypoint cudaCodec := by
    obtain rfl | rfl := hp <;> rfl
  simp only [decodeConfig, h16, h444, and_self, if_true]
  exact congrArg (fun cfg : NVConfig => cfg.use444.use444_16Bit (firstRTFormat attribs)) h

/-- Without the surfaces that these profiles need, or for another profile, no `RTFormat` is looked
at. -/
theorem decodeConfig_fixed
    (hp : ¬((profile = .vp9Profile2 ∨ profile = .av1Profile0) ∧ info.supports16BitSurface = true))
    (hp' : ¬((profile = .vp9Profile3 ∨ profile = .av1Profile1) ∧ info.supports16BitSurface = true ∧
      info.supports444Surface = true)) :
    decodeConfig info profile entrypoint cudaCodec attribs =
      decodeConfig info profile entrypoint cudaCodec [] := by
  obtain ⟨nvenc, s16, s444, disabled, strict⟩ := info
  cases s16 with
  | false => cases s444 <;> rfl
  | true =>
    cases profile with
    | vp9Profile2 | av1Profile0 => simp at hp
    | vp9Profile3 | av1Profile1 =>
      cases s444 with
      | false => rfl
      | true => simp at hp'
    | _ => cases s444 <;> rfl

/-! The formats of the decoder. -/

abbrev eightBit : SurfaceFormat × ChromaFormat × Nat := (.nv12, .yuv420, 8)
abbrev tenBit : SurfaceFormat × ChromaFormat × Nat := (.p016, .yuv420, 10)
abbrev twelveBit : SurfaceFormat × ChromaFormat × Nat := (.p016, .yuv420, 12)
abbrev eightBit444 : SurfaceFormat × ChromaFormat × Nat := (.yuv444, .yuv444, 8)
abbrev tenBit444 : SurfaceFormat × ChromaFormat × Nat := (.yuv444_16Bit, .yuv444, 10)
abbrev twelveBit444 : SurfaceFormat × ChromaFormat × Nat := (.yuv444_16Bit, .yuv444, 12)

/-- The formats with a first `RTFormat` of this value are those without one. -/
theorem formats_eq_iff :
    (decodeConfig info profile entrypoint cudaCodec [⟨.rtFormat, value⟩]).formats =
      (decodeConfig info profile entrypoint cudaCodec []).formats ↔
        TakesDefault info profile value := by
  have hsome : firstRTFormat [⟨.rtFormat, value⟩] = some value := rfl
  by_cases hp : (profile = .vp9Profile2 ∨ profile = .av1Profile0) ∧ info.supports16BitSurface = true
  · rw [decodeConfig_use16Bit _ _ _ hp.2 hp.1, decodeConfig_use16Bit _ _ _ hp.2 hp.1, hsome,
      use16Bit_some _ _ hp.1]
    obtain ⟨rfl | rfl, h16⟩ := hp
    · refine Iff.trans ?_ (imp_iff_right h16).symm
      split_ifs with h12 h10
      · exact iff_of_false (show ¬(twelveBit = tenBit) by decide) fun h =>
          absurd (h12.symm.trans h) (by decide)
      · exact iff_of_true rfl h10
      · exact iff_of_false (show ¬(eightBit = tenBit) by decide) h10
    · refine Iff.trans ?_ (imp_iff_right h16).symm
      split_ifs with h12 h10
      · exact iff_of_false (show ¬(twelveBit = eightBit) by decide) fun h => h.1 h12
      · exact iff_of_false (show ¬(tenBit = eightBit) by decide) fun h => h.2 h10
      · exact iff_of_true rfl ⟨h12, h10⟩
  · by_cases hp' : (profile = .vp9Profile3 ∨ profile = .av1Profile1) ∧
      info.supports16BitSurface = true ∧
      info.supports444Surface = true
    · rw [decodeConfig_use444 _ _ _ hp'.2.1 hp'.2.2 hp'.1,
        decodeConfig_use444 _ _ _ hp'.2.1 hp'.2.2 hp'.1,
        hsome, use444_16Bit_some _ _ (by rw [use444_kept.1]; exact hp'.1)]
      obtain ⟨rfl | rfl, h16, h444⟩ := hp'
      · refine Iff.trans ?_ ((imp_iff_right h16).trans (imp_iff_right h444)).symm
        split_ifs with h12 h10 h8
        · exact iff_of_false (show ¬(twelveBit444 = tenBit444) by decide)
            fun h => absurd (h12.symm.trans h) (by decide)
        · exact iff_of_true rfl h10
        · exact iff_of_false (show ¬(eightBit444 = tenBit444) by decide) h10
        · exact iff_of_false (show ¬(eightBit = tenBit444) by decide) h10
      · refine Iff.trans ?_ ((imp_iff_right h16).trans (imp_iff_right h444)).symm
        split_ifs with h12 h10 h8
        · exact iff_of_false (show ¬(twelveBit444 = eightBit444) by decide) fun h => h.1 h12
        · exact iff_of_false (show ¬(tenBit444 = eightBit444) by decide) fun h => h.2 h10
        · exact iff_of_true rfl ⟨h12, h10⟩
        · exact iff_of_true rfl ⟨h12, h10⟩
    · rw [decodeConfig_fixed _ _ _ hp hp']
      apply iff_of_true rfl
      unfold TakesDefault
      split
      · exact fun h => absurd ⟨.inl rfl, h⟩ hp
      · exact fun h => absurd ⟨.inr rfl, h⟩ hp
      · exact fun h h' => absurd ⟨.inl rfl, h, h'⟩ hp'
      · exact fun h h' => absurd ⟨.inr rfl, h, h'⟩ hp'
      · trivial

end Formats

/-! ## The created configurations -/

section Created

open NVConfig

variable {w : World} {profile : VAProfile} {addr : Addr} {attribs : List VAConfigAttrib}

theorem allocate_config_inj {cfg cfg' : NVConfig}
    (h : w.allocate addr (.config cfg) = w.allocate addr (.config cfg')) : cfg = cfg' := by
  have hobjects := congrArg World.objects h
  simp only [World.allocate, List.append_cancel_left_eq, List.cons.injEq,
    Object.mk.injEq] at hobjects
  exact Payload.config.inj (Cell.mk.inj hobjects.1.2.2).2

/-- The orders give the same formats exactly when those that are looked at do. -/
theorem orderFree_iff_formats (hl : .vld ∈ nvQueryConfigEntrypoints w.info profile)
    (ha : w.Fresh addr) :
    ∃ cudaCodec, OrderFree w profile addr attribs ↔ ∃ f, ∀ attribs', attribs'.Perm attribs →
      (decodeConfig w.info profile .vld cudaCodec attribs').formats = f := by
  obtain ⟨cudaCodec, hcreate⟩ := nvCreateConfig_decode hl ha
  refine ⟨cudaCodec, exists_congr fun f => forall₂_congr fun attribs' _ => ?_⟩
  constructor
  · rintro ⟨cfg, h, rfl⟩
    have hw := congrArg Prod.snd (Option.some_inj.mp ((hcreate attribs').symm.trans h))
    rw [allocate_config_inj hw]
  · exact fun h => ⟨_, hcreate attribs', h⟩

end Created

/-- For attributes of distinct types, `nvCreateConfig` gives a decode profile the same formats in
every order exactly when there are fewer than two, or the `RTFormat` gives the formats that the
profile gets without one. -/
theorem orderFree_iff {w : World} {profile : VAProfile} {addr : Addr}
    {attribs : List VAConfigAttrib} (hl : .vld ∈ nvQueryConfigEntrypoints w.info profile)
    (ha : w.Fresh addr) (hd : DistinctTypes attribs) :
    OrderFree w profile addr attribs ↔
      attribs.length < 2 ∨ ∀ a ∈ attribs, a.type = .rtFormat →
        TakesDefault w.info profile a.value := by
  obtain ⟨cudaCodec, hiff⟩ := @orderFree_iff_formats _ _ _ attribs hl ha
  rw [hiff]
  constructor
  · rintro ⟨f, hf⟩
    by_contra hc
    rw [not_or, Nat.not_lt] at hc
    push Not at hc
    obtain ⟨h2, a, hmem, ht, hn⟩ := hc
    obtain ⟨⟨l, hl, hsome⟩, ⟨l', hl', hnone⟩⟩ := exists_orders hd h2 hmem ht
    have hfirst : NVConfig.firstRTFormat l = NVConfig.firstRTFormat [⟨.rtFormat, a.value⟩] := hsome
    have hnone : NVConfig.firstRTFormat l' = NVConfig.firstRTFormat [] := hnone
    refine hn ((formats_eq_iff a.value .vld cudaCodec).mp ?_)
    rw [← decodeConfig_congr hfirst, ← decodeConfig_congr hnone, hf l hl, hf l' hl']
  · rintro (h2 | htakes)
    · exact ⟨_, fun attribs' hp => by rw [eq_of_perm_of_short h2 hp]⟩
    · refine ⟨(NVConfig.decodeConfig w.info profile .vld cudaCodec []).formats,
        fun attribs' hp => ?_⟩
      cases hfirst : NVConfig.firstRTFormat attribs' with
      | none =>
        have hnone : NVConfig.firstRTFormat attribs' = NVConfig.firstRTFormat [] := hfirst
        rw [decodeConfig_congr hnone]
      | some value =>
        obtain ⟨a, hmem, ht, rfl⟩ := firstRTFormat_eq_some hfirst
        have hsome : NVConfig.firstRTFormat attribs' =
            NVConfig.firstRTFormat [⟨.rtFormat, a.value⟩] := hfirst
        rw [decodeConfig_congr hsome, formats_eq_iff]
        exact htakes a (hp.subset hmem) ht

/-- A driver that supports every surface. -/
def fullDriver : World := .init ⟨true, true, true, false, false⟩ 1 []

theorem orderFree_iff_tenBit :
    OrderFree fullDriver .vp9Profile2 4096 [⟨.rtFormat, rtFormatYuv420_10⟩,
      ⟨.maxPictureWidth, 64⟩] := by
  have hl : .vld ∈ nvQueryConfigEntrypoints fullDriver.info .vp9Profile2 := by decide
  have ha : fullDriver.Fresh 4096 := by decide
  have hd : DistinctTypes [⟨.rtFormat, rtFormatYuv420_10⟩, ⟨.maxPictureWidth, 64⟩] :=
    List.pairwise_pair.mpr fun h => by cases h
  exact (orderFree_iff hl ha hd).mpr (.inr (List.forall_mem_cons.mpr ⟨fun _ _ => rfl, by simp⟩))

/-- A 12-bit `RTFormat` behind another attribute is not looked at. -/
theorem not_orderFree :
    ¬∀ (w : World) (profile : VAProfile) (addr : Addr) (attribs : List VAConfigAttrib),
      .vld ∈ nvQueryConfigEntrypoints w.info profile → w.Fresh addr → DistinctTypes attribs →
      OrderFree w profile addr attribs := by
  intro h
  let width : VAConfigAttrib := ⟨.maxPictureWidth, 64⟩
  let rtFormat : VAConfigAttrib := ⟨.rtFormat, rtFormatYuv420_12⟩
  have hl : .vld ∈ nvQueryConfigEntrypoints fullDriver.info .vp9Profile2 := by decide
  have ha : fullDriver.Fresh 4096 := by decide
  have hfree := h fullDriver .vp9Profile2 4096 [width, rtFormat] hl ha
    (List.pairwise_pair.mpr fun h => by cases h)
  obtain ⟨cudaCodec, hiff⟩ := @orderFree_iff_formats _ _ _ [width, rtFormat] hl ha
  obtain ⟨f, hf⟩ := hiff.mp hfree
  have hten : tenBit = f := hf [width, rtFormat] (.refl _)
  have htwelve : twelveBit = f := hf [rtFormat, width] (.swap _ _ _)
  exact absurd (hten.trans htwelve.symm) (by decide)

end NvVaapi.Objects
