import NvVaapi.Objects.AttribOrder
import NvVaapi.Objects.WellFormed

/-!
# The formats that a decoder is created with

`nvCreateContext` writes the formats of the first render target to the configuration, and creates
the decoder with what the configuration holds then.

* `decoderFormats`: what `cuvidCreateDecoder` gets in a call, if the call gets there.
* `World.ConfigAt`: the configuration at an address. `nvCreateContext_config` is what a call makes
  of it.
* `contextCalls`: the calls of `nvCreateContext`, with the formats that the last render targets have
  left behind.
* `independent_iff`: every call creates its decoder with the formats of its own render targets, or
  with those that the configuration was created with, exactly when no call without render targets
  comes after others with different formats.
-/

namespace NvVaapi.Objects

/-- What the decoder is created with. -/
abbrev Formats := SurfaceFormat × ChromaFormat × Nat

def NVSurface.formats (sf : NVSurface) : Formats := (sf.format, sf.chromaFormat, sf.bitDepth)

/-- The configuration with other formats, if any. -/
def NVConfig.withFormats (cfg : NVConfig) : Option Formats → NVConfig
  | none => cfg
  | some f => cfg.setFormat f.1 f.2.1 f.2.2

/-- The arguments of `nvCreateContext`, and the results that it meets. -/
structure ContextCall where
  config : VAGenericID
  pictureWidth : Int32
  pictureHeight : Int32
  renderTargets : List VAGenericID
  r : ContextResults

def ContextCall.call (c : ContextCall) : ApiCall :=
  .createContext c.config c.pictureWidth c.pictureHeight c.renderTargets c.r

/-- The formats of the first render target, or none without render targets. There is no result when
the first render target is not there, where the call returns. -/
def targetFormats (w : World) : List VAGenericID → Option (Option Formats)
  | [] => some none
  | id :: _ => (w.getSurface id).map fun s => some s.2.formats

/-- The decoder configuration that a call is made for, which some codec decodes. -/
def ContextCall.decodes (c : ContextCall) (w : World) : Option (Addr × NVConfig) :=
  (w.getConfig c.config).filter fun x => !x.2.isEncode && (vaToCuCodec x.2.profile).isSome

/-- What `cuvidCreateDecoder` gets in a call, if the call gets there: what the configuration holds
then. -/
def decoderFormats (w : World) (c : ContextCall) : Option Formats := do
  let (_, cfg) ← c.decodes w
  let target ← targetFormats w c.renderTargets
  if c.r.pushed then some (cfg.withFormats target).formats else none

/-- The formats that a call leaves behind in the configuration at `a`, if any. -/
def leftFormats (a : Addr) (w : World) (c : ContextCall) : Option Formats := do
  let (b, _) ← c.decodes w
  let target ← targetFormats w c.renderTargets
  if b = a then target else none

/-! ## The configuration at an address -/

/-- The configuration at `a`, if it is there, is `cfg`. -/
def World.ConfigAt (w : World) (a : Addr) (cfg : NVConfig) : Prop :=
  ∀ o ∈ w.objects, ∀ cfg', o.obj = ⟨a, .config cfg'⟩ → cfg' = cfg

namespace World.ConfigAt

variable {w w' : World} {a b : Addr} {cfg : NVConfig}

theorem of_objects (h : w.ConfigAt a cfg) (ho : w'.objects = w.objects) : w'.ConfigAt a cfg := by
  unfold World.ConfigAt
  rw [ho]
  exact h

theorem allocate (h : w.ConfigAt a cfg) {payload : Payload} (hp : payload.config? = none) :
    (w.allocate b payload).ConfigAt a cfg := by
  intro o ho cfg' hobj
  rw [allocate_objects, List.mem_append, List.mem_singleton] at ho
  obtain ho | rfl := ho
  · exact h o ho cfg' hobj
  · obtain ⟨-, rfl⟩ := Cell.mk.inj hobj
    cases hp

theorem deleteObject (h : w.ConfigAt a cfg) (id : VAGenericID) :
    (w.deleteObject id).ConfigAt a cfg :=
  fun o ho => h o (mem_eraseObject ho)

/-- A configuration as it was created. -/
theorem created (ha : w.Fresh a) (cfg : NVConfig) :
    (w.allocate a (.config cfg)).ConfigAt a cfg := by
  intro o ho cfg' hobj
  rw [allocate_objects, List.mem_append, List.mem_singleton] at ho
  obtain ho | rfl := ho
  · exact absurd (congrArg Cell.addr hobj) (ha.ne_addr o ho)
  · exact (Payload.config.inj (Cell.mk.inj hobj).2).symm

/-- A write that leaves configurations. -/
theorem modify (h : w.ConfigAt a cfg) {g : Payload → Payload}
    (hg : ∀ p cfg', g p = .config cfg' → p = .config cfg') : (w.modify b g).ConfigAt a cfg := by
  intro o ho cfg' hobj
  obtain ⟨⟨t, id, a', p⟩, ho', rfl⟩ := mem_modify.mp ho
  by_cases e : a' = b
  · subst e
    obtain ⟨rfl, hp⟩ : a' = a ∧ g p = .config cfg' := by simpa using hobj
    exact h _ ho' cfg' (by rw [hg p cfg' hp])
  · exact h _ ho' cfg' (by simpa [e] using hobj)

theorem modifyContext (h : w.ConfigAt a cfg) (f : NVContext → NVContext) :
    (w.modifyContext b f).ConfigAt a cfg := by
  apply h.modify
  intro p cfg' hp
  cases p with
  | config _ => exact hp
  | _ => cases hp

/-- A write to the configuration at `b`. -/
theorem modifyConfig (h : w.ConfigAt a cfg) (f : NVConfig → NVConfig) :
    (w.modifyConfig b f).ConfigAt a (if b = a then f cfg else cfg) := by
  intro o ho cfg' hobj
  obtain ⟨⟨t, id, a', p⟩, ho', rfl⟩ := mem_modify.mp ho
  by_cases e : a' = b
  · subst e
    cases p with
    | config cfg₁ =>
      obtain ⟨rfl, rfl⟩ : a' = a ∧ f cfg₁ = cfg' := by simpa using hobj
      rw [if_pos rfl, h _ ho' cfg₁ rfl]
    | _ => simp at hobj
  · obtain ⟨rfl, rfl⟩ : a' = a ∧ p = .config cfg' := by simpa [e] using hobj
    rw [if_neg (Ne.symm e)]
    exact h _ ho' cfg' rfl

end World.ConfigAt

/-! ## The calls -/

section Calls

variable {a : Addr} {cfg : NVConfig} {ε : Type}

theorem allocateContext_config (ctx : NVContext) (b : Addr) :
    (allocateObject (.context ctx) b : Prog World ε VAGenericID).Keeps fun w =>
      w.ConfigAt a cfg := by
  intro w h
  simpa using fun _ => h.allocate rfl

theorem pushContext_config (ok : Bool) (e : ε) : (pushContext ok e).Keeps fun w =>
    w.ConfigAt a cfg := by
  intro w h
  simpa using ⟨fun _ => h, fun _ => h.of_objects rfl⟩

theorem popContext_config (ok : Bool) (e : ε) :
    (popContext ok e).Keeps fun w => w.ConfigAt a cfg := by
  intro w h
  simpa using ⟨fun _ => h, fun _ => h.of_objects rfl⟩

theorem failContext_config (r : ContextResults) (id : VAGenericID) (status : NvencStatus) :
    (failContext r id status).Keeps fun w => w.ConfigAt a cfg := by
  intro w h
  have hend : (w.endSession r.addr).ConfigAt a cfg := h.modifyContext _
  rw [ensures_failContext]
  split
  · exact World.ConfigAt.deleteObject (hend.of_objects rfl) id
  · exact hend.deleteObject id

theorem createIoBuffers_config (r : ContextResults) (id : VAGenericID) (i : Nat) :
    (createIoBuffers r id i).Keeps fun w => w.ConfigAt a cfg := by
  unfold createIoBuffers
  refine .exit (failContext_config r id _) ?_
  refine .bind (.update fun w h => h.modifyContext _) fun _ => ?_
  exact .exit (failContext_config r id _) (.update fun w h => h.modifyContext _)

theorem createEncodeContext_config (encodeCfg : NVConfig) (width height : Int32)
    (r : ContextResults) :
    (createEncodeContext encodeCfg width height r).Keeps fun w => w.ConfigAt a cfg := by
  refine .bind .read fun w => .exit (.leave _) <| .exit (.leave _) <|
    .bind (allocateContext_config _ r.addr) fun id => ?_
  cases profileToNvencGuids encodeCfg.profile with
  | none => exact .bind (fun w h => h.deleteObject id) fun _ => .leave _
  | some encIsHevc =>
    have hf := @failContext_config a cfg r id
    refine .bind (.update fun w h => h.modifyContext _) fun _ =>
      .bind (pushContext_config _ _) fun _ =>
      .exit (hf _) <| .bind (.update fun w h => h.modifyContext _) fun _ =>
      .exit (hf _) <| .exit (hf _) <|
        .bind (.forEach fun i _ => createIoBuffers_config r id i) fun _ =>
      .bind (popContext_config _ _) fun _ => .pure _

/-- The first render target writes to the configuration at `b`. -/
theorem useRenderTarget_config {w : World} (h : w.ConfigAt a cfg) (b : Addr)
    (targets : List VAGenericID) :
    (useRenderTarget b targets).Ensures w
      (fun _ w' => ∃ target, targetFormats w targets = some target ∧
        w'.ConfigAt a (cfg.withFormats (if b = a then target else none)))
      fun _ w' => targetFormats w targets = none ∧ w'.ConfigAt a cfg := by
  cases targets with
  | nil => exact ⟨none, rfl, by rw [ite_self]; exact h⟩
  | cons id _ =>
    unfold useRenderTarget targetFormats
    cases hs : w.getSurface id with
    | none => simpa [hs] using h
    | some s =>
      simp only [Prog.ensures_bind, Prog.ensures_read, hs, Prog.ensures_update]
      refine ⟨_, rfl, ?_⟩
      have hset := h.modifyConfig (b := b) fun cfg =>
          cfg.setFormat s.2.format s.2.chromaFormat s.2.bitDepth
      by_cases e : b = a
      · rw [if_pos e] at hset ⊢
        exact hset
      · rw [if_neg e] at hset ⊢
        exact hset

theorem createDecodeContext_config {w : World} (h : w.ConfigAt a cfg) (b : Addr)
    (decodeCfg : NVConfig) (hc : (vaToCuCodec decodeCfg.profile).isSome)
    (targets : List VAGenericID) (r : ContextResults) :
    (createDecodeContext b decodeCfg targets r).Returns w fun _ w' => w'.ConfigAt a
      (cfg.withFormats ((targetFormats w targets).bind fun target =>
        if b = a then target else none)) := by
  obtain ⟨codec, hc⟩ := Option.isSome_iff_exists.mp hc
  unfold createDecodeContext Prog.Returns
  rw [hc, Prog.ensures_bind]
  refine (useRenderTarget_config h b targets).mono ?_ ?_
  · rintro _ w' ⟨target, ht, h'⟩
    rw [ht]
    refine Prog.Keeps.ensures (I := fun w : World => w.ConfigAt a _) ?_ h' fun _ _ h => h
    exact .bind (pushContext_config _ _) fun _ => .exit (.leave _) <|
      .bind (popContext_config _ _) fun _ => .bind (allocateContext_config _ _) fun id =>
      .ite (.bind (fun w h => h.deleteObject id) fun _ => .bind (.leave _) fun _ =>
        .pure _) (.pure _)
  · rintro _ w' ⟨ht, h'⟩
    rw [ht]
    exact h'

/-- A call leaves the formats of its render target in the configuration that it is made for, and no
other call changes the configuration. -/
theorem nvCreateContext_config {w : World} (h : w.ConfigAt a cfg) (c : ContextCall) :
    c.call.entry.Returns w fun _ w' => w'.ConfigAt a (cfg.withFormats (leftFormats a w c)) := by
  show (nvCreateContext c.config c.pictureWidth c.pictureHeight c.renderTargets c.r).Returns w _
  unfold Prog.Returns nvCreateContext leftFormats ContextCall.decodes
  rw [Prog.ensures_bind, Prog.ensures_read]
  cases hg : w.getConfig c.config with
  | none => exact h
  | some x =>
    obtain ⟨b, cfg'⟩ := x
    by_cases hd : cfg'.isEncode = false ∧ (vaToCuCodec cfg'.profile).isSome
    · have hfilter :
          (some (b, cfg')).filter (fun x => !x.2.isEncode && (vaToCuCodec x.2.profile).isSome) =
          some (b, cfg') := by simp [hd.1, hd.2]
      rw [hfilter]
      simp only [hd.1]
      exact createDecodeContext_config h b cfg' hd.2 c.renderTargets c.r
    · have hfilter :
          (some (b, cfg')).filter (fun x => !x.2.isEncode && (vaToCuCodec x.2.profile).isSome) =
          none := by
        simp only [Option.filter_some, ite_eq_right_iff, Bool.and_eq_true, Bool.not_eq_true']
        exact fun hc => absurd hc hd
      rw [hfilter]
      cases he : cfg'.isEncode with
      | true =>
        simp only [he]
        exact createEncodeContext_config cfg' c.pictureWidth c.pictureHeight c.r w h
      | false =>
        have hnone : vaToCuCodec cfg'.profile = none := by
          rw [← Option.not_isSome_iff_eq_none]
          exact fun hs => hd ⟨he, hs⟩
        simp only [he, createDecodeContext, hnone]
        exact h

end Calls

/-! ## The runs -/

/-- The calls of `nvCreateContext`, from any state of the driver on. -/
def contextCalls : Lts World ContextCall where
  init w := objectSystem.Reach w
  step w c := objectSystem.step w c.call

/-- The formats that the latest render target has left behind in the configuration at `a`. -/
def latestFormats (a : Addr) (w : World) (c : ContextCall) (g : Option Formats) : Option Formats :=
  (leftFormats a w c).or g

/-- The calls, with these formats. -/
def contextHistory (a : Addr) : Lts (World × Option Formats) ContextCall :=
  contextCalls.withGhost none (latestFormats a)

/-- If the call is made for the configuration at `a`, its decoder gets the formats of its render
target, or those of `cfg` when it has none. -/
def Independent (a : Addr) (cfg : NVConfig) (x : World × Option Formats) (c : ContextCall) : Prop :=
  ∀ cfg', c.decodes x.1 = some (a, cfg') → ∀ f, decoderFormats x.1 c = some f →
    ∃ target, targetFormats x.1 c.renderTargets = some target ∧ f = (cfg.withFormats target).formats

/-- If the call is made for the configuration at `a` and has no render targets, then the render
targets of the calls before it, if any, have left the formats of `cfg`. -/
def FormatsKept (a : Addr) (cfg : NVConfig) (x : World × Option Formats) (c : ContextCall) : Prop :=
  ∀ cfg', c.decodes x.1 = some (a, cfg') → c.r.pushed = true → c.renderTargets = [] →
    ∀ f ∈ x.2, f = cfg.formats

section Runs

variable {w w' : World} {a : Addr} {cfg cfg' : NVConfig} {c : ContextCall} {g : Option Formats}

theorem World.ConfigAt.eq (h : w.ConfigAt a cfg) (hd : c.decodes w = some (a, cfg')) :
    cfg' = cfg := by
  obtain ⟨hg, -⟩ := Option.filter_eq_some_iff.mp hd
  obtain ⟨o, ho, -, -, hobj⟩ := World.getConfig_mem hg
  exact h o ho cfg' hobj

@[simp] theorem withFormats_withFormats (f g : Option Formats) :
    (cfg.withFormats g).withFormats f = cfg.withFormats (f.or g) := by
  cases f <;> cases g <;> rfl

/-- What a decoder gets is what the call leaves in the configuration. -/
theorem decoderFormats_eq (h : w.ConfigAt a cfg) (hd : c.decodes w = some (a, cfg')) :
    decoderFormats w c = if c.r.pushed then
      (targetFormats w c.renderTargets).map fun target =>
        (cfg.withFormats target).formats else none := by
  obtain rfl := h.eq hd
  unfold decoderFormats
  rw [hd]
  cases c.r.pushed <;> cases targetFormats w c.renderTargets <;> rfl

theorem contextHistory_keeps {x x' : World × Option Formats}
    (h : x.1.ConfigAt a (cfg.withFormats x.2)) (hs : (contextHistory a).step x c = some x') :
    x'.1.ConfigAt a (cfg.withFormats x'.2) := by
  obtain ⟨w, g⟩ := x
  obtain ⟨w', g'⟩ := x'
  obtain ⟨hst, rfl⟩ := Lts.withGhost_step_iff.mp hs
  have h' := step_returns (nvCreateContext_config h c) hst
  rwa [withFormats_withFormats] at h'

/-- What a decoder got is what the configuration holds after the call. -/
theorem decoderFormats_held {f : Formats} (h : w.ConfigAt a cfg) (hd : c.decodes w = some (a, cfg'))
    (hf : decoderFormats w c = some f) (hs : contextCalls.step w c = some w') :
    ∃ cfg'', w'.ConfigAt a cfg'' ∧ cfg''.formats = f := by
  refine ⟨_, step_returns (nvCreateContext_config h c) hs, ?_⟩
  rw [decoderFormats_eq h hd] at hf
  unfold leftFormats
  rw [hd]
  cases hp : c.r.pushed with
  | false => simp [hp] at hf
  | true =>
    cases ht : targetFormats w c.renderTargets with
    | none => simp [hp, ht] at hf
    | some target => simpa [hp, ht] using hf

theorem independent_iff_formatsKept {x : World × Option Formats}
    (h : x.1.ConfigAt a (cfg.withFormats x.2)) : Independent a cfg x c ↔ FormatsKept a cfg x c := by
  obtain ⟨w, g⟩ := x
  refine forall₂_congr fun cfg' hd => ?_
  rw [decoderFormats_eq h hd]
  cases c.r.pushed with
  | false => exact iff_of_true nofun nofun
  | true =>
    cases c.renderTargets with
    | nil =>
      -- the decoder gets what the configuration holds
      rw [imp_iff_right rfl, imp_iff_right rfl]
      cases g with
      | none => exact iff_of_true (fun f hf => ⟨none, rfl, (Option.some_inj.mp hf).symm⟩) nofun
      | some f =>
        constructor
        · intro hind f' hf'
          obtain rfl : f = f' := Option.some_inj.mp hf'
          obtain ⟨_, ht, hf⟩ := hind f rfl
          obtain rfl := Option.some_inj.mp ht
          exact hf
        · intro hkept f' hf'
          obtain rfl : f = f' := Option.some_inj.mp hf'
          exact ⟨none, rfl, hkept f rfl⟩
    | cons id ids =>
      refine iff_of_true ?_ fun _ => nofun
      rintro f hf
      obtain ⟨target, ht, rfl⟩ := Option.map_eq_some_iff.mp hf
      refine ⟨target, ht, ?_⟩
      obtain ⟨s, -, rfl⟩ := Option.map_eq_some_iff.mp ht
      rw [withFormats_withFormats]
      rfl

end Runs

/-- Every call creates its decoder with the formats of its own render targets, or of the
configuration as it was created, exactly when no call without render targets comes after one that
left other formats. -/
theorem independent_iff {w : World} {a : Addr} {cfg : NVConfig} (hw : w.ConfigAt a cfg)
    (calls : List ContextCall) : (contextHistory a).Meets (Independent a cfg) (w, none) calls ↔
      (contextHistory a).Meets (FormatsKept a cfg) (w, none) calls := by
  refine Lts.meets_iff_meets (I := fun x => x.1.ConfigAt a (cfg.withFormats x.2)) ?_ ?_ hw calls
  · exact fun x c h => independent_iff_formatsKept h
  · exact fun x c x' h _ hs => contextHistory_keeps h hs

/-- A driver with an 8-bit surface. -/
def oneSurface : World :=
  fullDriver.allocate 4096 (.surface (.created 64 64 (.nv12, .yuv420, 8)))

def vp9Config : NVConfig := .decodeConfig oneSurface.info .vp9Profile2 .vld .vp9 []

/-- It has been given a configuration for VP9 with 10 bits. -/
def vp9Driver : World := oneSurface.allocate 8192 (.config vp9Config)

def vp9Call (renderTargets : List VAGenericID) (addr : Addr) : ContextCall :=
  ⟨2, 64, 64, renderTargets, .ok addr⟩

theorem vp9Driver_configAt : vp9Driver.ConfigAt 8192 vp9Config := .created (by decide) _

/-- The formats of the surface are those of the configuration. -/
def eightBitConfig : NVConfig := .decodeConfig oneSurface.info .vp9Profile0 .vld .vp9 []

def eightBitDriver : World := oneSurface.allocate 8192 (.config eightBitConfig)

theorem eightBitDriver_configAt : eightBitDriver.ConfigAt 8192 eightBitConfig :=
  .created (by decide) _

/-- A call with the surface as its render target, and one without render targets. -/
theorem independent_iff_vp9 :
    (contextHistory 8192).Meets (Independent 8192 eightBitConfig) (eightBitDriver, none)
      [vp9Call [1] 16384, vp9Call [] 20480] := by
  obtain ⟨w, hs⟩ : ∃ w, (contextHistory 8192).step (eightBitDriver, none) (vp9Call [1] 16384) =
      some (w, some eightBit) := ⟨_, rfl⟩
  refine (independent_iff eightBitDriver_configAt _).mpr
    ((Lts.meets_of_some _ hs).mpr ⟨fun _ _ _ => nofun, fun _ _ _ _ f hf => ?_, fun _ _ => trivial⟩)
  obtain rfl := Option.some_inj.mp hf
  rfl

/-- A context with an 8-bit render target makes the next one 8-bit. -/
theorem not_independent :
    ¬∀ (w : World) (a : Addr) (cfg : NVConfig), w.ConfigAt a cfg → ∀ calls : List ContextCall,
      (contextHistory a).Meets (Independent a cfg) (w, none) calls := by
  intro h
  obtain ⟨x, cfg', hs, hd, hf⟩ : ∃ x cfg',
      (contextHistory 8192).step (vp9Driver, none) (vp9Call [1] 16384) = some x ∧
        (vp9Call [] 20480).decodes x.1 = some (8192, cfg') ∧
        decoderFormats x.1 (vp9Call [] 20480) = some eightBit := ⟨_, _, rfl, rfl, rfl⟩
  have hm := h vp9Driver 8192 vp9Config vp9Driver_configAt [vp9Call [1] 16384, vp9Call [] 20480]
  obtain ⟨-, hind, -⟩ := (Lts.meets_of_some _ hs).mp hm
  obtain ⟨target, ht, heq⟩ := hind cfg' hd eightBit hf
  obtain rfl := Option.some_inj.mp ht
  exact absurd heq (show ¬(eightBit = tenBit) by decide)

end NvVaapi.Objects
