import NvVaapi.Encode.Reads
import NvVaapi.Lib.Align
import NvVaapi.Objects.Create
import NvVaapi.Objects.Steps

/-!
# The host buffers of new surfaces

* `HostRoom`: the sizes of a surface's host buffer are rounded up exactly, and the buffer has room
  for the samples.
* `HasSurface`, `nvCreateSurfaces2_created`: the surfaces that `nvCreateSurfaces2` leaves.
* `hostRoom_iff`: a surface that was created has room exactly when no size wraps around.
-/

namespace NvVaapi.Objects

/-! ## Room -/

/-- The sizes of a surface that has its whole picture. -/
def NVSurface.staging (sf : NVSurface) : EncodeSurface := .created sf.width sf.height

/-- With subsampled chroma a size is rounded up to a multiple of 2. -/
def chromaCeil (chromaFormat : ChromaFormat) (n : Nat) : Nat :=
  if chromaFormat = .yuv420 then ceilTo 2 n else n

/-- No rounding wraps around, and the samples of a picture of the size lie in the host buffer. -/
structure HostRoom (width height : UInt32) (sf : NVSurface) : Prop where
  width_eq : sf.width.toNat = chromaCeil sf.chromaFormat width.toNat
  height_eq : sf.height.toNat = chromaCeil sf.chromaFormat height.toNat
  pitch_eq : sf.staging.hostPitch = ceilTo 64 sf.width.toNat
  rows_eq : sf.staging.hostRows = ceilTo 16 sf.height.toNat
  width_le : width.toNat ≤ sf.staging.hostPitch
  luma : ∀ row < height.toNat, ∀ column < width.toNat,
    row * sf.staging.hostPitch + column < sf.hostTotalSize
  chroma : ∀ row < height.toNat / 2, ∀ column < width.toNat,
    sf.staging.hostYSize + row * sf.staging.hostPitch + column < sf.hostTotalSize

/-- The room is a matter of the sizes and of the chroma format. -/
theorem HostRoom.congr {width height : UInt32} {sf sf' : NVSurface} (h : HostRoom width height sf)
    (hs : sf'.staging = sf.staging) (hc : sf'.chromaFormat = sf.chromaFormat) :
    HostRoom width height sf' := by
  have hw : sf'.width = sf.width := congrArg EncodeSurface.width hs
  have hh : sf'.height = sf.height := congrArg EncodeSurface.height hs
  have ht : sf'.hostTotalSize = sf.hostTotalSize := congrArg EncodeSurface.hostTotalSize hs
  obtain ⟨width_eq, height_eq, pitch_eq, rows_eq, width_le, luma, chroma⟩ := h
  rw [← hs, ← hw, ← hh, ← hc, ← ht] at *
  exact ⟨width_eq, height_eq, pitch_eq, rows_eq, width_le, luma, chroma⟩

/-- The sizes can be rounded up in 32 bits, and the host buffer's exact size is one of 64 bits. -/
structure SizesRound (width height : UInt32) : Prop where
  width_lt : width.toNat + 63 < 2 ^ 32
  height_lt : height.toNat + 15 < 2 ^ 32
  total_lt : ceilTo 64 width.toNat * ceilTo 16 height.toNat + ceilTo 64 width.toNat *
    (ceilTo 16 height.toNat / 2) <
    2 ^ 64

section Sizes

variable {width height n s : UInt32} {f : SurfaceFormat × ChromaFormat × Nat}

theorem roundUp_eq_iff (hs : 0 < s.toNat) :
    (roundUp n s).toNat = ceilTo s.toNat n.toNat ↔ n.toNat + s.toNat - 1 < 2 ^ 32 := by
  rw [toNat_roundUp hs]
  exact ceilTo_mod_iff hs (Nat.le_of_lt s.toNat_lt) n.toNat_lt

/-- A size as `nvCreateSurfaces2` rounds it up. -/
def chromaRound (chromaFormat : ChromaFormat) (n : UInt32) : UInt32 :=
  if chromaFormat = .yuv420 then roundUp n 2 else n

/-- Both roundings of a size are exact when the second one would be without the first. -/
theorem chromaRound_eq_iff (chromaFormat : ChromaFormat) (hs : 2 ≤ s.toNat) (hd : s.toNat ∣ 2 ^ 32)
    (h2 : 2 ∣ s.toNat) :
    ((chromaRound chromaFormat n).toNat = chromaCeil chromaFormat n.toNat ∧
        (roundUp (chromaRound chromaFormat n) s).toNat =
          ceilTo s.toNat (chromaRound chromaFormat n).toNat) ↔
      n.toNat + s.toNat - 1 < 2 ^ 32 := by
  rw [roundUp_eq_iff (by omega)]
  unfold chromaRound chromaCeil
  cases chromaFormat with
  | yuv444 => simp
  | yuv420 =>
    have htwo : (roundUp n 2).toNat = ceilTo 2 n.toNat ↔ n.toNat + 1 < 2 ^ 32 :=
      @roundUp_eq_iff n 2 (by decide)
    have hlim : ceilTo 2 n.toNat ≤ 2 ^ 32 - s.toNat ↔ n.toNat ≤ 2 ^ 32 - s.toNat :=
      ceilTo_le_iff (by decide) ((Nat.dvd_sub (h2.trans hd) h2))
    have hlt := s.toNat_lt
    rw [if_pos rfl, if_pos rfl]
    constructor
    · rintro ⟨hexact, hsum⟩
      rw [hexact] at hsum
      have hle := hlim.mp (by omega)
      omega
    · intro h
      have hexact := htwo.mpr (by omega)
      have hle := hlim.mpr (by omega)
      exact ⟨hexact, by omega⟩

theorem chromaCeil_ceilTo (chromaFormat : ChromaFormat) {t : Nat} (ht : 0 < t)
    (h2 : 2 ∣ t) (m : Nat) : ceilTo t (chromaCeil chromaFormat m) = ceilTo t m := by
  unfold chromaCeil
  split
  · exact ceilTo_ceilTo (by decide) ht h2 m
  · rfl

/-- A picture that has no chroma row fits into 64 bits. -/
theorem total_lt_of_short {p h : Nat} (hp : p < 2 ^ 32) (hh : h < 2) :
    p * ceilTo 16 h + p * (ceilTo 16 h / 2) < 2 ^ 64 := by
  have hrows : ceilTo 16 h ≤ 16 := ceilTo_mono (by decide) (Nat.le_of_lt_succ hh)
  have hy : p * ceilTo 16 h ≤ p * 16 := Nat.mul_le_mul_left p hrows
  have hc : p * (ceilTo 16 h / 2) ≤ p * 8 := Nat.mul_le_mul_left p (by omega)
  omega

section Created

variable (width height f)

/-- The pitch and the rows, when their roundings are exact. -/
theorem pitch_created_iff :
    ((NVSurface.created width height f).width.toNat = chromaCeil f.2.1 width.toNat ∧
        (NVSurface.created width height f).staging.hostPitch =
          ceilTo 64 (NVSurface.created width height f).width.toNat) ↔ width.toNat + 63 < 2 ^ 32 :=
  @chromaRound_eq_iff width 64 f.2.1 (by decide) (by decide) (by decide)

theorem rows_created_iff :
    ((NVSurface.created width height f).height.toNat = chromaCeil f.2.1 height.toNat ∧
        (NVSurface.created width height f).staging.hostRows =
          ceilTo 16 (NVSurface.created width height f).height.toNat) ↔ height.toNat + 15 < 2 ^ 32 :=
  @chromaRound_eq_iff height 16 f.2.1 (by decide) (by decide) (by decide)

end Created

/-- The pitch in terms of the width that was asked for: rounding that first makes no difference. -/
theorem hostPitch_created (h : width.toNat + 63 < 2 ^ 32) :
    (NVSurface.created width height f).staging.hostPitch = ceilTo 64 width.toNat := by
  obtain ⟨hexact, hpitch⟩ := (pitch_created_iff width height f).mpr h
  rw [hpitch, hexact, chromaCeil_ceilTo _ (by decide) (by decide)]

theorem hostRows_created (h : height.toNat + 15 < 2 ^ 32) :
    (NVSurface.created width height f).staging.hostRows = ceilTo 16 height.toNat := by
  obtain ⟨hexact, hrows⟩ := (rows_created_iff width height f).mpr h
  rw [hrows, hexact, chromaCeil_ceilTo _ (by decide) (by decide)]

theorem HostRoom.sizesRound (h : HostRoom width height (.created width height f)) :
    SizesRound width height := by
  have hwidth := (pitch_created_iff width height f).mp ⟨h.width_eq, h.pitch_eq⟩
  have hheight := (rows_created_iff width height f).mp ⟨h.height_eq, h.rows_eq⟩
  refine ⟨hwidth, hheight, ?_⟩
  have hpitch := @hostPitch_created width height f hwidth
  have hrows := @hostRows_created width height f hheight
  generalize NVSurface.created width height f = sf at *
  have hplt : sf.staging.hostPitch < 2 ^ 32 := UInt32.toNat_lt _
  rw [← hpitch]
  by_contra hwrap
  by_cases hshort : height.toNat < 2
  · exact hwrap (total_lt_of_short hplt hshort)
  · -- a buffer whose size wraps around ends before its first chroma row
    rw [← hrows] at hwrap
    have htotal : sf.hostTotalSize ≤ sf.staging.hostYSize :=
      hostTotalSize_of_wrap (Nat.le_of_not_lt hwrap)
    have hpos : 0 < width.toNat := by
      by_contra hzero
      have hzero : sf.staging.hostPitch = 0 := by
        rw [hpitch, Nat.eq_zero_of_not_pos hzero]
        rfl
      exact hwrap (by simp [hzero])
    have hfirst := h.chroma 0 (by omega) 0 hpos
    omega

theorem SizesRound.hostRoom (h : SizesRound width height) :
    HostRoom width height (.created width height f) := by
  have hw := (pitch_created_iff width height f).mpr h.width_lt
  have hh := (rows_created_iff width height f).mpr h.height_lt
  have hpitch := @hostPitch_created width height f h.width_lt
  have hrows := @hostRows_created width height f h.height_lt
  have hchroma : (NVSurface.created width height f).chromaFormat = f.2.1 := rfl
  generalize NVSurface.created width height f = sf at *
  have hfit : sf.staging.SizesFit := by
    refine ⟨(@roundUp_eq_iff sf.width 64 (by decide)).mp hw.2,
      (@roundUp_eq_iff sf.height 16 (by decide)).mp hh.2, ?_⟩
    rw [EncodeSurface.hostYSize, hpitch, hrows]
    exact h.total_lt
  have hwle : width.toNat ≤ sf.staging.hostPitch := hpitch ▸ le_ceilTo (by decide) _
  have hhle : height.toNat ≤ sf.staging.hostRows := hrows ▸ le_ceilTo (by decide) _
  have hin (c : Bool) (row column : Nat) (hrow : row < HostRead.rows sf.staging ⟨c, row, column, 1⟩)
      (hcol : column < width.toNat) :
        HostRead.offset sf.staging ⟨c, row, column, 1⟩ < sf.hostTotalSize := by
    have hread : HostRead.Inside sf.staging ⟨c, row, column, 1⟩ :=
      HostRead.inside_of_row hfit hrow (hcol.trans_le hwle)
    exact (hread 0 Nat.one_pos).2.2
  refine ⟨hchroma ▸ hw.1, hchroma ▸ hh.1, hw.2, hh.2, hwle, fun row hrow column hcol => ?_,
    fun row hrow column hcol => ?_⟩
  · have hoffset := hin false row column (hrow.trans_le hhle) hcol
    simpa [HostRead.offset] using hoffset
  · exact hin true row column (hrow.trans_le (Nat.div_le_div_right hhle)) hcol

/-- A new surface has room exactly when no size wraps around. -/
theorem hostRoom_created_iff :
    HostRoom width height (.created width height f) ↔ SizesRound width height :=
  ⟨HostRoom.sizesRound, SizesRound.hostRoom⟩

end Sizes

/-! ## The surfaces that are created -/

/-- There is a surface at `a`, as `nvCreateSurfaces2` makes them, with any host buffer. -/
def HasSurface (sf : NVSurface) (a : Addr) (w : World) : Prop :=
  ∃ o ∈ w.objects, o.obj.addr = a ∧ ∃ host, o.obj.payload = .surface { sf with hostData := host }

section Create

variable {sf : NVSurface} {a : Addr} {w : World}

theorem HasSurface.allocate (h : HasSurface sf a w) (b : Addr) (payload : Payload) :
    HasSurface sf a (w.allocate b payload) := by
  obtain ⟨o, ho, h⟩ := h
  exact ⟨o, List.mem_append_left _ ho, h⟩

theorem HasSurface.of_allocate (sf : NVSurface) (a : Addr) (w : World) :
    HasSurface sf a (w.allocate a (.surface sf)) :=
  ⟨_, List.mem_append_right _ (List.mem_singleton_self _), rfl, sf.hostData, rfl⟩

theorem HasSurface.setHost (h : HasSurface sf a w) (b p : Addr) :
    HasSurface sf a (w.modifySurface b fun sf => { sf with hostData := p }) := by
  obtain ⟨o, ho, ha, host, hpay⟩ := h
  refine ⟨_, World.mem_modify.mpr ⟨o, ho, rfl⟩, ?_⟩
  split
  · next hb =>
    refine ⟨hb.symm.trans ha, p, ?_⟩
    rw [hpay]
  · exact ⟨ha, host, hpay⟩

/-- Every surface that was there is there. -/
def KeepsSurfaces (sf : NVSurface) (w w' : World) : Prop :=
  ∀ a, HasSurface sf a w → HasSurface sf a w'

theorem ensureSurfaceHostBuffer_keepsSurfaces {ε : Type} {E : ε → World → Prop}
    (sf : NVSurface) (b : Addr) (alloc : Option Addr) :
    (ensureSurfaceHostBuffer b alloc).Ensures w (fun _ w' => KeepsSurfaces sf w w') E := by
  rw [ensures_ensureSurfaceHostBuffer]
  exact fun _ _ => ⟨fun _ _ h => h, fun _ => ⟨fun _ _ h => h, fun p _ _ _ h => h.setHost b p⟩⟩

theorem createSurface_ensures (popped : Bool) (alloc : SurfaceAlloc) :
    (createSurface sf popped alloc).Ensures w
      (fun _ w' => HasSurface sf alloc.addr w' ∧ KeepsSurfaces sf w w') fun status _ =>
        status ≠ .success := by
  rw [createSurface, Prog.ensures_bind, ensures_allocateObject]
  intro _
  rw [Prog.ensures_bind]
  refine (ensureSurfaceHostBuffer_keepsSurfaces sf alloc.addr alloc.host).mono (fun ok w' hkeep =>
    ?_) fun _ _ h => h
  simp only [Prog.ensures_bind, Prog.ensures_ite, Prog.ensures_leave, Prog.ensures_pure,
    ensures_popContext]
  refine ⟨fun _ => ⟨fun _ => by simp, fun _ => by simp⟩, fun _ => ⟨?_, fun a h => ?_⟩⟩
  · exact hkeep _ (.of_allocate sf alloc.addr w)
  · exact hkeep a (h.allocate alloc.addr _)

theorem createSurfaces_ensures (popped : Bool) (allocs : List SurfaceAlloc) :
    (Prog.forEach allocs (createSurface sf popped)).Ensures w
      (fun _ w' => (∀ alloc ∈ allocs, HasSurface sf alloc.addr w') ∧ KeepsSurfaces sf w w')
      fun status _ => status ≠ .success := by
  induction allocs generalizing w with
  | nil => exact ⟨nofun, fun _ h => h⟩
  | cons alloc allocs ih =>
    rw [Prog.ensures_forEach_cons]
    refine (createSurface_ensures popped alloc).mono (fun _ w₁ h₁ => ?_) fun _ _ h => h
    refine ih.mono (fun _ w₂ h₂ => ?_) fun _ _ h => h
    exact ⟨List.forall_mem_cons.mpr ⟨h₂.2 _ h₁.1, h₂.1⟩, fun a h => h₂.2 a (h₁.2 a h)⟩

end Create

/-- A call that succeeds leaves a surface for each allocation. -/
theorem nvCreateSurfaces2_created (w : World) (format width height : UInt32)
    (allocs : List SurfaceAlloc) (pushed popped : Bool) :
    (nvCreateSurfaces2 format width height allocs pushed popped).Returns w fun status w' =>
      status = .success →
      ∃ f, surfaceFormats format = some f ∧
        ∀ alloc ∈ allocs, HasSurface (.created width height f) alloc.addr w' := by
  rw [Prog.Returns, nvCreateSurfaces2]
  cases hf : surfaceFormats format with
  | none =>
    intro h
    cases h
  | some f =>
    simp only [Prog.ensures_bind, ensures_pushContext]
    refine ⟨fun _ h => absurd h (by simp), fun _ => ?_⟩
    refine (createSurfaces_ensures popped allocs).mono (fun _ w₁ h => ?_) fun _ _ h hs =>
      absurd hs h
    simp only [Prog.ensures_pure, ensures_popContext]
    refine ⟨fun _ hs => absurd hs (by simp), fun _ => ?_⟩
    exact fun _ => ⟨f, rfl, h.1⟩

/-- For every world and every call that succeeds. -/
theorem hostRoom_iff {w w' : World} {format width height : UInt32} {allocs : List SurfaceAlloc}
    {pushed popped : Bool}
    (h : (nvCreateSurfaces2 format width height allocs pushed popped).eval w = some (.success, w'))
    {alloc : SurfaceAlloc} (ha : alloc ∈ allocs) :
    ∃ o ∈ w'.objects, o.obj.addr = alloc.addr ∧ ∃ sf, o.obj.payload = .surface sf ∧
      (HostRoom width height sf ↔ SizesRound width height) := by
  obtain ⟨f, -, hall⟩ :=
    (nvCreateSurfaces2_created w format width height allocs pushed popped).eval h rfl
  obtain ⟨o, ho, haddr, host, hpay⟩ := hall alloc ha
  refine ⟨o, ho, haddr, _, hpay, ?_⟩
  rw [← @hostRoom_created_iff width height f]
  exact ⟨fun h => h.congr rfl rfl, fun h => h.congr rfl rfl⟩

/-- The driver of a test. -/
def emptyWorld : World := .init ⟨true, true, true, false, false⟩ 0 []

/-- A surface of 33 columns and 17 rows has room in its host buffer. -/
theorem hostRoom_iff_oneSurface : ∃ w',
    (nvCreateSurfaces2 rtFormatYuv420 33 17 [⟨1, some 2⟩] true true).eval emptyWorld =
      some (.success, w') ∧
    ∃ o ∈ w'.objects, o.obj.addr = 1 ∧ ∃ sf, o.obj.payload = .surface sf ∧ HostRoom 33 17 sf := by
  obtain ⟨w', h⟩ : ∃ w', (nvCreateSurfaces2 rtFormatYuv420 33 17 [⟨1, some 2⟩] true true).eval
    emptyWorld = some (.success, w') := ⟨_, rfl⟩
  obtain ⟨o, ho, haddr, sf, hpay, hiff⟩ := hostRoom_iff h (List.mem_singleton_self _)
  exact ⟨w', h, o, ho, haddr, sf, hpay, hiff.mpr ⟨by decide, by decide, by decide⟩⟩

/-- A width that is rounded up to 0. -/
theorem not_hostRoom : ¬∀ (w w' : World) (format width height : UInt32) (allocs : List SurfaceAlloc)
    (pushed popped : Bool),
    (nvCreateSurfaces2 format width height allocs pushed popped).eval w = some (.success, w') →
      ∀ alloc ∈ allocs, ∀ o ∈ w'.objects, ∀ sf, o.obj.addr = alloc.addr →
      o.obj.payload = .surface sf →
        HostRoom width height sf := by
  intro h
  obtain ⟨w', o, sf, hrun, ho, haddr, hpay, hpitch⟩ : ∃ w' o sf,
      (nvCreateSurfaces2 rtFormatYuv444 0xFFFFFFFF 16 [⟨1, some 2⟩] true true).eval emptyWorld =
        some (.success, w') ∧ o ∈ w'.objects ∧ o.obj.addr = 1 ∧ o.obj.payload = .surface sf ∧
      sf.staging.hostPitch = 0 := ⟨_, _, _, rfl, List.mem_cons_self, rfl, rfl, by decide⟩
  have hroom := h _ _ _ _ _ _ _ _ hrun ⟨1, some 2⟩ (List.mem_singleton_self _) o ho sf haddr hpay
  exact absurd (hpitch ▸ hroom.width_le) (by decide)

end NvVaapi.Objects
