import NvVaapi.Image.Strict

/-!
# Strict mode refines normal mode

* `SurfaceSim`, `BufferSim`: the surfaces and the buffers of the two modes. Between a map and its
  unmap the host buffer of normal mode is that of strict mode with the shadow copied over it.
* `Sim`: two worlds that are related in this way, and `Sim.step`: every call keeps them related.
* `strict_refines`: outside of maps the two modes have the same surfaces and images, and all calls
  return the same.
-/

namespace NvVaapi.Image

open Objects (NVContextMode PutArgs)

/-! ## The relation -/

/-- The buffer of a derived image, which points to the host buffer. -/
def derivedBuffer (s size : Nat) (mappedSurfaceLock : Bool) : ImageBuffer :=
  ⟨.host s, size, false, s, false, mappedSurfaceLock⟩

/-- The buffer of a derived image with memory of its own. -/
def shadowBuffer (s size : Nat) (m : Memory) : ImageBuffer := ⟨.own m, size, true, s, false, false⟩

/-- The buffer of a created image. -/
def createdBuffer (size : Nat) (m : Memory) : ImageBuffer := ⟨.own m, size, true, 0, false, false⟩

/-- The buffer `b` in normal and in strict mode. In strict mode a derived image has a shadow once it
was mapped. -/
inductive BufferSim (surfaces : Nat → Option MapSurface) (b : Nat) :
    ImageBuffer → ImageBuffer → Prop
  | created (size : Nat) (m : Memory) :
      BufferSim surfaces b (createdBuffer size m) (createdBuffer size m)
  | derived {s : Nat} {sf : MapSurface} :
      surfaces s = some sf → sf.hostData.isSome → sf.mappedBy ≠ some b →
    BufferSim surfaces b (derivedBuffer s sf.hostTotalSize false)
      (derivedBuffer s sf.hostTotalSize false)
  | shadow {s : Nat} {sf : MapSurface} (m : Memory) : surfaces s = some sf → sf.hostData.isSome →
    BufferSim surfaces b (derivedBuffer s sf.hostTotalSize (sf.mappedBy = some b))
      (shadowBuffer s sf.hostTotalSize m)

/-- The surface in normal mode while it is mapped, with the bytes that the client sees. -/
def directSurface (sf : MapSurface) (host m : Memory) : MapSurface :=
  { sf with
    locked := true
    hostData := some (Bytes.write host 0 (Bytes.read m 0 sf.hostTotalSize)) }

/-- The surface `s` in normal mode and in strict mode, with the buffers of strict mode. -/
structure SurfaceSim (buffers : Nat → Option ImageBuffer) (s : Nat)
    (sn ss : MapSurface) : Prop where
  unlocked : ss.locked = false
  mode : ss.mode ≠ some .decode
  closed : ss.mappedBy = none → sn = ss
  mapped : ∀ b, ss.mappedBy = some b → ∃ host m, ss.hostData = some host ∧
    buffers b = some (shadowBuffer s ss.hostTotalSize m) ∧ sn = directSurface ss host m

structure Sim (n s : MapWorld) : Prop where
  nextObjId : n.nextObjId = s.nextObjId
  images : n.images = s.images
  replies : n.replies = s.replies
  surfaces : ∀ id, Option.Rel (SurfaceSim s.buffers id) (n.surfaces id) (s.surfaces id)
  buffers : ∀ b, Option.Rel (BufferSim s.surfaces b) (n.buffers b) (s.buffers b)
  zero : s.surfaces 0 = none
  fresh : ∀ b, s.nextObjId < b → s.buffers b = none
  created : ∀ i img, s.images i = some img →
    ∃ size m, s.buffers img.imageBuffer = some (createdBuffer size m)

theorem SurfaceSim.mappedBy {buffers : Nat → Option ImageBuffer} {id : Nat} {sn ss : MapSurface}
    (h : SurfaceSim buffers id sn ss) : sn.mappedBy = ss.mappedBy := by
  cases hm : ss.mappedBy with
  | none => rw [h.closed hm, hm]
  | some b =>
    obtain ⟨host, m, -, -, rfl⟩ := h.mapped b hm
    exact hm

theorem SurfaceSim.of_closed {buffers : Nat → Option ImageBuffer} {id : Nat} {sf : MapSurface}
    (hl : sf.locked = false) (hd : sf.mode ≠ some .decode) (hm : sf.mappedBy = none) :
    SurfaceSim buffers id sf sf :=
  ⟨hl, hd, fun _ => rfl, fun _ hb => absurd (hm.symm.trans hb) nofun⟩

/-- A surface that is not mapped stays the same whatever happens to the buffers. -/
theorem SurfaceSim.congr {buffers buffers' : Nat → Option ImageBuffer} {id : Nat}
    {sn ss : MapSurface} (h : SurfaceSim buffers id sn ss)
    (hb : ∀ b size m, buffers b = some (shadowBuffer id size m) →
      buffers' b = some (shadowBuffer id size m)) :
    SurfaceSim buffers' id sn ss where
  unlocked := h.unlocked
  mode := h.mode
  closed := h.closed
  mapped b hm := by
    obtain ⟨host, m, hhost, hbuf, hsn⟩ := h.mapped b hm
    exact ⟨host, m, hhost, hb _ _ _ hbuf, hsn⟩

/-- A buffer depends on whether it maps its surface, and on the size of the surface. -/
theorem BufferSim.congr {surfaces surfaces' : Nat → Option MapSurface} {b : Nat}
    {bn bs : ImageBuffer} (h : BufferSim surfaces b bn bs)
    (hs : ∀ s sf, surfaces s = some sf → sf.hostData.isSome →
      ∃ sf', surfaces' s = some sf' ∧ sf'.hostData.isSome ∧
      sf'.hostTotalSize = sf.hostTotalSize ∧ (sf'.mappedBy = some b ↔ sf.mappedBy = some b)) :
    BufferSim surfaces' b bn bs := by
  cases h with
  | created size m => exact .created size m
  | derived hsf hhost hm =>
    obtain ⟨sf', hsf', hhost', hsize, hmap⟩ := hs _ _ hsf hhost
    rw [← hsize]
    exact .derived hsf' hhost' fun h => hm (hmap.mp h)
  | shadow m hsf hhost =>
    obtain ⟨sf', hsf', hhost', hsize, hmap⟩ := hs _ _ hsf hhost
    rw [← hsize, ← decide_eq_decide.mpr hmap]
    exact .shadow m hsf' hhost'

/-! ## One world -/

/-- `calloc` succeeds, and the surface is as it was but for its host buffer and its status. -/
theorem exists_host (sf : MapSurface) :
    ∃ e host, ensureSurfaceHostBuffer true sf.toNVSurface = some (e, host) ∧
    e.hostData = some host ∧ e.toEncodeSurface = sf.toEncodeSurface := by
  cases he : ensureSurfaceHostBuffer true sf.toNVSurface with
  | none =>
    unfold ensureSurfaceHostBuffer at he
    split at he <;> cases he
  | some r =>
    exact ⟨r.1, r.2, rfl, ensureSurfaceHostBuffer_host he, ensureSurfaceHostBuffer_size he⟩

theorem ensureSurfaceHostBuffer_of_some {sf : NVSurface} {host : Memory}
    (h : sf.hostData = some host) (calloc : Bool) :
    ensureSurfaceHostBuffer calloc sf = some (sf, host) := by
  unfold ensureSurfaceHostBuffer
  rw [h]

namespace MapWorld

variable {w : MapWorld} {b : Nat} {buf : ImageBuffer} {sf sf' : MapSurface} {host : Memory}

theorem setSurface_setSurface (s : Nat) :
    (w.setSurface s sf).setSurface s sf' = w.setSurface s sf' := by
  simp only [setSurface, Function.update_idem]

theorem setBuffer_setSurface (s : Nat) :
    (w.setBuffer b buf).setSurface s sf = (w.setSurface s sf).setBuffer b buf :=
  rfl

theorem setSurface_self {s : Nat} (h : w.surfaces s = some sf) : w.setSurface s sf = w := by
  rw [setSurface, ← h, Function.update_eq_self]

theorem setBuffer_self (h : w.buffers b = some buf) : w.setBuffer b buf = w := by
  rw [setBuffer, ← h, Function.update_eq_self]

theorem setMapped_eq (hb : w.buffers b = some buf) (hs : w.surfaces buf.surfaceId = some sf)
    (mappedBy : Option Nat) :
    w.setMapped b mappedBy = w.setSurface buf.surfaceId { sf with mappedBy } := by
  rw [setMapped, hb]
  dsimp only
  rw [hs]

theorem setMapped_of_none (hb : w.buffers b = some buf) (hs : w.surfaces buf.surfaceId = none)
    (mappedBy : Option Nat) : w.setMapped b mappedBy = w := by
  rw [setMapped, hb]
  dsimp only
  rw [hs]

/-- A map in normal mode locks the surface. -/
theorem nvMapBuffer_direct (hb : w.buffers b = some buf) (hs : w.surfaces buf.surfaceId = some sf)
    (hhost : sf.hostData = some host) (hlock : buf.mappedSurfaceLock = false)
    (hl : sf.locked = false) (calloc : Bool) (realloc : Option Memory) :
    w.nvMapBuffer false b calloc realloc = some (.success,
      (w.setSurface buf.surfaceId { sf with locked := true }).setBuffer b
        { buf with mappedSurfaceLock := true }) := by
  unfold nvMapBuffer
  simp only [hb, hs, ensureSurfaceHostBuffer_of_some hhost]
  rw [setSurface_self hs]
  simp [mapDirect, hlock, hl]

/-- A map in strict mode copies the host buffer to the shadow. -/
theorem nvMapBuffer_strict (hb : w.buffers b = some buf) (hs : w.surfaces buf.surfaceId = some sf)
    (hhost : sf.hostData = some host) (hl : sf.locked = false)
    {realloc : Option Memory} {m : Memory}
    (hm : (if buf.needsShadow sf.hostTotalSize then realloc else w.memoryAt buf.ptr) = some m)
    (calloc : Bool) :
    w.nvMapBuffer true b calloc realloc = some (.success, w.setBuffer b { buf with
      ptr := .own (Bytes.write m 0 (Bytes.read host 0 sf.hostTotalSize))
      size := sf.hostTotalSize
      ownsPtr := true }) := by
  unfold nvMapBuffer
  simp only [hb, hs, ensureSurfaceHostBuffer_of_some hhost]
  rw [setSurface_self hs]
  simp [mapShadow, hm, hl]

theorem nvMapBuffer_unknown (hb : w.buffers b = none) (strict : Bool) (calloc : Bool)
    (realloc : Option Memory) :
    w.nvMapBuffer strict b calloc realloc = some (.errorInvalidBuffer, w) := by
  unfold nvMapBuffer
  rw [hb]

/-- Created images have no surface. -/
theorem nvMapBuffer_of_none (hb : w.buffers b = some buf) (hs : w.surfaces buf.surfaceId = none)
    (strict : Bool) (calloc : Bool) (realloc : Option Memory) :
    w.nvMapBuffer strict b calloc realloc = some (.success, w) := by
  unfold nvMapBuffer
  simp only [hb, hs]

theorem commitOnUnmap_eq (hc : buf.commitOnUnmap = false) (calloc : Bool) :
    w.commitOnUnmap buf calloc = some w := by
  unfold commitOnUnmap
  rw [hc]
  rfl

theorem nvUnmapBuffer_of_none (hb : w.buffers b = some buf) (hs : w.surfaces buf.surfaceId = none)
    (hc : buf.commitOnUnmap = false) (strict calloc : Bool) :
    w.nvUnmapBuffer strict b calloc = some (.success, w) := by
  unfold nvUnmapBuffer
  simp [hb, hs, commitOnUnmap_eq hc]

theorem nvUnmapBuffer_unknown (hb : w.buffers b = none) (strict calloc : Bool) :
    w.nvUnmapBuffer strict b calloc = some (.errorInvalidBuffer, w) := by
  unfold nvUnmapBuffer
  rw [hb]

/-- An unmap in normal mode unlocks the surface. -/
theorem nvUnmapBuffer_direct (hb : w.buffers b = some buf) (hs : w.surfaces buf.surfaceId = some sf)
    (hhost : sf.hostData = some host) (hlock : buf.mappedSurfaceLock = true)
    (hc : buf.commitOnUnmap = false) (calloc : Bool) :
    w.nvUnmapBuffer false b calloc = some (.success,
      (w.setSurface buf.surfaceId { wholeReady sf with locked := false }).setBuffer b
        { buf with mappedSurfaceLock := false }) := by
  unfold nvUnmapBuffer
  simp only [hb, hs, ensureSurfaceHostBuffer_of_some hhost]
  rw [setSurface_self hs]
  simp [unmapSurface, hlock, commitOnUnmap_eq hc]

/-- An unmap in strict mode copies the shadow to the host buffer. -/
theorem nvUnmapBuffer_strict {id size : Nat} {m : Memory}
    (hb : w.buffers b = some (shadowBuffer id size m)) (hs : w.surfaces id = some sf)
    (hhost : sf.hostData = some host) (hl : sf.locked = false) (calloc : Bool) :
    w.nvUnmapBuffer true b calloc = some (.success,
      w.setSurface id (wholeReady (committed sf host m size))) := by
  have hs' : w.surfaces (shadowBuffer id size m).surfaceId = some sf := hs
  unfold nvUnmapBuffer
  simp only [hb, hs', ensureSurfaceHostBuffer_of_some hhost]
  rw [setSurface_self hs']
  simp [unmapSurface, commitOnUnmap_eq, shadowBuffer, BufferPtr.isNull, memoryAt, hl]
  rw [← hl]

end MapWorld

theorem rel_mono {α β : Type*} {R S : α → β → Prop} {x : Option α} {y : Option β}
    (h : Option.Rel R x y) (hRS : ∀ a b, R a b → S a b) : Option.Rel S x y := by
  cases h with
  | some hr => exact .some (hRS _ _ hr)
  | none => exact .none

namespace Sim

variable {n s : MapWorld} (h : Sim n s)
include h

theorem surface_cases (id : Nat) : (n.surfaces id = none ∧ s.surfaces id = none) ∨
    ∃ sn ss, n.surfaces id = some sn ∧ s.surfaces id = some ss ∧ SurfaceSim s.buffers id sn ss := by
  have hrel := h.surfaces id
  cases hn : n.surfaces id <;> cases hs : s.surfaces id <;> rw [hn, hs] at hrel <;> cases hrel
  · exact .inl ⟨rfl, rfl⟩
  · next hsim => exact .inr ⟨_, _, rfl, rfl, hsim⟩

theorem buffer_cases (b : Nat) : (n.buffers b = none ∧ s.buffers b = none) ∨
    ∃ bn bs, n.buffers b = some bn ∧ s.buffers b = some bs ∧ BufferSim s.surfaces b bn bs := by
  have hrel := h.buffers b
  cases hn : n.buffers b <;> cases hs : s.buffers b <;> rw [hn, hs] at hrel <;> cases hrel
  · exact .inl ⟨rfl, rfl⟩
  · next hsim => exact .inr ⟨_, _, rfl, rfl, hsim⟩

/-- A surface that is not mapped is the same in both modes. -/
theorem closed_cases {id : Nat} (hm : n.MappedBy id none) :
    (n.surfaces id = none ∧ s.surfaces id = none) ∨
    ∃ sf, n.surfaces id = some sf ∧ s.surfaces id = some sf ∧ sf.locked = false ∧
    sf.mode ≠ some .decode ∧
      sf.mappedBy = none := by
  refine (h.surface_cases id).imp_right ?_
  rintro ⟨sn, ss, hn, hs, hsim⟩
  have hss : ss.mappedBy = none := hsim.mappedBy.symm.trans (hm sn hn)
  obtain rfl := hsim.closed hss
  exact ⟨sn, hn, hs, hsim.unlocked, hsim.mode, hss⟩

/-- Both modes return the same. -/
theorem reply (status : Objects.VAStatus) (bytes : List UInt8) :
    Sim (n.reply status bytes) (s.reply status bytes) :=
  { h with replies := by rw [MapWorld.reply, MapWorld.reply, h.replies] }

/-! ## Updates of both worlds -/

theorem id_ne_zero {id : Nat} {sf : MapSurface} (hs : s.surfaces id = some sf) : id ≠ 0 := by
  rintro rfl
  rw [h.zero] at hs
  cases hs

/-- A surface that is not mapped changes in the same way. -/
theorem setSurface {id : Nat} {sf : MapSurface} (sf' : MapSurface) (hs : s.surfaces id = some sf)
    (hm : sf.mappedBy = none) (hsize : sf'.hostTotalSize = sf.hostTotalSize)
    (hhost : sf.hostData.isSome → sf'.hostData.isSome) (hl : sf'.locked = false)
    (hd : sf'.mode ≠ some .decode) (hm' : sf'.mappedBy = none) :
    Sim (n.setSurface id sf') (s.setSurface id sf') where
  nextObjId := h.nextObjId
  images := h.images
  replies := h.replies
  surfaces id' := by
    show Option.Rel _ (Function.update n.surfaces id (some sf') id')
        (Function.update s.surfaces id (some sf') id')
    by_cases hid : id' = id
    · subst hid
      rw [Function.update_self, Function.update_self]
      exact .some (.of_closed hl hd hm')
    · rw [Function.update_of_ne hid, Function.update_of_ne hid]
      exact h.surfaces id'
  buffers b := by
    show Option.Rel _ (n.buffers b) (s.buffers b)
    refine rel_mono (h.buffers b) fun _ _ hb => hb.congr fun s₁ sf₁ hs₁ hhost₁ => ?_
    by_cases hid : s₁ = id
    · subst hid
      obtain rfl : sf = sf₁ := Option.some_inj.mp (hs.symm.trans hs₁)
      exact ⟨sf', Function.update_self .., hhost hhost₁, hsize, by rw [hm, hm']⟩
    · exact ⟨sf₁, (Function.update_of_ne hid ..).trans hs₁, hhost₁, rfl, Iff.rfl⟩
  zero := by
    show Function.update s.surfaces id (some sf') 0 = none
    rw [Function.update_of_ne (h.id_ne_zero hs).symm]
    exact h.zero
  fresh := h.fresh
  created := h.created

/-- A new buffer. -/
theorem newBuffer {b k : Nat} {bn bs : ImageBuffer} (hb : s.nextObjId < b) (hk : b ≤ k)
    (hsim : BufferSim s.surfaces b bn bs) :
    Sim { n.setBuffer b bn with nextObjId := k } { s.setBuffer b bs with nextObjId := k } where
  nextObjId := rfl
  images := h.images
  replies := h.replies
  surfaces id := by
    refine rel_mono (h.surfaces id) fun _ _ hs => hs.congr fun b' size m hb' => ?_
    have hne : b' ≠ b := by
      rintro rfl
      rw [h.fresh b' hb] at hb'
      cases hb'
    exact (Function.update_of_ne hne ..).trans hb'
  buffers b' := by
    show Option.Rel _ (Function.update n.buffers b (some bn) b')
        (Function.update s.buffers b (some bs) b')
    by_cases hid : b' = b
    · subst hid
      rw [Function.update_self, Function.update_self]
      exact .some hsim
    · rw [Function.update_of_ne hid, Function.update_of_ne hid]
      exact h.buffers b'
  zero := h.zero
  fresh b' hb' := by
    have hb' : k < b' := hb'
    exact (Function.update_of_ne (by omega) ..).trans (h.fresh b' (by omega))
  created i img himg := by
    obtain ⟨size, m, hbuf⟩ := h.created i img himg
    have hne : img.imageBuffer ≠ b := by
      rintro heq
      rw [heq, h.fresh b hb] at hbuf
      cases hbuf
    exact ⟨size, m, (Function.update_of_ne hne ..).trans hbuf⟩

/-- The memory of a created image changes in the same way. -/
theorem setCreated {b size : Nat} {m m' : Memory} (hb : s.buffers b = some (createdBuffer size m)) :
    Sim (n.setBuffer b (createdBuffer size m')) (s.setBuffer b (createdBuffer size m')) where
  nextObjId := h.nextObjId
  images := h.images
  replies := h.replies
  surfaces id := by
    obtain ⟨hn, hs⟩ | ⟨sn, ss, hn, hs, hsim⟩ := h.surface_cases id
    · show Option.Rel _ (n.surfaces id) (s.surfaces id)
      rw [hn, hs]
      exact .none
    · show Option.Rel _ (n.surfaces id) (s.surfaces id)
      rw [hn, hs]
      refine .some (hsim.congr fun b' size' m₁ hb' => ?_)
      have hne : b' ≠ b := by
        rintro rfl
        exact h.id_ne_zero hs
          (congrArg ImageBuffer.surfaceId (Option.some_inj.mp (hb'.symm.trans hb)))
      exact (Function.update_of_ne hne ..).trans hb'
  buffers b' := by
    show Option.Rel _ (Function.update n.buffers b _ b') (Function.update s.buffers b _ b')
    by_cases hid : b' = b
    · subst hid
      rw [Function.update_self, Function.update_self]
      exact .some (.created size m')
    · rw [Function.update_of_ne hid, Function.update_of_ne hid]
      exact h.buffers b'
  zero := h.zero
  fresh b' hb' := by
    have hne : b' ≠ b := by
      rintro rfl
      rw [h.fresh b' hb'] at hb
      cases hb
    exact (Function.update_of_ne hne ..).trans (h.fresh b' hb')
  created i img himg := by
    by_cases hid : img.imageBuffer = b
    · rw [hid]
      exact ⟨size, m', Function.update_self ..⟩
    · obtain ⟨size', m₁, hbuf⟩ := h.created i img himg
      exact ⟨size', m₁, (Function.update_of_ne hid ..).trans hbuf⟩

/-- A surface and the buffer of one of its derived images change together. -/
theorem setBoth {id b : Nat} {ss : MapSurface} (ss' sn' : MapSurface) {old : ImageBuffer}
    (bn bs : ImageBuffer) (hs : s.surfaces id = some ss)
    (hb : s.buffers b = some old) (hold : old.surfaceId = id)
    (hsize : ss'.hostTotalSize = ss.hostTotalSize) (hhost : ss'.hostData.isSome)
    (hmap : ∀ b', b' ≠ b → (ss'.mappedBy = some b' ↔ ss.mappedBy = some b'))
    (hbuf : BufferSim (Function.update s.surfaces id (some ss')) b bn bs)
    (hsurf : SurfaceSim (Function.update s.buffers b (some bs)) id sn' ss') :
    Sim ((n.setSurface id sn').setBuffer b bn) ((s.setSurface id ss').setBuffer b bs) where
  nextObjId := h.nextObjId
  images := h.images
  replies := h.replies
  surfaces id' := by
    show Option.Rel _ (Function.update n.surfaces id (some sn') id')
        (Function.update s.surfaces id (some ss') id')
    by_cases hid : id' = id
    · subst hid
      rw [Function.update_self, Function.update_self]
      exact .some hsurf
    · rw [Function.update_of_ne hid, Function.update_of_ne hid]
      refine rel_mono (h.surfaces id') fun _ _ hsim => hsim.congr fun b' size m hb' => ?_
      have hne : b' ≠ b := by
        rintro rfl
        obtain rfl := Option.some_inj.mp (hb'.symm.trans hb)
        exact hid hold
      exact (Function.update_of_ne hne ..).trans hb'
  buffers b' := by
    show Option.Rel _ (Function.update n.buffers b (some bn) b')
        (Function.update s.buffers b (some bs) b')
    by_cases hid : b' = b
    · subst hid
      rw [Function.update_self, Function.update_self]
      exact .some hbuf
    · rw [Function.update_of_ne hid, Function.update_of_ne hid]
      refine rel_mono (h.buffers b') fun _ _ hsim => hsim.congr fun s₁ sf₁ hs₁ hhost₁ => ?_
      by_cases hid' : s₁ = id
      · subst hid'
        obtain rfl : ss = sf₁ := Option.some_inj.mp (hs.symm.trans hs₁)
        exact ⟨ss', Function.update_self .., hhost, hsize, hmap b' hid⟩
      · exact ⟨sf₁, (Function.update_of_ne hid' ..).trans hs₁, hhost₁, rfl, Iff.rfl⟩
  zero := (Function.update_of_ne (h.id_ne_zero hs).symm ..).trans h.zero
  fresh b' hb' := by
    have hne : b' ≠ b := by
      rintro rfl
      rw [h.fresh b' hb'] at hb
      cases hb
    exact (Function.update_of_ne hne ..).trans (h.fresh b' hb')
  created i img himg := by
    obtain ⟨size, m, hcreated⟩ := h.created i img himg
    have hne : img.imageBuffer ≠ b := by
      rintro heq
      rw [heq] at hcreated
      obtain rfl := Option.some_inj.mp (hcreated.symm.trans hb)
      exact h.id_ne_zero hs hold.symm
    exact ⟨size, m, (Function.update_of_ne hne ..).trans hcreated⟩

/-! ## Created images -/

theorem buffer_created {b size : Nat} {m : Memory}
    (hb : s.buffers b = some (createdBuffer size m)) :
    n.buffers b = some (createdBuffer size m) := by
  obtain ⟨-, hnone⟩ | ⟨bn, bs, hn, hs, hsim⟩ := h.buffer_cases b
  · rw [hnone] at hb
    cases hb
  · obtain rfl : bs = createdBuffer size m := Option.some_inj.mp (hs.symm.trans hb)
    generalize hbs : createdBuffer size m = bs at hsim
    cases hsim with
    | created _ _ => exact hn
    | derived _ _ _ => cases hbs
    | shadow m' hsf _ => exact absurd (congrArg ImageBuffer.surfaceId hbs).symm (h.id_ne_zero hsf)

/-- A created image is the same in both modes, and has memory. -/
theorem image_cases (i : Nat) : (n.image i = none ∧ s.image i = none) ∨
    ∃ img size m, s.images i = some img ∧ s.buffers img.imageBuffer = some (createdBuffer size m) ∧
      n.image i = some { img.layout with size, ptr := some m } ∧
      s.image i = some { img.layout with size, ptr := some m } := by
  cases himg : s.images i with
  | none =>
    refine .inl ⟨?_, ?_⟩
    · rw [MapWorld.image, h.images, himg]
      rfl
    · rw [MapWorld.image, himg]
      rfl
  | some img =>
    obtain ⟨size, m, hb⟩ := h.created i img himg
    refine .inr ⟨img, size, m, rfl, hb, ?_, ?_⟩
    · simp only [MapWorld.image, h.images, himg, Option.bind_eq_bind, Option.bind_some,
        h.buffer_created hb]
      rfl
    · simp only [MapWorld.image, himg, Option.bind_eq_bind, Option.bind_some, hb]
      rfl

theorem setImage {i : Nat} {img : ImageObject} {size : Nat} {m : Memory}
    (himg : s.images i = some img) (hb : s.buffers img.imageBuffer = some (createdBuffer size m))
    (m' : Memory) : Sim (n.setImage i m') (s.setImage i m') := by
  simp only [MapWorld.setImage, h.images, himg, h.buffer_created hb, hb]
  exact h.setCreated hb

/-! ## The calls -/

/-- Both modes have a result, and the worlds are related again. -/
def Both (rn rs : Option MapWorld) : Prop := ∃ n' s', rn = some n' ∧ rs = some s' ∧ Sim n' s'

omit h in
theorem Both.intro {n' s' : MapWorld} (h' : Sim n' s') : Both (some n') (some s') :=
  ⟨n', s', rfl, rfl, h'⟩

theorem createImage {format : VAFourcc} {width height : Int32} {memory : Option Memory}
    (hm : memory.isSome) (hdef : (nvCreateImage format width height memory).isSome) :
    Both (n.createImage format width height memory) (s.createImage format width height memory) := by
  obtain ⟨m, rfl⟩ := Option.isSome_iff_exists.mp hm
  obtain ⟨r, hr⟩ := Option.isSome_iff_exists.mp hdef
  unfold MapWorld.createImage
  rw [hr]
  cases r with
  | error status => exact .intro (h.reply status [])
  | ok img =>
    rw [Option.bind_eq_bind, Option.bind_some, Option.bind_some, h.nextObjId, h.images]
    have hnew :=
      h.newBuffer (b := s.nextObjId + 2) (k := s.nextObjId + 2) (by omega) (Nat.le_refl _)
      (.created img.size m)
    have himages : Sim
        { n.setBuffer (s.nextObjId + 2) (createdBuffer img.size m) with
          images := Function.update s.images (s.nextObjId + 1) (some ⟨img, s.nextObjId + 2⟩)
          nextObjId := s.nextObjId + 2 }
        { s.setBuffer (s.nextObjId + 2) (createdBuffer img.size m) with
          images := Function.update s.images (s.nextObjId + 1) (some ⟨img, s.nextObjId + 2⟩)
          nextObjId := s.nextObjId + 2 } := by
      refine { hnew with images := rfl, created := fun i o ho => ?_ }
      have ho :
          Function.update s.images (s.nextObjId + 1) (some ⟨img, s.nextObjId + 2⟩) i = some o := ho
      by_cases hi : i = s.nextObjId + 1
      · subst hi
        rw [Function.update_self] at ho
        obtain rfl := Option.some_inj.mp ho
        exact ⟨img.size, m, Function.update_self ..⟩
      · rw [Function.update_of_ne hi] at ho
        exact hnew.created i o ho
    exact .intro (himages.reply .success [])

theorem deriveImage {id : Nat} (hm : n.MappedBy id none) :
    Both (some (n.deriveImage id true)) (some (s.deriveImage id true)) := by
  unfold MapWorld.deriveImage
  obtain ⟨hn, hs⟩ | ⟨sf, hn, hs, hl, hd, hmap⟩ := h.closed_cases hm
  · rw [hn, hs]
    exact .intro (h.reply _ _)
  · obtain ⟨e, host, he, hhost, hsize⟩ := exists_host sf
    rw [hn, hs]
    simp only [he, h.nextObjId]
    have htotal : e.hostTotalSize = sf.hostTotalSize := congrArg EncodeSurface.hostTotalSize hsize
    have hset := h.setSurface { sf with toNVSurface := e } hs hmap htotal
      (fun _ => by rw [hhost]; rfl) hl hd hmap
    have hself : (s.setSurface id { sf with toNVSurface := e }).surfaces id = some
        { sf with toNVSurface := e } :=
      Function.update_self ..
    have hbuf :=
      BufferSim.derived (b := s.nextObjId + 1) hself (by rw [hhost]; rfl) (by rw [hmap]; nofun)
    exact .intro ((hset.newBuffer (Nat.lt_succ_self _) (Nat.le_succ _) hbuf).reply _ _)

/-- A map of a derived image, which is `buf` in strict mode and gets the shadow `m`. -/
theorem mapped {b id : Nat} {sf : MapSurface} {host m : Memory} {buf : ImageBuffer}
    (hb : s.buffers b = some buf) (hid : buf.surfaceId = id) (hs : s.surfaces id = some sf)
    (hhost : sf.hostData = some host) (hl : sf.locked = false) (hd : sf.mode ≠ some .decode)
    (hmap : sf.mappedBy = none) :
    Sim ((n.setSurface id { sf with locked := true, mappedBy := some b }).setBuffer b
          (derivedBuffer id sf.hostTotalSize true))
      ((s.setSurface id { sf with mappedBy := some b }).setBuffer b
        (shadowBuffer id sf.hostTotalSize
          (Bytes.write m 0 (Bytes.read host 0 sf.hostTotalSize)))) := by
  refine h.setBoth _ _ _ _ hs hb hid rfl (by rw [hhost]; rfl) (fun b' hne => ?_) ?_ ?_
  · rw [hmap]
    exact iff_of_false (fun h => hne (Option.some_inj.mp h).symm) nofun
  · have hself : Function.update s.surfaces id (some { sf with mappedBy := some b }) id =
        some { sf with mappedBy := some b } := Function.update_self ..
    have hbuf :=
      BufferSim.shadow (b := b) (Bytes.write m 0 (Bytes.read host 0 sf.hostTotalSize)) hself
      (by rw [hhost]; rfl)
    simpa using hbuf
  · refine ⟨hl, hd, nofun, fun b' hb' => ?_⟩
    obtain rfl := Option.some_inj.mp hb'
    refine ⟨host, _, hhost, Function.update_self .., ?_⟩
    rw [directSurface]
    show _ = { sf with
      hostData := some (Bytes.write host 0
        (Bytes.read (Bytes.write m 0 (Bytes.read host 0 sf.hostTotalSize)) 0 sf.hostTotalSize))
      locked := true
      mappedBy := some b }
    rw [Bytes.write_read_write, ← hhost]

omit h in
/-- The call of a map that succeeds on a surface. -/
theorem mapStep_mapBuffer {w w' : MapWorld} {strict : Bool} {b : Nat} {calloc : Bool}
    {realloc : Option Memory} {buf : ImageBuffer} {sf : MapSurface}
    (hmap : w.nvMapBuffer strict b calloc realloc = some (.success, w'))
    (hb : w'.buffers b = some buf) (hs : w'.surfaces buf.surfaceId = some sf) :
    mapStep strict w (.mapBuffer b calloc realloc) =
      some ((w'.setSurface buf.surfaceId { sf with mappedBy := some b }).reply .success []) := by
  simp [mapStep, hmap, MapWorld.setMapped_eq hb hs]

/-- A map of a derived image, with its buffers in the two modes. -/
theorem mapDerived {b id : Nat} {bn bs : ImageBuffer} {sf : MapSurface} {m : Memory}
    {realloc : Option Memory} (hn : n.buffers b = some bn)
    (hbn : bn = derivedBuffer id sf.hostTotalSize false) (hs : s.buffers b = some bs)
    (hid : bs.surfaceId = id) (hcommit : bs.commitOnUnmap = false)
    (hlock : bs.mappedSurfaceLock = false) (hsn : n.surfaces id = some sf)
    (hss : s.surfaces id = some sf) (hhost : sf.hostData.isSome) (hl : sf.locked = false)
    (hd : sf.mode ≠ some .decode) (hmap : sf.mappedBy = none)
    (hm : (if bs.needsShadow sf.hostTotalSize then realloc else s.memoryAt bs.ptr) = some m) :
    Both (mapStep false n (.mapBuffer b true realloc))
      (mapStep true s (.mapBuffer b true realloc)) := by
  obtain ⟨host, hhost⟩ := Option.isSome_iff_exists.mp hhost
  subst hbn hid
  have hdirect := MapWorld.nvMapBuffer_direct hn hsn hhost rfl hl true realloc
  have hstrict := MapWorld.nvMapBuffer_strict hs hss hhost hl hm true
  rw [mapStep_mapBuffer hdirect (Function.update_self ..) (Function.update_self ..),
    mapStep_mapBuffer hstrict (Function.update_self ..) hss]
  have hsim := h.mapped (m := m) hs rfl hss hhost hl hd hmap
  refine .intro (Sim.reply ?_ _ _)
  have hbs : ({ bs with
      ptr := .own (Bytes.write m 0 (Bytes.read host 0 sf.hostTotalSize))
      size := sf.hostTotalSize
      ownsPtr := true } : ImageBuffer) =
      shadowBuffer bs.surfaceId sf.hostTotalSize
        (Bytes.write m 0 (Bytes.read host 0 sf.hostTotalSize)) := by
    simp only [shadowBuffer, hcommit, hlock]
  rw [hbs, MapWorld.setBuffer_setSurface, MapWorld.setSurface_setSurface,
    MapWorld.setBuffer_setSurface]
  exact hsim

theorem mapBuffer {b : Nat} {realloc : Option Memory} (hr : realloc.isSome)
    (hm : n.BufferMappedBy b none) :
    Both (mapStep false n (.mapBuffer b true realloc))
      (mapStep true s (.mapBuffer b true realloc)) := by
  obtain ⟨m, hm'⟩ := Option.isSome_iff_exists.mp hr
  obtain ⟨hn, hs⟩ | ⟨bn, bs, hn, hs, hsim⟩ := h.buffer_cases b
  · simp only [mapStep, MapWorld.nvMapBuffer_unknown hn, MapWorld.nvMapBuffer_unknown hs]
    exact .intro (h.reply _ _)
  · have hclosed := h.closed_cases (hm bn hn)
    cases hsim with
    | created size m =>
      have hzero : n.surfaces 0 = none := by
        obtain ⟨hn₀, -⟩ | ⟨sf, -, hs₀, -⟩ := hclosed
        · exact hn₀
        · exact absurd rfl (h.id_ne_zero hs₀)
      simp only [mapStep, MapWorld.nvMapBuffer_of_none hn hzero,
        MapWorld.nvMapBuffer_of_none hs h.zero]
      simp only [Option.bind_eq_bind, Option.bind_some, if_true,
        MapWorld.setMapped_of_none hn hzero, MapWorld.setMapped_of_none hs h.zero]
      exact .intro (h.reply _ _)
    | @derived id sf hsf hhost hmap =>
      obtain ⟨-, hno⟩ | ⟨sf', hsn, hss, hl, hd, hnone⟩ := hclosed
      · exact absurd (hno.symm.trans hsf) nofun
      · obtain rfl : sf' = sf := Option.some_inj.mp (hss.symm.trans hsf)
        exact h.mapDerived hn rfl hs rfl rfl rfl hsn hss hhost hl hd hnone hm'
    | @shadow id sf m' hsf hhost =>
      obtain ⟨-, hno⟩ | ⟨sf', hsn, hss, hl, hd, hnone⟩ := hclosed
      · exact absurd (hno.symm.trans hsf) nofun
      · obtain rfl : sf' = sf := Option.some_inj.mp (hss.symm.trans hsf)
        have hkept :
            (shadowBuffer id sf'.hostTotalSize m').needsShadow sf'.hostTotalSize = false := by
          simp [ImageBuffer.needsShadow, shadowBuffer, BufferPtr.isHost, BufferPtr.isNull]
        refine h.mapDerived hn (by rw [hnone]; rfl) hs rfl rfl rfl hsn hss hhost hl hd hnone
          (m := m') ?_
        rw [hkept]
        rfl

/-- A buffer that the client has a pointer to: that of a created image, or that of a derived image
which is mapped. -/
theorem open_cases {b : Nat} {bn : ImageBuffer} (hn : n.buffers b = some bn)
    (hm : n.MappedBy bn.surfaceId (some b)) :
    (∃ size m, bn = createdBuffer size m ∧ s.buffers b = some (createdBuffer size m)) ∨
      ∃ id ss host m, bn = derivedBuffer id ss.hostTotalSize true ∧
        s.buffers b = some (shadowBuffer id ss.hostTotalSize m) ∧
        n.surfaces id = some (directSurface ss host m) ∧
        s.surfaces id = some ss ∧ ss.hostData = some host ∧ ss.mappedBy = some b ∧
        ss.locked = false ∧
        ss.mode ≠ some .decode := by
  obtain ⟨hno, -⟩ | ⟨bn', bs, hn', hs, hsim⟩ := h.buffer_cases b
  · rw [hno] at hn
    cases hn
  · obtain rfl : bn' = bn := Option.some_inj.mp (hn'.symm.trans hn)
    -- the surface is mapped in both modes
    have hmapped {id : Nat} {sf : MapSurface} (hid : bn'.surfaceId = id)
        (hsf : s.surfaces id = some sf) :
        ∃ sn, n.surfaces id = some sn ∧ SurfaceSim s.buffers id sn sf ∧ sf.mappedBy = some b := by
      obtain ⟨-, hno⟩ | ⟨sn, ss, hsn, hss, hsurf⟩ := h.surface_cases id
      · rw [hno] at hsf
        cases hsf
      · obtain rfl : ss = sf := Option.some_inj.mp (hss.symm.trans hsf)
        exact ⟨sn, hsn, hsurf, hsurf.mappedBy.symm.trans (hm sn (hid ▸ hsn))⟩
    cases hsim with
    | created size m => exact .inl ⟨size, m, rfl, hs⟩
    | derived hsf _ hno =>
      obtain ⟨-, -, -, hmap⟩ := hmapped rfl hsf
      exact absurd hmap hno
    | @shadow id sf m hsf hhost =>
      obtain ⟨sn, hsn, hsurf, hmap⟩ := hmapped rfl hsf
      obtain ⟨host, m', hhost', hbuf, rfl⟩ := hsurf.mapped b hmap
      refine .inr ⟨id, sf, host, m', by simp [hmap], hbuf, hsn, hsf, hhost', hmap,
        hsurf.unlocked, hsurf.mode⟩

theorem write {b offset : Nat} {bytes : List UInt8} (hin : n.InMapped b offset bytes.length) :
    Both (n.write b offset bytes) (s.write b offset bytes) := by
  obtain ⟨bn, hn, -, hm⟩ := hin
  rw [Option.mem_def] at hn
  obtain ⟨size, m, rfl, hs⟩ | ⟨id, ss, host, m, rfl, hs, hsn, hss, hhost, hmap, hl, hd⟩ :=
    h.open_cases hn fun sf hsf => (hm sf hsf).1
  · unfold MapWorld.write
    rw [hn, hs]
    exact .intro (h.setCreated hs)
  · have hfit : offset + bytes.length ≤ ss.hostTotalSize := (hm _ hsn).2
    have hset := h.setBoth ss (directSurface ss host (Bytes.write m offset bytes))
      (derivedBuffer id ss.hostTotalSize true)
        (shadowBuffer id ss.hostTotalSize (Bytes.write m offset bytes))
      hss hs rfl rfl (by rw [hhost]; rfl) (fun _ _ => Iff.rfl) ?_ ?_
    · rw [MapWorld.setSurface_self hss, MapWorld.setBuffer_self (w := n.setSurface _ _) hn] at hset
      refine ⟨_, _, ?_, ?_, hset⟩
      · have hmem : n.memoryAt (.host id) =
            some (Bytes.write host 0 (Bytes.read m 0 ss.hostTotalSize)) := by
          rw [MapWorld.memoryAt, hsn]
          rfl
        unfold MapWorld.write
        rw [hn, Option.bind_eq_bind, Option.bind_some]
        show (n.memoryAt (.host id)).bind _ = _
        rw [hmem, Option.bind_some, Bytes.write_write_read hfit]
        simp only [MapWorld.setMemory, derivedBuffer, hsn]
        rfl
      · unfold MapWorld.write
        rw [hs]
        rfl
    · have hself : Function.update s.surfaces id (some ss) id = some ss := Function.update_self ..
      have hbuf := BufferSim.shadow (b := b) (Bytes.write m offset bytes) hself (by rw [hhost]; rfl)
      simpa [hmap] using hbuf
    · refine ⟨hl, hd, fun hno => absurd (hmap.symm.trans hno) nofun, fun b' hb' => ?_⟩
      obtain rfl := Option.some_inj.mp (hmap.symm.trans hb')
      exact ⟨host, _, hhost, Function.update_self .., rfl⟩

theorem read {b offset k : Nat} (hin : n.InMapped b offset k) :
    Both (n.read b offset k) (s.read b offset k) := by
  obtain ⟨bn, hn, -, hm⟩ := hin
  rw [Option.mem_def] at hn
  obtain ⟨size, m, rfl, hs⟩ | ⟨id, ss, host, m, rfl, hs, hsn, hss, hhost, hmap, hl, hd⟩ :=
    h.open_cases hn fun sf hsf => (hm sf hsf).1
  · unfold MapWorld.read
    rw [hn, hs]
    exact .intro (h.reply _ _)
  · have hfit : offset + k ≤ ss.hostTotalSize := (hm _ hsn).2
    have hmem :
        n.memoryAt (.host id) = some (Bytes.write host 0 (Bytes.read m 0 ss.hostTotalSize)) := by
      rw [MapWorld.memoryAt, hsn]
      rfl
    have hread : Bytes.read (Bytes.write host 0 (Bytes.read m 0 ss.hostTotalSize)) offset k =
        Bytes.read m offset k :=
      Bytes.read_congr fun i _ hi => by rw [Bytes.write_read_apply, if_pos (by omega)]
    refine ⟨_, _, ?_, ?_, h.reply .success (Bytes.read m offset k)⟩
    · unfold MapWorld.read
      rw [hn, Option.bind_eq_bind, Option.bind_some]
      show (n.memoryAt (.host id)).bind _ = _
      rw [hmem, Option.bind_some, hread]
      rfl
    · unfold MapWorld.read
      rw [hs]
      rfl

theorem unmapBuffer {b : Nat} (hm : n.BufferMappedBy b (some b)) :
    Both (mapStep false n (.unmapBuffer b true)) (mapStep true s (.unmapBuffer b true)) := by
  obtain ⟨hn, hs⟩ | ⟨bn, _, hn, -, -⟩ := h.buffer_cases b
  · simp only [mapStep, MapWorld.nvUnmapBuffer_unknown hn, MapWorld.nvUnmapBuffer_unknown hs,
      MapWorld.setMapped]
    simp only [Option.bind_eq_bind, Option.bind_some, hn, hs]
    exact .intro (h.reply _ _)
  · obtain ⟨size, m, rfl, hs⟩ | ⟨id, ss, host, m, rfl, hs, hsn, hss, hhost, hmap, hl, hd⟩ :=
      h.open_cases hn (hm bn hn)
    · have hzero : n.surfaces 0 = none := by
        obtain ⟨hn₀, -⟩ | ⟨_, _, -, hs₀, -⟩ := h.surface_cases 0
        · exact hn₀
        · exact absurd rfl (h.id_ne_zero hs₀)
      simp only [mapStep, MapWorld.nvUnmapBuffer_of_none hn hzero rfl,
        MapWorld.nvUnmapBuffer_of_none hs h.zero rfl]
      simp only [Option.bind_eq_bind, Option.bind_some, MapWorld.setMapped_of_none hn hzero,
        MapWorld.setMapped_of_none hs h.zero]
      exact .intro (h.reply _ _)
    · -- both modes leave the same surface
      let sf' : MapSurface :=
        { MapWorld.wholeReady (MapWorld.committed ss host m ss.hostTotalSize) with
        mappedBy := none }
      have hset := h.setBoth sf' sf' (derivedBuffer id ss.hostTotalSize false)
        (shadowBuffer id ss.hostTotalSize m) hss hs rfl rfl rfl (fun b' hne =>
          ?_) ?_ (.of_closed hl hd rfl)
      · refine ⟨_, _, ?_, ?_, hset.reply .success []⟩
        · have hdirect := MapWorld.nvUnmapBuffer_direct hn hsn rfl rfl rfl true
          simp only [mapStep, hdirect, Option.bind_eq_bind, Option.bind_some]
          rw [MapWorld.setMapped_eq (Function.update_self ..) (Function.update_self ..),
            MapWorld.setBuffer_setSurface, MapWorld.setSurface_setSurface]
          have hsame : ({ MapWorld.wholeReady (directSurface ss host m) with
              locked := false, mappedBy := none } : MapSurface) = sf' := by
            simp only [sf', MapWorld.wholeReady, MapWorld.committed, directSurface,
              hl, Nat.min_self]
          rw [← hsame]
          rfl
        · simp only [mapStep, MapWorld.nvUnmapBuffer_strict hs hss hhost hl, Option.bind_eq_bind,
            Option.bind_some]
          have hs' :
              (s.setSurface id
                (MapWorld.wholeReady (MapWorld.committed ss host m ss.hostTotalSize))).buffers b =
                some (shadowBuffer id ss.hostTotalSize m) := hs
          rw [MapWorld.setMapped_eq hs' (Function.update_self ..)]
          show some ((MapWorld.setSurface _ id _).reply _ _) = _
          rw [MapWorld.setSurface_setSurface, MapWorld.setBuffer_self (w := s.setSurface id sf') hs]
      · rw [hmap]
        exact iff_of_false nofun fun h => hne (Option.some_inj.mp h).symm
      · have hself : Function.update s.surfaces id (some sf') id = some sf' :=
          Function.update_self ..
        exact BufferSim.shadow (b := b) m hself rfl

theorem putImage {id i : Nat} {p : PutArgs} (hm : n.MappedBy id none) :
    Both (n.putImage id i true p) (s.putImage id i true p) := by
  unfold MapWorld.putImage
  obtain ⟨hn, hs⟩ | ⟨sf, hn, hs, hl, hd, hmap⟩ := h.closed_cases hm
  · rw [hn, hs]
    exact .intro (h.reply _ _)
  · obtain ⟨hn', hs'⟩ | ⟨img, size, m, -, -, hn', hs'⟩ := h.image_cases i
    · rw [hn, hs, hn', hs']
      exact .intro (h.reply _ _)
    · rw [hn, hs, hn', hs']
      simp only [hl, Bool.false_eq_true, and_false, if_false]
      refine Both.intro (Sim.reply (h.setSurface _ hs hmap ?_ (fun hhost => ?_) ?_ ?_ ?_) _ _)
      · obtain ⟨hw, hh⟩ :=
          nvPutImage_size true sf.toNVSurface { img.layout with size, ptr := some m } p
        unfold EncodeSurface.hostTotalSize EncodeSurface.hostYSize EncodeSurface.hostRows
          EncodeSurface.hostPitch
        dsimp only
        rw [hw, hh]
      · obtain ⟨host, hhost⟩ := Option.isSome_iff_exists.mp hhost
        obtain ⟨_, _, hput, -, hafter⟩ | ⟨_, _, -, -, hput⟩ :=
          nvPutImage_cases true { img.layout with size, ptr := some m } p hhost
        · rw [hput]
          exact Option.isSome_of_mem hafter
        · rw [hput]
          rfl
      · rfl
      · exact hd
      · exact hmap

theorem getImage {id i : Nat} {x y : Int32} {width height : UInt32} (hm : n.MappedBy id none) :
    Both (n.getImage id i x y width height) (s.getImage id i x y width height) := by
  unfold MapWorld.getImage
  obtain ⟨hn, hs⟩ | ⟨sf, hn, hs, hl, hd, -⟩ := h.closed_cases hm
  · rw [hn, hs]
    exact .intro (h.reply _ _)
  · obtain ⟨hn', hs'⟩ | ⟨img, size, m, himg, hb, hn', hs'⟩ := h.image_cases i
    · rw [hn, hs, hn', hs']
      exact .intro (h.reply _ _)
    · rw [hn, hs, hn', hs']
      simp only [if_neg hd, hl, Bool.false_eq_true, if_false]
      split
      · exact .intro (Sim.reply (h.setImage himg hb _) _ _)
      · exact .intro (h.reply _ _)

/-- Every call has a result in both modes, and keeps the worlds related. -/
theorem step {a : MapCall} (hok : Bracketed n a) : Both (mapStep false n a) (mapStep true s a) := by
  cases a with
  | createImage format width height memory => exact h.createImage hok.1 hok.2
  | deriveImage id calloc =>
    obtain ⟨rfl, hm⟩ := hok
    exact h.deriveImage hm
  | mapBuffer b calloc realloc =>
    obtain ⟨rfl, hr, hm⟩ := hok
    exact h.mapBuffer hr hm
  | write b offset bytes => exact h.write hok
  | read b offset k => exact h.read hok
  | unmapBuffer b calloc =>
    obtain ⟨rfl, hm⟩ := hok
    exact h.unmapBuffer hm
  | putImage id i calloc p =>
    obtain ⟨rfl, hm⟩ := hok
    exact h.putImage hm
  | getImage id i x y width height => exact h.getImage hok

end Sim

/-! ## Runs -/

theorem sim_of_initial {w : MapWorld} (h : w.Initial) : Sim w w where
  nextObjId := rfl
  images := rfl
  replies := rfl
  surfaces id := by
    cases hs : w.surfaces id with
    | none => exact .none
    | some sf =>
      obtain ⟨hl, hm, hd⟩ := h.surface id sf hs
      exact .some (.of_closed hl hd hm)
  buffers b := by
    rw [h.buffers]
    exact .none
  zero := h.zero
  fresh b _ := by rw [h.buffers]
  created i img hi := by
    rw [h.images] at hi
    cases hi

/-- Outside of maps the two worlds are the same, and all calls returned the same. -/
structure SameOutside (n s : MapWorld) : Prop where
  replies : n.replies = s.replies
  /-- A surface is mapped in both worlds or in none. -/
  mappedBy : ∀ id, (n.surfaces id).map (·.mappedBy) = (s.surfaces id).map (·.mappedBy)
  /-- The host bytes, the content, the status and all else of a surface that is not mapped. -/
  surface : ∀ id, n.MappedBy id none → n.surfaces id = s.surfaces id
  /-- The images with their bytes. -/
  image : ∀ i, n.image i = s.image i

theorem Sim.sameOutside {n s : MapWorld} (h : Sim n s) : SameOutside n s where
  replies := h.replies
  mappedBy id := by
    obtain ⟨hn, hs⟩ | ⟨sn, ss, hn, hs, hsim⟩ := h.surface_cases id
    · rw [hn, hs]
    · rw [hn, hs, Option.map_some, Option.map_some, hsim.mappedBy]
  surface id hm := by
    obtain ⟨hn, hs⟩ | ⟨sf, hn, hs, -⟩ := h.closed_cases hm
    · rw [hn, hs]
    · rw [hn, hs]
  image i := by
    obtain ⟨hn, hs⟩ | ⟨img, size, m, -, -, hn, hs⟩ := h.image_cases i
    · rw [hn, hs]
    · rw [hn, hs]

/-- Any calls that leave mapped surfaces alone, and whose allocations succeed, have a result in both
modes. What they return is the same, and so are the images and every surface that is not mapped. -/
theorem strict_refines {w : MapWorld} (hw : w.Initial) {calls : List MapCall}
    (hok : (mapping false).Meets Bracketed w calls) :
    ∃ n s, (mapping false).run w calls = some n ∧ (mapping true).run w calls = some s ∧
      SameOutside n s := by
  have hstep (n s : MapWorld) (a : MapCall) (h : Sim n s) (hok : Bracketed n a) :
      ∃ n' s', (mapping false).step n a = some n' ∧ (mapping true).step s a = some s' ∧ Sim n' s' :=
        h.step hok
  obtain ⟨n, s, hn, hs, hsim⟩ := Lts.run_simulates hstep (sim_of_initial hw) hok
  exact ⟨n, s, hn, hs, hsim.sameOutside⟩

/-- A client draws into a surface twice through a derived image, and copies it to a created image in
between. -/
def drawCalls : List MapCall :=
  [.deriveImage 1 true, .createImage .nv12 4 4 (some fun _ => 3),
    .mapBuffer 2 true (some fun _ => 5),
    .write 2 1 [8, 9], .unmapBuffer 2 true, .getImage 1 4 0 0 4 4,
      .mapBuffer 2 true (some fun _ => 6), .read 2 0 3,
    .write 2 0 [7], .unmapBuffer 2 true]

/-- The surface 1, which is blank. -/
def blankWorld : MapWorld where
  nextObjId := 1
  surfaces s := if s = 1 then some { EncodeSurface.created 16 16 with
    hostData := none, backingImage := none, status := .ready, mode := none, locked :=
      false, mappedBy := none }
    else none
  buffers _ := none
  images _ := none
  replies := []

theorem strict_refines_draw : ∃ n s, (mapping false).run blankWorld drawCalls = some n ∧
    (mapping true).run blankWorld drawCalls = some s ∧ SameOutside n s := by
  refine strict_refines ⟨fun s sf hs => ?_, rfl, rfl, rfl⟩ (by decide)
  obtain ⟨-, rfl⟩ : s = 1 ∧ _ = sf := by simpa [blankWorld] using hs
  exact ⟨rfl, rfl, nofun⟩

end NvVaapi.Image
