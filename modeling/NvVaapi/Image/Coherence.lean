import NvVaapi.Image.Store

/-!
# When the two stores agree

* `Undecoded`: the steps that submit no picture to decode into a surface, that do not destroy the
  context that it was last used with, and whose sizes do not wrap around.
* `Faithful`: the host buffer of a surface has the completed writes, and `nvGetImage` reads it. The
  steps of `Undecoded` keep it (`reads_step`).
* `coherent_of_undecoded`: after such a run every way to read the surface shows the completed
  writes.
* `decoded_not_coherent`: a decoded picture is in the backing image only, and the locked surface
  shows the host buffer.
-/

namespace NvVaapi.Image

open Objects (NVContextMode PutArgs)

/-- The offset of the chroma plane fits the `uint32_t` in which it is given out. -/
def Small (sf : EncodeSurface) : Prop := sf.SizesFit ∧ sf.hostYSize < 2 ^ 32

instance (sf : EncodeSurface) : Decidable (Small sf) := inferInstanceAs (Decidable (_ ∧ _))

/-- The steps after which surface `s` is still read from where it was written. -/
def Undecoded (s : Nat) (w : SurfaceStore) : StoreCall → Prop
  | .createSurface width height => w.nextId = s → Small (.init .yuv420 width height)
  | .destroyContext c => ∀ e, w.surfaces s = some e → e.context ≠ some c
  | .endPicture c early =>
    early = false → ∀ u, w.contexts c = some u → u.mode = .decode → u.renderTarget ≠ some s
  | .putImage s' img p => s' = s → ∀ e, w.surfaces s = some e → PutFits img e.toNVSurface p
  | _ => True

/-! ## The invariant -/

/-- Between two writes the host buffer shows the completed ones, and `nvGetImage` reads it. -/
structure Faithful (w : SurfaceStore) (e : TrackedSurface) : Prop where
  small : Small e.toEncodeSurface
  even : e.width.toNat % 2 = 0 ∧ e.height.toNat % 2 = 0
  queued : e.queued = false
  encodes : ∀ c, e.context = some c → ∃ u, w.contexts c = some u ∧ u.mode = .encode
  host : ∃ m, e.hostData = some m ∧
    (e.mappedBy = none → e.Shows ((hostLayout e.toEncodeSurface).picture m))

structure Reads (s : Nat) (w : SurfaceStore) : Prop where
  fresh : ∀ c u, w.contexts c = some u → c < w.nextId
  faithful : ∀ e, w.surfaces s = some e → Faithful w e

section Steps

variable {strict : Bool} {s : Nat} {w : SurfaceStore}

theorem reads_empty : Reads s .empty :=
  ⟨fun _ _ h => by simp [SurfaceStore.empty] at h, fun _ h => by simp [SurfaceStore.empty] at h⟩

/-- A surface stays faithful while the contexts keep their modes. -/
theorem Faithful.mono {w' : SurfaceStore} {e : TrackedSurface} (h : Faithful w e)
    (hc : ∀ c u, e.context = some c → w.contexts c = some u →
      ∃ u', w'.contexts c = some u' ∧ u'.mode = u.mode) : Faithful w' e := by
  refine { h with encodes := fun c he => ?_ }
  obtain ⟨u, hu, hmode⟩ := h.encodes c he
  obtain ⟨u', hu', hsame⟩ := hc c u he hu
  exact ⟨u', hu', hsame.trans hmode⟩

/-- Changing one surface. -/
theorem Reads.setSurface (h : Reads s w) {s' : Nat} {e' : TrackedSurface}
    (he : s' = s → Faithful w e') : Reads s (w.setSurface s' e') := by
  refine ⟨h.fresh, fun e hs => ?_⟩
  by_cases hss : s = s'
  · subst hss
    obtain rfl : e' = e := by simpa [SurfaceStore.setSurface] using hs
    exact { he rfl with }
  · have hold : w.surfaces s = some e := by simpa [SurfaceStore.setSurface, hss] using hs
    exact { h.faithful e hold with }

/-- Changing a context, but not its mode. -/
theorem Reads.setContext (h : Reads s w) {c : Nat} {u u' : SurfaceUser} (hu : w.contexts c = some u)
    (hmode : u'.mode = u.mode) :
    Reads s { w with contexts := Function.update w.contexts c (some u') } := by
  refine ⟨fun c₁ u₁ h₁ => ?_, fun e hs => (h.faithful e hs).mono fun c₁ u₁ _ h₁ => ?_⟩
  · by_cases hc : c₁ = c
    · subst hc
      exact h.fresh _ u hu
    · exact h.fresh c₁ u₁ (by simpa [hc] using h₁)
  · by_cases hc : c₁ = c
    · subst hc
      obtain rfl : u = u₁ := Option.some_inj.mp (hu.symm.trans h₁)
      exact ⟨u', by simp, hmode⟩
    · exact ⟨u₁, by simpa [hc] using h₁, rfl⟩

/-- Steps that take an id or change a buffer. -/
theorem Reads.congr (h : Reads s w) {w' : SurfaceStore} (hc : w'.contexts = w.contexts)
    (hs : w'.surfaces s = w.surfaces s) (hn : w.nextId ≤ w'.nextId) : Reads s w' := by
  refine ⟨fun c u hu => ?_, fun e he => (h.faithful e (hs ▸ he)).mono fun c u _ hu => ?_⟩
  · exact Nat.lt_of_lt_of_le (h.fresh c u (hc ▸ hu)) hn
  · exact ⟨u, hc ▸ hu, rfl⟩

theorem even_init (width height : UInt32) :
    (EncodeSurface.init .yuv420 width height).width.toNat % 2 = 0 ∧
      (EncodeSurface.init .yuv420 width height).height.toNat % 2 = 0 :=
  ⟨even_roundUp width, even_roundUp height⟩

theorem reads_createSurface (h : Reads s w) {width height : UInt32}
    (hok : Undecoded s w (.createSurface width height)) :
    Reads s (w.createSurface width height) := by
  refine (h.setSurface fun hs => ?_).congr rfl rfl (Nat.le_succ _)
  exact ⟨hok hs, even_init width height, rfl, fun c hc => by simp at hc, _, rfl,
    fun _ => ⟨fun _ _ _ _ => rfl, fun _ _ _ _ => rfl⟩⟩

theorem reads_destroySurface (h : Reads s w) (s' : Nat) :
    Reads s { w with surfaces := Function.update w.surfaces s' none } := by
  refine ⟨h.fresh, fun e hs => ?_⟩
  by_cases hss : s = s'
  · simp [hss] at hs
  · exact { h.faithful e (by simpa [hss] using hs) with }

theorem reads_createContext (h : Reads s w) (mode : NVContextMode) :
    Reads s { w with
      contexts := Function.update w.contexts w.nextId (some ⟨mode, none⟩)
      nextId := w.nextId + 1 } := by
  refine ⟨fun c u hc => ?_, fun e hs => (h.faithful e hs).mono fun c u _ hu => ?_⟩
  · by_cases hn : c = w.nextId
    · rw [hn]
      exact Nat.lt_succ_self _
    · exact Nat.lt_succ_of_lt (h.fresh c u (by simpa [hn] using hc))
  · have hn : c ≠ w.nextId := Nat.ne_of_lt (h.fresh c u hu)
    exact ⟨u, by simpa [hn] using hu, rfl⟩

theorem reads_destroyContext (h : Reads s w) {c : Nat} (hok : Undecoded s w (.destroyContext c)) :
    Reads s { w with contexts := Function.update w.contexts c none } := by
  refine ⟨fun c' u hc => ?_, fun e hs => (h.faithful e hs).mono fun c' u he hu => ?_⟩
  · by_cases hn : c' = c
    · simp [hn] at hc
    · exact h.fresh c' u (by simpa [hn] using hc)
  · have hn : c' ≠ c := fun hn => hok e hs (hn ▸ he)
    exact ⟨u, by simpa [hn] using hu, rfl⟩

theorem reads_beginPicture (h : Reads s w) (c s' : Nat) (exhausted : Bool) :
    Reads s (w.beginPicture c s' exhausted) := by
  unfold SurfaceStore.beginPicture
  split
  · next u e hu he =>
    have hf (hs : s' = s) : Faithful w e := h.faithful e (hs ▸ he)
    cases hm : u.mode with
    | encode =>
      have hcontext : ∃ u, w.contexts c = some u ∧ u.mode = .encode := ⟨u, hu, hm⟩
      refine Reads.setContext (Reads.setSurface h fun hs => ?_) hu hm.symm
      exact { hf hs with encodes := fun c' hc' => Option.some_inj.mp hc' ▸ hcontext }
    | decode =>
      have hdetached (hs : s' = s) : Faithful w
          (if e.context ≠ none ∧ e.context ≠ some c then { e with backingImage := none }
            else e) := by
        split
        · exact { hf hs with }
        · exact hf hs
      dsimp only
      split
      · exact h.setSurface hdetached
      · refine Reads.setContext (Reads.setSurface h fun hs => ?_) hu ?_
        · exact { hdetached hs with }
        · exact hm.symm
  · exact h

theorem reads_endPicture (h : Reads s w) {c : Nat} {early : Bool}
    (hok : Undecoded s w (.endPicture c early)) {w' : SurfaceStore}
    (hst : w.endPicture c early = some w') : Reads s w' := by
  unfold SurfaceStore.endPicture at hst
  split at hst
  · obtain rfl := Option.some_inj.mp hst
    exact h
  · next u hu =>
    split at hst
    · obtain rfl := Option.some_inj.mp hst
      exact h
    · next hearly =>
      obtain ⟨s', hs', hst⟩ := Option.bind_eq_some_iff.mp hst
      obtain ⟨e, he, hst⟩ := Option.bind_eq_some_iff.mp hst
      cases hm : u.mode with
      | encode =>
        simp only [hm] at hst
        obtain rfl := Option.some_inj.mp hst
        exact h.setSurface fun hss => { h.faithful e (hss ▸ he) with }
      | decode =>
        simp only [hm] at hst
        obtain rfl := Option.some_inj.mp hst
        refine h.setSurface fun hss => absurd (hs'.trans (congrArg some hss)) ?_
        exact hok (by simpa using hearly) u hu hm

theorem reads_resolve (h : Reads s w) {s' : Nat} {arrays : Option (Nat → CUarray)}
    {w' : SurfaceStore} (hst : w.resolve s' arrays = some w') : Reads s w' := by
  obtain ⟨e, he, hst⟩ := Option.bind_eq_some_iff.mp hst
  obtain ⟨_, hq, hst⟩ := Option.bind_eq_some_iff.mp hst
  have hother (hss : s' = s) : False := by
    have hf := h.faithful e (hss ▸ he)
    simp [hf.queued, guard] at hq
  cases arrays with
  | none =>
    obtain rfl := Option.some_inj.mp hst
    exact h.setSurface fun hss => (hother hss).elim
  | some arrays =>
    obtain rfl := Option.some_inj.mp hst
    exact h.setSurface fun hss => (hother hss).elim

/-! ## Writing -/

/-- What a surface is after a write, whose host buffer is new. -/
theorem Faithful.written {e e' : TrackedSurface} (h : Faithful w e)
    (hsize : e'.width = e.width ∧ e'.height = e.height) (hq : e'.queued = e.queued)
    (hc : e'.context = e.context) {m : Memory} (hm : e'.hostData = some m)
    (hshow : e'.mappedBy = none → e'.Shows ((hostLayout e.toEncodeSurface).picture m)) :
    Faithful w e' := by
  have hlayout : hostLayout e'.toEncodeSurface = hostLayout e.toEncodeSurface :=
    hostLayout_congr hsize
  rw [← hlayout] at hshow
  refine ⟨?_, ?_, hq.trans h.queued, fun c he => h.encodes c (hc ▸ he), m, hm, hshow⟩
  · have hsmall := h.small
    unfold Small EncodeSurface.SizesFit EncodeSurface.hostYSize EncodeSurface.hostRows
      EncodeSurface.hostPitch at hsmall ⊢
    rw [hsize.1, hsize.2]
    exact hsmall
  · rw [hsize.1, hsize.2]
    exact h.even

theorem faithful_putImage {e : TrackedSurface} (h : Faithful w e) {host src : Memory}
    {img : NVImage} {p : PutArgs} (hhost : e.hostData = some host) (hmap : e.mappedBy = none)
    (hz : ¬PutEmpty p) (hs : PutStarts e.toEncodeSurface img p)
    (hfit : PutFits img e.toNVSurface p) :
    Faithful w { e with
      toNVSurface := { copyToSurface e.toNVSurface host img src p with status := .ready }
      written :=
        e.written.paste (img.layout.picture src) (putCopies e.toEncodeSurface img p) } := by
  obtain ⟨m, hm, hshow⟩ := h.host
  obtain rfl : host = m := Option.some_inj.mp (hhost.symm.trans hm)
  have hsize := copyToSurface_size e.toNVSurface host img src p
  have hdata : (copyToSurface e.toNVSurface host img src p).hostData = some
      ((hostLayout e.toEncodeSurface).copy img.layout
        (putCopies e.toEncodeSurface img p) src host) := rfl
  refine h.written hsize rfl rfl hdata fun _ => ?_
  obtain ⟨⟨-, hx⟩, -, hy⟩ := (putBounds_iff hz hs).2.mpr hfit
  have hroom := room_host h.small.1
  have hin : (putCopies e.toEncodeSurface img p).1.WritesInside e.width.toNat e.height.toNat :=
    ⟨hx, hy⟩
  have hshown :
      ((hostLayout e.toEncodeSurface).picture ((hostLayout e.toEncodeSurface).copy img.layout
      (putCopies e.toEncodeSurface img p) src host)).SameRect
      (e.written.paste (img.layout.picture src) (putCopies e.toEncodeSurface img p)) 0 0 0 0
      e.width.toNat e.height.toNat := by
    refine TwoPlane.sameRect_paste hroom hin ?_ (hshow hmap)
    simp only [putCopies, planeCopies, toNat_evenDown]
    omega
  unfold TrackedSurface.Shows
  dsimp only
  rw [hsize.1, hsize.2]
  exact hshown

theorem reads_putImage (h : Reads s w) {s' : Nat} {img : NVImage} {p : PutArgs}
    (hok : Undecoded s w (.putImage s' img p)) {w' : SurfaceStore}
    (hst : w.putImage s' img p = some w') : Reads s w' := by
  unfold SurfaceStore.putImage at hst
  split at hst
  · obtain rfl := Option.some_inj.mp hst
    exact h
  · next e he =>
    by_cases hss : s' = s
    · subst hss
      have hf := h.faithful e he
      obtain ⟨host, hhost, hshow⟩ := hf.host
      obtain ⟨status, after, hput, hsize, hafter⟩ | ⟨src, hptr, hz, hs, hput⟩ :=
        nvPutImage_cases true img p hhost
      · simp only [hput, Transfer.plain] at hst
        obtain rfl := Option.some_inj.mp hst
        refine h.setSurface fun _ => ?_
        have hsame : after.width = e.width ∧ after.height = e.height := by
          rw [hsize]
          exact ⟨rfl, rfl⟩
        refine hf.written hsame rfl rfl hafter fun hmap => ?_
        unfold TrackedSurface.Shows
        dsimp only
        rw [hsame.1, hsame.2]
        exact hshow hmap
      · simp only [hput, hptr] at hst
        split at hst
        · simp at hst
        · next hmap =>
          obtain rfl := Option.some_inj.mp hst
          have hnone : e.mappedBy = none := by simpa using hmap
          exact h.setSurface fun _ => faithful_putImage hf hhost hnone hz hs (hok rfl e he)
    · have hother (e' : TrackedSurface) : Reads s (w.setSurface s' e') :=
        h.setSurface fun heq => absurd heq hss
      dsimp only at hst
      split at hst
      · split at hst
        · simp at hst
        · obtain rfl := Option.some_inj.mp hst
          exact hother _
      · obtain rfl := Option.some_inj.mp hst
        exact hother _

/-! ## Derived images -/

theorem nvDeriveImage_host {sf : NVSurface} {m : Memory} (hm : sf.hostData = some m)
    (calloc : Bool) :
    nvDeriveImage calloc sf = some (sf,
      ⟨0, sf.hostPitch, sf.hostYSize % 2 ^ 32, sf.hostPitch⟩, m) := by
  unfold nvDeriveImage ensureSurfaceHostBuffer
  rw [hm]
  rfl

theorem reads_deriveImage (h : Reads s w) (s' : Nat) : Reads s (w.deriveImage s') := by
  unfold SurfaceStore.deriveImage
  split
  · exact h
  · next e he =>
    split
    · exact h
    · next sf _ _ hd =>
      refine (h.setSurface fun hss => ?_).congr rfl rfl (Nat.le_succ _)
      have hf := h.faithful e (hss ▸ he)
      obtain ⟨m, hm, -⟩ := hf.host
      rw [nvDeriveImage_host hm] at hd
      obtain rfl : e.toNVSurface = sf := congrArg Prod.fst (Option.some_inj.mp hd)
      exact { hf with }

theorem reads_mapBuffer (h : Reads s w) {b : Nat} {w' : SurfaceStore}
    (hst : w.mapBuffer strict b = some w') : Reads s w' := by
  obtain ⟨d, -, hst⟩ := Option.bind_eq_some_iff.mp hst
  obtain ⟨e, he, hst⟩ := Option.bind_eq_some_iff.mp hst
  split at hst
  · obtain ⟨_, -, hst⟩ := Option.bind_eq_some_iff.mp hst
    obtain rfl := Option.some_inj.mp hst
    exact h.congr rfl rfl (Nat.le_refl _)
  · split at hst
    · obtain rfl := Option.some_inj.mp hst
      exact h
    · obtain ⟨_, -, hst⟩ := Option.bind_eq_some_iff.mp hst
      obtain rfl := Option.some_inj.mp hst
      refine h.setSurface fun hss => ?_
      have hf := h.faithful e (hss ▸ he)
      obtain ⟨m, hm, -⟩ := hf.host
      exact { hf with host := ⟨m, hm, fun hn => by simp at hn⟩ }

theorem reads_write (h : Reads s w) {b : Nat} {m : Memory} {w' : SurfaceStore}
    (hst : w.write strict b m = some w') : Reads s w' := by
  obtain ⟨d, -, hst⟩ := Option.bind_eq_some_iff.mp hst
  obtain ⟨e, he, hst⟩ := Option.bind_eq_some_iff.mp hst
  split at hst
  · obtain ⟨_, -, hst⟩ := Option.bind_eq_some_iff.mp hst
    obtain rfl := Option.some_inj.mp hst
    exact h.congr rfl rfl (Nat.le_refl _)
  · obtain ⟨_, hg, hst⟩ := Option.bind_eq_some_iff.mp hst
    obtain rfl := Option.some_inj.mp hst
    have hmapped : e.mappedBy = some b := by simpa [guard] using hg
    refine h.setSurface fun hss => ?_
    have hf := h.faithful e (hss ▸ he)
    exact { hf with host := ⟨m, rfl, fun hn => by simp [hmapped] at hn⟩ }

theorem reads_unmapBuffer (h : Reads s w) {b : Nat} {w' : SurfaceStore}
    (hst : w.unmapBuffer strict b = some w') : Reads s w' := by
  obtain ⟨d, -, hst⟩ := Option.bind_eq_some_iff.mp hst
  obtain ⟨e, he, hst⟩ := Option.bind_eq_some_iff.mp hst
  have hf (hss : d.surface = s) : Faithful w e := h.faithful e (hss ▸ he)
  split at hst
  · obtain ⟨_, -, hst⟩ := Option.bind_eq_some_iff.mp hst
    obtain rfl := Option.some_inj.mp hst
    refine h.setSurface fun hss => ?_
    exact { hf hss with host := ⟨_, rfl, fun _ => ⟨fun _ _ _ _ => rfl, fun _ _ _ _ => rfl⟩⟩ }
  · obtain ⟨_, -, hst⟩ := Option.bind_eq_some_iff.mp hst
    split at hst
    · next m _ hm =>
      obtain rfl := Option.some_inj.mp hst
      refine h.setSurface fun hss => ?_
      exact { hf hss with host := ⟨m, hm, fun _ => ⟨fun _ _ _ _ => rfl, fun _ _ _ _ => rfl⟩⟩ }
    · next hno =>
      obtain rfl := Option.some_inj.mp hst
      refine h.setSurface fun hss => ?_
      obtain ⟨m, hm, hshow⟩ := (hf hss).host
      have hnone : e.mappedBy = none :=
        Option.eq_none_iff_forall_ne_some.mpr fun b hb => hno b m hb hm
      exact { hf hss with host := ⟨m, hm, fun _ => hshow hnone⟩ }

theorem reads_step {a : StoreCall} {w' : SurfaceStore} (h : Reads s w) (hok : Undecoded s w a)
    (hst : w.step strict a = some w') : Reads s w' := by
  cases a with
  | createSurface =>
    obtain rfl := Option.some_inj.mp hst
    exact reads_createSurface h hok
  | destroySurface s' =>
    obtain rfl := Option.some_inj.mp hst
    exact reads_destroySurface h s'
  | createContext mode =>
    obtain rfl := Option.some_inj.mp hst
    exact reads_createContext h mode
  | destroyContext =>
    obtain rfl := Option.some_inj.mp hst
    exact reads_destroyContext h hok
  | beginPicture c s' exhausted =>
    obtain rfl := Option.some_inj.mp hst
    exact reads_beginPicture h c s' exhausted
  | endPicture => exact reads_endPicture h hok hst
  | resolve => exact reads_resolve h hst
  | putImage => exact reads_putImage h hok hst
  | deriveImage s' =>
    obtain rfl := Option.some_inj.mp hst
    exact reads_deriveImage h s'
  | mapBuffer => exact reads_mapBuffer h hst
  | write => exact reads_write h hst
  | unmapBuffer => exact reads_unmapBuffer h hst

end Steps

/-! ## The readers -/

section Readers

variable {strict : Bool} {s : Nat} {w : SurfaceStore} {e : TrackedSurface}

/-- `nvGetImage` of a faithful surface reads the host buffer. -/
theorem Faithful.getImage (h : Faithful w e) (hmap : e.mappedBy = none) {width height : Int32}
    {dst : Memory} {img : NVImage}
    (hc : nvCreateImage .nv12 width height (some dst) = some (.ok img)) (hw : img.width = e.width)
    (hh : img.height = e.height) (hpw : 0 < e.width.toNat) (hph : 0 < e.height.toNat) :
    ∃ mode get m, w.modeOf e = some mode ∧
      nvGetImage mode e.toNVSurface img 0 0 e.width e.height cudaSucceeds = some get ∧
      get.status = .success ∧ get.after.ptr = some m ∧ e.Shows (get.after.layout.picture m) := by
  obtain ⟨mode, hmode, hhost⟩ : ∃ mode, w.modeOf e = some mode ∧ mode ≠ some .decode := by
    unfold SurfaceStore.modeOf
    cases hctx : e.context with
    | none => exact ⟨none, rfl, by decide⟩
    | some c =>
      obtain ⟨u, hu, hm⟩ := h.encodes c hctx
      refine ⟨some u.mode, ?_, by rw [hm]; decide⟩
      dsimp only
      rw [hu]
      rfl
  obtain ⟨host, hdata, hshow⟩ := h.host
  have hrect : EvenCopy img img e.toEncodeSurface 0 0 0 0 e.width e.height := by
    refine ⟨by decide, by decide, by decide, h.even, ?_, ?_, ?_⟩
    · rw [hw, hh]
      exact ⟨Nat.le_of_eq (Nat.zero_add _), Nat.le_of_eq (Nat.zero_add _)⟩
    · exact ⟨Nat.le_of_eq (Nat.zero_add _), Nat.le_of_eq (Nat.zero_add _)⟩
    · rw [hw, hh]
      exact ⟨Nat.le_refl _, Nat.le_refl _⟩
  have hget := getImage_even hrect hdata (created_ptr hc) hpw hph
  refine ⟨mode, _, _, hmode, nvGetImage_host hhost 0 0 _, congrArg Transfer.status hget,
    congrArg (fun t => t.after.ptr) hget, ?_⟩
  have hroom := room_host h.small.1
  have hfit : img.width.toNat * img.height.toNat < 2 ^ 32 := by
    have hapart := hroom.apart
    have hpitch := Nat.mul_le_mul_left e.height.toNat hroom.pitchY
    have hsmall := h.small.2
    simp only [hostLayout] at hapart hpitch
    rw [hw, hh, Nat.mul_comm]
    omega
  rw [hget]
  have himg := room_created hc hfit
  rw [hw, hh] at himg
  refine Picture.SameRect.trans ?_ (hshow hmap)
  exact TwoPlane.sameRect_copy himg (Nat.le_of_eq (Nat.zero_add _)) (Nat.le_of_eq (Nat.zero_add _))

/-- The offset that is given out is that of the chroma plane. -/
theorem Faithful.layout (h : Faithful w e) :
    (⟨0, e.hostPitch, e.hostYSize % 2 ^ 32, e.hostPitch⟩ : TwoPlane) =
      hostLayout e.toEncodeSurface := by
  rw [Nat.mod_eq_of_lt h.small.2]
  rfl

theorem Faithful.deriveImage (h : Faithful w e) (he : w.surfaces s = some e)
    (hmap : e.mappedBy = none) :
    ∃ w₁ w₂ r m, w.step strict (.deriveImage s) = some w₁ ∧
      w₁.step strict (.mapBuffer w.nextId) = some w₂ ∧ nvDeriveImage true e.toNVSurface = some r ∧
      w₂.mapped strict w.nextId = some m ∧ e.Shows (r.2.1.picture m) := by
  obtain ⟨m, hm, hshow⟩ := h.host
  have hderive := nvDeriveImage_host hm true
  have hshown := hshow hmap
  rw [← h.layout] at hshown
  obtain ⟨hbuf, hsurf⟩ : (w.deriveImage s).buffers w.nextId = some ⟨s, none⟩ ∧
      (w.deriveImage s).surfaces s = some e := by
    simp [SurfaceStore.deriveImage, he, hderive, SurfaceStore.setSurface]
  cases strict with
  | true =>
    refine ⟨w.deriveImage s, { w.deriveImage s with
      buffers := Function.update (w.deriveImage s).buffers w.nextId (some ⟨s, some m⟩) },
        _, m, rfl, ?_,
      hderive, ?_, hshown⟩
    · simp [SurfaceStore.step, SurfaceStore.mapBuffer, hbuf, hsurf, hmap, hm, guard]
    · simp [SurfaceStore.mapped]
  | false =>
    refine ⟨w.deriveImage s,
      (w.deriveImage s).setSurface s { e with mappedBy := some w.nextId }, _, m,
      rfl, ?_, hderive, ?_, hshown⟩
    · simp [SurfaceStore.step, SurfaceStore.mapBuffer, hbuf, hsurf, hmap, guard]
    · simp [SurfaceStore.mapped, SurfaceStore.setSurface, hbuf, hm]

theorem Faithful.lockSurface (h : Faithful w e) (hmap : e.mappedBy = none) :
    ∃ r, nvLockSurface true e.toNVSurface = some r ∧ e.Shows (r.2.1.picture r.2.2) := by
  obtain ⟨m, hm, hshow⟩ := h.host
  have hlock : nvLockSurface true e.toNVSurface = some _ := nvDeriveImage_host hm true
  refine ⟨_, hlock, ?_⟩
  rw [h.layout]
  exact hshow hmap

end Readers

/-- After a run that does not decode into a surface, every way to read it shows the completed
writes. -/
theorem coherent_of_undecoded {strict : Bool} {s : Nat} {w : SurfaceStore} {e : TrackedSurface}
    (h : (surfaceStore strict).ReachWhen (Undecoded s) w) (he : w.surfaces s = some e)
    (hs : e.Settled) : Coherent strict w s e := by
  have hr : Reads s w := h.invariant (fun w hw => by subst hw; exact reads_empty)
    fun w a w' hi hok hst => reads_step hi hok hst
  have hf := hr.faithful e he
  exact ⟨hf.getImage hs.1, hf.deriveImage he hs.1, hf.lockSurface hs.1⟩

/-- A surface that is encoded from, then written by `nvPutImage`. -/
theorem coherent_after_put : ∃ w e img,
    nvCreateImage .nv12 8 8 (some fun i => UInt8.ofNat i) = some (.ok img) ∧
    (surfaceStore false).run .empty [.createSurface 16 16, .createContext .encode,
      .beginPicture 1 0 false,
      .endPicture 1 false, .putImage 0 img (EvenCopy.args 2 2 4 6 4 4)] = some w ∧
    w.surfaces 0 = some e ∧ e.written.luma 7 7 = 29 ∧ Coherent false w 0 e := by
  have hm :
      (surfaceStore false).Meets (Undecoded 0) .empty [.createSurface 16 16, .createContext .encode,
      .beginPicture 1 0 false, .endPicture 1 false,
      .putImage 0 (createdImage .nv12 8 8 64 (some fun i => UInt8.ofNat i))
        (EvenCopy.args 2 2 4 6 4 4)] := by
    refine ⟨fun _ => by decide, fun w₁ h₁ => ⟨trivial, fun w₂ h₂ => ⟨trivial, fun w₃ h₃ => ?_⟩⟩⟩
    obtain rfl := Option.some_inj.mp h₁
    obtain rfl := Option.some_inj.mp h₂
    obtain rfl := Option.some_inj.mp h₃
    refine ⟨fun _ u hu hmode => ?_, fun w₄ h₄ => ?_⟩
    · obtain rfl := Option.some_inj.mp hu
      cases hmode
    · obtain rfl := Option.some_inj.mp h₄
      refine ⟨fun _ e he => ?_, fun _ _ => trivial⟩
      obtain rfl := Option.some_inj.mp he
      decide
  exact ⟨_, _, _, rfl, rfl, rfl, rfl,
    coherent_of_undecoded (.run (.init rfl) hm rfl) rfl ⟨rfl, rfl⟩⟩

/-- A decoded picture is not what the locked surface shows. -/
theorem decoded_not_coherent : ∃ w e,
    (surfaceStore false).run .empty [.createSurface 16 16, .createContext .decode,
      .beginPicture 1 0 false, .endPicture 1 false, .resolve 0 (some fun _ _ _ => 5)] = some w ∧
    w.surfaces 0 = some e ∧ e.Settled ∧ ¬Coherent false w 0 e := by
  refine ⟨_, _, rfl, rfl, ⟨rfl, rfl⟩, fun hc => ?_⟩
  obtain ⟨r, hr, hshow⟩ := hc.lockSurface
  obtain rfl := Option.some_inj.mp hr
  have h5 := hshow.1 0 (by decide) 0 (by decide)
  revert h5
  decide

end NvVaapi.Image
