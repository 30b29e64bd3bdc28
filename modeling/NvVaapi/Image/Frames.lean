import NvVaapi.Image.Clamp
import NvVaapi.Image.Readback
import NvVaapi.Direct.Images

/-!
# The frames of the decoder

* `copyFrameToSurface`: the copy of a decoded frame into the arrays of a backing image, plane by
  plane, in the direct backend. `eglCopyFrameToSurface`: the same in the EGL backend.
* `copyPlanes_at`: what the loop over the planes leaves in each array.
* `copyArrays_at`: the loop of `nvGetImage` leaves each array in its place, as the places are apart
  (`deviceBlocks_apart`).
* `eglCopyFrameToSurface_eq`: for surfaces of two planes and of an even width both backends leave
  the same.
* `decoded_readback`: what a client reads of a decoded surface is the frame.
-/

namespace NvVaapi.Image

open Objects (NVFormat GetResults SurfaceFormat)

/-! ## From the decoder to the arrays -/

/-- The memory of a mapped frame, by row and column. -/
def frameRows (memory : Memory) (ptr pitch : Nat) (r x : Nat) : UInt8 :=
  memory (ptr + r * pitch + x)

/-- The `cuMemcpy2D` of a plane, from the row `srcY` of the frame on. -/
def copyPlane (frame : Nat → Nat → UInt8) (srcY widthInBytes height : UInt32)
    (array : CUarray) : CUarray :=
  PlaneCopy.paste ⟨0, srcY.toNat, 0, 0, widthInBytes.toNat, height.toNat⟩ array frame

/-- The loop over the planes. `done i` is whether the copy of plane `i` succeeds, which is not
looked at. -/
def copyPlanes (format : NVFormat) (width height : UInt32) (frame : Nat → Nat → UInt8)
    (done : Nat → Bool) :
    List NVFormatPlane → (i : Nat) → (y : UInt32) → (Nat → CUarray) → Nat → CUarray
  | [], _, _, arrays => arrays
  | p :: ps, i, y, arrays =>
    let rows := height >>> UInt32.ofNat p.ssY
    let widthInBytes := (width >>> UInt32.ofNat p.ssX) * format.bppc * p.channelCount
    copyPlanes format width height frame done ps (i + 1) (y + rows) <|
      if done i then Function.update arrays i (copyPlane frame y widthInBytes rows (arrays i))
      else arrays

/-- The direct backend. -/
def copyFrameToSurface (format : NVFormat) (width height : UInt32) (frame : Nat → Nat → UInt8)
    (done : Nat → Bool) (arrays : Nat → CUarray) : Nat → CUarray :=
  copyPlanes format width height frame done (plane format) 0 0 arrays

/-- The EGL backend, and whether it succeeds. -/
def eglCopyFrameToSurface (format : SurfaceFormat) (width height : UInt32)
    (frame : Nat → Nat → UInt8) (done : Nat → Bool) (arrays : Nat → CUarray) :
    Bool × (Nat → CUarray) :=
  let bpp : UInt32 := if format = .nv12 then 1 else 2
  if !done 0 then (false, arrays)
  else
    let arrays := Function.update arrays 0 (copyPlane frame 0 (width * bpp) height (arrays 0))
    if !done 1 then (false, arrays)
    else (true,
      Function.update arrays 1 (copyPlane frame height (width * bpp) (height >>> 1) (arrays 1)))

/-- The row of a frame where the plane behind the planes `ps` starts. -/
def frameRow (height : UInt32) (ps : List NVFormatPlane) : UInt32 :=
  (ps.map fun p => height >>> UInt32.ofNat p.ssY).sum

theorem frameRow_cons (height : UInt32) (p : NVFormatPlane) (ps : List NVFormatPlane) :
    frameRow height (p :: ps) = height >>> UInt32.ofNat p.ssY + frameRow height ps := by
  unfold frameRow
  rw [List.map_cons, List.sum_cons]

theorem shift_lt {format : NVFormat} {p : NVFormatPlane} (hp : p ∈ plane format) : p.ssY < 32 := by
  obtain rfl | rfl := mem_plane hp <;> decide

section Copy

variable {format : NVFormat} {width height : UInt32} {frame : Nat → Nat → UInt8} {done : Nat → Bool}

theorem copyPlanes_of_lt {ps : List NVFormatPlane} {i k : Nat} (h : k < i) (y : UInt32)
    (arrays : Nat → CUarray) :
    copyPlanes format width height frame done ps i y arrays k = arrays k := by
  induction ps generalizing i y arrays with
  | nil => rfl
  | cons p ps ih =>
    rw [copyPlanes, ih (by omega)]
    split
    · rw [Function.update_of_ne (by omega)]
    · rfl

/-- The array of a plane after the loop. -/
theorem copyPlanes_at {ps : List NVFormatPlane} {p : NVFormatPlane} {j : Nat}
    (hj : ps[j]? = some p) (i : Nat) (y : UInt32) (arrays : Nat → CUarray) (hd : done (i + j)) :
    copyPlanes format width height frame done ps i y arrays (i + j) =
      copyPlane frame (y + frameRow height (ps.take j))
        ((width >>> UInt32.ofNat p.ssX) * format.bppc * p.channelCount)
        (height >>> UInt32.ofNat p.ssY) (arrays (i + j)) := by
  induction ps generalizing i y arrays j with
  | nil => simp at hj
  | cons q ps ih =>
    cases j with
    | zero =>
      obtain rfl := Option.some.inj hj
      rw [Nat.add_zero] at hd ⊢
      rw [copyPlanes, copyPlanes_of_lt (by omega), if_pos hd, Function.update_self]
      simp [frameRow]
    | succ j =>
      have hnext : i + (j + 1) = i + 1 + j := by omega
      rw [hnext] at hd ⊢
      rw [copyPlanes, ih hj _ _ _ hd, List.take_succ_cons, frameRow_cons, UInt32.add_assoc]
      congr 1
      split
      · rw [Function.update_of_ne (by omega)]
      · rfl

/-- A byte of a plane of the surface, after its copy: that of the frame. -/
theorem copyPlane_at {srcY widthInBytes rows : UInt32} {array : CUarray} {r x : Nat}
    (hr : r < rows.toNat) (hx : x < widthInBytes.toNat) :
    copyPlane frame srcY widthInBytes rows array r x = frame (srcY.toNat + r) x := by
  have hat : PlaneCopy.paste ⟨0, srcY.toNat, 0, 0, widthInBytes.toNat,
      rows.toNat⟩ array frame (0 + r) (0 + x) =
      frame (srcY.toNat + r) (0 + x) := PlaneCopy.paste_of_lt hr hx
  simpa only [copyPlane, Nat.zero_add] using hat

/-- The rows of a plane of a surface are those of the frame from the one on where the plane starts
in it. -/
theorem copyFrameToSurface_at {p : NVFormatPlane} {j : Nat} (hp : (plane format)[j]? = some p)
    (hd : done j) (hpitch : width.toNat * format.bppc.toNat < 2 ^ 32) {row column : Nat}
    (hr : row < height.toNat >>> p.ssY)
    (hc : column < (width.toNat >>> p.ssX) * format.bppc.toNat * p.channelCount.toNat)
    (arrays : Nat → CUarray) :
    copyFrameToSurface format width height frame done arrays j row column =
      frame ((frameRow height ((plane format).take j)).toNat + row) column := by
  have hmem : p ∈ plane format := List.mem_of_getElem? hp
  have hd' : done (0 + j) := by rwa [Nat.zero_add]
  have hcopied := @copyPlanes_at format width height frame _ _ _ _ hp 0 0 arrays hd'
  rw [Nat.zero_add, UInt32.zero_add] at hcopied
  rw [← toNat_shiftRight (shift_lt hmem)] at hr
  rw [← toNat_widthInBytes hmem hpitch] at hc
  exact (congrFun (congrFun hcopied row) column).trans (copyPlane_at hr hc)

/-- The backends leave the same in the arrays of a surface with a chroma plane, if its width is
even. -/
theorem eglCopyFrameToSurface_eq {surfaceFormat : SurfaceFormat} {arrays : Nat → CUarray}
    (hformat : (surfaceFormat, format) ∈ [(SurfaceFormat.nv12, NVFormat.nv12), (.p016, .p010),
      (.p016, .p012), (.p016, .p016)]) (hw : width % 2 = 0) (hd : done 0 ∧ done 1) :
    eglCopyFrameToSurface surfaceFormat width height frame done arrays =
      (true, copyFrameToSurface format width height frame done arrays) := by
  have hhalf : (width >>> 1) * 2 = width := by
    rw [← UInt32.toNat_inj] at hw ⊢
    rw [UInt32.toNat_mod] at hw
    have hlt := width.toNat_lt
    simp [Nat.shiftRight_eq_div_pow] at hw ⊢
    omega
  have hbytes (bppc : UInt32) : (width >>> 1) * bppc * 2 = width * bppc := by
    rw [UInt32.mul_assoc, UInt32.mul_comm bppc, ← UInt32.mul_assoc, hhalf]
  unfold eglCopyFrameToSurface copyFrameToSurface
  simp only [List.mem_cons, Prod.mk.injEq, List.not_mem_nil, or_false] at hformat
  rcases hformat with ⟨rfl, rfl⟩ | ⟨rfl, rfl⟩ | ⟨rfl, rfl⟩ | ⟨rfl, rfl⟩ <;>
    simp [plane, copyPlanes, hd, Objects.NVFormat.bppc, ← hbytes]

end Copy

/-! ## From the arrays to an image -/

section Readback

variable {format : NVFormat} {width height : UInt32}

/-- The blocks of an image whose size 32 bits hold have no byte in common. -/
theorem deviceBlocks_apart (hn : width.toNat * height.toNat < 2 ^ 32)
    (hfit : imageBytes format (width.toNat * height.toNat) < 2 ^ 32) :
    (deviceBlocks format width height (plane format) 0).Pairwise Block.Apart := by
  refine List.pairwise_iff_getElem.mpr fun i j hi hj hij => ?_
  have hfit' :
      (0 : UInt32).toNat +
        ((plane format).map (planeBytes format (width.toNat * height.toNat))).sum < 2 ^ 32 := by
    rw [UInt32.toNat_zero, Nat.zero_add]
    exact hfit
  obtain ⟨-, hini⟩ := deviceBlocks_inside (fun _ h => h) hn hfit' (List.getElem?_eq_getElem hi)
  obtain ⟨hoffset, hinj⟩ :=
    deviceBlocks_inside (fun _ h => h) hn hfit' (List.getElem?_eq_getElem hj)
  refine Block.apart_of_inside hini hinj ?_
  rw [hoffset]
  refine Nat.add_le_add_left ?_ _
  rw [List.map_take, List.map_take]
  exact (List.take_sublist_take_left (by omega)).sum_le_sum fun _ _ => Nat.zero_le _

/-- A row of a plane is no longer than one of the luma plane. -/
theorem rowBytes_le {p : NVFormatPlane} (hp : p ∈ plane format) (n : Nat) :
    (n >>> p.ssX) * format.bppc.toNat * p.channelCount.toNat ≤ n * format.bppc.toNat := by
  have hhalf := Nat.div_mul_le_self n 2
  obtain rfl | rfl := mem_plane hp
  · simp
  · simpa [Nat.shiftRight_eq_div_pow,
      mul_right_comm _ _ 2] using Nat.mul_le_mul_right format.bppc.toNat hhalf

theorem deviceBlocks_getElem? {ps : List NVFormatPlane} {p : NVFormatPlane} {j : Nat}
    (hj : ps[j]? = some p) (offset : UInt32) :
    ∃ b, (deviceBlocks format width height ps offset)[j]? = some b ∧
      b.pitch = (width * format.bppc).toNat ∧
      b.width = ((width >>> UInt32.ofNat p.ssX) * format.bppc * p.channelCount).toNat ∧
      b.rows = (height >>> UInt32.ofNat p.ssY).toNat := by
  induction ps generalizing j offset with
  | nil => simp at hj
  | cons q ps ih =>
    cases j with
    | zero =>
      obtain rfl := Option.some.inj hj
      exact ⟨_, rfl, rfl, rfl, rfl⟩
    | succ j => exact ih hj _

/-- The block of a plane of an image has its sizes in `Nat`. -/
theorem deviceBlocks_shape {p : NVFormatPlane} {j : Nat} (hp : (plane format)[j]? = some p)
    (hpitch : width.toNat * format.bppc.toNat < 2 ^ 32) :
    ∃ b, (deviceBlocks format width height (plane format) 0)[j]? = some b ∧
      b.pitch = width.toNat * format.bppc.toNat ∧
      b.width = (width.toNat >>> p.ssX) * format.bppc.toNat * p.channelCount.toNat ∧
      b.rows = height.toNat >>> p.ssY := by
  have hmem : p ∈ plane format := List.mem_of_getElem? hp
  obtain ⟨b, hb, hbpitch, hbwidth, hbrows⟩ := @deviceBlocks_getElem? format width height _ _ _ hp 0
  refine ⟨b, hb, ?_, ?_, ?_⟩
  · rw [hbpitch, UInt32.toNat_mul, Nat.mod_eq_of_lt hpitch]
  · rw [hbwidth, toNat_widthInBytes hmem hpitch]
  · rw [hbrows, toNat_shiftRight (shift_lt hmem)]

/-- What a loop in which every copy succeeds leaves in the place of a plane. -/
theorem copyArrays_at {arrays : Nat → CUarray} {done : Nat → Bool} {dst : Memory}
    (hn : width.toNat * height.toNat < 2 ^ 32)
    (hfit : imageBytes format (width.toNat * height.toNat) < 2 ^ 32)
    (h : (copyArrays format width height arrays done (plane format) 0 0 dst).1 = true) {j : Nat}
    {b : Block} (hb : (deviceBlocks format width height (plane format) 0)[j]? = some b)
    (hw : b.width ≤ b.pitch) {r x : Nat} (hr : r < b.rows) (hx : x < b.width) :
    (copyArrays format width height arrays done (plane format) 0 0 dst).2 (b.addr r x) =
      arrays j r x := by
  obtain ⟨parts, -, hall, hfill⟩ := copyArrays_fills arrays done (plane format) 0 0 dst
  rw [hfill, hall h]
  have hparts : (deviceParts format width height arrays (plane format) 0 0).Pairwise fun p q =>
      p.1.Apart q.1 := by
    have hblocks := deviceBlocks_apart hn hfit
    rw [← List.zipIdx_map_fst 0 (deviceBlocks format width height (plane format) 0),
      List.pairwise_map] at hblocks
    exact List.pairwise_map.mpr hblocks
  have hmem : (b, arrays j) ∈ deviceParts format width height arrays (plane format) 0 0 := by
    refine List.mem_map.mpr ⟨(b, j), ?_, rfl⟩
    exact List.mem_zipIdx_iff_getElem?.mpr hb
  exact Block.fillAll_at hparts hmem hw hr hx

theorem getImageDevice_success {sf : NVSurface} {img : NVImage} {r : GetResults}
    {t : Transfer NVImage} (h : getImageDevice sf img width height r = some t)
    (hs : t.status = .success) :
    ∃ arrays dst, sf.backingImage = some arrays ∧
      (copyArrays img.format width height arrays r.memcpy2D (plane img.format) 0 0 dst).1 = true ∧
      t.after = { img with
        ptr :=
          some (copyArrays img.format width height arrays r.memcpy2D
            (plane img.format) 0 0 dst).2 } := by
  unfold getImageDevice at h
  split at h
  · obtain rfl := Option.some.inj h
    cases hs
  · obtain ⟨arrays, harrays, h⟩ := Option.bind_eq_some_iff.mp h
    obtain ⟨dst, -, h⟩ := Option.bind_eq_some_iff.mp h
    refine ⟨arrays, dst, harrays, ?_⟩
    generalize copyArrays img.format width height arrays r.memcpy2D (plane img.format) 0 0 dst =
      copied at h ⊢
    obtain ⟨_ | _, m⟩ := copied
    · obtain rfl := Option.some.inj h
      cases hs
    · refine ⟨rfl, ?_⟩
      cases hpop : r.popped <;> rw [hpop] at h <;> obtain rfl := Option.some.inj h <;> rfl

end Readback

/-- A client that reads back a decoded surface, into an image of its format that is not larger, gets
the frame of the decoder: each plane of the image has the rows of the frame from the one on where
the plane starts in it. -/
theorem decoded_readback (format : NVFormat) {w h : Int32} {memory : Option Memory}
    {img : NVImage} (hw : 0 < w) (hh : 0 < h)
    (hc : nvCreateImage (vaFormat format) w h memory = some (.ok img))
    (hfit : imageBytes format (img.width.toNat * img.height.toNat) < 2 ^ 32) {sf : NVSurface}
    (hin : img.width.toNat ≤ sf.width.toNat ∧ img.height.toNat ≤ sf.height.toNat)
    (hpitch : sf.width.toNat * format.bppc.toNat < 2 ^ 32) {frame : Nat → Nat → UInt8}
    {arrays : Nat → CUarray} {done : Nat → Bool} (hdone : ∀ i < (plane format).length, done i)
    (hsf : sf.backingImage = some (copyFrameToSurface format sf.width sf.height frame done arrays))
    {x y : Int32} {r : GetResults} {t : Transfer NVImage}
    (hget : nvGetImage (some .decode) sf img x y img.width img.height r = some t)
    (hs : t.status = .success) :
    ∃ dst, t.after = { img with ptr := some dst } ∧ ∀ (j : Fin 3) (p : NVFormatPlane),
      (plane format)[j.val]? = some p → ∀ row < img.height.toNat >>> p.ssY,
        ∀ column < (img.width.toNat >>> p.ssX) * format.bppc.toNat * p.channelCount.toNat,
          dst ((img.offsets j).toNat + row * (img.pitches j).toNat + column) =
            frame ((frameRow sf.height ((plane format).take j)).toNat + row) column := by
  obtain ⟨hn, himg⟩ := created_eq hw hh hc
  have hformat : img.format = format := by rw [himg]; rfl
  have hpitches (j : Fin 3) : img.pitches j = img.width * format.bppc := by rw [himg]; rfl
  have hroom := deviceBlocks_hasRoom hn hfit himg rfl
  have hdevice : getImageDevice sf img img.width img.height r = some t := hget
  obtain ⟨arrays', dst, harrays, hall, hafter⟩ := getImageDevice_success hdevice hs
  obtain rfl := Option.some.inj (hsf.symm.trans harrays)
  refine ⟨_, hafter, fun j p hp row hrow column hcolumn => ?_⟩
  rw [hformat] at hall ⊢
  have hpitch' : img.width.toNat * format.bppc.toNat < 2 ^ 32 :=
    (Nat.mul_le_mul_right _ hin.1).trans_lt hpitch
  obtain ⟨b, hb, hbpitch, hbwidth, hbrows⟩ :=
    @deviceBlocks_shape format img.width img.height _ _ hp hpitch'
  have hle : b.width ≤ b.pitch := by
    rw [hbwidth, hbpitch]
    exact rowBytes_le (List.mem_of_getElem? hp) _
  have hread := copyArrays_at (by omega) hfit hall hb hle (hbrows ▸ hrow) (hbwidth ▸ hcolumn)
  have haddr :
      (img.offsets j).toNat + row * (img.pitches j).toNat + column = b.addr row column := by
    rw [Block.addr, hroom.offset j b hb, hbpitch, hpitches, UInt32.toNat_mul,
      Nat.mod_eq_of_lt hpitch']
  rw [haddr, hread]
  -- the surface is not smaller than the image
  have hshift {a b s : Nat} (h : a ≤ b) : a >>> s ≤ b >>> s := by
    rw [Nat.shiftRight_eq_div_pow, Nat.shiftRight_eq_div_pow]
    exact Nat.div_le_div_right h
  have hlt : j.val < (plane format).length := (List.getElem?_eq_some_iff.mp hp).1
  refine copyFrameToSurface_at hp (hdone j hlt) hpitch (hrow.trans_le (hshift hin.2))
    (hcolumn.trans_le ?_) arrays
  exact Nat.mul_le_mul_right _ (Nat.mul_le_mul_right _ (hshift hin.1))

/-- A P010 surface of 6x6 that is read into an image of 4x4: the chroma plane has the frame from row
6 on. -/
theorem decoded_readback_inside :
    ∃ img, nvCreateImage .p010 4 4 (some fun _ => 0) = some (.ok img) ∧
    ∀ frame : Nat → Nat → UInt8,
      let arrays := copyFrameToSurface .p010 6 6 frame (fun _ => true) fun _ _ _ => 0
      ∃ t dst, nvGetImage (some .decode)
        { plainSurface 6 6 fun _ => 0 with backingImage := some arrays } img 0 0 4 4
          ⟨true, true, fun _ => true⟩ = some t ∧ t.after = { img with ptr := some dst } ∧
        ∀ row < 2, ∀ column < 8, dst (32 + row * 8 + column) = frame (6 + row) column := by
  refine ⟨createdImage .p010 4 4 16 (some fun _ => 0), rfl, fun frame => ?_⟩
  have hw : (0 : Int32) < 4 := by decide
  have hin : (4 : UInt32).toNat ≤ (6 : UInt32).toNat := by decide
  have hpitch : (6 : UInt32).toNat * NVFormat.p010.bppc.toNat < 2 ^ 32 := by decide
  obtain ⟨dst, hafter, hread⟩ :=
    @decoded_readback .p010 4 4 (some fun _ => 0) (createdImage .p010 4 4 16 _) hw hw rfl
    (by decide)
    { plainSurface 6 6 fun _ => 0 with
      backingImage := some (copyFrameToSurface .p010 6 6 frame (fun _ => true) fun _ _ _ => 0) }
    ⟨hin, hin⟩ hpitch frame _ _ (fun _ _ => rfl) rfl 0 0 ⟨true, true, fun _ => true⟩ _ rfl rfl
  exact ⟨_, dst, rfl, hafter, hread 1 ⟨2, 1, 1⟩ rfl⟩

end NvVaapi.Image
