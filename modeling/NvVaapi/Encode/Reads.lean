import NvVaapi.Encode.Staging

/-!
# What the copy reads

* `hostReads`: the parts of rows of the host buffer that `stagePicture` reads. `stagePicture_congr`
  says that the result depends on nothing else.
* `HostRead.Inside`: such a part lies in its row, and its row in the buffer.
* `Fits`: the sizes with which they all do.
* `hostReads_inside_iff`: these are the only ones.
-/

namespace NvVaapi

/-- A part of one luma or chroma row of a host buffer. -/
structure HostRead where
  chroma : Bool
  row : Nat
  column : Nat
  length : Nat
  deriving DecidableEq

namespace HostRead

def offset (sf : EncodeSurface) (r : HostRead) : Nat :=
  (if r.chroma then sf.hostYSize else 0) + r.row * sf.hostPitch + r.column

def rows (sf : EncodeSurface) (r : HostRead) : Nat :=
  if r.chroma then sf.hostRows / 2 else sf.hostRows

/-- Every byte is in an allocated row, left of the pitch and below the size of the buffer. -/
def Inside (sf : EncodeSurface) (r : HostRead) : Prop :=
  ∀ i < r.length, r.row < r.rows sf ∧ r.column + i < sf.hostPitch ∧
    r.offset sf + i < sf.hostTotalSize

instance (sf : EncodeSurface) (r : HostRead) : Decidable (r.Inside sf) :=
  inferInstanceAs (Decidable (∀ i < r.length, _))

end HostRead

/-- The rows of a rectangle, and the chroma rows that belong to it. -/
def rectReads (x y w h : Nat) : List HostRead :=
  (List.range h).map (fun i => ⟨false, y + i, x, w⟩) ++
    (List.range (h / 2)).map fun i => ⟨true, y / 2 + i, x, w⟩

def SourceRegion.reads (r : SourceRegion) : List HostRead :=
  rectReads r.srcX.toNat r.srcY.toNat r.copyWidth.toNat r.copyHeight.toNat

/-- The fast path reads whole rows. -/
def hostReads (ctx : EncodeContext) (sf : EncodeSurface) (dstPitch : Nat) : List HostRead :=
  if WholePlane ctx sf dstPitch then rectReads 0 0 sf.hostPitch ctx.height.toNat
  else (selectRegion ctx sf).reads

section Congr

variable {ctx : EncodeContext} {sf : EncodeSurface} {dstPitch : Nat} {src src' dst : Nat → UInt8}

/-- The bytes of a rectangle, in luma and in chroma. -/
theorem forall_rectReads {x y w h : Nat} (P : Nat → Prop) :
    (∀ r ∈ rectReads x y w h, ∀ i < r.length, P (r.offset sf + i)) ↔
      (∀ v < h, ∀ i < w, P ((y + v) * sf.hostPitch + x + i)) ∧
        ∀ v < h / 2, ∀ i < w, P (sf.hostYSize + (y / 2 + v) * sf.hostPitch + x + i) := by
  simp [rectReads, HostRead.offset, or_imp, forall_and]

/-- The copy depends on the bytes of `hostReads` only. -/
theorem stagePicture_congr (h : ∀ r ∈ hostReads ctx sf dstPitch, ∀ i < r.length,
    src (r.offset sf + i) = src' (r.offset sf + i)) :
    stagePicture ctx sf dstPitch src dst = stagePicture ctx sf dstPitch src' dst := by
  unfold stagePicture
  unfold hostReads at h
  split
  · next hwhole =>
    rw [if_pos hwhole] at h
    obtain ⟨hluma, hchroma⟩ := (forall_rectReads fun a => src a = src' a).mp h
    rw [hwhole.2.2.2.2] at hluma hchroma
    have hY : Bytes.read src 0 (ctx.height.toNat * dstPitch) =
        Bytes.read src' 0 (ctx.height.toNat * dstPitch) :=
      Plane.readRows_congr fun v hv i hi => by simpa using hluma v hv i hi
    have hUV : Bytes.read src sf.hostYSize (ctx.height.toNat / 2 * dstPitch) =
        Bytes.read src' sf.hostYSize (ctx.height.toNat / 2 * dstPitch) :=
      Plane.readRows_congr fun v hv i hi => by simpa using hchroma v hv i hi
    unfold copyWhole
    rw [hY, hUV]
  · next hwhole =>
    rw [if_neg hwhole] at h
    obtain ⟨hluma, hchroma⟩ := (forall_rectReads fun a => src a = src' a).mp h
    have row_comm (a y v x i : Nat) : a + (y + v) * sf.hostPitch + x + i =
        a + y * sf.hostPitch + x + v * sf.hostPitch + i := by
      rw [Nat.add_mul]
      omega
    have hpay : copyPayload ctx sf dstPitch src (selectRegion ctx sf) dst =
        copyPayload ctx sf dstPitch src' (selectRegion ctx sf) dst := by
      unfold copyPayload
      refine (Plane.memcpyRows_congr fun v hv i hi => ?_).trans (congrArg _ ?_)
      · rw [← row_comm]
        exact hchroma v hv i hi
      · refine Plane.memcpyRows_congr fun v hv i hi => ?_
        have hr := row_comm 0 (selectRegion ctx sf).srcY.toNat v (selectRegion ctx sf).srcX.toNat i
        rw [Nat.zero_add, Nat.zero_add] at hr
        rw [← hr]
        exact hluma v hv i hi
    unfold copyByRows
    rw [hpay]

end Congr

/-! ## Where the reads are -/

theorem toNat_roundUp {n s : UInt32} (hs : 0 < s.toNat) :
    (roundUp n s).toNat = (n.toNat + s.toNat - 1) % 2 ^ 32 / s.toNat * s.toNat := by
  have hsub : (n + s - 1).toNat = (n.toNat + s.toNat - 1) % 2 ^ 32 := by
    rw [UInt32.toNat_sub, UInt32.toNat_add]
    change (2 ^ 32 - 1 + (n.toNat + s.toNat) % 2 ^ 32) % 2 ^ 32 = _
    omega
  have hle : (n.toNat + s.toNat - 1) % 2 ^ 32 / s.toNat * s.toNat ≤
      (n.toNat + s.toNat - 1) % 2 ^ 32 := Nat.div_mul_le_self _ _
  have hlt : (n.toNat + s.toNat - 1) % 2 ^ 32 < 2 ^ 32 := Nat.mod_lt _ (by decide)
  rw [roundUp, UInt32.toNat_mul, UInt32.toNat_div, hsub, Nat.mod_eq_of_lt (by omega)]

theorem even_roundUp (n : UInt32) : (roundUp n 2).toNat % 2 = 0 := by
  rw [toNat_roundUp (by decide)]
  exact Nat.mul_mod_left _ _

namespace EncodeSurface

variable (sf : EncodeSurface)

theorem hostPitch_eq : sf.hostPitch = (sf.width.toNat + 63) % 2 ^ 32 / 64 * 64 :=
  toNat_roundUp (by decide)

theorem hostRows_eq : sf.hostRows = (sf.height.toNat + 15) % 2 ^ 32 / 16 * 16 :=
  toNat_roundUp (by decide)

/-- No step of the computation of the buffer's size wraps around. -/
def SizesFit : Prop :=
  sf.width.toNat + 63 < 2 ^ 32 ∧ sf.height.toNat + 15 < 2 ^ 32 ∧
    sf.hostYSize + sf.hostPitch * (sf.hostRows / 2) < 2 ^ 64

instance : Decidable sf.SizesFit := inferInstanceAs (Decidable (_ ∧ _ ∧ _))

end EncodeSurface

section Inside

variable {sf : EncodeSurface} {x y w h : Nat}

/-- A buffer whose size wraps around ends before the chroma rows. -/
theorem hostTotalSize_of_wrap (hw : 2 ^ 64 ≤ sf.hostYSize + sf.hostPitch * (sf.hostRows / 2)) :
    sf.hostTotalSize ≤ sf.hostYSize := by
  have hp : sf.hostPitch < 2 ^ 32 := UInt32.toNat_lt _
  have hr : sf.hostRows < 2 ^ 32 := UInt32.toNat_lt _
  have hy : sf.hostYSize ≤ 2 ^ 32 * (2 ^ 32 - 1) := Nat.mul_le_mul (by omega) (by omega)
  have hc : sf.hostPitch * (sf.hostRows / 2) ≤ 2 ^ 32 * 2 ^ 31 :=
    Nat.mul_le_mul (by omega) (by omega)
  unfold EncodeSurface.hostTotalSize
  omega

/-- In a buffer whose size does not wrap around, a read in an allocated row stays in the buffer. -/
theorem HostRead.inside_of_row {r : HostRead} (hs : sf.SizesFit) (hrow : r.row < r.rows sf)
    (hcol : r.column + r.length ≤ sf.hostPitch) : r.Inside sf := by
  intro i hi
  have hin : r.row * sf.hostPitch + (r.column + i) < r.rows sf * sf.hostPitch :=
    (Plane.row_lt_iff (by omega)).mpr hrow
  have htot : sf.hostTotalSize = sf.hostYSize + sf.hostPitch * (sf.hostRows / 2) :=
    Nat.mod_eq_of_lt hs.2.2
  refine ⟨hrow, by omega, ?_⟩
  rw [htot]
  unfold HostRead.offset
  unfold HostRead.rows at hin
  have hY : sf.hostYSize = sf.hostRows * sf.hostPitch := Nat.mul_comm _ _
  rw [Nat.mul_comm sf.hostPitch]
  split at hin <;> rename_i hc <;> simp only [hc, if_true, Bool.false_eq_true, if_false] <;> omega

/-- A rectangle with even sizes is read inside the buffer if it lies inside the allocated rows. -/
theorem rectReads_inside_iff (hw : 0 < w) (hh : 2 ≤ h) (heven : h % 2 = 0) (hy : y % 2 = 0) :
    (∀ r ∈ rectReads x y w h, r.Inside sf) ↔
      sf.SizesFit ∧ x + w ≤ sf.hostPitch ∧ y + h ≤ sf.hostRows := by
  have hP := sf.hostPitch_eq
  have hR := sf.hostRows_eq
  have hWlt := sf.width.toNat_lt
  have hHlt := sf.height.toNat_lt
  constructor
  · intro hin
    have hlast : (⟨false, y + (h - 1), x, w⟩ : HostRead) ∈ rectReads x y w h := by
      simp only [rectReads, List.mem_append, List.mem_map, List.mem_range]
      exact .inl ⟨h - 1, by omega, rfl⟩
    have hchroma : (⟨true, y / 2 + 0, x, w⟩ : HostRead) ∈ rectReads x y w h := by
      simp only [rectReads, List.mem_append, List.mem_map, List.mem_range]
      exact .inr ⟨0, by omega, rfl⟩
    have hl := hin _ hlast (w - 1) (by exact Nat.sub_lt hw Nat.one_pos)
    have hc := hin _ hchroma 0 hw
    simp only [HostRead.rows, HostRead.offset, Bool.false_eq_true, if_false, if_true] at hl hc
    refine ⟨⟨by omega, by omega, ?_⟩, by omega, by omega⟩
    by_contra hwrap
    have := hostTotalSize_of_wrap (Nat.le_of_not_lt hwrap)
    omega
  · rintro ⟨hs, hx, hy'⟩ r hr
    simp only [rectReads, List.mem_append, List.mem_map, List.mem_range] at hr
    obtain ⟨v, hv, rfl⟩ | ⟨v, hv, rfl⟩ := hr
    · refine HostRead.inside_of_row hs ?_ hx
      simp only [HostRead.rows, Bool.false_eq_true, if_false]
      omega
    · refine HostRead.inside_of_row hs ?_ hx
      simp only [HostRead.rows, if_true]
      omega

end Inside

/-! ## The sizes that fit -/

section Fits

variable (ctx : EncodeContext) (sf : EncodeSurface)

/-- The encoder's own picture size fits into the buffer. -/
def EncoderFits : Prop :=
  ctx.width.toNat / 2 * 2 ≤ sf.hostPitch ∧ ctx.height.toNat / 2 * 2 ≤ sf.hostRows

instance : Decidable (EncoderFits ctx sf) := inferInstanceAs (Decidable (_ ∧ _))

/-- Of `n` columns from `x` on, no pair is left before `limit`. -/
def Vanishes (x n limit : Nat) : Prop := n < 2 ∨ x + n < 2 ^ 32 ∧ limit - x < 2

instance (x n limit : Nat) : Decidable (Vanishes x n limit) := inferInstanceAs (Decidable (_ ∨ _))

/-- The visible rectangle has to lie in the buffer. A content rectangle is clipped to the surface,
which fails only when its end wraps around. Where nothing is left of a region, the encoder's size
has to fit. -/
def RegionFits : Prop :=
  if ctx.UsesVisible then
    if ctx.encVisibleWidth < 2 ∨ ctx.encVisibleHeight < 2 then EncoderFits ctx sf
    else
      ctx.encVisibleX.toNat / 2 * 2 + min ctx.encVisibleWidth.toNat ctx.width.toNat / 2 * 2 ≤
          sf.hostPitch ∧
        ctx.encVisibleY.toNat / 2 * 2 + min ctx.encVisibleHeight.toNat ctx.height.toNat / 2 * 2 ≤
          sf.hostRows
  else if sf.UsesContent ∧ sf.contentX < sf.width ∧ sf.contentY < sf.height then
    let w := min sf.contentWidth.toNat ctx.width.toNat
    let h := min sf.contentHeight.toNat ctx.height.toNat
    if Vanishes sf.contentX.toNat w sf.width.toNat ∨
        Vanishes sf.contentY.toNat h sf.height.toNat then
      EncoderFits ctx sf
    else sf.contentX.toNat + w < 2 ^ 32 ∧ sf.contentY.toNat + h < 2 ^ 32
  else if sf.width < 2 ∨ sf.height < 2 then EncoderFits ctx sf
  else True

instance : Decidable (RegionFits ctx sf) := by
  unfold RegionFits
  infer_instance

/-- An encoder whose picture is less than two samples wide or high reads nothing. -/
def Fits : Prop :=
  ctx.width < 2 ∨ ctx.height < 2 ∨ sf.SizesFit ∧ RegionFits ctx sf

instance : Decidable (Fits ctx sf) := inferInstanceAs (Decidable (_ ∨ _ ∨ _ ∧ _))

end Fits

/-- A region of the given sizes, or the encoder's size when nothing is left of it. -/
def SourceRegion.EvenFits (r : SourceRegion) (ctx : EncodeContext) (sf : EncodeSurface) : Prop :=
  if r.copyWidth.toNat < 2 ∨ r.copyHeight.toNat < 2 then EncoderFits ctx sf
  else r.srcX.toNat / 2 * 2 + r.copyWidth.toNat / 2 * 2 ≤ sf.hostPitch ∧
    r.srcY.toNat / 2 * 2 + r.copyHeight.toNat / 2 * 2 ≤ sf.hostRows

section Selected

variable {ctx : EncodeContext} {sf : EncodeSurface} {dstPitch : Nat}

theorem evenDown_eq_zero (n : UInt32) : evenDown n = 0 ↔ n.toNat < 2 := by
  rw [← UInt32.toNat_inj, toNat_evenDown, UInt32.toNat_zero]
  omega

theorem evenRegion_inside_iff (r : SourceRegion) (hW : 2 ≤ ctx.width.toNat)
    (hH : 2 ≤ ctx.height.toNat) :
    (∀ q ∈ (evenRegion ctx r).reads, q.Inside sf) ↔
      sf.SizesFit ∧ r.EvenFits ctx sf := by
  unfold evenRegion SourceRegion.EvenFits
  simp only [evenDown_eq_zero]
  split
  · unfold SourceRegion.reads
    simp only [toNat_evenDown, UInt32.toNat_zero]
    rw [rectReads_inside_iff (by omega) (by omega) (by omega) rfl, Nat.zero_add, Nat.zero_add]
    rfl
  · unfold SourceRegion.reads
    simp only [toNat_evenDown]
    rw [rectReads_inside_iff (by omega) (by omega) (by omega) (by omega)]

/-- An encoder with less than two columns or rows copies nothing. -/
theorem selectRegion_inside_of_small (hs : ctx.width.toNat < 2 ∨ ctx.height.toNat < 2) :
    ∀ q ∈ (selectRegion ctx sf).reads, q.Inside sf := by
  have hle := chooseRegion_le ctx sf
  have hfall : selectRegion ctx sf = ⟨0, 0, evenDown ctx.width, evenDown ctx.height⟩ := by
    unfold selectRegion evenRegion
    simp only [evenDown_eq_zero]
    rw [if_pos (by omega)]
  intro q hq i hi
  simp only [hfall, SourceRegion.reads, rectReads, toNat_evenDown, List.mem_append, List.mem_map,
    List.mem_range] at hq
  obtain ⟨v, hv, rfl⟩ | ⟨v, hv, rfl⟩ := hq <;> simp only at hi <;> omega

/-- The fast path reads inside the buffer when the rows of its region do. -/
theorem hostReads_inside_selected (hW : 0 < ctx.width.toNat) (hH : 0 < ctx.height.toNat)
    (hp : ctx.width.toNat ≤ dstPitch) :
    (∀ q ∈ hostReads ctx sf dstPitch, q.Inside sf) ↔
      ∀ q ∈ (selectRegion ctx sf).reads, q.Inside sf := by
  unfold hostReads
  split
  · next hwhole =>
    obtain ⟨hX, hY, hcw, hch, hpitch⟩ := hwhole
    have heven : (selectRegion ctx sf).copyHeight.toNat % 2 = 0 := by
      unfold selectRegion evenRegion
      split <;> simp only [toNat_evenDown] <;> omega
    rw [hch] at heven
    unfold SourceRegion.reads
    rw [hX, hY, hcw, hch, hpitch, UInt32.toNat_zero,
      rectReads_inside_iff (by omega) (by omega) heven rfl,
      rectReads_inside_iff (by omega) (by omega) heven rfl]
    refine and_congr_right fun _ => ?_
    rw [hpitch]
    omega
  · rfl

theorem visibleRegion_evenFits (hW : 2 ≤ ctx.width.toNat) (hH : 2 ≤ ctx.height.toNat) :
    (visibleRegion ctx).EvenFits ctx sf ↔
    if ctx.encVisibleWidth < 2 ∨ ctx.encVisibleHeight < 2 then EncoderFits ctx sf
    else
      ctx.encVisibleX.toNat / 2 * 2 + min ctx.encVisibleWidth.toNat ctx.width.toNat / 2 * 2 ≤
          sf.hostPitch ∧
        ctx.encVisibleY.toNat / 2 * 2 + min ctx.encVisibleHeight.toNat ctx.height.toNat / 2 * 2 ≤
          sf.hostRows := by
  have hsmall : ctx.encVisibleWidth < 2 ∨ ctx.encVisibleHeight < 2 ↔
      min ctx.encVisibleWidth.toNat ctx.width.toNat < 2 ∨
        min ctx.encVisibleHeight.toNat ctx.height.toNat < 2 := by
    simp only [UInt32.lt_iff_toNat_lt, UInt32.reduceToNat]
    omega
  unfold SourceRegion.EvenFits visibleRegion
  simp only [toNat_lesser, hsmall]

/-- The whole surface lies in its buffer. -/
theorem wholeRegion_evenFits (hs : sf.SizesFit) (hW : 2 ≤ ctx.width.toNat)
    (hH : 2 ≤ ctx.height.toNat) : (wholeRegion ctx sf).EvenFits ctx sf ↔
    if sf.width < 2 ∨ sf.height < 2 then EncoderFits ctx sf else True := by
  have hP := sf.hostPitch_eq
  have hR := sf.hostRows_eq
  obtain ⟨hsW, hsH, -⟩ := hs
  have hsmall : sf.width < 2 ∨ sf.height < 2 ↔
      min sf.width.toNat ctx.width.toNat < 2 ∨ min sf.height.toNat ctx.height.toNat < 2 := by
    simp only [UInt32.lt_iff_toNat_lt, UInt32.reduceToNat]
    omega
  unfold SourceRegion.EvenFits wholeRegion
  simp only [toNat_lesser, hsmall, UInt32.toNat_zero]
  split
  · rfl
  · rw [iff_true]
    omega

/-- A content rectangle that starts in the surface lies in its buffer unless its end wraps
around. -/
theorem clip_evenFits (hs : sf.SizesFit) (hx : sf.contentX < sf.width)
    (hy : sf.contentY < sf.height) :
    SourceRegion.EvenFits ⟨sf.contentX, sf.contentY,
        clip sf.contentX (lesser sf.contentWidth ctx.width) sf.width,
        clip sf.contentY (lesser sf.contentHeight ctx.height) sf.height⟩ ctx sf ↔
      let w := min sf.contentWidth.toNat ctx.width.toNat
      let h := min sf.contentHeight.toNat ctx.height.toNat
      if Vanishes sf.contentX.toNat w sf.width.toNat ∨
          Vanishes sf.contentY.toNat h sf.height.toNat then
        EncoderFits ctx sf
      else sf.contentX.toNat + w < 2 ^ 32 ∧ sf.contentY.toNat + h < 2 ^ 32 := by
  have hP := sf.hostPitch_eq
  have hR := sf.hostRows_eq
  obtain ⟨hsW, hsH, -⟩ := hs
  unfold SourceRegion.EvenFits
  simp only [toNat_clip _ hx, toNat_clip _ hy, toNat_lesser]
  rw [UInt32.lt_iff_toNat_lt] at hx hy
  generalize min sf.contentWidth.toNat ctx.width.toNat = w
  generalize min sf.contentHeight.toNat ctx.height.toNat = h
  have hvanish (x n limit : Nat) (hlt : x < limit) :
      (if x + n < 2 ^ 32 then min n (limit - x) else n) < 2 ↔ Vanishes x n limit := by
    unfold Vanishes
    split <;> omega
  simp only [hvanish _ _ _ hx, hvanish _ _ _ hy]
  split
  · rfl
  · unfold Vanishes at *
    split <;> split <;> omega

theorem chooseRegion_evenFits (hs : sf.SizesFit) (hW : 2 ≤ ctx.width.toNat)
    (hH : 2 ≤ ctx.height.toNat) : (chooseRegion ctx sf).EvenFits ctx sf ↔ RegionFits ctx sf := by
  unfold chooseRegion RegionFits
  split
  · exact visibleRegion_evenFits hW hH
  · unfold contentRegion
    split
    · next hc =>
      split
      · next hout =>
        rw [if_neg fun h => hout.elim (UInt32.not_le.mpr h.2.1) (UInt32.not_le.mpr h.2.2)]
        exact wholeRegion_evenFits hs hW hH
      · next hin =>
        rw [not_or, UInt32.not_le, UInt32.not_le] at hin
        rw [if_pos ⟨hc, hin⟩]
        exact clip_evenFits hs hin.1 hin.2
    · next hc =>
      rw [if_neg fun h => hc h.1]
      exact wholeRegion_evenFits hs hW hH

/-- All reads of the copy are inside the host buffer exactly with the sizes of `Fits`. -/
theorem hostReads_inside_iff (hW : 0 < ctx.width.toNat) (hH : 0 < ctx.height.toNat)
    (hp : ctx.width.toNat ≤ dstPitch) :
    (∀ q ∈ hostReads ctx sf dstPitch, q.Inside sf) ↔ Fits ctx sf := by
  rw [hostReads_inside_selected hW hH hp]
  unfold Fits
  by_cases hsmall : ctx.width < 2 ∨ ctx.height < 2
  · rw [← or_assoc, iff_true_right (.inl hsmall)]
    exact selectRegion_inside_of_small hsmall
  · have hbig : 2 ≤ ctx.width.toNat ∧ 2 ≤ ctx.height.toNat :=
      (not_or.mp hsmall).imp Nat.le_of_not_lt Nat.le_of_not_lt
    rw [← or_assoc, or_iff_right hsmall]
    exact (evenRegion_inside_iff _ hbig.1 hbig.2).trans
      (and_congr_right fun hs => chooseRegion_evenFits hs hbig.1 hbig.2)

end Selected

end NvVaapi
