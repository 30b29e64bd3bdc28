import NvVaapi.Image.RoundTrip
import NvVaapi.Lib.Box
import NvVaapi.Lib.Lts

/-!
# The content of a surface

* `puts`: successful calls of `nvPutImage` on one surface, with the rectangles that they wrote.
* `HasContent`: the valid content rectangle of a surface, as a box of pixels.
* `hasContent_addContent`: how a rectangle that is written extends it.
* `content_boundingBox`: after any calls it is the least box around everything that was written.
-/

namespace NvVaapi.Image

open Objects (PutArgs)

/-! ## The system -/

/-- The destination of a copy, if it has a pixel. -/
def written (c : PlaneCopy) : Option Box :=
  if 0 < c.width ∧ 0 < c.rows then some (Box.ofSize c.dstX c.dstY c.width c.rows) else none

/-- A call of `nvPutImage` on the surface. -/
structure PutCall where
  calloc : Bool
  image : NVImage
  args : PutArgs

def PutCall.transfer (c : PutCall) (sf : NVSurface) : Transfer NVSurface :=
  nvPutImage c.calloc sf c.image c.args

/-- The luma samples that the call writes. -/
def PutCall.written (c : PutCall) (sf : NVSurface) : Option Box :=
  (c.transfer sf).copied.bind fun copies => Image.written copies.1

structure ContentHistory where
  surface : NVSurface
  /-- History: the destinations of the copies, after they were clipped. -/
  boxes : List Box

/-- The successful calls. -/
def puts : Lts ContentHistory PutCall where
  init h := h.surface.contentValid = false ∧ h.boxes = []
  step h c :=
    if (c.transfer h.surface).status = .success then
      some ⟨(c.transfer h.surface).after, h.boxes ++ (c.written h.surface).toList⟩
    else none

/-- No sum of an origin and a size wraps around. -/
structure PutSumsFit (img : NVImage) (p : PutArgs) : Prop where
  srcX : p.srcX.toUInt32.toNat + (lesser p.srcWidth p.destWidth).toNat < 2 ^ 32
  srcY : p.srcY.toUInt32.toNat + (lesser p.srcHeight p.destHeight).toNat < 2 ^ 32
  destX : p.destX.toUInt32.toNat +
    (clip p.srcX.toUInt32 (lesser p.srcWidth p.destWidth) img.width).toNat < 2 ^ 32
  destY : p.destY.toUInt32.toNat +
    (clip p.srcY.toUInt32 (lesser p.srcHeight p.destHeight) img.height).toNat < 2 ^ 32

instance (img : NVImage) (p : PutArgs) : Decidable (PutSumsFit img p) :=
  decidable_of_iff (_ ∧ _ ∧ _ ∧ _) ⟨fun ⟨a, b, c, d⟩ => ⟨a, b, c, d⟩,
    fun ⟨a, b, c, d⟩ => ⟨a, b, c, d⟩⟩

/-- The call copies a pixel at least, and its sums do not wrap around. -/
def PutsPixels (h : ContentHistory) (c : PutCall) : Prop :=
  PutSumsFit c.image c.args ∧ (c.written h.surface).isSome

instance (h : ContentHistory) (c : PutCall) : Decidable (PutsPixels h c) :=
  inferInstanceAs (Decidable (_ ∧ _))

/-! ## Content rectangles -/

/-- The content of the surface is valid, and it is the box `b`. -/
structure HasContent (sf : EncodeSurface) (b : Box) : Prop where
  valid : sf.contentValid = true
  width_pos : 0 < sf.contentWidth.toNat
  height_pos : 0 < sf.contentHeight.toNat
  box :
    b = Box.ofSize sf.contentX.toNat sf.contentY.toNat sf.contentWidth.toNat sf.contentHeight.toNat

/-- The content rectangle is inside the surface. -/
def ContentInside (sf : EncodeSurface) : Prop :=
  sf.contentX.toNat + sf.contentWidth.toNat ≤ sf.width.toNat ∧
    sf.contentY.toNat + sf.contentHeight.toNat ≤ sf.height.toNat

/-- The union on one axis. Inside the limit the sums do not wrap around, and nothing is clipped. -/
theorem toNat_union {a n r m limit : UInt32} (ha : a.toNat + n.toNat ≤ limit.toNat)
    (hr : r.toNat + m.toNat ≤ limit.toNat) :
    (if a < r then a else r).toNat = min a.toNat r.toNat ∧
      (lesser limit (if a + n > r + m then a + n else r + m)).toNat =
        max (a.toNat + n.toNat) (r.toNat + m.toNat) := by
  have hlimit := limit.toNat_lt
  have han : (a + n).toNat = a.toNat + n.toNat := by
    rw [UInt32.toNat_add]
    exact Nat.mod_eq_of_lt (by omega)
  have hrm : (r + m).toNat = r.toNat + m.toNat := by
    rw [UInt32.toNat_add]
    exact Nat.mod_eq_of_lt (by omega)
  constructor
  · simp only [UInt32.lt_iff_toNat_lt]
    split <;> omega
  · simp only [toNat_lesser, gt_iff_lt, UInt32.lt_iff_toNat_lt, han, hrm]
    split <;> omega

theorem toNat_length {s e : UInt32} (h : s.toNat < e.toNat) :
    (if e > s then e - s else 0).toNat = e.toNat - s.toNat := by
  rw [if_pos (UInt32.lt_iff_toNat_lt.mpr h)]
  exact UInt32.toNat_sub_of_le _ _ (UInt32.le_iff_toNat_le.mpr (Nat.le_of_lt h))

section AddContent

variable {sf : EncodeSurface} {rx ry rw rh : UInt32}

theorem hasContent_first (hv : sf.contentValid = false) (hw : 0 < rw.toNat) (hh : 0 < rh.toNat) :
    HasContent (sf.addContent rx ry rw rh) (Box.ofSize rx.toNat ry.toNat rw.toNat rh.toNat) := by
  unfold EncodeSurface.addContent
  rw [hv]
  exact ⟨rfl, hw, hh, rfl⟩

theorem contentInside_first (hv : sf.contentValid = false)
    (hx : rx.toNat + rw.toNat ≤ sf.width.toNat) (hy : ry.toNat + rh.toNat ≤ sf.height.toNat) :
    ContentInside (sf.addContent rx ry rw rh) := by
  unfold EncodeSurface.addContent
  rw [hv]
  exact ⟨hx, hy⟩

/-- A valid content that is extended by a rectangle, both inside the surface. -/
structure Extended (sf sf' : EncodeSurface) (rx ry rw rh : UInt32) : Prop where
  contentX : sf'.contentX.toNat = min sf.contentX.toNat rx.toNat
  contentY : sf'.contentY.toNat = min sf.contentY.toNat ry.toNat
  contentWidth : sf'.contentWidth.toNat =
    max (sf.contentX.toNat + sf.contentWidth.toNat) (rx.toNat + rw.toNat) -
      min sf.contentX.toNat rx.toNat
  contentHeight : sf'.contentHeight.toNat =
    max (sf.contentY.toNat + sf.contentHeight.toNat) (ry.toNat + rh.toNat) -
      min sf.contentY.toNat ry.toNat
  contentValid : sf'.contentValid = decide (sf'.contentWidth > 0 ∧ sf'.contentHeight > 0)
  size : sf'.width = sf.width ∧ sf'.height = sf.height

theorem extended_addContent (hv : sf.contentValid = true) (hin : ContentInside sf)
    (hw : 0 < rw.toNat) (hh : 0 < rh.toNat) (hx : rx.toNat + rw.toNat ≤ sf.width.toNat)
    (hy : ry.toNat + rh.toNat ≤ sf.height.toNat) :
    Extended sf (sf.addContent rx ry rw rh) rx ry rw rh := by
  obtain ⟨hleft, hright⟩ := toNat_union hin.1 hx
  obtain ⟨htop, hbottom⟩ := toNat_union hin.2 hy
  unfold EncodeSurface.addContent
  simp only [hv, Bool.not_true, Bool.false_eq_true, if_false]
  refine ⟨hleft, htop, ?_, ?_, ?_, rfl, rfl⟩
  · rw [toNat_length (by omega), hleft, hright]
  · rw [toNat_length (by omega), htop, hbottom]
  · dsimp only

/-- The content extends to the least box around both. -/
theorem Extended.hasContent {sf' : EncodeSurface} {b : Box} (h : Extended sf sf' rx ry rw rh)
    (hc : HasContent sf b) (hw : 0 < rw.toNat) (hh : 0 < rh.toNat) :
    HasContent sf' (b ⊔ Box.ofSize rx.toNat ry.toNat rw.toNat rh.toNat) := by
  obtain ⟨-, hcw, hch, rfl⟩ := hc
  have hwidth : 0 < sf'.contentWidth.toNat := by
    rw [h.contentWidth]
    omega
  have hheight : 0 < sf'.contentHeight.toNat := by
    rw [h.contentHeight]
    omega
  refine ⟨?_, hwidth, hheight, ?_⟩
  · rw [h.contentValid, decide_eq_true_eq]
    exact ⟨UInt32.lt_iff_toNat_lt.mpr hwidth, UInt32.lt_iff_toNat_lt.mpr hheight⟩
  · rw [Box.ofSize_sup hcw hch hw hh, h.contentX, h.contentY, h.contentWidth, h.contentHeight]

theorem Extended.inside {sf' : EncodeSurface} (h : Extended sf sf' rx ry rw rh)
    (hin : ContentInside sf) (hx : rx.toNat + rw.toNat ≤ sf.width.toNat)
    (hy : ry.toNat + rh.toNat ≤ sf.height.toNat) :
    ContentInside sf' := by
  obtain ⟨hin₁, hin₂⟩ := hin
  constructor
  · rw [h.contentX, h.contentWidth, h.size.1]
    omega
  · rw [h.contentY, h.contentHeight, h.size.2]
    omega

end AddContent

/-! ## The calls -/

section Calls

variable {h h' : ContentHistory} {c : PutCall}

theorem PutSumsFit.fits {sf : NVSurface} {img : NVImage} {p : PutArgs} (h : PutSumsFit img p)
    (hs : PutStarts sf.toEncodeSurface img p) : PutFits img sf p := by
  obtain ⟨-, himg, -⟩ := hs
  rw [not_or, UInt32.not_le, UInt32.not_le] at himg
  obtain ⟨hsrcX, hsrcY, hdestX, hdestY⟩ := h
  rw [toNat_clip _ himg.1, if_pos hsrcX] at hdestX
  rw [toNat_clip _ himg.2, if_pos hsrcY] at hdestY
  rw [toNat_lesser] at hsrcX hsrcY hdestX hdestY
  refine .inr ⟨?_, ?_⟩
  · rw [PutAxisFits, if_pos hsrcX]
    exact hdestX
  · rw [PutAxisFits, if_pos hsrcY]
    exact hdestY

section Pixels

variable {p : PutArgs} {img : NVImage}

/-- A copy with a pixel adds its destination to the content. -/
theorem copyToSurface_content {sf : NVSurface} (host src : Memory)
    (hw : 0 < (putWidth sf.toEncodeSurface img p).toNat)
    (hh : 0 < (putHeight sf.toEncodeSurface img p).toNat) :
    (copyToSurface sf host img src p).toEncodeSurface =
      sf.addContent p.destX.toUInt32 p.destY.toUInt32 (putWidth sf.toEncodeSurface img p)
        (putHeight sf.toEncodeSurface img p) := by
  have hpos : putWidth sf.toEncodeSurface img p > 0 ∧ putHeight sf.toEncodeSurface img p > 0 :=
    ⟨UInt32.lt_iff_toNat_lt.mpr hw, UInt32.lt_iff_toNat_lt.mpr hh⟩
  unfold copyToSurface
  dsimp only
  rw [if_pos hpos]

theorem written_putCopies {sf : EncodeSurface} (hw : 0 < (putWidth sf img p).toNat)
    (hh : 0 < (putHeight sf img p).toNat) : written (putCopies sf img p).1 =
      some (Box.ofSize p.destX.toUInt32.toNat p.destY.toUInt32.toNat (putWidth sf img p).toNat
        (putHeight sf img p).toNat) := by
  unfold written putCopies planeCopies
  dsimp only
  rw [if_pos ⟨hw, hh⟩]

end Pixels

/-- What a call does to the content, with the rectangle that it copies to. -/
structure Put (sf sf' : EncodeSurface) (boxes boxes' : List Box) (rx ry rw rh : UInt32) : Prop where
  surface : sf' = sf.addContent rx ry rw rh
  boxes : boxes' = boxes ++ [Box.ofSize rx.toNat ry.toNat rw.toNat rh.toNat]
  width_pos : 0 < rw.toNat
  height_pos : 0 < rh.toNat
  right : rx.toNat + rw.toNat ≤ sf.width.toNat
  bottom : ry.toNat + rh.toNat ≤ sf.height.toNat

theorem put_of_step (hok : PutsPixels h c) (hst : puts.step h c = some h') :
    ∃ rx ry rw rh,
      Put h.surface.toEncodeSurface h'.surface.toEncodeSurface h.boxes h'.boxes rx ry rw rh := by
  obtain ⟨hfit, hpixels⟩ := hok
  obtain ⟨hstatus, rfl⟩ : (c.transfer h.surface).status = .success ∧ _ = h' := by
    simpa [puts] using hst
  obtain ⟨src, r, -, hr, ⟨-, hput⟩ | ⟨hz, hs, hput⟩⟩ := nvPutImage_success hstatus
  · -- nothing is copied
    simp [PutCall.written, PutCall.transfer, hput, Transfer.plain] at hpixels
  · obtain ⟨⟨hw, hh⟩, hbounds⟩ := putBounds_iff hz hs
    obtain ⟨⟨-, hx⟩, -, hy⟩ := hbounds.mpr (hfit.fits hs)
    refine ⟨_, _, _, _, ?_, ?_, hw, hh, hx, hy⟩
    · show (c.transfer h.surface).after.toEncodeSurface = _
      rw [PutCall.transfer, hput]
      rw [← ensureSurfaceHostBuffer_size hr] at hw hh ⊢
      dsimp only
      rw [copyToSurface_content r.2 src hw hh]
    · show h.boxes ++ (c.written h.surface).toList = _
      rw [PutCall.written, PutCall.transfer, hput, Option.bind_some, written_putCopies hw hh]
      rfl

/-- The content is the least box around what was written, and inside the surface. Before the first
write there is none. -/
def ContentOk (h : ContentHistory) : Prop :=
  (h.boxes = [] ∧ h.surface.contentValid = false) ∨
    ∃ b, BoundingBox h.boxes b ∧ HasContent h.surface.toEncodeSurface b ∧
      ContentInside h.surface.toEncodeSurface

theorem ContentOk.step (hc : ContentOk h) (hok : PutsPixels h c) (hst : puts.step h c = some h') :
    ∃ b, BoundingBox h'.boxes b ∧ HasContent h'.surface.toEncodeSurface b ∧
      ContentInside h'.surface.toEncodeSurface := by
  obtain ⟨rx, ry, rw, rh, hput⟩ := put_of_step hok hst
  rw [hput.surface, hput.boxes]
  rcases hc with ⟨hnone, hv⟩ | ⟨b, hb, hc, hin⟩
  · rw [hnone]
    exact ⟨_, boundingBox_singleton _, hasContent_first hv hput.width_pos hput.height_pos,
      contentInside_first hv hput.right hput.bottom⟩
  · have hext :=
      extended_addContent hc.valid hin hput.width_pos hput.height_pos hput.right hput.bottom
    exact ⟨_, boundingBox_concat hb _, hext.hasContent hc hput.width_pos hput.height_pos,
      hext.inside hin hput.right hput.bottom⟩

theorem ContentOk.run {calls : List PutCall} (hc : ContentOk h) (hm : puts.Meets PutsPixels h calls)
    (hr : puts.run h calls = some h') : ContentOk h' :=
  Lts.run_invariant (fun _ _ _ _ hc hok hst => .inr (hc.step hok hst)) hc hm hr

/-- Every call adds the box that it writes. -/
theorem length_boxes {calls : List PutCall} (hm : puts.Meets PutsPixels h calls)
    (hr : puts.run h calls = some h') : h'.boxes.length = h.boxes.length + calls.length := by
  induction calls generalizing h with
  | nil =>
    obtain rfl : h = h' := by simpa using hr
    rfl
  | cons c calls ih =>
    obtain ⟨h₁, hst, hr⟩ := Option.bind_eq_some_iff.mp hr
    obtain ⟨_, _, _, _, hput⟩ := put_of_step hm.1 hst
    rw [ih (hm.2 h₁ hst) hr, hput.boxes]
    simp only [List.length_append, List.length_cons, List.length_nil]
    omega

end Calls

/-- After any successful calls that each copy a pixel at least and whose sums do not wrap around,
the content of a surface that had none is the least box around the rectangles that they wrote, and
it is inside the surface. -/
theorem content_boundingBox {h h' : ContentHistory} {calls : List PutCall} (h0 : puts.init h)
    (hne : calls ≠ []) (hm : puts.Meets PutsPixels h calls) (hr : puts.run h calls = some h') :
    h'.boxes.length = calls.length ∧
      ∃ b, BoundingBox h'.boxes b ∧ HasContent h'.surface.toEncodeSurface b ∧
        ContentInside h'.surface.toEncodeSurface := by
  have hlen := length_boxes hm hr
  rw [h0.2, List.length_nil, Nat.zero_add] at hlen
  refine ⟨hlen, ?_⟩
  rcases ContentOk.run (.inl h0.symm) hm hr with ⟨hnone, -⟩ | hc
  · rw [hnone] at hlen
    exact absurd (List.length_eq_zero_iff.mp hlen.symm) hne
  · exact hc

/-- A put of an 8 × 8 image. -/
def smallPut (destX destY : Int32) : PutCall where
  calloc := true
  image := createdImage .nv12 8 8 64 (some fun _ => 7)
  args := ⟨0, 0, 8, 8, destX, destY, 8, 8⟩

/-- A surface without a content. -/
def blankSurface : NVSurface :=
  { EncodeSurface.created 16 16 with hostData := none, backingImage := none, status := .ready }

theorem content_boundingBox_two : ∃ h' : ContentHistory, h'.boxes.length = 2 ∧
    ∃ b, BoundingBox h'.boxes b ∧ HasContent h'.surface.toEncodeSurface b ∧
      ContentInside h'.surface.toEncodeSurface := by
  have h0 : puts.init ⟨blankSurface, []⟩ := ⟨rfl, rfl⟩
  have hm : puts.Meets PutsPixels ⟨blankSurface, []⟩ [smallPut 2 2, smallPut 12 10] := by decide
  exact ⟨_, content_boundingBox h0 (List.cons_ne_nil _ _) hm rfl⟩

end NvVaapi.Image
