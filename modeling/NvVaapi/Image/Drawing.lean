import NvVaapi.Image.Content
import NvVaapi.Lib.Strokes

/-!
# From an image to the encoder

What a client puts on a surface with `nvPutImage` is a drawing. `nvGetImage` reads it back, and the
encoder gets it.

* `putAll`: a surface after any calls of `nvPutImage`, with any results. `strokes` is what these
  copied.
* `picture_putAll`: the host buffer holds the drawing.
* `getImage_drawn`: what `nvGetImage` writes into an image.
* `stagePicture_drawn`: what `nvEndPicture` writes into the input buffer of the encoder.
-/

namespace NvVaapi.Image

open Objects (PutArgs NVContextMode GetResults)

/-- The picture of a surface. A host buffer is made of zeros. -/
def NVSurface.picture (sf : NVSurface) : Picture :=
  (hostLayout sf.toEncodeSurface).picture (sf.hostData.getD fun _ => 0)

/-- What a call copies. -/
def PutCall.stroke (c : PutCall) (sf : NVSurface) : Option Stroke :=
  (c.transfer sf).copied.bind fun copies => c.image.ptr.map fun src =>
    ⟨copies, c.image.layout.picture src⟩

/-- The surface after the calls, whether they succeed or not. -/
def putAll (sf : NVSurface) (calls : List PutCall) : NVSurface :=
  calls.foldl (fun sf c => (c.transfer sf).after) sf

def strokes : NVSurface → List PutCall → List Stroke
  | _, [] => []
  | sf, c :: calls => (c.stroke sf).toList ++ strokes (c.transfer sf).after calls

@[simp] theorem putAll_nil (sf : NVSurface) : putAll sf [] = sf := rfl

@[simp] theorem putAll_cons (sf : NVSurface) (c : PutCall) (calls : List PutCall) :
    putAll sf (c :: calls) = putAll (c.transfer sf).after calls := rfl

theorem putAll_size (sf : NVSurface) (calls : List PutCall) :
    (putAll sf calls).width = sf.width ∧ (putAll sf calls).height = sf.height := by
  induction calls generalizing sf with
  | nil => exact ⟨rfl, rfl⟩
  | cons c calls ih =>
    obtain ⟨hw, hh⟩ := ih (c.transfer sf).after
    obtain ⟨hw', hh'⟩ := nvPutImage_size c.calloc sf c.image c.args
    exact ⟨hw.trans hw', hh.trans hh'⟩

/-! ## What a call draws -/

section Call

variable {sf sf' : NVSurface} {c : PutCall} {p : Picture}

theorem PutFits.congr {img : NVImage} {args : PutArgs} (h : PutFits img sf args)
    (hs : sf'.width = sf.width ∧ sf'.height = sf.height) : PutFits img sf' args := by
  unfold PutFits at h ⊢
  rwa [hs.1, hs.2]

theorem EncodeSurface.SizesFit.congr {s s' : EncodeSurface} (h : s.SizesFit)
    (hs : s'.width = s.width ∧ s'.height = s.height) : s'.SizesFit := by
  unfold EncodeSurface.SizesFit EncodeSurface.hostYSize EncodeSurface.hostPitch
    EncodeSurface.hostRows at *
  rwa [hs.1, hs.2]

/-- A new host buffer holds the picture that the surface had without it. -/
theorem ensureSurfaceHostBuffer_picture {calloc : Bool} {r : NVSurface × Memory}
    (h : ensureSurfaceHostBuffer calloc sf = some r) :
    (hostLayout sf.toEncodeSurface).picture r.2 = sf.picture := by
  unfold ensureSurfaceHostBuffer at h
  unfold NVSurface.picture
  split at h
  · next hhost =>
    obtain rfl := Option.some_inj.mp h
    rw [hhost]
    rfl
  · next hhost =>
    rw [hhost]
    split at h
    · obtain rfl := Option.some_inj.mp h
      rfl
    · cases h

theorem copied_writesInside {img : NVImage} {args : PutArgs} (hz : ¬PutEmpty args)
    (hs : PutStarts sf.toEncodeSurface img args) (hfit : PutFits img sf args) :
    (putCopies sf.toEncodeSurface img args).1.WritesInside sf.width.toNat sf.height.toNat ∧
      (putCopies sf.toEncodeSurface img args).2.dstX +
        (putCopies sf.toEncodeSurface img args).2.width ≤
        sf.width.toNat := by
  obtain ⟨⟨-, hx⟩, -, hy⟩ := (putBounds_iff hz hs).2.mpr hfit
  refine ⟨⟨hx, hy⟩, ?_⟩
  simp only [putCopies, planeCopies, toNat_evenDown]
  omega

/-- A call copies to the host buffer, or the surface shows what it showed before. -/
theorem transfer_cases (sf : NVSurface) (c : PutCall) :
    (c.stroke sf = none ∧ (c.transfer sf).after.picture = sf.picture) ∨
    ∃ src m, ¬PutEmpty c.args ∧ PutStarts sf.toEncodeSurface c.image c.args ∧
      (hostLayout sf.toEncodeSurface).picture m = sf.picture ∧
      c.stroke sf = some ⟨putCopies sf.toEncodeSurface c.image c.args, c.image.layout.picture src⟩ ∧
      (c.transfer sf).after.picture = (hostLayout sf.toEncodeSurface).picture
        ((hostLayout sf.toEncodeSurface).copy c.image.layout
          (putCopies sf.toEncodeSurface c.image c.args) src
          m) := by
  have hlayout := hostLayout_congr (nvPutImage_size c.calloc sf c.image c.args)
  cases hp : c.image.ptr with
  | none =>
    left
    simp [PutCall.stroke, PutCall.transfer, nvPutImage, hp, Transfer.plain]
  | some src =>
    cases he : ensureSurfaceHostBuffer c.calloc sf with
    | none =>
      left
      simp [PutCall.stroke, PutCall.transfer, nvPutImage, hp, he, Transfer.plain]
    | some r =>
      have hsize := ensureSurfaceHostBuffer_size he
      have hpicture := ensureSurfaceHostBuffer_picture he
      have hsame : r.1.picture = sf.picture := by
        rw [NVSurface.picture, ensureSurfaceHostBuffer_host he, hsize]
        exact hpicture
      by_cases hz : PutEmpty c.args
      · have hput : c.transfer sf = .plain .success { r.1 with status := .ready } := by
          simp [PutCall.transfer, nvPutImage, hp, he, hz]
        left
        rw [PutCall.stroke, hput]
        exact ⟨rfl, hsame⟩
      · by_cases hs : PutStarts sf.toEncodeSurface c.image c.args
        · have hput : c.transfer sf = ⟨.success,
              { copyToSurface r.1 r.2 c.image src c.args with status := .ready },
              some (putCopies sf.toEncodeSurface c.image c.args)⟩ := by
            simp [PutCall.transfer, nvPutImage, hp, he, hz, hs, hsize]
          refine .inr ⟨src, r.2, hz, hs, hpicture, ?_, ?_⟩
          · rw [PutCall.stroke, hput, hp]
            rfl
          · unfold NVSurface.picture
            rw [PutCall.transfer, hlayout, ← PutCall.transfer, hput, ← hsize]
            rfl
        · have hput : c.transfer sf = .plain .errorInvalidParameter r.1 := by
            simp [PutCall.transfer, nvPutImage, hp, he, hz, hs, hsize]
          left
          rw [PutCall.stroke, hput]
          exact ⟨rfl, hsame⟩

/-- A surface that shows the picture `p` shows it with the stroke of the call over it afterwards. -/
theorem picture_transfer (hsf : sf.SizesFit) (hfit : PutFits c.image sf c.args)
    (hp : sf.picture.SameRect p 0 0 0 0 sf.width.toNat sf.height.toNat) :
    (c.transfer sf).after.picture.SameRect (p.draw (c.stroke sf).toList) 0 0 0 0 sf.width.toNat
      sf.height.toNat := by
  obtain ⟨hnone, hsame⟩ | ⟨src, m, hz, hs, hm, hstroke, hafter⟩ := transfer_cases sf c
  · rwa [hnone, hsame]
  · obtain ⟨hin, hchroma⟩ := copied_writesInside hz hs hfit
    rw [hstroke, hafter]
    exact TwoPlane.sameRect_paste (room_host hsf) hin hchroma (hm ▸ hp)

end Call

/-! ## What a surface shows -/

/-- After the calls the host buffer holds the drawing: what each call copied, over what was there
before. -/
theorem picture_putAll {sf : NVSurface} {calls : List PutCall} {p : Picture} (hsf : sf.SizesFit)
    (hfit : ∀ c ∈ calls, PutFits c.image sf c.args)
    (hp : sf.picture.SameRect p 0 0 0 0 sf.width.toNat sf.height.toNat) :
    (putAll sf calls).picture.SameRect
      (p.draw (strokes sf calls)) 0 0 0 0 sf.width.toNat sf.height.toNat := by
  induction calls generalizing sf p with
  | nil => exact hp
  | cons c calls ih =>
    obtain ⟨hc, hcalls⟩ := List.forall_mem_cons.mp hfit
    have hsize : (c.transfer sf).after.width = sf.width ∧
        (c.transfer sf).after.height = sf.height :=
      nvPutImage_size c.calloc sf c.image c.args
    have hafter := ih (EncodeSurface.SizesFit.congr hsf hsize)
      (fun c' hc' => PutFits.congr (hcalls c' hc') hsize) (p := p.draw (c.stroke sf).toList)
    rw [hsize.1, hsize.2] at hafter
    rw [strokes, Picture.draw, List.foldl_append]
    exact hafter (picture_transfer hsf hc hp)

section Observers

variable {sf : NVSurface} {calls : List PutCall} {host : Memory}

/-- The host buffer after the calls, sample by sample. -/
theorem host_putAll (hsf : sf.SizesFit) (hfit : ∀ c ∈ calls, PutFits c.image sf c.args)
    (hhost : (putAll sf calls).hostData = some host) :
    ((hostLayout sf.toEncodeSurface).picture host).SameRect
      (sf.picture.draw (strokes sf calls)) 0 0 0 0
      sf.width.toNat sf.height.toNat := by
  have hsame := picture_putAll hsf hfit (p := sf.picture) ⟨fun _ _ _ _ => rfl, fun _ _ _ _ => rfl⟩
  rwa [NVSurface.picture, hhost, hostLayout_congr (putAll_size sf calls)] at hsame

/-! ### The encoder -/

section Staged

variable {ctx : EncodeContext} {sf : EncodeSurface} {dstPitch x : Nat} {src dst : Memory}

/-- A luma sample of the encoder's input, for any pitch. -/
theorem stagePicture_luma (hp : ctx.width.toNat ≤ dstPitch) (hx : x < ctx.width.toNat) {y : Nat}
    (hy : y < ctx.height.toNat) : stagePicture ctx sf dstPitch src dst (y * dstPitch + x) =
      if x < (selectRegion ctx sf).copyWidth.toNat ∧ y < (selectRegion ctx sf).copyHeight.toNat then
        src (((selectRegion ctx sf).srcY.toNat + y) * sf.hostPitch +
          ((selectRegion ctx sf).srcX.toNat + x))
      else 0x00 := by
  unfold stagePicture
  split
  · next hwhole =>
    obtain ⟨hX, hY, hcw, hch, hpitch⟩ := hwhole
    rw [copyWhole_at (Nat.lt_of_lt_of_le hx hp), if_neg (by omega), if_pos hy]
    simp only [hX, hY, hcw, hch, hpitch, hx, hy, UInt32.toNat_zero, Nat.zero_add, and_self, if_true]
  · exact copyByRows_luma hp hx (selectRegion_le ctx sf).1 hy

theorem stagePicture_chroma (hp : ctx.width.toNat ≤ dstPitch) (hx : x < ctx.width.toNat) {v : Nat}
    (hv : v < ctx.height.toNat / 2) :
    stagePicture ctx sf dstPitch src dst (ctx.height.toNat * dstPitch + v * dstPitch + x) =
      if x < (selectRegion ctx sf).copyWidth.toNat ∧
          v < (selectRegion ctx sf).copyHeight.toNat / 2 then
        src (sf.hostYSize + ((selectRegion ctx sf).srcY.toNat / 2 + v) * sf.hostPitch +
          ((selectRegion ctx sf).srcX.toNat + x))
      else 0x80 := by
  rw [← Nat.add_mul]
  unfold stagePicture
  split
  · next hwhole =>
    obtain ⟨hX, hY, hcw, hch, hpitch⟩ := hwhole
    rw [copyWhole_at (Nat.lt_of_lt_of_le hx hp), if_pos (by omega), Nat.add_sub_cancel_left,
      ← Nat.add_assoc]
    simp only [hX, hY, hcw, hch, hpitch, hx, hv, UInt32.toNat_zero, Nat.zero_add, Nat.zero_div,
      and_self, if_true]
  · exact copyByRows_chroma hp hx (selectRegion_le ctx sf).1 hv

end Staged

/-- The encoder's input after calls of `nvPutImage` on the surface whose arguments fit, with any
results: where a sample is in the region that `nvEndPicture` selects and on the surface, it is the
one that was put there last, or what the surface had there before. Outside of the region it is
black. -/
theorem stagePicture_drawn {ctx : EncodeContext} {dstPitch x : Nat} {dst : Memory}
    (hsf : sf.SizesFit) (hfit : ∀ c ∈ calls, PutFits c.image sf c.args)
    (hhost : (putAll sf calls).hostData = some host) (hp : ctx.width.toNat ≤ dstPitch)
    (hx : x < ctx.width.toNat) :
    let sf' := (putAll sf calls).toEncodeSurface
    let r := selectRegion ctx sf'
    let staged := stagePicture ctx sf' dstPitch host dst
    let column := r.srcX.toNat + x
    (∀ y < ctx.height.toNat,
      if x < r.copyWidth.toNat ∧ y < r.copyHeight.toNat then
        let row := r.srcY.toNat + y
        row < sf.height.toNat → column < sf.width.toNat → staged (y * dstPitch + x) =
          (latest (fun s => s.luma row column) (strokes sf calls)).getD (sf.picture.luma row column)
      else staged (y * dstPitch + x) = 0x00) ∧
    ∀ v < ctx.height.toNat / 2,
      if x < r.copyWidth.toNat ∧ v < r.copyHeight.toNat / 2 then
        let row := r.srcY.toNat / 2 + v
        row < sf.height.toNat / 2 → column < sf.width.toNat →
          staged (ctx.height.toNat * dstPitch + v * dstPitch + x) =
            (latest (fun s => s.chroma row column) (strokes sf calls)).getD
              (sf.picture.chroma row column)
      else staged (ctx.height.toNat * dstPitch + v * dstPitch + x) = 0x80 := by
  intro sf' r staged column
  obtain ⟨hluma, hchroma⟩ := host_putAll hsf hfit hhost
  rw [← hostLayout_congr (putAll_size sf calls)] at hluma hchroma
  simp only [Nat.zero_add, Nat.zero_div, hostLayout, TwoPlane.picture, TwoPlane.luma,
    TwoPlane.chroma] at hluma hchroma
  constructor
  · intro y hy
    have hat : staged (y * dstPitch + x) = _ := stagePicture_luma hp hx hy
    split
    · next hin =>
      intro row hrow hcolumn
      rw [if_pos hin] at hat
      rw [← Picture.draw_luma, ← hluma _ hrow _ hcolumn]
      exact hat
    · next hout =>
      rw [if_neg hout] at hat
      exact hat
  · intro v hv
    have hat : staged (ctx.height.toNat * dstPitch + v * dstPitch + x) = _ :=
      stagePicture_chroma hp hx hv
    split
    · next hin =>
      intro row hrow hcolumn
      rw [if_pos hin] at hat
      rw [← Picture.draw_chroma, ← hchroma _ hrow _ hcolumn, ← Nat.add_assoc]
      exact hat
    · next hout =>
      rw [if_neg hout] at hat
      exact hat

/-! ### Reading back -/

/-- What `nvGetImage` writes into an image with room for its planes, after calls of `nvPutImage` on
the surface, when the arguments of all of them fit: a part of the drawing, over what the image
showed before. -/
theorem getImage_drawn {mode : Option NVContextMode} {img : NVImage} {x y : Int32}
    {width height : UInt32} {replies : GetResults} {get : Transfer NVImage}
    (hmode : mode ≠ some .decode) (hsf : sf.SizesFit)
    (hfit : ∀ c ∈ calls, PutFits c.image sf c.args)
    (hroom : img.layout.Room img.width.toNat img.height.toNat)
    (hget : GetFits (putAll sf calls) img x y width height)
    (hr : nvGetImage mode (putAll sf calls) img x y width height replies = some get)
    (hs : get.status = .success) :
    ∃ dst m, img.ptr = some dst ∧ get.after = { img with ptr := some m } ∧
      (img.layout.picture m).SameRect
        ((img.layout.picture dst).paste (sf.picture.draw (strokes sf calls))
        (getCopies sf.toEncodeSurface img x y width height)) 0 0 0 0 img.width.toNat
          img.height.toNat := by
  have hsize := putAll_size sf calls
  have hcopies : getCopies (putAll sf calls).toEncodeSurface img x y width height =
      getCopies sf.toEncodeSurface img x y width height := by
    unfold getCopies
    rw [hsize.1, hsize.2]
  rw [nvGetImage_host hmode, Option.some_inj] at hr
  subst hr
  have hin := (getInside_iff hs).mpr hget
  obtain ⟨host, dst, hhost, hdst, -, he⟩ := getImageHost_success hs
  rw [hcopies, hostLayout_congr hsize] at he
  refine ⟨dst, _, hdst, congrArg Transfer.after he, ?_⟩
  have hin :
      CopiesInside (getCopies sf.toEncodeSurface img x y width height) sf.width.toNat
        sf.height.toNat
      img.width.toNat img.height.toNat := by
    rw [← hsize.1, ← hsize.2]
    exact hin _ (by rw [he]; rfl)
  -- what is copied of the host buffer is the drawing's
  obtain ⟨hluma, hchroma⟩ := host_putAll hsf hfit hhost
  simp only [Nat.zero_add, Nat.zero_div] at hluma hchroma
  have hdrawn : (img.layout.picture dst).paste (sf.picture.draw (strokes sf calls))
      (getCopies sf.toEncodeSurface img x y width height) =
        (img.layout.picture dst).paste ((hostLayout sf.toEncodeSurface).picture host)
          (getCopies sf.toEncodeSurface img x y width height) := by
    refine congrArg₂ Picture.mk (PlaneCopy.paste_congr_source fun i hi j hj => ?_)
      (PlaneCopy.paste_congr_source fun i hi j hj => ?_)
    · obtain ⟨hcolumn, hrow, -⟩ := hin.1 i hi j hj
      exact (hluma _ hrow _ hcolumn).symm
    · obtain ⟨hcolumn, hrow, -⟩ := hin.2 i hi j hj
      exact (hchroma _ hrow _ hcolumn).symm
  rw [hdrawn]
  refine TwoPlane.sameRect_paste hroom ?_ ?_ ⟨fun _ _ _ _ => rfl, fun _ _ _ _ => rfl⟩
  · simp only [PlaneCopy.WritesInside, getCopies, planeCopies, toNat_lesser, UInt32.toNat_zero]
    omega
  · simp only [getCopies, planeCopies, toNat_evenDown, toNat_lesser, UInt32.toNat_zero]
    omega

end Observers

/-- Two puts, the second of which is clipped to the surface. -/
def twoPuts : List PutCall := [smallPut 2 2, smallPut 12 10]

theorem stagePicture_drawn_two : ∃ host, (putAll blankSurface twoPuts).hostData = some host ∧
    let staged :=
      stagePicture (.created 16 16 false) (putAll blankSurface twoPuts).toEncodeSurface 64 host
      fun _ => 0xff
    staged 0 = 7 ∧ staged 15 = 0 := by
  obtain ⟨host, hhost⟩ : ∃ host, (putAll blankSurface twoPuts).hostData = some host := ⟨_, rfl⟩
  have hfit : ∀ c ∈ twoPuts, PutFits c.image blankSurface c.args := by decide
  have hpayload :=
    (@stagePicture_drawn blankSurface twoPuts host (.created 16 16 false) 64 0 (fun _ => 0xff)
    (by decide) hfit hhost (by decide) (by decide)).1 0 (by decide)
  have hpadding :=
    (@stagePicture_drawn blankSurface twoPuts host (.created 16 16 false) 64 15 (fun _ => 0xff)
    (by decide) hfit hhost (by decide) (by decide)).1 0 (by decide)
  exact ⟨host, hhost, (hpayload (by decide) (by decide)).trans (by decide), hpadding⟩

/-- The last sample that was put first, and its neighbour. -/
theorem getImage_drawn_two :
    ∃ img get m, nvCreateImage .nv12 8 8 (some fun _ => 0) = some (.ok img) ∧
    nvGetImage none (putAll blankSurface twoPuts) img 8 8 8 8 ⟨true, true,
      fun _ => true⟩ = some get ∧
    get.after.ptr = some m ∧ m (img.layout.luma 1 1) = 7 ∧ m (img.layout.luma 2 2) = 0 := by
  have hc : nvCreateImage .nv12 8 8 (some fun _ => 0) =
      some (.ok (createdImage .nv12 8 8 64 (some fun _ => 0))) := rfl
  have hfit : ∀ c ∈ twoPuts, PutFits c.image blankSurface c.args := by decide
  have hget :
      GetFits (putAll blankSurface twoPuts) (createdImage .nv12 8 8 64 (some fun _ => 0)) 8 8 8 8 :=
    .inr (.inr ⟨.inl (by decide), .inl (by decide)⟩)
  have hmode : (none : Option NVContextMode) ≠ some .decode := by decide
  have hr :
      nvGetImage none (putAll blankSurface twoPuts)
        (createdImage .nv12 8 8 64 (some fun _ => 0)) 8 8 8 8
      ⟨true, true, fun _ => true⟩ = some _ := rfl
  obtain ⟨dst, m, hdst, hafter, hsame, -⟩ :=
    getImage_drawn hmode (by decide) hfit (room_created hc (by decide)) hget hr rfl
  obtain rfl : dst = fun _ => 0 := (Option.some_inj.mp hdst).symm
  refine ⟨_, _, m, hc, hr, congrArg NVImage.ptr hafter, ?_, ?_⟩
  · exact (hsame 1 (by decide) 1 (by decide)).trans (by decide)
  · exact (hsame 2 (by decide) 2 (by decide)).trans (by decide)

end NvVaapi.Image
