import NvVaapi.Codec.AV1Params
import NvVaapi.Codec.HevcParams
import NvVaapi.Driver.Slots

/-!
# The reference pictures of a picture

The picture parameters of a client name surfaces, those of the decoder name picture indices.

* `copyH264Dpb` and the like: what each codec makes of the surfaces.
* `PictureParams.references`: the surfaces that picture parameters name, with the indices that are
  handed over.
* `mem_references`: the index is the surface's own.
* `references_decoded`: in a run of the driver it is in range, and where the decoder has a picture
  under it, that is one of the surface's.
-/

namespace NvVaapi.References

/-! ## H.264 -/

def vaPictureH264Invalid : UInt32 := 0x1
def vaPictureH264TopField : UInt32 := 0x2
def vaPictureH264BottomField : UInt32 := 0x4
def vaPictureH264LongTermReference : UInt32 := 0x10

structure VAPictureH264 where
  pictureId : VASurfaceID
  frameIdx : UInt32
  flags : UInt32
  topFieldOrderCnt : Int32
  bottomFieldOrderCnt : Int32

structure CUVIDH264DPBENTRY where
  picIdx : Int
  frameIdx : Int32
  isLongTerm : Bool
  notExisting : Bool
  usedForReference : Nat
  fieldOrderCnt : Int32 × Int32

def CUVIDH264DPBENTRY.zero : CUVIDH264DPBENTRY := ⟨0, 0, false, false, 0, 0, 0⟩

/-- `used_for_reference`: a frame without a field flag is used with both. -/
def usedForReference (flags : UInt32) : Nat :=
  let tmp := (if flags &&& vaPictureH264TopField ≠ 0 then 1 else 0) |||
    if flags &&& vaPictureH264BottomField ≠ 0 then 2 else 0
  if tmp = 0 then 3 else tmp

/-- The turn of the loop over `dpb` for one entry. -/
def dpbEntry (drv : Surfaces) (pic : VAPictureH264) (entry : CUVIDH264DPBENTRY) :
    CUVIDH264DPBENTRY :=
  if pic.flags &&& vaPictureH264Invalid = 0 then
    { picIdx := pictureIdxFromSurfaceId drv pic.pictureId
      frameIdx := pic.frameIdx.toInt32
      fieldOrderCnt := (pic.topFieldOrderCnt, pic.bottomFieldOrderCnt)
      isLongTerm := pic.flags &&& vaPictureH264LongTermReference != 0
      notExisting := false
      usedForReference := usedForReference pic.flags }
  else { entry with picIdx := -1 }

/-- The loop in `copyH264PicParam`. -/
def copyH264Dpb (drv : Surfaces) (referenceFrames : Nat → VAPictureH264)
    (dpb : Nat → CUVIDH264DPBENTRY) : Nat → CUVIDH264DPBENTRY :=
  (List.range 16).foldl (fun dpb i =>
    Function.update dpb i (dpbEntry drv (referenceFrames i) (dpb i))) dpb

/-! ## MPEG-2, VC-1, VP8 and VP9 -/

structure ForwardBackward where
  forwardRefIdx : Int
  backwardRefIdx : Int

def forwardBackward (drv : Surfaces)
    (forwardReferencePicture backwardReferencePicture : VASurfaceID) : ForwardBackward where
  forwardRefIdx := pictureIdxFromSurfaceId drv forwardReferencePicture
  backwardRefIdx := pictureIdxFromSurfaceId drv backwardReferencePicture

def copyMPEG2References : Surfaces → VASurfaceID → VASurfaceID → ForwardBackward := forwardBackward

def copyVC1References : Surfaces → VASurfaceID → VASurfaceID → ForwardBackward := forwardBackward

structure LastGoldenAlt where
  lastRefIdx : Int
  goldenRefIdx : Int
  altRefIdx : Int

def copyVP8References (drv : Surfaces) (lastRefFrame goldenRefFrame altRefFrame : VASurfaceID) :
    LastGoldenAlt where
  lastRefIdx := pictureIdxFromSurfaceId drv lastRefFrame
  goldenRefIdx := pictureIdxFromSurfaceId drv goldenRefFrame
  altRefIdx := pictureIdxFromSurfaceId drv altRefFrame

/-- The picture's references are three of the eight frames. -/
def copyVP9References (drv : Surfaces) (referenceFrames : Fin 8 → VASurfaceID)
    (lastRefFrame goldenRefFrame altRefFrame : Fin 8) : LastGoldenAlt where
  lastRefIdx := pictureIdxFromSurfaceId drv (referenceFrames lastRefFrame)
  goldenRefIdx := pictureIdxFromSurfaceId drv (referenceFrames goldenRefFrame)
  altRefIdx := pictureIdxFromSurfaceId drv (referenceFrames altRefFrame)

/-! ## All codecs -/

/-- What the picture parameters of a client say of other pictures. -/
inductive PictureParams where
  | h264 (referenceFrames : Nat → VAPictureH264)
  | hevc (buf : Hevc.VAPictureParameterBufferHEVC)
  | mpeg2 (forward backward : VASurfaceID)
  | vc1 (forward backward : VASurfaceID)
  | vp8 (last golden alt : VASurfaceID)
  | vp9 (referenceFrames : Fin 8 → VASurfaceID) (last golden alt : Fin 8)
  | av1 (renderTarget : VASurfaceID) (stack : Nat →
      Int32) (buf : AV1.VADecPictureParameterBufferAV1)

namespace PictureParams

/-- The surfaces, each with the index that the decoder gets for it. `ref_frame_map` of AV1 has
bytes. -/
def references (drv : Surfaces) : PictureParams → List (VASurfaceID × Int)
  | .h264 referenceFrames =>
    let dpb := copyH264Dpb drv referenceFrames fun _ => .zero
    ((List.range 16).filter fun i => (referenceFrames i).flags &&& vaPictureH264Invalid = 0).map
      fun i => ((referenceFrames i).pictureId, (dpb i).picIdx)
  | .hevc buf =>
    let ppc := (Hevc.copyHEVCPicParam drv buf .zero).val
    (List.range 16).map fun i => ((buf.pic i).pictureId, ppc.refPicIdx i)
  | .mpeg2 forward backward =>
    let refs := copyMPEG2References drv forward backward
    [(forward, refs.forwardRefIdx), (backward, refs.backwardRefIdx)]
  | .vc1 forward backward =>
    let refs := copyVC1References drv forward backward
    [(forward, refs.forwardRefIdx), (backward, refs.backwardRefIdx)]
  | .vp8 last golden alt =>
    let refs := copyVP8References drv last golden alt
    [(last, refs.lastRefIdx), (golden, refs.goldenRefIdx), (alt, refs.altRefIdx)]
  | .vp9 referenceFrames last golden alt =>
    let refs := copyVP9References drv referenceFrames last golden alt
    [(referenceFrames last, refs.lastRefIdx), (referenceFrames golden, refs.goldenRefIdx),
      (referenceFrames alt, refs.altRefIdx)]
  | .av1 renderTarget stack buf =>
    let pps := (AV1.copyAV1PicParam drv renderTarget stack buf .zero).val.2
    (List.range 8).map fun i => (buf.refFrameMap i, Int.ofNat (pps.refFrameMap i).toNat)

/-- What the decoder gets for an index. -/
def handedIdx : PictureParams → Int → Int
  | .av1 .., i => Int.ofNat (UInt8.ofInt i).toNat
  | _, i => i

end PictureParams

section Handed

variable {drv : Surfaces}

theorem copyH264Dpb_picIdx (referenceFrames : Nat → VAPictureH264)
    (dpb : Nat → CUVIDH264DPBENTRY) {i : Nat} (hi : i < 16)
    (hvalid : (referenceFrames i).flags &&& vaPictureH264Invalid = 0) :
    (copyH264Dpb drv referenceFrames dpb i).picIdx =
      pictureIdxFromSurfaceId drv (referenceFrames i).pictureId := by
  have hat : copyH264Dpb drv referenceFrames dpb i = dpbEntry drv (referenceFrames i) (dpb i) :=
    (Indexed.foldl_update_apply (fun i => dpbEntry drv (referenceFrames i)) dpb 16 i).trans
      (if_pos hi)
  rw [hat, dpbEntry, if_pos hvalid]

theorem addPicture_refPicIdx (buf : Hevc.VAPictureParameterBufferHEVC)
    (ppc : Hevc.CUVIDHEVCPICPARAMS) (i : Nat) :
    (Hevc.addPicture drv buf ppc i).val.refPicIdx =
      Function.update ppc.refPicIdx i (pictureIdxFromSurfaceId drv (buf.pic i).pictureId) := by
  unfold Hevc.addPicture
  simp only [Indexed.val_ite]
  split_ifs <;> rfl

theorem copyHEVCPicParam_refPicIdx (buf : Hevc.VAPictureParameterBufferHEVC)
    (ppc : Hevc.CUVIDHEVCPICPARAMS) {i : Nat} (hi : i < 16) :
    (Hevc.copyHEVCPicParam drv buf ppc).val.refPicIdx i =
      pictureIdxFromSurfaceId drv (buf.pic i).pictureId := by
  have hloop (ppc : Hevc.CUVIDHEVCPICPARAMS) :
      ((List.range 16).foldlM (Hevc.addPicture drv buf) ppc).val.refPicIdx i =
        pictureIdxFromSurfaceId drv (buf.pic i).pictureId := by
    rw [Indexed.val_foldlM]
    exact (Indexed.foldl_array_apply (fun i _ => pictureIdxFromSurfaceId drv (buf.pic i).pictureId)
      (addPicture_refPicIdx buf) ppc 16 i).trans (if_pos hi)
  simp only [Hevc.copyHEVCPicParam, Indexed.val_bind, Indexed.val_pure]
  exact hloop _

theorem copyAV1PicParam_refFrameMap (renderTarget : VASurfaceID) (stack : Nat → Int32)
    (buf : AV1.VADecPictureParameterBufferAV1) (pps : AV1.CUVIDAV1PICPARAMS) {i : Nat}
    (hi : i < 8) :
    (AV1.copyAV1PicParam drv renderTarget stack buf pps).val.2.refFrameMap i =
      UInt8.ofInt (pictureIdxFromSurfaceId drv (buf.refFrameMap i)) := by
  have hloop (drv : Surfaces) (map : Nat → UInt8) : AV1.copyRefFrameMap drv buf map i =
      UInt8.ofInt (pictureIdxFromSurfaceId drv (buf.refFrameMap i)) :=
        AV1.copyRefFrameMap_apply map hi
  simp only [AV1.copyAV1PicParam, Indexed.val_bind, Indexed.val_pure]
  rw [hloop, AV1.pictureIdx_setOrderHint]

/-- The decoder gets the index of the surface that the client named. -/
theorem mem_references {params : PictureParams} {id : VASurfaceID} {idx : Int}
    (h : (id, idx) ∈ params.references drv) :
    idx = params.handedIdx (pictureIdxFromSurfaceId drv id) := by
  cases params with
  | h264 referenceFrames =>
    obtain ⟨i, hi, he⟩ := List.mem_map.mp h
    obtain ⟨hi, hvalid⟩ := List.mem_filter.mp hi
    obtain ⟨rfl, rfl⟩ := Prod.mk.inj he
    exact copyH264Dpb_picIdx referenceFrames _ (List.mem_range.mp hi) (of_decide_eq_true hvalid)
  | hevc buf =>
    obtain ⟨i, hi, he⟩ := List.mem_map.mp h
    obtain ⟨rfl, rfl⟩ := Prod.mk.inj he
    exact copyHEVCPicParam_refPicIdx buf _ (List.mem_range.mp hi)
  | mpeg2 forward backward | vc1 forward backward =>
    simp only [PictureParams.references, List.mem_cons, List.not_mem_nil, or_false,
      Prod.mk.injEq] at h
    rcases h with ⟨rfl, rfl⟩ | ⟨rfl, rfl⟩ <;> rfl
  | vp8 last golden alt =>
    simp only [PictureParams.references, List.mem_cons, List.not_mem_nil, or_false,
      Prod.mk.injEq] at h
    rcases h with ⟨rfl, rfl⟩ | ⟨rfl, rfl⟩ | ⟨rfl, rfl⟩ <;> rfl
  | vp9 referenceFrames last golden alt =>
    simp only [PictureParams.references, List.mem_cons, List.not_mem_nil, or_false,
      Prod.mk.injEq] at h
    rcases h with ⟨rfl, rfl⟩ | ⟨rfl, rfl⟩ | ⟨rfl, rfl⟩ <;> rfl
  | av1 renderTarget stack buf =>
    obtain ⟨i, hi, he⟩ := List.mem_map.mp h
    obtain ⟨rfl, rfl⟩ := Prod.mk.inj he
    exact congrArg (fun n : UInt8 => Int.ofNat n.toNat)
      (copyAV1PicParam_refFrameMap renderTarget stack buf _ (List.mem_range.mp hi))

theorem handedIdx_of_range (params : PictureParams) {i n : Int} (h0 : 0 ≤ i) (hi : i < n)
    (hn : n ≤ 32) : params.handedIdx i = i := by
  cases params with
  | av1 =>
    show Int.ofNat (UInt8.ofInt i).toNat = i
    rw [UInt8.ofInt, UInt8.toNat_ofNat']
    show ((i % 2 ^ 8).toNat % 2 ^ 8 : Nat) = i
    omega
  | _ => rfl

/-- What is handed over for no picture is no index of a decode surface. -/
theorem handedIdx_none (params : PictureParams) {n : Int} (hn : n ≤ 32) :
    ¬(0 ≤ params.handedIdx (-1) ∧ params.handedIdx (-1) < n) := by
  cases params with
  | av1 =>
    have hbyte : Int.ofNat (UInt8.ofInt (-1)).toNat = 255 := rfl
    show ¬(0 ≤ Int.ofNat (UInt8.ofInt (-1)).toNat ∧ Int.ofNat (UInt8.ofInt (-1)).toNat < n)
    omega
  | _ => exact fun h => absurd h.1 (by decide : ¬(0 : Int) ≤ -1)

end Handed

/-! ## In the driver -/

/-- The IDs of the surfaces that are there, and the handlers' view of them. -/
def Shows (ids : VASurfaceID → Option Addr) (w : World) (drv : Surfaces) : Prop :=
  ∀ id, pictureIdxFromSurfaceId drv id = ((ids id).bind w.surfaces).elim (-1) fun sf =>
    sf.pictureIdx

/-- The surface with this ID has an index, and it was last begun on the context. -/
structure Referenced (ids : VASurfaceID → Option Addr) (w : World) (ctx : NVContext)
    (id : VASurfaceID) (s : Addr) : Prop where
  id : ids id = some s
  begun : ∃ sf, w.surfaces s = some sf ∧ sf.lastBegun = some ctx.generation ∧ sf.pictureIdx ≠ -1

/-- The index is one of the context's decode surfaces, which has no picture but one of the surface
at `s`. -/
structure NamesPicture (x : World × DecodeSurfaces) (ctx : NVContext) (s : Addr)
    (idx : Int) : Prop where
  nonneg : 0 ≤ idx
  lt : idx < ctx.surfaceCount
  decoded : ∀ s', x.2 ctx.generation idx = some s' → s' = s
  target : ctx.renderTarget ≠ 0 → idx = ctx.currPicIdx → ctx.renderTarget = s

section Driver

variable {x : World × DecodeSurfaces} {ids : VASurfaceID → Option Addr} {drv : Surfaces} {c : Addr}
  {ctx : NVContext}
  {params : PictureParams} {id id' : VASurfaceID} {idx idx' : Int} {s s' : Addr}

theorem references_begun (h : SlotsOk x.1 x.2) (hc : x.1.contexts c = some ctx)
    (hd : Shows ids x.1 drv) (hmem : (id, idx) ∈ params.references drv)
    (hs : Referenced ids x.1 ctx id s) :
    ∃ sf, x.1.surfaces s = some sf ∧ sf.begun ctx.generation = some idx ∧ 0 ≤ idx ∧
      idx < ctx.currentPictureId := by
  obtain ⟨sf, hsf, hlast, hne⟩ := hs.begun
  have hbegun := (h.indices.lastBegun hsf hlast).resolve_left hne
  obtain ⟨h0, hlt⟩ := h.indices.begun_range hc hsf hbegun
  have hidx : idx = sf.pictureIdx := by
    rw [mem_references hmem, hd id, hs.id, Option.bind_some, hsf, Option.elim_some]
    exact handedIdx_of_range params h0 (Int.lt_of_lt_of_le hlt (h.indices.count hc).2)
      (h.surfaceCount hc)
  rw [hidx]
  exact ⟨sf, hsf, hbegun, h0, hlt⟩

end Driver

/-- In every run of the driver in which surfaces own the indices that they are begun with: an index
that a codec hands over as a reference names a picture of the surface that the client named, if that
was last begun on the context, and different surfaces get different ones. For an ID without a
surface it is no index. -/
theorem references_decoded {x : World × DecodeSurfaces} {ids : VASurfaceID → Option Addr}
    {drv : Surfaces} {c : Addr} {ctx : NVContext} (h : decoding.ReachWhen KeepsSlots x)
    (hc : x.1.contexts c = some ctx) (hd : Shows ids x.1 drv) (params : PictureParams) :
    (∀ id idx, (id, idx) ∈ params.references drv →
      ((ids id).bind x.1.surfaces = none → ¬(0 ≤ idx ∧ idx < ctx.surfaceCount)) ∧
        ∀ s, Referenced ids x.1 ctx id s → NamesPicture x ctx s idx) ∧
    ∀ id id' idx s s', (id, idx) ∈ params.references drv → (id', idx) ∈ params.references drv →
      Referenced ids x.1 ctx id s → Referenced ids x.1 ctx id' s' → s = s' := by
  have hok := slotsOk_of_reach h
  refine ⟨fun id idx hmem => ⟨fun hnone => ?_, fun s hs => ?_⟩,
    fun id id' idx s s' hmem hmem' hs hs' => ?_⟩
  · rw [mem_references hmem, hd id, hnone]
    exact handedIdx_none params (hok.surfaceCount hc)
  · obtain ⟨sf, hsf, hbegun, h0, hlt⟩ := references_begun hok hc hd hmem hs
    refine ⟨h0, Int.lt_of_lt_of_le hlt (hok.indices.count hc).2, fun s' => hok.owner hsf hbegun,
      fun hne heq => ?_⟩
    exact hok.target hc hne hsf (heq ▸ hbegun)
  · obtain ⟨sf, hsf, hbegun, -⟩ := references_begun hok hc hd hmem hs
    obtain ⟨sf', hsf', hbegun', -⟩ := references_begun hok hc hd hmem' hs'
    by_contra hne
    exact hok.indices.begun_ne hsf hsf' hne hbegun hbegun'

/-- The surfaces that are there, with a size. -/
def shownSurfaces (ids : VASurfaceID → Option Addr) (w : World) : Surfaces := fun id =>
  ((ids id).bind w.surfaces).map fun sf => ⟨16, 16, sf.pictureIdx, 0⟩

theorem shows_shownSurfaces (ids : VASurfaceID → Option Addr) (w : World) :
    Shows ids w (shownSurfaces ids w) := by
  intro id
  unfold pictureIdxFromSurfaceId nvSurfaceFromSurfaceId shownSurfaces
  cases (ids id).bind w.surfaces <;> rfl

/-- A picture that refers to the one before it. -/
def predictedCalls : List DriverCall :=
  [.createSurface 3, .createSurface 4, .createContext 1 0, .beginPicture 1 3,
    .endPicture 1 ⟨true, true, true⟩, .beginPicture 1 4]

theorem references_decoded_predicted :
    ∃ x ctx drv, decoding.run (.empty, fun _ _ => none) predictedCalls = some x ∧
    x.1.contexts 1 = some ctx ∧ x.2 ctx.generation 0 = some 3 ∧
    (PictureParams.mpeg2 3 3).references drv = [(3, 0), (3, 0)] ∧ NamesPicture x ctx 3 0 := by
  obtain ⟨x, ctx, hrun, hm, hc, hslot, hs⟩ :
      ∃ x ctx, decoding.run (.empty, fun _ _ => none) predictedCalls = some x ∧
      decoding.Meets KeepsSlots (.empty, fun _ _ => none) predictedCalls ∧
      x.1.contexts 1 = some ctx ∧
      x.2 ctx.generation 0 = some 3 ∧
      ∃ sf, x.1.surfaces 3 = some sf ∧ sf.lastBegun = some ctx.generation ∧ sf.pictureIdx = 0 :=
    ⟨_, _, rfl, by decide, rfl, rfl, _, rfl, rfl, rfl⟩
  obtain ⟨sf, hsf, hlast, hidx⟩ := hs
  let ids (id : VASurfaceID) : Option Addr := some id.toNat
  have hd := shows_shownSurfaces ids x.1
  have hrefs : (PictureParams.mpeg2 3 3).references (shownSurfaces ids x.1) = [(3, 0), (3, 0)] := by
    have h3 : pictureIdxFromSurfaceId (shownSurfaces ids x.1) 3 = 0 := by
      rw [hd 3, show ids 3 = some 3 from rfl, Option.bind_some, hsf, Option.elim_some, hidx]
    simp [PictureParams.references, copyMPEG2References, forwardBackward, h3]
  have hinit : decoding.ReachWhen KeepsSlots (.empty, fun _ _ => none) := .init ⟨rfl, rfl⟩
  have href : Referenced ids x.1 ctx 3 3 := ⟨rfl, sf, hsf, hlast, by rw [hidx]; decide⟩
  exact ⟨x, ctx, _, hrun, hc, hslot, hrefs,
    ((references_decoded (hinit.run hm hrun) hc hd (.mpeg2 3 3)).1 3 0 (by simp [hrefs])).2 3 href⟩

end NvVaapi.References
