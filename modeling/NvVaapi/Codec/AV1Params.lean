import NvVaapi.Codec.References
import NvVaapi.Lib.Indexed

/-!
# The AV1 picture parameters (`copyAV1PicParam`)

What `copyAV1PicParam` derives for `CodecSpecific.av1`: the skip mode, the references and the tile
sizes. The fields that it only copies are left out, and those that it sets for every codec are in
`NvVaapi.Codec.Handlers`.

* An array is a function of the index. What stands behind its end is what the memory holds there.
* `TileArray`: the arrays whose accesses are recorded.
* `references_iff`: a reference gets the size of its surface exactly when the surface that the code
  looks up in its place has the same size.
-/

namespace NvVaapi.AV1

open References

/-! ## Data -/

structure VADecPictureParameterBufferAV1 where
  orderHint : UInt8
  enableOrderHint : Bool
  orderHintBitsMinus1 : UInt8
  skipModePresent : Bool
  tileCols : UInt8
  tileRows : UInt8
  widthInSbsMinus1 : Nat → UInt16
  heightInSbsMinus1 : Nat → UInt16
  refFrameMap : Nat → VASurfaceID
  refFrameIdx : Nat → UInt8
  primaryRefFrame : UInt8

structure RefFrame where
  width : UInt32
  height : UInt32
  index : UInt8
  deriving DecidableEq

/-- `CUVIDAV1PICPARAMS`. `order_hint_bits_minus1` has three bits. -/
structure CUVIDAV1PICPARAMS where
  frameOffset : UInt32
  enableOrderHint : Bool
  orderHintBitsMinus1 : Fin 8
  skipMode : Bool
  skipModeFrame0 : Nat
  skipModeFrame1 : Nat
  numTileCols : UInt8
  numTileRows : UInt8
  tileWidths : Nat → UInt16
  tileHeights : Nat → UInt16
  refFrameMap : Nat → UInt8
  primaryRefFrame : UInt8
  refFrame : Nat → RefFrame

/-- `memset(&pPicParams, 0, sizeof(CUVIDPICPARAMS))` -/
def CUVIDAV1PICPARAMS.zero : CUVIDAV1PICPARAMS :=
  ⟨0, false, 0, false, 0, 0, 0, 0, fun _ => 0, fun _ => 0, fun _ => 0, 0, fun _ => ⟨0, 0, 0⟩⟩

/-- The arrays of the tile sizes, the client's and those of `CUVIDAV1PICPARAMS`. -/
inductive TileArray where
  | widthInSbsMinus1
  | heightInSbsMinus1
  | tileWidths
  | tileHeights
  deriving DecidableEq

/-- The sizes that the headers declare. -/
def TileArray.size : TileArray → Nat
  | widthInSbsMinus1 => 63
  | heightInSbsMinus1 => 63
  | tileWidths => 64
  | tileHeights => 64

/-! ## The skip mode -/

def getRelativeDist (pps : CUVIDAV1PICPARAMS) (refHint orderHint : Int32) : Int32 :=
  if !pps.enableOrderHint then 0
  else
    let diff := refHint - orderHint
    let m : Int32 := 1 <<< Int32.ofNat pps.orderHintBitsMinus1
    (diff &&& (m - 1)) - (diff &&& m)

/-- A reference that a loop keeps, with its order hint. The index -1 stands for none. -/
structure Candidate where
  idx : Int
  hint : Int32

def Candidate.none : Candidate := ⟨-1, 0⟩

/-- `RefOrderHint`, an array on the stack. -/
def refOrderHint (drv : Surfaces) (buf : VADecPictureParameterBufferAV1) (stack : Nat → Int32) :
    Nat → Int32 :=
  fun i =>
    if i < 8 then
      match drv (buf.refFrameMap i) with
      | some surf => if surf.pictureIdx ≠ -1 then surf.orderHint else 0
      | none => 0
    else stack i

/-- The turn of the first loop for the reference `i`: the nearest one before and behind the
picture. -/
def nearestTurn (pps : CUVIDAV1PICPARAMS) (orderHint : Int32) (hint : Nat → Int32) :
    Candidate × Candidate → Nat → Candidate × Candidate := fun (forward, backward) i =>
  let refHint := hint i
  if getRelativeDist pps refHint orderHint < 0 then
    if forward.idx < 0 ∨ getRelativeDist pps refHint forward.hint > 0 then (⟨i, refHint⟩, backward)
    else (forward, backward)
  else if getRelativeDist pps refHint orderHint > 0 then
    if backward.idx < 0 ∨ getRelativeDist pps refHint backward.hint < 0 then (forward, ⟨i, refHint⟩)
    else (forward, backward)
  else (forward, backward)

/-- The turn of the second loop: the next one before the nearest. -/
def secondTurn (pps : CUVIDAV1PICPARAMS) (forward : Candidate) (hint : Nat → Int32) :
    Candidate → Nat → Candidate := fun second i =>
  let refHint := hint i
  if getRelativeDist pps refHint forward.hint < 0 then
    if second.idx < 0 ∨ getRelativeDist pps refHint second.hint > 0 then ⟨i, refHint⟩ else second
  else second

/-- The block under `if (pps->skip_mode)`, with `hint` for the order hints of the seven
references. -/
def setSkipMode (pps : CUVIDAV1PICPARAMS) (orderHint : Int32) (hint : Nat → Int32) :
    CUVIDAV1PICPARAMS :=
  let (forward, backward) :=
    (List.range 7).foldl (nearestTurn pps orderHint hint) (Candidate.none, Candidate.none)
  if forward.idx < 0 then pps
  else if backward.idx ≥ 0 then
    { pps with
      skipModeFrame0 := (min forward.idx backward.idx + 1).toNat
      skipModeFrame1 := (max forward.idx backward.idx + 1).toNat }
  else
    let second := (List.range 7).foldl (secondTurn pps forward hint) Candidate.none
    if second.idx < 0 then pps
    else
      { pps with
        skipModeFrame0 := (min forward.idx second.idx + 1).toNat
        skipModeFrame1 := (max forward.idx second.idx + 1).toNat }

/-! ## The references -/

/-- The loop that fills `ref_frame_map`. -/
def copyRefFrameMap (drv : Surfaces) (buf : VADecPictureParameterBufferAV1) (map : Nat → UInt8) :
    Nat → UInt8 :=
  (List.range 8).foldl (fun map i =>
    Function.update map i (UInt8.ofInt (pictureIdxFromSurfaceId drv (buf.refFrameMap i)))) map

/-- The reference `i`. -/
def refFrameOf (drv : Surfaces) (buf : VADecPictureParameterBufferAV1) (map : Nat → UInt8) (i : Nat)
    (refFrame : RefFrame) : RefFrame :=
  let refIdx := (buf.refFrameIdx i).toNat
  let refFrame := { refFrame with index := map refIdx }
  match nvSurfaceFromSurfaceId drv (buf.refFrameMap i) with
  | some surf => { refFrame with width := surf.width, height := surf.height }
  | none => refFrame

/-- The loop that fills `ref_frame`. -/
def copyRefFrames (drv : Surfaces) (buf : VADecPictureParameterBufferAV1) (map : Nat → UInt8)
    (refFrame : Nat → RefFrame) : Nat → RefFrame :=
  (List.range 7).foldl (fun refFrame i =>
    Function.update refFrame i (refFrameOf drv buf map i (refFrame i))) refFrame

/-! ## The tile sizes -/

/-- One of the two loops, over `n` tiles. -/
def copyTileSizes (src dst : TileArray) (n : UInt8) (sbsMinus1 sizes : Nat → UInt16) :
    Indexed TileArray (Nat → UInt16) :=
  (List.range n.toNat).foldlM (fun sizes i => do
    let x ← Indexed.read src sbsMinus1 i
    Indexed.write dst sizes i (1 + x)) sizes

/-! ## The handler -/

/-- `ctx->renderTarget->order_hint = pps->frame_offset` -/
def setOrderHint (drv : Surfaces) (renderTarget : VASurfaceID) (hint : Int32) :
    Surfaces := fun id =>
  if id = renderTarget then (drv id).map fun surf => { surf with orderHint := hint } else drv id

/-- `copyAV1PicParam`, on the surfaces and on `CodecSpecific.av1`. -/
def copyAV1PicParam (drv : Surfaces) (renderTarget : VASurfaceID) (stack : Nat → Int32)
    (buf : VADecPictureParameterBufferAV1) (pps : CUVIDAV1PICPARAMS) :
    Indexed TileArray (Surfaces × CUVIDAV1PICPARAMS) := do
  let pps := { pps with
    frameOffset := buf.orderHint.toUInt32
    enableOrderHint := buf.enableOrderHint
    orderHintBitsMinus1 := Fin.ofNat 8 buf.orderHintBitsMinus1.toNat
    skipMode := buf.skipModePresent
    numTileCols := buf.tileCols
    numTileRows := buf.tileRows
    skipModeFrame0 := 0
    skipModeFrame1 := 0 }
  -- a later picture needs the hint, and this one finds it if it refers to itself
  let drv := setOrderHint drv renderTarget (Int32.ofNat pps.frameOffset.toNat)
  let pps :=
    if pps.skipMode then
      setSkipMode pps (Int32.ofNat buf.orderHint.toNat) fun i =>
        refOrderHint drv buf stack (buf.refFrameIdx i).toNat
    else pps
  let pps := { pps with refFrameMap := copyRefFrameMap drv buf pps.refFrameMap }
  let tileWidths ← copyTileSizes .widthInSbsMinus1 .tileWidths pps.numTileCols buf.widthInSbsMinus1
      pps.tileWidths
  let tileHeights ←
    copyTileSizes .heightInSbsMinus1 .tileHeights pps.numTileRows buf.heightInSbsMinus1
      pps.tileHeights
  return (drv, { pps with
    tileWidths
    tileHeights
    primaryRefFrame :=
      if buf.primaryRefFrame = 7 then -1
      else pps.refFrameMap (buf.refFrameIdx buf.primaryRefFrame.toNat).toNat
    refFrame := copyRefFrames drv buf pps.refFrameMap pps.refFrame })

/-! ## The references describe their surfaces -/

section References

variable {drv : Surfaces} {renderTarget : VASurfaceID} {stack : Nat → Int32}
  {buf : VADecPictureParameterBufferAV1}
  {pps : CUVIDAV1PICPARAMS}

theorem copyRefFrameMap_apply (map : Nat → UInt8) {i : Nat} (h : i < 8) :
    copyRefFrameMap drv buf map i = UInt8.ofInt (pictureIdxFromSurfaceId drv (buf.refFrameMap i)) :=
  (Indexed.foldl_update_apply
    (fun i _ => UInt8.ofInt (pictureIdxFromSurfaceId drv (buf.refFrameMap i))) map 8 i).trans
    (if_pos h)

theorem copyRefFrames_apply (map : Nat → UInt8) (refFrame : Nat → RefFrame) {i : Nat} (h : i < 7) :
    copyRefFrames drv buf map refFrame i = refFrameOf drv buf map i (refFrame i) :=
  (Indexed.foldl_update_apply (refFrameOf drv buf map) refFrame 7 i).trans (if_pos h)

/-- The skip mode sets its two fields only. -/
theorem setSkipMode_eq (pps : CUVIDAV1PICPARAMS) (orderHint : Int32) (hint : Nat → Int32) :
    ∃ frame0 frame1,
    setSkipMode pps orderHint hint =
      { pps with skipModeFrame0 := frame0, skipModeFrame1 := frame1 } := by
  unfold setSkipMode
  split
  dsimp only
  split
  · exact ⟨_, _, rfl⟩
  · split
    · exact ⟨_, _, rfl⟩
    · split <;> exact ⟨_, _, rfl⟩

@[simp] theorem setSkipMode_refFrame (orderHint : Int32) (hint : Nat → Int32) :
    (setSkipMode pps orderHint hint).refFrame = pps.refFrame := by
  obtain ⟨_, _, h⟩ := setSkipMode_eq pps orderHint hint
  rw [h]

@[simp] theorem setSkipMode_numTileCols (orderHint : Int32) (hint : Nat → Int32) :
    (setSkipMode pps orderHint hint).numTileCols = pps.numTileCols := by
  obtain ⟨_, _, h⟩ := setSkipMode_eq pps orderHint hint
  rw [h]

@[simp] theorem setSkipMode_numTileRows (orderHint : Int32) (hint : Nat → Int32) :
    (setSkipMode pps orderHint hint).numTileRows = pps.numTileRows := by
  obtain ⟨_, _, h⟩ := setSkipMode_eq pps orderHint hint
  rw [h]

/-- The order hint is all that the picture changes at the surfaces. -/
theorem setOrderHint_cases (drv : Surfaces) (renderTarget : VASurfaceID) (hint : Int32)
    (id : VASurfaceID) :
    (drv id = none ∧ setOrderHint drv renderTarget hint id = none) ∨ ∃ surf hint',
      drv id = some surf ∧
      setOrderHint drv renderTarget hint id = some { surf with orderHint := hint' } := by
  unfold setOrderHint
  cases h : drv id with
  | none => exact .inl ⟨rfl, by split <;> rfl⟩
  | some surf =>
    by_cases hid : id = renderTarget
    · exact .inr ⟨surf, hint, rfl, by rw [if_pos hid]; rfl⟩
    · exact .inr ⟨surf, surf.orderHint, rfl, by rw [if_neg hid]⟩

@[simp] theorem pictureIdx_setOrderHint (hint : Int32) (id : VASurfaceID) :
    pictureIdxFromSurfaceId (setOrderHint drv renderTarget hint) id =
      pictureIdxFromSurfaceId drv id := by
  unfold pictureIdxFromSurfaceId nvSurfaceFromSurfaceId
  obtain ⟨h, h'⟩ | ⟨surf, hint', h, h'⟩ :=
    setOrderHint_cases drv renderTarget hint id <;> rw [h, h']

@[simp] theorem refFrameOf_setOrderHint (hint : Int32) (map : Nat → UInt8) (i : Nat)
    (refFrame : RefFrame) :
    refFrameOf (setOrderHint drv renderTarget hint) buf map i refFrame =
      refFrameOf drv buf map i refFrame := by
  unfold refFrameOf nvSurfaceFromSurfaceId
  obtain ⟨h, h'⟩ | ⟨surf, hint', h, h'⟩ :=
    setOrderHint_cases drv renderTarget hint (buf.refFrameMap i) <;>
    rw [h, h']

theorem refFrameOf_congr (map map' : Nat → UInt8) {i : Nat} {refFrame : RefFrame}
    (h : map (buf.refFrameIdx i).toNat = map' (buf.refFrameIdx i).toNat) :
    refFrameOf drv buf map i refFrame = refFrameOf drv buf map' i refFrame := by
  rw [refFrameOf, refFrameOf, h]

/-- The reference `i` that the handler leaves. -/
theorem copyAV1PicParam_refFrame {i : Nat} (hi : i < 7) (hidx : (buf.refFrameIdx i).toNat < 8) :
    (copyAV1PicParam drv renderTarget stack buf pps).val.2.refFrame i = refFrameOf drv buf
      (fun j => UInt8.ofInt (pictureIdxFromSurfaceId drv (buf.refFrameMap j))) i
        (pps.refFrame i) := by
  simp only [copyAV1PicParam, Indexed.val_bind, Indexed.val_pure]
  rw [copyRefFrames_apply _ _ hi, refFrameOf_setOrderHint, refFrameOf_congr _
    (fun j => UInt8.ofInt (pictureIdxFromSurfaceId drv (buf.refFrameMap j)))
    ((copyRefFrameMap_apply _ hidx).trans (congrArg _ (pictureIdx_setOrderHint _ _)))]
  congr 1
  split
  · rw [setSkipMode_refFrame]
  · rfl

/-- Every reference with a live surface has its index and its size. -/
def ReferencesConsistent (drv : Surfaces) (buf : VADecPictureParameterBufferAV1)
    (pps : CUVIDAV1PICPARAMS) : Prop :=
  ∀ i < 7, (buf.refFrameIdx i).toNat < 8 →
    ∀ surf, drv (buf.refFrameMap (buf.refFrameIdx i).toNat) = some surf →
    pps.refFrame i = ⟨surf.width, surf.height, UInt8.ofInt surf.pictureIdx⟩

/-- The index of a reference is always right. The size is right exactly when the surface at the
position `i` of the map, in place of the reference's own, has the same size, and when it has none,
the size was there before. -/
theorem references_iff (drv : Surfaces) (renderTarget : VASurfaceID) (stack : Nat → Int32)
    (buf : VADecPictureParameterBufferAV1) (pps : CUVIDAV1PICPARAMS) :
    ReferencesConsistent drv buf (copyAV1PicParam drv renderTarget stack buf pps).val.2 ↔
      ∀ i < 7, (buf.refFrameIdx i).toNat < 8 →
        ∀ surf, drv (buf.refFrameMap (buf.refFrameIdx i).toNat) = some surf →
        match drv (buf.refFrameMap i) with
        | some surf' => surf'.width = surf.width ∧ surf'.height = surf.height
        | none => (pps.refFrame i).width = surf.width ∧ (pps.refFrame i).height = surf.height := by
  refine forall₂_congr fun i hi => forall_congr' fun hidx => forall₂_congr fun surf hsurf => ?_
  have hindex : pictureIdxFromSurfaceId drv (buf.refFrameMap (buf.refFrameIdx i).toNat) =
      surf.pictureIdx := by
    rw [pictureIdxFromSurfaceId, nvSurfaceFromSurfaceId, hsurf]
  rw [copyAV1PicParam_refFrame hi hidx, refFrameOf, hindex, nvSurfaceFromSurfaceId]
  cases drv (buf.refFrameMap i) with
  | none => simp
  | some surf' => simp

end References

/-- Two surfaces of different sizes. -/
def twoSurfaces : Surfaces := fun id =>
  if id = 0 then some ⟨64, 64, 0, 0⟩ else if id = 1 then some ⟨32, 32, 1, 0⟩ else none

/-- A picture that refers to the second surface of its map only. -/
def swappedReferences : VADecPictureParameterBufferAV1 where
  orderHint := 0
  enableOrderHint := false
  orderHintBitsMinus1 := 0
  skipModePresent := false
  tileCols := 1
  tileRows := 1
  widthInSbsMinus1 := fun _ => 0
  heightInSbsMinus1 := fun _ => 0
  refFrameMap := fun i => if i = 1 then 1 else 0
  refFrameIdx := fun _ => 1
  primaryRefFrame := 7

theorem references_inconsistent : ¬∀ drv renderTarget stack buf pps,
    ReferencesConsistent drv buf (copyAV1PicParam drv renderTarget stack buf pps).val.2 := by
  intro h
  have h := h twoSurfaces 2 (fun _ => 0) swappedReferences .zero 0 (by decide) (by decide)
    ⟨32, 32, 1, 0⟩ rfl
  revert h
  decide

end NvVaapi.AV1
