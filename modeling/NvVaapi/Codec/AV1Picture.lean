import NvVaapi.Codec.Slices

/-!
# AV1 pictures

* `AV1Picture`: a picture-parameter buffer among the pairs of slice-parameter and slice-data
  buffers.
* `Tiled st ps`: the state holds the tiles `ps`: their bytes, and where each begins and ends.
  `addTile_tiled` is one tile, `renderPairs_tiled` all of them.
* `av1Picture_iff`: the number of tiles is right exactly when they all come before the picture
  parameters, since `copyAV1PicParam` sets the count and `copyAV1SliceParam` adds to it.
-/

namespace NvVaapi

/-- The bytes of a tile. -/
def SliceRef.tile (r : SliceRef) : List UInt8 := sliceBytes r.mem r.buf r.slice 0

/-- The tiles of the pairs. -/
def tiles (pairs : List (SlicePair .av1)) : List (List UInt8) := (allRefs pairs).map SliceRef.tile

/-- A picture in the order in which its buffers are rendered. The client announces the tiles that it
sends. -/
structure AV1Picture where
  before : List (SlicePair .av1)
  picMem : Memory
  pic : NVBuffer
  after : List (SlicePair .av1)
  pic_type : pic.bufferType = .pictureParameter
  pic_ptr : pic.ptr ≠ 0
  announced : (picMem pic.ptr).picAV1.tileCols.toNat * (picMem pic.ptr).picAV1.tileRows.toNat =
    sliceCount (before ++ after)
  short : totalSize (before ++ after) < 2 ^ 32

namespace AV1Picture

def tiles (p : AV1Picture) : List (List UInt8) := NvVaapi.tiles (p.before ++ p.after)

def render (p : AV1Picture) (st : PictureState) : Option PictureState := do
  let st ← renderPairs p.before st
  let st ← nvRenderPicture av1Codec p.picMem [some p.pic] st
  renderPairs p.after st

end AV1Picture

/-- The counters and the offsets fit the tiles. -/
structure TilesAssembled (tiles : List (List UInt8)) (st : PictureState) : Prop where
  nNumSlices : st.pPicParams.nNumSlices.toNat = tiles.length
  sliceOffsets : (Bytes.words st.sliceOffsets.bytes).length = 2 * tiles.length
  spans :
    (Bytes.pairs (Bytes.words st.sliceOffsets.bytes)).map (Prod.map UInt32.toNat UInt32.toNat) =
    Bytes.spans 0 tiles
  tiles : (Bytes.pairs (Bytes.words st.sliceOffsets.bytes)).map
    (fun s => st.bitstreamBuffer.bytes.extract s.1.toNat s.2.toNat) = tiles
  lastEnd : ∀ s ∈ (Bytes.pairs (Bytes.words st.sliceOffsets.bytes)).getLast?,
    s.2 = st.pPicParams.nBitstreamDataLen

/-! ## One tile -/

/-- The turn of `copyAV1SliceData` for a tile: the running offset is the size of the bitstream. -/
def addTile (tile : List UInt8) (st : PictureState) : Option PictureState := do
  let start := st.bitstreamBuffer.size
  let bitstreamBuffer ← appendBuffer st.bitstreamBuffer tile
  let sliceOffsets ← appendBuffer st.sliceOffsets (Bytes.le32 (UInt32.ofNat start))
  let sliceOffsets ← appendBuffer sliceOffsets (Bytes.le32 (UInt32.ofNat (start + tile.length)))
  return { st with bitstreamBuffer, sliceOffsets }

def addTiles (tiles : List (List UInt8)) (st : PictureState) : Option PictureState :=
  tiles.foldlM (fun st tile => addTile tile st) st

/-- The end of `copyAV1SliceData`. -/
def setLength (st : PictureState) : PictureState :=
  { st with
    pPicParams :=
      { st.pPicParams with nBitstreamDataLen := UInt32.ofNat st.bitstreamBuffer.size } }

/-- The layout of ranges in `sliceOffsets`. -/
def spanBytes (ss : List (Nat × Nat)) : List UInt8 :=
  (ss.map fun s => (UInt32.ofNat s.1, UInt32.ofNat s.2)).flatMap fun v =>
    Bytes.le32 v.1 ++ Bytes.le32 v.2

/-- The state holds the tiles `ps`. -/
structure Tiled (st : PictureState) (ps : List (List UInt8)) : Prop where
  bitstream : st.bitstreamBuffer.bytes = ps.flatten
  offsets : st.sliceOffsets.bytes = spanBytes (Bytes.spans 0 ps)

section Tile

variable {st st' : PictureState} {tile : List UInt8} {ps : List (List UInt8)}

theorem addTile_some (h : addTile tile st = some st') : ∃ bb so,
    st' = { st with bitstreamBuffer := bb, sliceOffsets := so } ∧
    bb.bytes = st.bitstreamBuffer.bytes ++ tile ∧ (tile ≠ [] → bb.Usable) ∧ so.Usable ∧
    so.bytes = st.sliceOffsets.bytes ++
      spanBytes [(st.bitstreamBuffer.size, st.bitstreamBuffer.size + tile.length)] := by
  obtain ⟨bb, hbb, h⟩ := Option.bind_eq_some_iff.mp h
  obtain ⟨so₁, hso₁, h⟩ := Option.bind_eq_some_iff.mp h
  obtain ⟨so, hso, h⟩ := Option.bind_eq_some_iff.mp h
  obtain rfl := Option.some_inj.mp h
  refine ⟨bb, so, rfl, appendBuffer_bytes hbb, appendBuffer_usable hbb,
    appendBuffer_usable hso (by simp [Bytes.le32]), ?_⟩
  rw [appendBuffer_bytes hso, appendBuffer_bytes hso₁, List.append_assoc]
  simp [spanBytes]

theorem addTile_isSome (tile : List UInt8) (hb : st.bitstreamBuffer.Usable)
    (hs : st.sliceOffsets.Usable) :
    ∃ st', addTile tile st = some st' := by
  obtain ⟨bb, hbb⟩ := appendBuffer_some hb tile
  obtain ⟨so₁, hso₁⟩ := appendBuffer_some hs (Bytes.le32 (UInt32.ofNat st.bitstreamBuffer.size))
  have hu := appendBuffer_usable hso₁ (by simp [Bytes.le32])
  obtain ⟨so, hso⟩ :=
    appendBuffer_some hu (Bytes.le32 (UInt32.ofNat (st.bitstreamBuffer.size + tile.length)))
  exact ⟨_, Option.bind_eq_some_iff.mpr ⟨bb, hbb, Option.bind_eq_some_iff.mpr ⟨so₁, hso₁,
    Option.bind_eq_some_iff.mpr ⟨so, hso, rfl⟩⟩⟩⟩

/-- A tile is added behind the tiles before it. -/
theorem addTile_tiled (ht : Tiled st ps) (h : addTile tile st = some st') :
    Tiled st' (ps ++ [tile]) := by
  obtain ⟨bb, so, rfl, hbb, -, -, hso⟩ := addTile_some h
  have hsize : st.bitstreamBuffer.size = ps.flatten.length := by
    rw [← ht.bitstream, AppendableBuffer.length_bytes]
  constructor
  · show bb.bytes = _
    rw [hbb, ht.bitstream, List.flatten_append, List.flatten_singleton]
  · show so.bytes = _
    rw [hso, ht.offsets, hsize, Bytes.spans_append]
    simp [spanBytes, Bytes.spans]

end Tile

/-! ## The tiles of a slice-data buffer -/

section Tiles

variable {st st' : PictureState} {ts ps : List (List UInt8)}

theorem addTiles_tiled (ht : Tiled st ps) (h : addTiles ts st = some st') :
    Tiled st' (ps ++ ts) ∧ st'.pPicParams = st.pPicParams := by
  induction ts generalizing st ps with
  | nil =>
    obtain rfl := Option.some_inj.mp h
    exact ⟨by rwa [List.append_nil], rfl⟩
  | cons t ts ih =>
    obtain ⟨st₁, h₁, h₂⟩ := Option.bind_eq_some_iff.mp h
    obtain ⟨ht', hp⟩ := ih (addTile_tiled ht h₁) h₂
    obtain ⟨bb, so, rfl, -⟩ := addTile_some h₁
    rw [List.append_assoc] at ht'
    exact ⟨ht', hp⟩

theorem addTiles_isSome (hts : ∀ t ∈ ts, t ≠ []) (hb : ts ≠ [] → st.bitstreamBuffer.Usable)
    (hs : st.sliceOffsets.Usable) : ∃ st', addTiles ts st = some st' ∧ st'.sliceOffsets.Usable ∧
      (st.bitstreamBuffer.Usable → st'.bitstreamBuffer.Usable) := by
  induction ts generalizing st with
  | nil => exact ⟨st, rfl, hs, id⟩
  | cons t ts ih =>
    obtain ⟨st₁, h₁⟩ := addTile_isSome t (hb (List.cons_ne_nil _ _)) hs
    obtain ⟨bb, so, rfl, -, hbb, hso, -⟩ := addTile_some h₁
    have hu := hbb (hts t List.mem_cons_self)
    obtain ⟨st', h', hs', hb'⟩ := @ih { st with bitstreamBuffer := bb, sliceOffsets := so }
      (fun q hq => hts q (List.mem_cons_of_mem _ hq)) (fun _ => hu) hso
    refine ⟨st', ?_, hs', fun _ => hb' hu⟩
    rw [addTiles, List.foldlM_cons, h₁]
    exact h'

/-- A bitstream buffer without capacity stops the first tile. -/
theorem addTiles_stuck (hne : ts ≠ []) (hts : ∀ t ∈ ts, t ≠ []) (hb : ¬st.bitstreamBuffer.Usable)
    (h0 : st.bitstreamBuffer.size = 0) : addTiles ts st = none := by
  cases ts with
  | nil => exact absurd rfl hne
  | cons t ts =>
    have hnone := foldlM_appendBuffer_stuck hb h0 (hts t List.mem_cons_self) []
    have hnone : appendBuffer st.bitstreamBuffer t = none := by
      rw [List.foldlM_cons] at hnone
      cases happend : appendBuffer st.bitstreamBuffer t with
      | none => rfl
      | some bb =>
        rw [happend] at hnone
        cases hnone
    rw [addTiles, List.foldlM_cons, addTile, hnone]
    rfl

theorem addTiles_usable (h : addTiles ts st = some st') (hs : st.sliceOffsets.Usable) :
    st'.sliceOffsets.Usable := by
  induction ts generalizing st with
  | nil =>
    obtain rfl := Option.some_inj.mp h
    exact hs
  | cons t ts ih =>
    obtain ⟨st₁, h₁, h₂⟩ := Option.bind_eq_some_iff.mp h
    obtain ⟨bb, so, rfl, -, -, hso, -⟩ := addTile_some h₁
    exact ih h₂ hso

end Tiles

/-! ## The handlers -/

section Handlers

variable {st st' : PictureState} {mem : Memory} {buf : NVBuffer}

/-- The loop body of `copyAV1SliceData`, for the tile that `s` describes. -/
def tileTurn (mem : Memory) (buf : NVBuffer) (s : VASliceParameterBuffer) :
    PictureState × UInt32 → Option (PictureState × UInt32) := fun (st, offset) => do
  let bitstreamBuffer ← appendBuffer st.bitstreamBuffer (sliceBytes mem buf s 0)
  let sliceOffsets ← appendBuffer st.sliceOffsets (Bytes.le32 offset)
  let offset := offset + s.sliceDataSize
  let sliceOffsets ← appendBuffer sliceOffsets (Bytes.le32 offset)
  return ({ st with bitstreamBuffer, sliceOffsets }, offset)

/-- The state with the running offset. -/
def withOffset (st : PictureState) : PictureState × UInt32 :=
  (st, UInt32.ofNat st.bitstreamBuffer.size)

/-- The running offset stays the size of the bitstream. -/
theorem tileTurn_eq (s : VASliceParameterBuffer) :
    tileTurn mem buf s (withOffset st) = (addTile (sliceBytes mem buf s 0) st).map withOffset := by
  have hlen : (sliceBytes mem buf s 0).length = s.sliceDataSize.toNat := by simp [sliceBytes]
  have hend : UInt32.ofNat st.bitstreamBuffer.size + s.sliceDataSize =
      UInt32.ofNat (st.bitstreamBuffer.size + (sliceBytes mem buf s 0).length) := by
    rw [hlen, UInt32.ofNat_add, UInt32.ofNat_toNat]
  rw [withOffset, tileTurn, hend, addTile]
  cases hbb : appendBuffer st.bitstreamBuffer (sliceBytes mem buf s 0) with
  | none => rfl
  | some bb =>
    simp only [Option.bind_eq_bind, Option.bind_some, Option.map_bind, Option.pure_def, withOffset,
      Function.comp_def, Option.map_some, appendBuffer_size hbb]

theorem tileLoop_eq (ss : List VASliceParameterBuffer) :
    ss.foldlM (fun x s => tileTurn mem buf s x) (withOffset st) =
      (addTiles (ss.map fun s => sliceBytes mem buf s 0) st).map withOffset := by
  induction ss generalizing st with
  | nil => rfl
  | cons s ss ih =>
    rw [List.foldlM_cons, tileTurn_eq, List.map_cons, addTiles, List.foldlM_cons]
    cases addTile (sliceBytes mem buf s 0) st with
    | none => rfl
    | some st₁ => exact ih

theorem copyAV1SliceData_eq : copyAV1SliceData mem buf st =
    (addTiles ((List.range st.lastSliceParamsCount.toNat).map fun i =>
      sliceBytes mem buf ((mem st.lastSliceParams).slices i) 0) st).map setLength := by
  have hloop := @tileLoop_eq st mem buf
    ((List.range st.lastSliceParamsCount.toNat).map (mem st.lastSliceParams).slices)
  rw [List.foldlM_map, List.map_map] at hloop
  have hbind :
      copyAV1SliceData mem buf st = Option.bind ((List.range st.lastSliceParamsCount.toNat).foldlM
      (fun x i => tileTurn mem buf ((mem st.lastSliceParams).slices i) x) (withOffset st))
      fun x => some (setLength x.1) := rfl
  rw [hbind, hloop, Option.bind_map, Option.map_eq_bind]
  rfl

/-- A pair is counted, its tiles are added, and the length is set. -/
theorem SlicePair.render_tiles (p : SlicePair .av1) (st : PictureState) :
    p.render st = (addTiles (p.refs.map SliceRef.tile) (rememberSlices p.params st)).map
      setLength := by
  have hparam : av1Codec.handlers p.params.bufferType = some copyAV1SliceParam := by
    rw [p.params_type]
    rfl
  have hdata : av1Codec.handlers p.data.bufferType = some copyAV1SliceData := by
    rw [p.data_type]
    rfl
  show (do
    let st ← nvRenderPicture av1Codec p.paramMem [some p.params] st
    nvRenderPicture av1Codec p.mem [some p.data] st) = _
  rw [nvRenderPicture_cons, renderBuffer_handler p.params_ptr hparam]
  show nvRenderPicture av1Codec p.mem [some p.data] (rememberSlices p.params st) = _
  rw [nvRenderPicture_cons, renderBuffer_handler p.data_ptr hdata, copyAV1SliceData_eq,
    SlicePair.refs, List.map_map]
  exact Option.bind_fun_some _

theorem av1_sliceOffsets_usable (h : Codec.av1.decoding.Reach st) : st.sliceOffsets.Usable := by
  refine appends_invariant (I := fun _ so => so.Usable) (.inl rfl) (fun _ _ h => h)
    (fun func hf mem buf st st' hs h => ?_) h
  obtain rfl : copyAV1SliceData = func := Option.some_inj.mp hf
  rw [copyAV1SliceData_eq] at h
  obtain ⟨st₁, h₁, rfl⟩ := Option.map_eq_some_iff.mp h
  show st₁.sliceOffsets.Usable
  exact addTiles_usable h₁ hs

end Handlers

/-! ## The picture -/

section Pairs

variable {st st' : PictureState} {ps : List (List UInt8)} {pairs : List (SlicePair .av1)}

theorem SlicePair.tile_ne_nil (p : SlicePair .av1) {t : List UInt8}
    (h : t ∈ p.refs.map SliceRef.tile) : t ≠ [] := by
  obtain ⟨r, hr, rfl⟩ := List.mem_map.mp h
  apply List.ne_nil_of_length_pos
  simpa [SliceRef.tile, sliceBytes] using p.refs_nonempty hr

@[simp] theorem length_tiles (pairs : List (SlicePair .av1)) :
    (tiles pairs).length = sliceCount pairs := by
  rw [tiles, List.length_map, length_allRefs]

theorem length_flatten_tiles (pairs : List (SlicePair .av1)) :
    (tiles pairs).flatten.length = totalSize pairs := by
  rw [List.length_flatten, tiles, List.map_map, totalSize]
  refine congrArg List.sum (List.map_congr_left fun r _ => ?_)
  simp [SliceRef.tile, sliceBytes, SliceRef.length, Codec.extra]

theorem tiles_cons (p : SlicePair .av1) (pairs : List (SlicePair .av1)) :
    tiles (p :: pairs) = p.refs.map SliceRef.tile ++ tiles pairs := by
  simp [tiles, allRefs]

theorem tiles_append (pairs pairs' : List (SlicePair .av1)) :
    tiles (pairs ++ pairs') = tiles pairs ++ tiles pairs' := by
  simp [tiles, allRefs]

/-- The tiles of the pairs are added and counted, and the length is right if there are any. -/
theorem renderPairs_tiled (ht : Tiled st ps)
    (hl : ps ≠ [] → st.pPicParams.nBitstreamDataLen = UInt32.ofNat ps.flatten.length)
    (h : renderPairs pairs st = some st') : Tiled st' (ps ++ tiles pairs) ∧
      (ps ++ tiles pairs ≠ [] →
        st'.pPicParams.nBitstreamDataLen = UInt32.ofNat (ps ++ tiles pairs).flatten.length) ∧
      st'.pPicParams.nNumSlices = st.pPicParams.nNumSlices + UInt32.ofNat (sliceCount pairs) := by
  induction pairs generalizing st ps with
  | nil =>
    obtain rfl := Option.some_inj.mp h
    have hnil : ps ++ tiles [] = ps := List.append_nil ps
    rw [hnil]
    exact ⟨ht, hl, by simp [sliceCount]⟩
  | cons p pairs ih =>
    obtain ⟨st₂, h₂, h'⟩ := Option.bind_eq_some_iff.mp h
    have h₂ : p.render st = some st₂ := h₂
    rw [p.render_tiles] at h₂
    obtain ⟨st₁, h₁, rfl⟩ := Option.map_eq_some_iff.mp h₂
    obtain ⟨ht₁, hp₁⟩ :=
      @addTiles_tiled (rememberSlices p.params st) _ _ ps ⟨ht.bitstream, ht.offsets⟩ h₁
    have hlen : (setLength st₁).pPicParams.nBitstreamDataLen =
        UInt32.ofNat (ps ++ p.refs.map SliceRef.tile).flatten.length := by
      show UInt32.ofNat st₁.bitstreamBuffer.size = _
      rw [← ht₁.bitstream, AppendableBuffer.length_bytes]
    obtain ⟨ht', hl', hn⟩ := @ih (setLength st₁) _ ⟨ht₁.bitstream, ht₁.offsets⟩ (fun _ => hlen) h'
    rw [List.append_assoc, ← tiles_cons] at ht' hl'
    refine ⟨ht', hl', ?_⟩
    have hcount :
        (setLength st₁).pPicParams.nNumSlices = st.pPicParams.nNumSlices + p.params.elements := by
      show st₁.pPicParams.nNumSlices = _
      rw [hp₁]
      rfl
    rw [hn, hcount]
    simp [sliceCount, UInt32.add_assoc]

theorem renderPairs_tiles_isSome (hb : tiles pairs ≠ [] → st.bitstreamBuffer.Usable)
    (hs : st.sliceOffsets.Usable) :
    ∃ st', renderPairs pairs st = some st' ∧ st'.sliceOffsets.Usable ∧
      (st.bitstreamBuffer.Usable → st'.bitstreamBuffer.Usable) := by
  induction pairs generalizing st with
  | nil => exact ⟨st, rfl, hs, id⟩
  | cons p pairs ih =>
    rw [tiles_cons] at hb
    obtain ⟨st₁, h₁, hs₁, hb₁⟩ :=
      @addTiles_isSome (rememberSlices p.params st) _ (fun t => p.tile_ne_nil)
      (fun hne => hb fun h => hne (List.append_eq_nil_iff.mp h).1) hs
    obtain ⟨st', h', hs', hb'⟩ := @ih (setLength st₁)
      (fun hne => hb₁ (hb fun h => hne (List.append_eq_nil_iff.mp h).2)) hs₁
    refine ⟨st', ?_, hs', fun hu => hb' (hb₁ hu)⟩
    rw [renderPairs, List.foldlM_cons, p.render_tiles, h₁]
    exact h'

theorem renderPairs_tiles_stuck (hne : tiles pairs ≠ []) (hb : ¬st.bitstreamBuffer.Usable)
    (h0 : st.bitstreamBuffer.size = 0) : renderPairs pairs st = none := by
  induction pairs generalizing st with
  | nil => exact absurd rfl hne
  | cons p pairs ih =>
    rw [renderPairs, List.foldlM_cons, p.render_tiles]
    by_cases hp : p.refs.map SliceRef.tile = []
    · -- a pair without tiles leaves the buffer as it is
      rw [hp]
      refine @ih (setLength (rememberSlices p.params st)) (fun h => hne ?_) hb h0
      rw [tiles_cons, hp, h]
      rfl
    · rw [@addTiles_stuck (rememberSlices p.params st) _ hp (fun t => p.tile_ne_nil) hb h0]
      rfl

theorem renderPairs_no_tiles (hnil : tiles pairs = []) (h : renderPairs pairs st = some st') :
    st'.bitstreamBuffer = st.bitstreamBuffer := by
  induction pairs generalizing st with
  | nil =>
    obtain rfl := Option.some_inj.mp h
    rfl
  | cons p pairs ih =>
    rw [tiles_cons, List.append_eq_nil_iff] at hnil
    rw [renderPairs, List.foldlM_cons, p.render_tiles, hnil.1] at h
    exact (ih hnil.2 h).trans rfl

end Pairs

section Picture

variable {st st' : PictureState} {ps : List (List UInt8)}

theorem Tiled.pairs (ht : Tiled st ps) : Bytes.pairs (Bytes.words st.sliceOffsets.bytes) =
    (Bytes.spans 0 ps).map fun s => (UInt32.ofNat s.1, UInt32.ofNat s.2) := by
  rw [ht.offsets, spanBytes, Bytes.words_flatMap_spans, Bytes.pairs_flatMap]

/-- The ranges are those of the tiles, as long as these fit 32 bits. -/
theorem Tiled.assembled (ht : Tiled st ps) (hlt : ps.flatten.length < 2 ^ 32)
    (hl : ps ≠ [] → st.pPicParams.nBitstreamDataLen = UInt32.ofNat ps.flatten.length)
    (hn : st.pPicParams.nNumSlices.toNat = ps.length) : TilesAssembled ps st := by
  have htoNat : ∀ s ∈ Bytes.spans 0 ps,
      (UInt32.ofNat s.1).toNat = s.1 ∧ (UInt32.ofNat s.2).toNat = s.2 := by
    intro s hs
    obtain ⟨h₁, h₂⟩ := Bytes.spans_le hs
    exact ⟨UInt32.toNat_ofNat_of_lt' (show s.1 < 2 ^ 32 by omega),
      UInt32.toNat_ofNat_of_lt' (show s.2 < 2 ^ 32 by omega)⟩
  refine ⟨hn, ?_, ?_, ?_, ?_⟩
  · rw [ht.offsets, spanBytes, Bytes.words_flatMap_spans, List.length_flatMap, List.map_map]
    simp [Function.comp_def, Nat.mul_comm]
  · rw [ht.pairs, List.map_map]
    exact (List.map_congr_left fun s hs =>
      Prod.ext (htoNat s hs).1 (htoNat s hs).2).trans (List.map_id _)
  · have hcut := Bytes.extract_spans [] ps
    rw [List.nil_append, List.length_nil] at hcut
    rw [ht.pairs, List.map_map, ht.bitstream]
    refine (List.map_congr_left fun s hs => ?_).trans hcut
    simp only [Function.comp_apply, htoNat s hs]
  · intro s hs
    rw [ht.pairs, List.getLast?_map] at hs
    obtain ⟨s, hlast, rfl⟩ := Option.map_eq_some_iff.mp hs
    have hne : ps ≠ [] := by
      rintro rfl
      cases hlast
    rw [hl hne, Bytes.getLast?_spans hlast, Nat.zero_add]

/-- The picture-parameter buffer sets the count of the tiles, whatever it is. -/
theorem AV1Picture.renderPic (p : AV1Picture) (st : PictureState) : ∃ pp,
    nvRenderPicture av1Codec p.picMem [some p.pic] st = some { st with pPicParams := pp } ∧
    pp.nBitstreamDataLen = st.pPicParams.nBitstreamDataLen ∧
    pp.nNumSlices = UInt32.ofNat (sliceCount (p.before ++ p.after)) := by
  have hpic : av1Codec.handlers p.pic.bufferType = some copyAV1PicParam := by
    rw [p.pic_type]
    rfl
  rw [nvRenderPicture_cons, renderBuffer_handler p.pic_ptr hpic]
  refine ⟨_, rfl, rfl, ?_⟩
  rw [← p.announced, UInt32.ofNat_mul]
  simp

theorem AV1Picture.tiles_eq (p : AV1Picture) :
    p.tiles = NvVaapi.tiles p.before ++ NvVaapi.tiles p.after :=
  tiles_append p.before p.after

/-- What the picture leaves: the tiles behind the picture parameters are counted a second time. -/
theorem AV1Picture.render_tiled {p : AV1Picture} (ht : Tiled st []) (h : p.render st = some st') :
    Tiled st' p.tiles ∧
      (p.tiles ≠ [] → st'.pPicParams.nBitstreamDataLen = UInt32.ofNat p.tiles.flatten.length) ∧
      st'.pPicParams.nNumSlices = UInt32.ofNat (p.tiles.length + sliceCount p.after) := by
  obtain ⟨st₁, h₁, h⟩ := Option.bind_eq_some_iff.mp h
  obtain ⟨st₂, h₂, h₃⟩ := Option.bind_eq_some_iff.mp h
  obtain ⟨ht₁, hl₁, -⟩ := renderPairs_tiled ht (fun h => absurd rfl h) h₁
  obtain ⟨pp, hpic, hlen, hn⟩ := p.renderPic st₁
  obtain rfl := Option.some_inj.mp (hpic.symm.trans h₂)
  obtain ⟨ht₃, hl₃, hn₃⟩ :=
    @renderPairs_tiled { st₁ with pPicParams := pp } _ _ _ ⟨ht₁.bitstream, ht₁.offsets⟩
    (fun h => hlen.trans (hl₁ h)) h₃
  rw [List.nil_append, ← p.tiles_eq] at ht₃ hl₃
  refine ⟨ht₃, hl₃, ?_⟩
  rw [hn₃, UInt32.ofNat_add, AV1Picture.tiles, length_tiles, ← hn]

theorem AV1Picture.render_isSome_iff (p : AV1Picture) (h0 : st.bitstreamBuffer.size = 0)
    (hs : st.sliceOffsets.Usable) :
    (∃ st', p.render st = some st') ↔ p.tiles = [] ∨ st.bitstreamBuffer.Usable := by
  rw [p.tiles_eq, List.append_eq_nil_iff]
  constructor
  · rintro ⟨st', h⟩
    obtain ⟨st₁, h₁, h⟩ := Option.bind_eq_some_iff.mp h
    obtain ⟨st₂, h₂, h₃⟩ := Option.bind_eq_some_iff.mp h
    by_contra hc
    rw [not_or, not_and] at hc
    by_cases hbefore : NvVaapi.tiles p.before = []
    · -- the buffer gets to the pairs behind the picture parameters as it is
      have hbuf := renderPairs_no_tiles hbefore h₁
      obtain ⟨pp, hpic, -⟩ := p.renderPic st₁
      obtain rfl := Option.some_inj.mp (hpic.symm.trans h₂)
      rw [← hbuf] at hc h0
      rw [@renderPairs_tiles_stuck { st₁ with pPicParams := pp } _ (hc.1 hbefore) hc.2 h0] at h₃
      cases h₃
    · rw [renderPairs_tiles_stuck hbefore hc.2 h0] at h₁
      cases h₁
  · intro hb
    obtain ⟨st₁, h₁, hs₁, hb₁⟩ :=
      renderPairs_tiles_isSome (fun hne => hb.resolve_left fun h => hne h.1) hs
    obtain ⟨pp, hpic, -⟩ := p.renderPic st₁
    obtain ⟨st', h', -⟩ := @renderPairs_tiles_isSome { st₁ with pPicParams := pp } p.after
      (fun hne => hb₁ (hb.resolve_left fun h => hne h.2)) hs₁
    exact ⟨st', Option.bind_eq_some_iff.mpr ⟨st₁, h₁, Option.bind_eq_some_iff.mpr ⟨_, hpic, h'⟩⟩⟩

/-- An AV1 picture that starts with empty append buffers: it is assembled from its tiles exactly
when the growth loop of the bitstream buffer can begin, unless there is no tile, and no tile comes
after the picture parameters. -/
theorem av1Picture_iff {st : PictureState} (hr : Codec.av1.decoding.Reach st)
    (hb : st.bitstreamBuffer.size = 0) (hs : st.sliceOffsets.size = 0) (p : AV1Picture) :
    (∃ st', p.render st = some st' ∧ TilesAssembled p.tiles st') ↔
      (p.tiles = [] ∨ st.bitstreamBuffer.Usable) ∧ sliceCount p.after = 0 := by
  have h0 : Tiled st [] :=
    ⟨by simp [AppendableBuffer.bytes_of_size hb],
      by simp [AppendableBuffer.bytes_of_size hs, Bytes.spans, spanBytes]⟩
  have hcount : p.tiles.length = sliceCount p.before + sliceCount p.after := by
    rw [p.tiles_eq, List.length_append, length_tiles, length_tiles]
  have hlt : p.tiles.length < 2 ^ 32 := by
    rw [AV1Picture.tiles, length_tiles]
    exact Nat.lt_of_le_of_lt (sliceCount_le_totalSize _) p.short
  rw [← p.render_isSome_iff hb (av1_sliceOffsets_usable hr)]
  constructor
  · rintro ⟨st', h, ha⟩
    refine ⟨⟨st', h⟩, ?_⟩
    obtain ⟨-, -, hn⟩ := AV1Picture.render_tiled h0 h
    have heq := ha.nNumSlices
    rw [hn, UInt32.toNat_ofNat'] at heq
    omega
  · rintro ⟨⟨st', h⟩, hafter⟩
    obtain ⟨ht, hl, hn⟩ := AV1Picture.render_tiled h0 h
    refine ⟨st', h, ht.assembled ?_ hl ?_⟩
    · rw [AV1Picture.tiles, length_flatten_tiles]
      exact p.short
    · rw [hn, hafter, Nat.add_zero]
      exact UInt32.toNat_ofNat_of_lt' hlt

end Picture

/-! ## A tile before and behind the picture parameters -/

def oneTileMemory : Memory := fun _ =>
  { (default : ClientData) with
    picAV1 := { (default : VADecPictureParameterBufferAV1) with tileCols := 1, tileRows := 1 } }

/-- A picture of one tile of one byte, with the picture parameters last or first. -/
def oneTilePicture (last : Bool) : AV1Picture where
  before := if last then [oneBytePair .av1] else []
  picMem := oneTileMemory
  pic := ⟨1, 64, .pictureParameter, 1, 0⟩
  after := if last then [] else [oneBytePair .av1]
  pic_type := rfl
  pic_ptr := by decide
  announced := by cases last <;> rfl
  short := by cases last <;> decide

theorem av1Picture_last :
    ∃ st', (oneTilePicture true).render (beginPicture av1Codec 0 (.init 16 16)) = some st' ∧
    TilesAssembled (oneTilePicture true).tiles st' :=
  (av1Picture_iff (.step (a := .beginPicture 0) (.init ⟨16, 16, rfl⟩) rfl) rfl rfl
    (oneTilePicture true)).mpr
    ⟨.inr (.inl rfl), rfl⟩

/-- A tile behind the picture parameters is counted twice. -/
theorem av1Picture_first : ¬∀ st, Codec.av1.decoding.Reach st → st.bitstreamBuffer.size = 0 →
    st.sliceOffsets.size = 0 → ∀ p : AV1Picture, ∃ st',
      p.render st = some st' ∧ TilesAssembled p.tiles st' := by
  intro h
  have hr : Codec.av1.decoding.Reach (beginPicture av1Codec 0 (.init 16 16)) :=
    .step (a := .beginPicture 0) (.init ⟨16, 16, rfl⟩) rfl
  obtain ⟨st', hrender, ha⟩ := h _ hr rfl rfl (oneTilePicture false)
  obtain ⟨-, -, hn⟩ := AV1Picture.render_tiled ⟨rfl, rfl⟩ hrender
  have heq := ha.nNumSlices
  rw [hn] at heq
  revert heq
  decide

end NvVaapi
