import NvVaapi.Codec.Slices
import NvVaapi.Jpeg.Checks

/-!
# What rendering reads

The client's buffers on a decode context, and every place of the handler table, of the slice
parameters and of the slice data that `nvRenderPicture` accesses.

* `VAHeader`: what the code takes from the header of VA-API.
* `ClientBuffer`: a buffer with the type that the client gave, whatever its value.
* `Access`: a piece of an array, with the size of the array. `dataAccesses` are those of the
  slice-data handlers; `sliceData_congr` says that a handler depends on nothing else.
* `Codec.dispatching`: the system of `nvCreateBuffer`, `nvBufferSetNumElements` and the calls of a
  picture, in any order.
-/

namespace NvVaapi

/-- What is used of the header: the number of buffer types, their values, and the size of a codec's
slice parameters. -/
structure VAHeader where
  vaBufferTypeMax : Nat
  vaEncCodedBufferType : Nat
  bufferType : Nat → VABufferType
  sizeofSliceParam : Codec → Nat

/-- The type behind a client's value. The values from `VABufferTypeMax` on are none. -/
def VAHeader.typeOf (va : VAHeader) (type : Nat) : VABufferType :=
  if type < va.vaBufferTypeMax then va.bufferType type else .other

/-! ## Accesses -/

/-- The elements or bytes `start` to `start + length` of an array of the size `limit`. -/
structure Access where
  start : Nat
  length : Nat
  limit : Nat
  deriving DecidableEq

def Access.InRange (a : Access) : Prop := ∀ i < a.length, a.start + i < a.limit

instance (a : Access) : Decidable a.InRange := inferInstanceAs (Decidable (∀ i < a.length, _))

theorem Access.inRange_iff {a : Access} :
    a.InRange ↔ a.length = 0 ∨ a.start + a.length ≤ a.limit := by
  unfold InRange
  constructor
  · intro h
    by_cases h0 : a.length = 0
    · exact .inl h0
    · have := h (a.length - 1) (by omega)
      omega
  · rintro (h | h) i hi <;> omega

/-- The `n` elements of `size` bytes in an array of `limit` bytes. -/
def elementAccesses (size n limit : Nat) : List Access :=
  (List.range n).map fun i => ⟨i * size, size, limit⟩

/-- They are in range when the last one is. -/
theorem elementAccesses_inRange_iff {size n limit : Nat} :
    (∀ a ∈ elementAccesses size n limit, a.InRange) ↔ n * size ≤ limit := by
  simp only [elementAccesses, List.mem_map, List.mem_range, forall_exists_index, and_imp,
    forall_apply_eq_imp_iff₂, Access.inRange_iff]
  constructor
  · intro h
    cases n with
    | zero => simp
    | succ n =>
      obtain h0 | hle := h n (Nat.lt_succ_self n)
      · simp [h0]
      · rwa [Nat.succ_mul]
  · intro h i hi
    refine .inr (Nat.le_trans ?_ h)
    rw [← Nat.succ_mul]
    exact Nat.mul_le_mul_right size hi

/-! ## The handlers' accesses -/

/-- The copy of the slice `s`. -/
def sliceAccess (c : Codec) (buf : NVBuffer) (s : VASliceParameterBuffer) : Access :=
  ⟨s.sliceDataOffset.toNat, s.sliceDataSize.toNat + c.extra buf, buf.size⟩

/-- The checks of `copyJPEGSliceData` and `reconstructJPEG` in front of the first slice succeed. -/
def JpegReady (jpegCtx : JPEGContext) (buf : NVBuffer) (st : PictureState) : Prop :=
  st.lastSliceParams ≠ 0 ∧ buf.size ≤ 2 ^ 32 - 1 ∧ (jpegCtx.hasPicParams ∧ jpegCtx.hasIQMatrix) ∧
    (jpegCtx.picParams.pictureWidth ≠ 0 ∧ jpegCtx.picParams.pictureHeight ≠ 0) ∧
    (jpegCtx.picParams.numComponents ≠ 0 ∧ jpegCtx.picParams.numComponents ≤ JPEG_MAX_COMPONENTS) ∧
    (∀ t ∈ jpegCtx.picParams.quantSelectors, t < 4) ∧
    ∀ t ∈ jpegCtx.picParams.quantSelectors, jpegCtx.validQuantTablesMask.getLsbD t = true

instance (jpegCtx : JPEGContext) (buf : NVBuffer) (st : PictureState) :
    Decidable (JpegReady jpegCtx buf st) :=
  inferInstanceAs (Decidable (_ ∧ _ ∧ _ ∧ _ ∧ _ ∧ _ ∧ _))

/-- How many of the slices `0, …, n - 1` are looked at, up to the first one that is refused. -/
def lookedAt (ok : Nat → Bool) (n : Nat) : Nat :=
  (List.range n).countP fun i => (List.range i).all ok

/-- A slice passes the checks of `reconstructJPEG`. -/
def jpegSliceOk (mem : Memory) (jpegCtx : JPEGContext) (buf : NVBuffer)
    (st : PictureState) (i : Nat) : Bool :=
  decide (SliceOk jpegCtx.picParams (UInt32.ofNat buf.size) ((mem st.lastSliceParams).slicesJPEG i))

/-- The number of elements that a slice-data handler reads. -/
def elementsRead (c : Codec) (mem : Memory) (buf : NVBuffer) (st : PictureState) : Nat :=
  if c = .jpeg then
    match st.codecData with
    | none => 0
    | some jpegCtx =>
      if JpegReady jpegCtx buf st then
        lookedAt (jpegSliceOk mem jpegCtx buf st) st.lastSliceParamsCount.toNat
      else 0
  else st.lastSliceParamsCount.toNat

/-- The slices that a slice-data handler copies: those of JPEG only when all of them pass the
checks. -/
def slicesCopied (c : Codec) (mem : Memory) (buf : NVBuffer) (st : PictureState) : List Access :=
  if c = .jpeg then
    match st.codecData with
    | none => []
    | some jpegCtx =>
      if FrameOk jpegCtx (sliceList (mem st.lastSliceParams).slicesJPEG st.lastSliceParamsCount)
          (UInt32.ofNat buf.size) ∧ buf.size ≤ 2 ^ 32 - 1 then
        (sliceList (mem st.lastSliceParams).slicesJPEG st.lastSliceParamsCount).map fun s =>
          ⟨s.sliceDataOffset.toNat, s.sliceDataSize.toNat, buf.size⟩
      else []
  else (List.range st.lastSliceParamsCount.toNat).map fun i =>
    sliceAccess c buf ((mem st.lastSliceParams).slices i)

/-- The accesses of the slice-data handler, when the elements are in a buffer of `limit` bytes. -/
def dataAccesses (va : VAHeader) (c : Codec) (mem : Memory) (buf : NVBuffer) (st : PictureState)
    (limit : Nat) : List Access :=
  elementAccesses (va.sizeofSliceParam c) (elementsRead c mem buf st) limit ++
    slicesCopied c mem buf st

/-- The handlers of H264 and VP8 look at the first element of slice parameters. -/
def Codec.readsFirst (c : Codec) : Bool := c == .h264 || c == .vp8

/-- The accesses of the handler for `buf`. -/
def handlerAccesses (va : VAHeader) (c : Codec) (mem : Memory) (buf : NVBuffer) (st : PictureState)
    (limit : Nat) : List Access :=
  match buf.bufferType with
  | .sliceParameter =>
    if c.readsFirst then elementAccesses (va.sizeofSliceParam c) 1 buf.size else []
  | .sliceData => dataAccesses va c mem buf st limit
  | _ => []

section Congr

variable {c : Codec} {mem mem' : Memory} {buf : NVBuffer} {st : PictureState}

/-- The bytes of the copy of a slice are equal in two memories. -/
def SameSlice (c : Codec) (buf : NVBuffer) (mem mem' : Memory)
    (s : VASliceParameterBuffer) : Prop :=
  ∀ i, (sliceAccess c buf s).start ≤ i →
    i < (sliceAccess c buf s).start + (sliceAccess c buf s).length →
    (mem buf.ptr).bytes i = (mem' buf.ptr).bytes i

theorem slicePieces_sameSlice {s : VASliceParameterBuffer} (h : SameSlice c buf mem mem' s)
    (k v : Bool) : c.slicePieces k v mem buf s = c.slicePieces k v mem' buf s := by
  have hb : sliceBytes mem buf s (c.extra buf) = sliceBytes mem' buf s (c.extra buf) :=
    Bytes.read_congr h
  cases c <;> simp_all [Codec.slicePieces, Codec.extra]

/-- The slice-data handler reads the accesses of `dataAccesses`, and VP8 also the frame tag and the
sync codes. -/
theorem sliceData_congr (hc : c ∈ sliceCodecs) {func : HandlerFunc}
    (hf : c.nvCodec.handlers .sliceData = some func)
    (hs : ∀ i < st.lastSliceParamsCount.toNat,
      (mem st.lastSliceParams).slices i = (mem' st.lastSliceParams).slices i)
    (hb : ∀ i < st.lastSliceParamsCount.toNat,
      SameSlice c buf mem mem' ((mem st.lastSliceParams).slices i))
    (hv : c = .vp8 → (mem buf.ptr).bytes 0 = (mem' buf.ptr).bytes 0 ∧
      ∀ i < st.lastSliceParamsCount.toNat,
        vp8SyncCode mem buf ((mem st.lastSliceParams).slices i) =
          vp8SyncCode mem' buf ((mem st.lastSliceParams).slices i)) :
    func mem buf st = func mem' buf st := by
  obtain ⟨func', hf', heq⟩ := sliceData_eq hc
  obtain rfl : func' = func := Option.some.inj (hf'.symm.trans hf)
  have hstart : c.startSlices mem buf st = c.startSlices mem' buf st := by
    unfold Codec.startSlices
    split
    · next h => rw [(hv h).1]
    · rfl
  have hcount : (c.startSlices mem' buf st).lastSliceParamsCount = st.lastSliceParamsCount ∧
      (c.startSlices mem' buf st).lastSliceParams = st.lastSliceParams := by
    unfold Codec.startSlices
    split <;> exact ⟨rfl, rfl⟩
  rw [heq, heq, hstart]
  unfold forSlices
  rw [hcount.1, hcount.2]
  refine List.foldlM_congr_mem (fun i hi st' => ?_) _
  have hi := List.mem_range.mp hi
  rw [← hs i hi]
  have hvalid (k v : Bool) : c.keyframeValid k v mem buf ((mem st.lastSliceParams).slices i) =
      c.keyframeValid k v mem' buf ((mem st.lastSliceParams).slices i) := by
    by_cases h8 : c = .vp8
    · rw [Codec.keyframeValid, Codec.keyframeValid, (hv h8).2 i hi]
    · simp only [Codec.keyframeValid, beq_eq_false_iff_ne.mpr h8, Bool.false_and]
  simp only [Codec.copySlice, hvalid, slicePieces_sameSlice (hb i hi)]

end Congr

/-! ## The buffers -/

structure ClientBuffer where
  id : Nat
  type : Nat
  elements : UInt32
  size : Nat
  ptr : Ptr
  offset : Nat
  deriving DecidableEq

def ClientBuffer.toNVBuffer (va : VAHeader) (b : ClientBuffer) : NVBuffer :=
  ⟨b.elements, b.size, va.typeOf b.type, b.ptr, b.offset⟩

/-- The context that a buffer is created on. A buffer can be created without one. -/
inductive BufferContext where
  | none
  | decode (c : Codec)
  | encode
  deriving DecidableEq

/-- The arguments of `nvCreateBuffer`, and what it meets. -/
structure CreateBuffer where
  context : BufferContext
  type : Nat
  size : UInt32
  numElements : UInt32
  data : Ptr
  /-- What `memalign` returns, or `calloc` for a coded buffer. -/
  alloc : Option Ptr

/-- The client's buffers and the picture of the context. -/
structure RenderWorld where
  buffers : List ClientBuffer
  picture : PictureState
  /-- History: the accesses. -/
  accesses : List Access

namespace RenderWorld

variable (va : VAHeader) (c : Codec) (mem : Memory) (w : RenderWorld)

def find (id : Nat) : Option ClientBuffer := w.buffers.find? fun b => b.id = id

/-- The size of the buffer that `lastSliceParams` points to. -/
def sliceParamsSize : Nat :=
  ((w.buffers.find? fun b => b.ptr = w.picture.lastSliceParams).map ClientBuffer.size).getD 0

def nvCreateBuffer (id : Nat) (a : CreateBuffer) : RenderWorld :=
  -- the bytes in front of the client's data, for VP8
  let offset := if a.context = .decode .vp8 ∧ va.typeOf a.type = .sliceData then a.data % 16 else 0
  let size := a.numElements * (a.size + UInt32.ofNat offset)
  match a.alloc with
  | none => w
  | some alloc =>
    let ptr := if a.context = .encode ∧ a.type = va.vaEncCodedBufferType then 0 else alloc
    { w with buffers := w.buffers ++ [⟨id, a.type, a.numElements, size.toNat, ptr, offset⟩] }

def nvBufferSetNumElements (id : Nat) (numElements : UInt32) : RenderWorld :=
  { w with
    buffers := w.buffers.map fun b => if b.id = id then { b with elements := numElements } else b }

/-- The accesses of the turn for the buffer `id`. An index outside of the handler table leads
nowhere. -/
def turnAccesses (id : Nat) : List Access :=
  match w.find id with
  | none => []
  | some b =>
    if b.ptr = 0 then []
    else ⟨b.type, 1, va.vaBufferTypeMax⟩ ::
      handlerAccesses va c mem (b.toNVBuffer va) w.picture w.sliceParamsSize

/-- The turn of `nvRenderPicture` for the buffer `id`. -/
def renderTurn (id : Nat) : Option RenderWorld :=
  (renderBuffer c.nvCodec mem w.picture ((w.find id).map (·.toNVBuffer va))).map fun st =>
    { w with picture := st, accesses := w.accesses ++ w.turnAccesses va c mem id }

def nvRenderPicture (ids : List Nat) : Option RenderWorld :=
  ids.foldlM (fun w id => renderTurn va c mem w id) w

end RenderWorld

inductive RenderCall where
  | createBuffer (id : Nat) (a : CreateBuffer)
  | bufferSetNumElements (id : Nat) (numElements : UInt32)
  | beginPicture (pictureIdx : Int)
  | renderPicture (mem : Memory) (ids : List Nat)
  | endPicture (decoder pushed : Bool)

/-- An allocation returns what is not in use. -/
def RenderWorld.Free (w : RenderWorld) (id : Nat) (a : CreateBuffer) : Prop :=
  (∀ b ∈ w.buffers, b.id ≠ id) ∧ ∀ ptr ∈ a.alloc, ptr ≠ 0 ∧ ∀ b ∈ w.buffers, b.ptr ≠ ptr

instance (w : RenderWorld) (id : Nat) (a : CreateBuffer) : Decidable (w.Free id a) :=
  inferInstanceAs (Decidable (_ ∧ _))

/-- The step of the system that a call is. A handler that does not return is none. -/
def renderStep (va : VAHeader) (c : Codec) (w : RenderWorld) : RenderCall → Option RenderWorld
  | .createBuffer id a => if w.Free id a then some (w.nvCreateBuffer va id a) else none
  | .bufferSetNumElements id numElements => some (w.nvBufferSetNumElements id numElements)
  | .beginPicture pictureIdx =>
    some { w with picture := beginPicture c.nvCodec pictureIdx w.picture }
  | .renderPicture mem ids => w.nvRenderPicture va c mem ids
  | .endPicture decoder pushed => some { w with picture := (endPicture decoder pushed w.picture).1 }

/-- The calls on a decode context and on the client's buffers, in any order. -/
def Codec.dispatching (va : VAHeader) (c : Codec) : Lts RenderWorld RenderCall where
  init w := ∃ width height, w = ⟨[], .init width height, []⟩
  step := renderStep va c

end NvVaapi
