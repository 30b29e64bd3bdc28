import NvVaapi.Encode.Coded
import NvVaapi.Encode.Startup
import NvVaapi.Lib.Latest
import NvVaapi.Lib.Matches

/-!
# The delivery of bitstreams

* `coding`: the calls on any encode contexts and coded buffers, in any order, with the buffers named
  by their IDs.
* `delivery`: the same with what a client may expect: which buffer each context was told to use, and
  the bitstream that each buffer was given last.
* `uses_nvRenderPicture`: rendering makes a context use the coded buffer that is named last.
* `segment_shows`: in every run the segments are as expected.
* `endPicture_shows`: what a client reads after an `nvEndPicture`, from its status.
-/

namespace NvVaapi

open Objects (NvencStatus)

/-! ## Rendering -/

/-- Picture parameters with the ID in `coded_buf`. -/
structure CodedParams where
  /-- `none` is `VA_INVALID_ID`. -/
  coded_buf : Option VAGenericID
  idr_pic_flag : Bool

/-- A buffer that is rendered, as `EncodeBuffer`, with its own ID if it is of the type
`VAEncCodedBufferType` and the ID that it has in it. -/
inductive CodedRender where
  | coded (id : VAGenericID)
  | pictureParameter (h264 hevc : Option CodedParams)
  | sequenceParameter (h264 : Option SequenceParamsH264) (hevc : Option SequenceParamsHevc)
  | miscParameter (misc : Option MiscParams)
  | other

structure CodedContext extends EncodeSession where
  encCodedBufId : VAGenericID

/-- The encode contexts and the buffers of the type `VAEncCodedBufferType`, by their IDs. A buffer
that was not created on an encode context has no coded data. -/
structure CodedWorld where
  contexts : VAGenericID → Option CodedContext
  buffers : VAGenericID → Option (Option CodedBuffer)

namespace CodedParams

variable (w : CodedWorld) (pic : CodedParams)

/-- The coded buffer that the parameters name. -/
def target : Option VAGenericID := pic.coded_buf.filter fun id => (w.buffers id).isSome

def resolve : PictureParams := ⟨(pic.target w).isSome, pic.idr_pic_flag⟩

end CodedParams

namespace CodedRender

variable (w : CodedWorld)

/-- The coded buffer that the turn for the buffer names. -/
def target (encIsHevc : Bool) : CodedRender → Option VAGenericID
  | coded id => if (w.buffers id).isSome then some id else none
  | pictureParameter h264 hevc => (if encIsHevc then hevc else h264).bind fun pic => pic.target w
  | sequenceParameter _ _ | miscParameter _ | other => none

/-- What `getObjectPtr` finds of the buffer. -/
def resolve : CodedRender → EncodeBuffer
  | coded id => if (w.buffers id).isSome then .coded else .other
  | pictureParameter h264 hevc =>
    .pictureParameter (h264.map fun pic => pic.resolve w) (hevc.map fun pic => pic.resolve w)
  | sequenceParameter h264 hevc => .sequenceParameter h264 hevc
  | miscParameter misc => .miscParameter misc
  | other => .other

end CodedRender

namespace CodedContext

variable (g : EncodeSettings) (w : CodedWorld) (ctx : CodedContext)

/-- The turn for a buffer in `nvRenderPicture`. -/
def renderBuffer (buf : CodedRender) : CodedContext where
  toEncodeSession := ctx.toEncodeSession.renderBuffer g (buf.resolve w)
  encCodedBufId := (buf.target w ctx.encIsHevc).getD ctx.encCodedBufId

def nvRenderPicture (buffers : List CodedRender) : CodedContext :=
  buffers.foldl (renderBuffer g w) ctx

end CodedContext

/-! ## The system -/

/-- The client and the results that a call meets. -/
inductive CodedCall where
  | createContext (c : VAGenericID) (a : SessionArgs)
  | destroyContext (c : VAGenericID)
  /-- A buffer of the type `VAEncCodedBufferType`. Without an encode context, it is for another one
  or for none. -/
  | createBuffer (b : VAGenericID) (context : Option VAGenericID) (size numElements : UInt32)
      (calloc : Bool)
  | destroyBuffer (b : VAGenericID)
  | beginPicture (c : VAGenericID) (surface : Nat)
  | renderPicture (c : VAGenericID) (buffers : List CodedRender)
  /-- `surface` and `ioBuffers` are as in `EncodeTarget`. -/
  | endPicture (c : VAGenericID) (surface : Option EncodeSurface) (ioBuffers : Bool)
      (r : NvencReplies)
      (bitstream : List UInt8)

namespace CodedWorld

def empty : CodedWorld := ⟨fun _ => none, fun _ => none⟩

variable (g : EncodeSettings) (w : CodedWorld)

def setContext (c : VAGenericID) (ctx : CodedContext) : CodedWorld :=
  { w with contexts := Function.update w.contexts c (some ctx) }

/-- Change the context `c`, if there is one. -/
def updateContext (c : VAGenericID) (f : CodedContext → CodedContext) : CodedWorld :=
  match w.contexts c with
  | none => w
  | some ctx => w.setContext c (f ctx)

/-- The buffer with the ID `b` if it has coded data. -/
def codedBuffer (b : VAGenericID) : Option CodedBuffer := (w.buffers b).bind id

def nvCreateBuffer (b : VAGenericID) (context : Option VAGenericID) (size numElements : UInt32)
    (calloc : Bool) : CodedWorld :=
  match context with
  | none => { w with buffers := Function.update w.buffers b (some none) }
  | some c =>
    match w.contexts c with
    | none => w
    | some _ =>
      if calloc then
        { w with
          buffers :=
            Function.update w.buffers b (some (some (.create (numElements * size).toNat))) }
      else w

/-- What `nvEndPicture` finds. -/
def target (ctx : CodedContext) (surface : Option EncodeSurface) (ioBuffers : Bool) :
    EncodeTarget :=
  ⟨surface, (w.codedBuffer ctx.encCodedBufId).isSome, ioBuffers⟩

/-- The context and its coded buffer after a call. -/
def putCoded (c : VAGenericID) (ctx : CodedContext) (x : EncodeSession × Option CodedBuffer) :
    CodedWorld where
  contexts := Function.update w.contexts c (some { ctx with toEncodeSession := x.1 })
  buffers := x.2.elim w.buffers fun b => Function.update w.buffers ctx.encCodedBufId (some (some b))

/-- The status of an `nvEndPicture` and the world after it. -/
def nvEndPicture (c : VAGenericID) (surface : Option EncodeSurface) (ioBuffers : Bool)
    (r : NvencReplies) (bitstream : List UInt8) : Option (Objects.VAStatus × CodedWorld) :=
  match w.contexts c with
  | none => some (.errorInvalidContext, w)
  | some ctx =>
    ((EncodeSession.nvEndPictureCoded g (w.target ctx surface ioBuffers) r bitstream).eval
      (ctx.toEncodeSession, w.codedBuffer ctx.encCodedBufId)).map fun x =>
        (x.1, w.putCoded c ctx x.2)

end CodedWorld

def codedStep (g : EncodeSettings) (w : CodedWorld) : CodedCall → Option CodedWorld
  | .createContext c a =>
    if (w.contexts c).isNone then
      some ((EncodeSession.nvCreateContext g a).elim w fun s => w.setContext c ⟨s, vaInvalidId⟩)
    else none
  | .destroyContext c => some { w with contexts := Function.update w.contexts c none }
  | .createBuffer b context size numElements calloc =>
    if (w.buffers b).isNone then some (w.nvCreateBuffer b context size numElements calloc) else none
  | .destroyBuffer b => some { w with buffers := Function.update w.buffers b none }
  | .beginPicture c surface => some <| w.updateContext c fun ctx =>
    { ctx with
      toEncodeSession := ctx.toEncodeSession.nvBeginPicture surface
      encCodedBufId := vaInvalidId }
  | .renderPicture c buffers => some (w.updateContext c fun ctx => ctx.nvRenderPicture g w buffers)
  | .endPicture c surface ioBuffers r bitstream =>
    (w.nvEndPicture g c surface ioBuffers r bitstream).map Prod.snd

/-- The calls on any encode contexts and coded buffers, in any order. A new object gets an ID that
is not in use. -/
def coding (g : EncodeSettings) : Lts CodedWorld CodedCall where
  init w := w = .empty
  step := codedStep g

/-! ## What a client may expect -/

/-- The coded buffer that each context was last told to use, since its last `nvBeginPicture`, and
the bitstream that was last delivered to each coded buffer. -/
structure Delivery where
  named : VAGenericID → Option VAGenericID
  last : VAGenericID → List UInt8

def Delivery.empty : Delivery := ⟨fun _ => none, fun _ => []⟩

/-- What a call delivers. -/
def Delivery.next (g : EncodeSettings) (w : CodedWorld) (call : CodedCall)
    (d : Delivery) : Delivery :=
  match call with
  | .createContext c _ => { d with named := Function.update d.named c none }
  | .createBuffer b _ _ _ _ => { d with last := Function.update d.last b [] }
  | .beginPicture c _ => { d with named := Function.update d.named c none }
  | .renderPicture c buffers =>
    (w.contexts c).elim d fun ctx => { d with
      named :=
        Function.update d.named c
          ((latest (CodedRender.target w ctx.encIsHevc) buffers).or (d.named c)) }
  | .endPicture c surface ioBuffers r bitstream =>
    ((w.contexts c).bind fun ctx => (d.named c).bind fun b =>
      (ctx.left g (w.target ctx surface ioBuffers) r bitstream).map fun bytes =>
        { d with last := Function.update d.last b bytes }).getD d
  | .destroyContext _ | .destroyBuffer _ => d

/-- The calls with what they deliver. -/
def delivery (g : EncodeSettings) : Lts (CodedWorld × Delivery) CodedCall :=
  (coding g).withGhost .empty (Delivery.next g)

/-! ### Which buffer a context uses -/

namespace EncodeSession

variable {g : EncodeSettings} {s : EncodeSession}

theorem hasCodedBuf_nvencSetBitrate (bps : UInt32) :
    (s.nvencSetBitrate bps).encHasCodedBuf = s.encHasCodedBuf := by
  unfold nvencSetBitrate
  dsimp only
  split_ifs <;> rfl

theorem hasCodedBuf_nvencSetGop (gopLength idrPeriod : UInt32) :
    (s.nvencSetGop gopLength idrPeriod).encHasCodedBuf = s.encHasCodedBuf := by
  unfold nvencSetGop
  dsimp only
  split_ifs <;> rfl

theorem hasCodedBuf_nvencSetFrameRate (fpsNum fpsDen : UInt32) :
    (s.nvencSetFrameRate fpsNum fpsDen).encHasCodedBuf = s.encHasCodedBuf := by
  unfold nvencSetFrameRate
  split <;> rfl

theorem hasCodedBuf_announce (ctx : EncodeContext) (b : Bool) (r : Option VisibleRect) :
    (ctx.announce b r).encHasCodedBuf = ctx.encHasCodedBuf := by
  cases r with
  | none => rfl
  | some r =>
    obtain ⟨_, _, _, _, _, he⟩ := nvencSetVisibleRect_eq ctx r.x r.y r.width r.height
    unfold EncodeContext.announce
    dsimp only
    by_cases hreq : VisibleRequest b (ctx.nvencSetVisibleRect r.x r.y r.width r.height)
    · rw [useVisible_of_request hreq, he]
    · rw [useVisible_of_not_request hreq, he]

theorem hasCodedBuf_renderSequenceH264 (seq : SequenceParamsH264) :
    (s.renderSequenceH264 g seq).encHasCodedBuf = s.encHasCodedBuf := by
  have hsizes (s : EncodeSession) : (s.withSizes fun ctx =>
      ctx.nvencUpdateVisibleRectFromH264Seq g.g_encVisibleReconfigure
        seq.toSequenceH264).encHasCodedBuf =
        s.encHasCodedBuf :=
    hasCodedBuf_announce s.toEncodeContext _ (some seq.rect)
  unfold renderSequenceH264
  dsimp only
  split <;> simp only [hasCodedBuf_nvencSetFrameRate, hsizes, hasCodedBuf_nvencSetGop,
    hasCodedBuf_nvencSetBitrate]

theorem hasCodedBuf_renderSequenceHevc (seq : SequenceParamsHevc) :
    (s.renderSequenceHevc g seq).encHasCodedBuf = s.encHasCodedBuf := by
  have hsizes (s : EncodeSession) : (s.withSizes fun ctx =>
      ctx.nvencUpdateVisibleRectFromHevcSeq g.g_encVisibleReconfigure seq.pic_width_in_luma_samples
        seq.pic_height_in_luma_samples).encHasCodedBuf = s.encHasCodedBuf := by
    unfold withSizes EncodeContext.nvencUpdateVisibleRectFromHevcSeq
    split
    · rfl
    · exact hasCodedBuf_announce s.toEncodeContext _ (some ⟨0, 0, _, _⟩)
  unfold renderSequenceHevc
  dsimp only
  split <;> simp only [hasCodedBuf_nvencSetFrameRate, hsizes, hasCodedBuf_nvencSetGop,
    hasCodedBuf_nvencSetBitrate]

theorem hasCodedBuf_renderRateControl (rc : RateControl) :
    (s.renderRateControl rc).encHasCodedBuf = s.encHasCodedBuf := by
  have hrate : (s.renderBitrate rc).encHasCodedBuf = s.encHasCodedBuf := by
    unfold renderBitrate
    split_ifs
    · exact hasCodedBuf_nvencSetBitrate (targetBitrate rc)
    · exact hasCodedBuf_nvencSetBitrate rc.bits_per_second
    · rfl
  unfold renderRateControl
  dsimp only
  split_ifs <;> exact hrate

end EncodeSession

/-- The buffer names a coded buffer to an encoder for HEVC or H.264. -/
def EncodeBuffer.namesCoded (encIsHevc : Bool) : EncodeBuffer → Bool
  | .coded => true
  | .pictureParameter h264 hevc => (if encIsHevc then hevc else h264).any PictureParams.codedBuf
  | .sequenceParameter _ _ | .miscParameter _ | .other => false

theorem EncodeSession.hasCodedBuf_renderBuffer {g : EncodeSettings} {s : EncodeSession}
    (buf : EncodeBuffer) :
    (s.renderBuffer g buf).encHasCodedBuf = (s.encHasCodedBuf || buf.namesCoded s.encIsHevc) := by
  cases buf with
  | coded => exact (Bool.or_true _).symm
  | sequenceParameter h264 hevc =>
    show (if s.encIsHevc then hevc.elim s (s.renderSequenceHevc g)
      else h264.elim s (s.renderSequenceH264 g)).encHasCodedBuf = _
    rw [EncodeBuffer.namesCoded, Bool.or_false]
    split
    · cases hevc with
      | none => rfl
      | some seq => exact hasCodedBuf_renderSequenceHevc seq
    · cases h264 with
      | none => rfl
      | some seq => exact hasCodedBuf_renderSequenceH264 seq
  | pictureParameter h264 hevc =>
    show ((if s.encIsHevc then hevc else h264).elim s s.renderPictureParams).encHasCodedBuf =
      (s.encHasCodedBuf || (if s.encIsHevc then hevc else h264).any PictureParams.codedBuf)
    cases (if s.encIsHevc then hevc else h264) with
    | none => exact (Bool.or_false _).symm
    | some pic => rfl
  | miscParameter misc =>
    rw [EncodeBuffer.namesCoded, Bool.or_false]
    match misc with
    | some (.rateControl rc) => exact hasCodedBuf_renderRateControl rc
    | some (.frameRate framerate) => exact hasCodedBuf_nvencSetFrameRate _ _
    | some .other | none => rfl
  | other => exact (Bool.or_false _).symm

theorem CodedRender.namesCoded_resolve (w : CodedWorld) (encIsHevc : Bool) (buf : CodedRender) :
    (buf.resolve w).namesCoded encIsHevc = (buf.target w encIsHevc).isSome := by
  cases buf with
  | coded id =>
    by_cases h : (w.buffers id).isSome
    · simp only [resolve, target, if_pos h]
      rfl
    · simp only [resolve, target, if_neg h]
      rfl
  | pictureParameter h264 hevc =>
    unfold resolve target EncodeBuffer.namesCoded
    cases encIsHevc with
    | true => cases hevc <;> rfl
    | false => cases h264 <;> rfl
  | sequenceParameter _ _ | miscParameter _ | other => rfl

namespace CodedContext

variable {g : EncodeSettings} {w : CodedWorld} {ctx : CodedContext}

/-- The coded buffer that the context uses, if it was told one. -/
def uses (ctx : CodedContext) : Option VAGenericID :=
  if ctx.encHasCodedBuf then some ctx.encCodedBufId else none

theorem uses_renderBuffer (buf : CodedRender) :
    (ctx.renderBuffer g w buf).uses = (buf.target w ctx.encIsHevc).or ctx.uses := by
  have hhas : (ctx.renderBuffer g w buf).encHasCodedBuf =
      (ctx.encHasCodedBuf || (buf.target w ctx.encIsHevc).isSome) := by
    rw [← CodedRender.namesCoded_resolve]
    exact EncodeSession.hasCodedBuf_renderBuffer _
  unfold uses
  rw [hhas]
  cases ht : buf.target w ctx.encIsHevc with
  | none => simp [renderBuffer, ht]
  | some id => simp [renderBuffer, ht]

/-- Rendering makes a context use the coded buffer that is named last. -/
theorem uses_nvRenderPicture (buffers : List CodedRender) : (ctx.nvRenderPicture g w buffers).uses =
    (latest (CodedRender.target w ctx.encIsHevc) buffers).or ctx.uses ∧
      (ctx.nvRenderPicture g w buffers).encIsHevc = ctx.encIsHevc := by
  induction buffers using List.reverseRecOn with
  | nil => exact ⟨rfl, rfl⟩
  | append_singleton buffers buf ih =>
    obtain ⟨huses, hcodec⟩ := ih
    have hlast : ctx.nvRenderPicture g w (buffers ++ [buf]) =
        (ctx.nvRenderPicture g w buffers).renderBuffer g w buf := by
      unfold nvRenderPicture
      rw [List.foldl_append]
      rfl
    rw [hlast]
    constructor
    · rw [uses_renderBuffer, hcodec, huses, latest_concat, Option.or_assoc]
    · exact (EncodeSession.renderBuffer_frame _).1.trans hcodec

end CodedContext

/-! ### Runs -/

/-- Each context uses the buffer that it was told to, and each segment shows what was delivered
last. -/
structure Expected (w : CodedWorld) (d : Delivery) : Prop where
  uses : Matches (fun ctx named => ctx.uses = named) w.contexts d.named
  shows : Matches (fun o bytes => ∀ buf ∈ o, buf.Shows bytes) w.buffers d.last

namespace EncodeSession

/-- An `nvEndPicture` does not change which buffer is used. -/
theorem bookkeeping_hasCodedBuf (g : EncodeSettings) (r : NvencReplies) (b : Bool) :
    Bookkeeping g r fun s => s.encHasCodedBuf = b where
  reconfigure s h := by
    unfold nvencReconfigureIfNeeded
    split_ifs <;> exact h
  resize s w h hb := by
    unfold resize
    dsimp only
    split <;> exact hb
  log _ _ _ h := h
  forceIdr _ h := h
  ready _ h := h
  nextFrame _ _ _ h := h

end EncodeSession

variable {g : EncodeSettings} {w w' : CodedWorld} {c : VAGenericID} {ctx : CodedContext}
  {surface : Option EncodeSurface}
  {ioBuffers : Bool} {r : NvencReplies} {bitstream : List UInt8} {vas : Objects.VAStatus}

/-- What an `nvEndPicture` leaves in the coded buffer of its context, if it changes it. -/
def CodedWorld.left (g : EncodeSettings) (w : CodedWorld) (ctx : CodedContext)
    (surface : Option EncodeSurface) (ioBuffers : Bool) (r : NvencReplies)
    (bitstream : List UInt8) : Option (List UInt8) :=
  ctx.toEncodeSession.left g (w.target ctx surface ioBuffers) r bitstream

/-- The buffers after an `nvEndPicture` that leaves something, or nothing, in the one that its
context uses. -/
def CodedWorld.written (w : CodedWorld) (ctx : CodedContext) (left : Option (List UInt8)) :
    VAGenericID → Option (Option CodedBuffer) :=
  left.elim w.buffers fun bytes =>
    Function.update w.buffers ctx.encCodedBufId ((w.codedBuffer ctx.encCodedBufId).map fun b =>
      some (b.write bytes))

/-- What is written is written to a coded buffer that is there, the one that the context uses. -/
theorem CodedWorld.uses_of_left {bytes : List UInt8}
    (h : w.left g ctx surface ioBuffers r bitstream = some bytes) :
    ctx.uses = some ctx.encCodedBufId ∧ ∃ b, w.buffers ctx.encCodedBufId = some (some b) := by
  unfold CodedWorld.left EncodeSession.left at h
  split at h
  · next hc =>
    obtain ⟨⟨-, hhas, hcoded, -⟩, -⟩ := hc
    obtain ⟨b, hb⟩ := Option.isSome_iff_exists.mp hcoded
    refine ⟨if_pos hhas, b, ?_⟩
    obtain ⟨o, ho, rfl⟩ := Option.bind_eq_some_iff.mp hb
    exact ho
  · cases h

/-- An `nvEndPicture` on a context, by what it leaves in the coded buffer. -/
theorem CodedWorld.nvEndPicture_cases (hc : w.contexts c = some ctx)
    (he : w.nvEndPicture g c surface ioBuffers r bitstream = some (vas, w')) :
    (∃ ctx', w'.contexts = Function.update w.contexts c (some ctx') ∧ ctx'.uses = ctx.uses) ∧
      w'.buffers = w.written ctx (w.left g ctx surface ioBuffers r bitstream) ∧
      (vas = .success ↔ (w.left g ctx surface ioBuffers r bitstream).isSome ∧ r.popped) := by
  unfold CodedWorld.nvEndPicture at he
  rw [hc] at he
  obtain ⟨⟨vas', s', buf'⟩, hev, he⟩ := Option.map_eq_some_iff.mp he
  obtain ⟨rfl, rfl⟩ := Prod.mk.inj he
  have hend :
      EncodeSession.Leaves r (w.codedBuffer ctx.encCodedBufId)
        (w.left g ctx surface ioBuffers r bitstream)
      vas' (s', buf') := EncodeSession.nvEndPictureCoded_leaves.eval hev
  obtain ⟨hbuf, hsuccess⟩ := hend
  refine ⟨⟨_, rfl, ?_⟩, ?_, hsuccess⟩
  · have hextends :
        (EncodeSession.nvEndPictureCoded g (w.target ctx surface ioBuffers) r bitstream).Extends
        (EncodeSession.nvEndPicture g (w.target ctx surface ioBuffers) r) :=
          EncodeSession.extends_nvEndPictureCoded
    have hsession := hextends.eval (ctx.toEncodeSession, w.codedBuffer ctx.encCodedBufId)
    rw [hev] at hsession
    have hhas : s'.encHasCodedBuf = ctx.encHasCodedBuf := by
      have hkeeps :=
        EncodeSession.endPicture_keeps
          (EncodeSession.bookkeeping_hasCodedBuf g r ctx.encHasCodedBuf)
        (w.target ctx surface ioBuffers) ctx.toEncodeSession rfl
      have hreturns :
          (EncodeSession.nvEndPicture g (w.target ctx surface ioBuffers) r).Returns
            ctx.toEncodeSession
          fun _ s => s.encHasCodedBuf = ctx.encHasCodedBuf := hkeeps
      exact hreturns.eval hsession.symm
    unfold CodedContext.uses
    rw [hhas]
  · show buf'.elim w.buffers (fun b =>
        Function.update w.buffers ctx.encCodedBufId (some (some b))) = _
    obtain rfl : buf' = _ := hbuf
    unfold CodedWorld.written
    cases hleft : w.left g ctx surface ioBuffers r bitstream with
    | none =>
      -- the coded buffer is put back
      show (w.codedBuffer ctx.encCodedBufId).elim _ _ = w.buffers
      cases hb : w.codedBuffer ctx.encCodedBufId with
      | none => rfl
      | some b =>
        obtain ⟨o, ho, rfl⟩ := Option.bind_eq_some_iff.mp hb
        exact (congrArg (Function.update w.buffers _) ho).symm.trans (Function.update_eq_self _ _)
    | some bytes =>
      obtain ⟨b, hb⟩ := (CodedWorld.uses_of_left hleft).2
      have hcoded : w.codedBuffer ctx.encCodedBufId = some b := by
        unfold CodedWorld.codedBuffer
        rw [hb]
        rfl
      rw [hcoded]
      rfl

theorem Delivery.next_endPicture {d : Delivery} (hc : w.contexts c = some ctx)
    (hu : ctx.uses = d.named c) :
    (Delivery.next g w (.endPicture c surface ioBuffers r bitstream) d) =
      { d with last := (w.left g ctx surface ioBuffers r bitstream).elim d.last fun bytes =>
        Function.update d.last ctx.encCodedBufId bytes } := by
  show ((w.contexts c).bind fun ctx => (d.named c).bind fun b =>
    (w.left g ctx surface ioBuffers r bitstream).map fun bytes =>
      { d with last := Function.update d.last b bytes }).getD d = _
  rw [hc, Option.bind_some, ← hu]
  cases hleft : w.left g ctx surface ioBuffers r bitstream with
  | none => cases ctx.uses <;> rfl
  | some bytes =>
    rw [(CodedWorld.uses_of_left hleft).1]
    rfl

theorem hasCodedBuf_nvCreateContext {a : SessionArgs} {s : EncodeSession}
    (h : EncodeSession.nvCreateContext g a = some s) : s.encHasCodedBuf = false := by
  unfold EncodeSession.nvCreateContext at h
  split at h
  · cases h
  · obtain rfl := Option.some.inj h
    rfl

section Expected

variable {d : Delivery} (h : Expected w d)
include h

theorem Expected.setContext {named : Option VAGenericID} (hn : ctx.uses = named) :
    Expected (w.setContext c ctx) { d with named := Function.update d.named c named } where
  uses := Matches.update h.uses fun _ hctx => Option.some.inj hctx ▸ hn
  shows := h.shows

theorem Expected.createContext (a : SessionArgs) (hc : w.contexts c = none) :
    Expected ((EncodeSession.nvCreateContext g a).elim w fun s => w.setContext c ⟨s, vaInvalidId⟩)
      { d with named := Function.update d.named c none } := by
  cases hcreate : EncodeSession.nvCreateContext g a with
  | none => exact ⟨Matches.note h.uses hc none, h.shows⟩
  | some s => exact h.setContext (if_neg (by simp [hasCodedBuf_nvCreateContext hcreate]))

theorem Expected.createBuffer {b : VAGenericID} (context : Option VAGenericID)
    (size numElements : UInt32) (calloc : Bool) (hb : w.buffers b = none) :
    Expected (w.nvCreateBuffer b context size numElements calloc)
      { d with last := Function.update d.last b [] } := by
  have hnote := Matches.note h.shows hb []
  unfold CodedWorld.nvCreateBuffer
  split
  · exact ⟨h.uses, Matches.update h.shows fun o ho => by simp [← Option.some.inj ho]⟩
  split
  · exact ⟨h.uses, hnote⟩
  split
  · refine ⟨h.uses, Matches.update h.shows fun o ho buf hbuf => ?_⟩
    obtain rfl := Option.some.inj ho
    obtain rfl := Option.some.inj hbuf
    exact CodedBuffer.shows_create _
  · exact ⟨h.uses, hnote⟩

/-- Telling a context to use another buffer, or none. -/
theorem Expected.updateContext {f : CodedContext → CodedContext} {named : Option VAGenericID}
    (hf : ∀ ctx, w.contexts c = some ctx → (f ctx).uses = named) :
    Expected (w.updateContext c f) { d with named := Function.update d.named c named } := by
  unfold CodedWorld.updateContext
  cases hc : w.contexts c with
  | none => exact ⟨Matches.note h.uses hc named, h.shows⟩
  | some ctx => exact h.setContext (hf ctx hc)

theorem Expected.endPicture (hc : w.contexts c = some ctx)
    (he : w.nvEndPicture g c surface ioBuffers r bitstream = some (vas, w')) :
    Expected w' { d with
      last := (w.left g ctx surface ioBuffers r bitstream).elim d.last fun bytes =>
        Function.update d.last ctx.encCodedBufId bytes } := by
  obtain ⟨⟨ctx', hcontexts, huses⟩, hbuffers, -⟩ := CodedWorld.nvEndPicture_cases hc he
  constructor
  · rw [hcontexts]
    exact Matches.set h.uses (huses.trans (h.uses hc))
  · rw [hbuffers]
    cases w.left g ctx surface ioBuffers r bitstream with
    | none => exact h.shows
    | some bytes =>
      refine Matches.update h.shows fun o ho buf hbuf => ?_
      obtain ⟨b, -, rfl⟩ := Option.map_eq_some_iff.mp ho
      obtain rfl := Option.some.inj hbuf
      exact b.shows_write bytes

end Expected

/-- Every call leaves the world as expected. -/
theorem expected_step {d d' : Delivery} {call : CodedCall} (h : Expected w d)
    (hs : (delivery g).step (w, d) call = some (w', d')) : Expected w' d' := by
  obtain ⟨hst, rfl⟩ := Lts.withGhost_step_iff.mp hs
  cases call with
  | createContext c a =>
    obtain ⟨hfree, he⟩ := Option.ite_none_right_eq_some.mp hst
    obtain rfl := Option.some.inj he
    exact h.createContext a (Option.isNone_iff_eq_none.mp hfree)
  | destroyContext c =>
    obtain rfl := Option.some.inj hst
    exact ⟨Matches.erase h.uses, h.shows⟩
  | createBuffer b context size numElements calloc =>
    obtain ⟨hfree, he⟩ := Option.ite_none_right_eq_some.mp hst
    obtain rfl := Option.some.inj he
    exact h.createBuffer context size numElements calloc (Option.isNone_iff_eq_none.mp hfree)
  | destroyBuffer b =>
    obtain rfl := Option.some.inj hst
    exact ⟨h.uses, Matches.erase h.shows⟩
  | beginPicture c surface =>
    obtain rfl := Option.some.inj hst
    exact h.updateContext fun _ _ => rfl
  | renderPicture c buffers =>
    obtain rfl := Option.some.inj hst
    cases hc : w.contexts c with
    | none =>
      unfold CodedWorld.updateContext Delivery.next
      simpa [hc] using h
    | some ctx =>
      have hnext : Delivery.next g w (.renderPicture c buffers) d = { d with
          named :=
            Function.update d.named c
              ((latest (CodedRender.target w ctx.encIsHevc) buffers).or (d.named c)) } := by
        simp [Delivery.next, hc]
      rw [hnext]
      refine h.updateContext fun ctx' hc' => ?_
      obtain rfl : ctx = ctx' := Option.some.inj (hc.symm.trans hc')
      rw [(CodedContext.uses_nvRenderPicture buffers).1, h.uses hc]
  | endPicture c surface ioBuffers r bitstream =>
    obtain ⟨⟨vas, w₁⟩, he, rfl⟩ := Option.map_eq_some_iff.mp hst
    cases hc : w.contexts c with
    | none =>
      unfold CodedWorld.nvEndPicture at he
      rw [hc] at he
      obtain ⟨-, rfl⟩ := Prod.mk.inj (Option.some.inj he)
      simpa [Delivery.next, hc] using h
    | some ctx =>
      rw [Delivery.next_endPicture hc (h.uses hc)]
      exact h.endPicture hc he

/-- In every run, each segment shows the bitstream that was last delivered to its buffer, and each
context uses the buffer that it was told to use last. -/
theorem segment_shows {x : CodedWorld × Delivery} (h : (delivery g).Reach x) :
    Expected x.1 x.2 := by
  refine h.invariant (I := fun x => Expected x.1 x.2) ?_ fun _ _ _ hi hs => expected_step hi hs
  rintro ⟨w, d⟩ ⟨rfl, rfl⟩
  exact ⟨.empty _, .empty _⟩

/-! A context with two coded buffers, of which the second is named last. -/

def codedCalls : List CodedCall :=
  [.createContext 1 plainArgs, .createBuffer 2 (some 1) 100 1 true,
    .createBuffer 3 (some 1) 100 1 true, .beginPicture 1 9, .renderPicture 1 [.coded 2, .coded 3]]

def codedPicture : CodedCall :=
  .endPicture 1 (some (.created 64 64)) true (repliesAt 1000000000 .success) [0, 0, 1]

theorem reach_codedCalls {calls : List CodedCall} {x : CodedWorld × Delivery}
    (hr : (delivery plainSettings).run (.empty, .empty) calls = some x) :
    (delivery plainSettings).Reach x := by
  have hinit : (delivery plainSettings).init (.empty, .empty) := ⟨rfl, rfl⟩
  exact Lts.Reach.run (.init hinit) hr

theorem segment_shows_named : ∃ x buf,
    (delivery plainSettings).run (.empty, .empty) (codedCalls ++ [codedPicture]) = some x ∧
      x.1.buffers 3 = some (some buf) ∧ buf.Shows [0, 0, 1] := by
  have hrun :
      ((delivery plainSettings).run (.empty, .empty) (codedCalls ++ [codedPicture])).any fun x =>
      x.2.last 3 = [0, 0, 1] ∧ (x.1.codedBuffer 3).isSome := by decide
  obtain ⟨x, hr, hx⟩ := (Option.any_eq_true _ _).mp hrun
  obtain ⟨hlast, hcoded⟩ := of_decide_eq_true hx
  obtain ⟨buf, hbuf⟩ := Option.isSome_iff_exists.mp hcoded
  obtain ⟨o, ho, rfl⟩ := Option.bind_eq_some_iff.mp hbuf
  exact ⟨x, buf, hr, ho, hlast ▸ (segment_shows (reach_codedCalls hr)).shows ho buf rfl⟩

/-- After an `nvEndPicture` that succeeds, the buffer that the context was told to use shows the
bitstream of this picture, or nothing if NVENC delays it. One that fails changes no buffer, unless
the CUDA context could not be popped. No other buffer is changed in any case. -/
theorem endPicture_shows {x : CodedWorld × Delivery} (h : (delivery g).Reach x)
    (hc : x.1.contexts c = some ctx)
    (he : x.1.nvEndPicture g c surface ioBuffers r bitstream = some (vas, w')) :
    (vas = .success → ∃ b buf, x.2.named c = some b ∧ w'.buffers b = some (some buf) ∧
      ∃ sf ∈ surface,
      buf.Shows (if ctx.finalReply g sf r = .needMoreInput then [] else bitstream)) ∧
    (vas ≠ .success → r.popped → w'.buffers = x.1.buffers) ∧
    ∀ b, x.2.named c ≠ some b → w'.buffers b = x.1.buffers b := by
  have huses := (segment_shows h).uses hc
  obtain ⟨-, hbuffers, hsuccess⟩ := CodedWorld.nvEndPicture_cases hc he
  cases hleft : x.1.left g ctx surface ioBuffers r bitstream with
  | none =>
    rw [hleft] at hbuffers hsuccess
    refine ⟨fun hs => ?_, fun _ _ => hbuffers, fun b _ => by rw [hbuffers]; rfl⟩
    simpa using (hsuccess.mp hs).1
  | some bytes =>
    obtain ⟨hnamed, b, hb⟩ := CodedWorld.uses_of_left hleft
    rw [huses] at hnamed
    rw [hleft] at hbuffers hsuccess
    have hcoded : x.1.codedBuffer ctx.encCodedBufId = some b := by
      unfold CodedWorld.codedBuffer
      rw [hb]
      rfl
    have hafter :
        w'.buffers = Function.update x.1.buffers ctx.encCodedBufId
          (some (some (b.write bytes))) := by
      rw [hbuffers, CodedWorld.written, hcoded]
      rfl
    refine ⟨fun _ => ?_, fun hf hp => absurd (hsuccess.mpr ⟨rfl, hp⟩) hf, fun b' hb' => ?_⟩
    · obtain ⟨sf, hsf, rfl⟩ := EncodeSession.left_cases hleft
      refine ⟨_, _, hnamed, ?_, sf, hsf, b.shows_write _⟩
      rw [hafter, Function.update_self]
    · have hne : b' ≠ ctx.encCodedBufId := by
        rintro rfl
        exact hb' hnamed
      rw [hafter, Function.update_of_ne hne]

theorem endPicture_shows_named :
    ∃ x w' buf, (delivery plainSettings).run (.empty, .empty) codedCalls = some x ∧
    x.1.nvEndPicture plainSettings 1 (some (.created 64 64)) true
      (repliesAt 1000000000 .success) [0, 0, 1] =
      some (.success, w') ∧ w'.buffers 3 = some (some buf) ∧ buf.Shows [0, 0, 1] := by
  have hrun : ((delivery plainSettings).run (.empty, .empty) codedCalls).any fun x =>
      x.2.named 1 = some 3 ∧
      (x.1.contexts 1).any (fun ctx =>
        ctx.finalReply plainSettings (.created 64 64) (repliesAt 1000000000 .success) =
        .success) ∧
      (x.1.nvEndPicture plainSettings 1 (some (.created 64 64)) true (repliesAt 1000000000 .success)
        [0, 0, 1]).any
        fun y => y.1 = .success := by decide
  obtain ⟨x, hr, hx⟩ := (Option.any_eq_true _ _).mp hrun
  obtain ⟨hnamed, hctx, hend⟩ := of_decide_eq_true hx
  obtain ⟨ctx, hc, hreply⟩ := (Option.any_eq_true _ _).mp hctx
  obtain ⟨⟨vas, w'⟩, he, hv⟩ := (Option.any_eq_true _ _).mp hend
  obtain rfl : vas = .success := of_decide_eq_true hv
  obtain ⟨b, buf, hb, hbuf, sf, hsf, hshows⟩ := (endPicture_shows (reach_codedCalls hr) hc he).1 rfl
  obtain rfl : 3 = b := Option.some.inj (hnamed.symm.trans hb)
  obtain rfl : EncodeSurface.created 64 64 = sf := Option.some.inj hsf
  rw [if_neg (by simp [of_decide_eq_true hreply])] at hshows
  exact ⟨x, w', buf, hr, he, hbuf, hshows⟩

end NvVaapi
