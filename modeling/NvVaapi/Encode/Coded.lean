import NvVaapi.Encode.Ending
import NvVaapi.Lib.Extend
import NvVaapi.Objects.Create

/-!
# Coded buffers

* `CodedBuffer`: a segment that the client reads, of no more bytes than the capacity.
* `nvEndPictureCoded`: `nvEndPicture` with the coded buffer that it fills.
  `extends_nvEndPictureCoded`: otherwise it is the `nvEndPicture` of the session.
* `nvEndPictureCoded_leaves`: what it leaves in the coded buffer, and when it succeeds.
-/

namespace NvVaapi

open Objects (NvencStatus nvencCodedBufSize)

/-! ## Segments -/

inductive CodedStatus where
  | none
  /-- `VA_CODED_BUF_STATUS_SLICE_OVERFLOW_MASK` -/
  | sliceOverflow
  deriving DecidableEq

/-- The coded data of a buffer: `codedCapacity`, and the `VACodedBufferSegment` with the bytes at
its `buf`. Its `next` is always NULL. -/
structure CodedBuffer where
  codedCapacity : Nat
  size : Nat
  status : CodedStatus
  buf : Nat → UInt8
  capacity_ne : codedCapacity ≠ 0
  size_le : size ≤ codedCapacity

namespace CodedBuffer

/-- The coded data that `nvCreateBuffer` makes, filled with zeros. -/
def create (bufSize : Nat) : CodedBuffer where
  codedCapacity := if bufSize > nvencCodedBufSize then bufSize else nvencCodedBufSize
  size := 0
  status := .none
  buf := fun _ => 0
  capacity_ne := by
    unfold nvencCodedBufSize
    split <;> omega
  size_le := Nat.zero_le _

variable (b : CodedBuffer)

/-- What a delayed picture does to the segment. -/
def clear : CodedBuffer :=
  { b with
    size := 0
    status := .none
    size_le := Nat.zero_le _ }

/-- The number of bytes that are copied of a bitstream. -/
def copySize (bitstream : List UInt8) : Nat :=
  if bitstream.length > b.codedCapacity then b.codedCapacity else bitstream.length

def write (bitstream : List UInt8) : CodedBuffer :=
  { b with
    size := b.copySize bitstream
    status := if bitstream.length > b.codedCapacity then .sliceOverflow else .none
    buf := fun i => if i < b.copySize bitstream then bitstream.getD i 0 else b.buf i
    size_le := by
      unfold copySize
      split <;> omega }

/-- The bytes that the client finds in the segment. -/
def bytes : List UInt8 := (List.range b.size).map b.buf

/-- The segment has the bitstream, cut off at the capacity, and tells whether it was. -/
def Shows (bitstream : List UInt8) : Prop :=
  b.bytes = bitstream.take b.codedCapacity ∧
    (b.status = .sliceOverflow ↔ b.codedCapacity < bitstream.length)

theorem shows_nil {b : CodedBuffer} (hsize : b.size = 0) (hstatus : b.status = .none) :
    b.Shows [] := by
  constructor
  · simp [bytes, hsize]
  · simp [hstatus]

theorem shows_create (bufSize : Nat) : (create bufSize).Shows [] := shows_nil rfl rfl

theorem copySize_eq (bitstream : List UInt8) :
    b.copySize bitstream = min b.codedCapacity bitstream.length := by
  unfold copySize
  split <;> omega

theorem shows_write (bitstream : List UInt8) : (b.write bitstream).Shows bitstream := by
  constructor
  · show (b.write bitstream).bytes = bitstream.take b.codedCapacity
    refine List.ext_getElem (by simp [bytes, write, copySize_eq]) fun i _ hi => ?_
    rw [List.length_take] at hi
    have hcopy : i < b.copySize bitstream := by rwa [copySize_eq]
    have hlt : i < bitstream.length := by omega
    simp [bytes, write, hcopy, hlt]
  · show (if bitstream.length > b.codedCapacity then CodedStatus.sliceOverflow else .none) = _ ↔ _
    split
    · next h => exact iff_of_true rfl h
    · next h => exact iff_of_false (by simp) h

/-- A delayed picture leaves what an empty bitstream would. -/
theorem clear_eq_write : b.clear = b.write [] := by
  simp [clear, write, copySize]

end CodedBuffer

/-! ## Pictures -/

namespace EncodeSession

/-- A piece of an entrypoint on an encode context and a coded buffer. -/
abbrev CodedStep (α : Type) := Prog (EncodeSession × Option CodedBuffer) Objects.VAStatus α

/-- Change the coded buffer. -/
def onCodedBuf (f : CodedBuffer → CodedBuffer) (x : EncodeSession × Option CodedBuffer) :
    EncodeSession × Option CodedBuffer :=
  (x.1, x.2.map f)

variable (g : EncodeSettings)

/-- After `nvencReconfigureIfNeeded`. `bitstream` is what is there once it is locked. -/
def encodePictureCoded (sf : EncodeSurface) (ioSlot : Nat) (r : NvencReplies)
    (bitstream : List UInt8) :
    CodedStep Objects.VAStatus := do
  if !r.pushed then
    Prog.leave .errorOperationFailed
  let nvs ← (nvenc (.lockInputBuffer ioSlot) r.lockInputBuffer).onFst
  if nvs ≠ .success then
    (failPicture nvs).onFst
  let s ← Prog.read.onFst
  let region := selectRegion s.toEncodeContext sf
  let nvs ← (nvenc (.unlockInputBuffer ioSlot) r.unlockInputBuffer).onFst
  if nvs ≠ .success then
    (failPicture nvs).onFst
  (Prog.update fun s => s.forceIdr g).onFst
  let s ← Prog.read.onFst
  let nvs ← (submitPicture g
      (s.picParams ioSlot r.pitch region.copyWidth region.copyHeight) r).onFst
  if nvs ≠ .success ∧ nvs ≠ .needMoreInput then
    (failPicture nvs).onFst
  if nvs = .needMoreInput then
    Prog.update (onCodedBuf CodedBuffer.clear)
    if !r.popped then
      Prog.leave .errorOperationFailed
    (Prog.update fun s => s.nextFrame ioSlot).onFst
    return .success
  else
    let nvs ← (nvenc (.lockBitstream ioSlot) r.lockBitstream).onFst
    if nvs ≠ .success then
      (failPicture nvs).onFst
    Prog.update (onCodedBuf fun b => b.write bitstream)
    let _ ← (nvenc (.unlockBitstream ioSlot) r.unlockBitstream).onFst
    if !r.popped then
      Prog.leave .errorOperationFailed
    (Prog.update fun s => { s.nextFrame ioSlot with
      encStartupIdrLeft :=
        if s.encStartupIdrLeft > 0 then s.encStartupIdrLeft - 1 else s.encStartupIdrLeft }).onFst
    return .success

/-- `nvEndPicture`. The coded buffer is there when `t` says so. -/
def nvEndPictureCoded (t : EncodeTarget) (r : NvencReplies) (bitstream : List UInt8) :
    CodedStep Objects.VAStatus := do
  let s ← Prog.read.onFst
  if s.encCurrentSurface = none then
    Prog.leave .errorInvalidSurface
  if !s.encHasCodedBuf then
    Prog.leave .errorInvalidBuffer
  match t.surface with
  | none => Prog.leave .errorInvalidSurface
  | some sf =>
    if !t.codedBuf then
      Prog.leave .errorInvalidBuffer
    if s.nvencIoBufferCount = 0 then
      Prog.leave .errorOperationFailed
    if !t.ioBuffers then
      Prog.leave .errorOperationFailed
    (Prog.update fun s => s.nvencReconfigureIfNeeded g r.now r.reconfigure).onFst
    encodePictureCoded g sf (s.nvencIoBufferIndex % s.nvencIoBufferCount) r bitstream

variable {g : EncodeSettings} {s s' : EncodeSession} {t : EncodeTarget} {r : NvencReplies}
  {bitstream : List UInt8}

theorem extends_encodePictureCoded (sf : EncodeSurface) (ioSlot : Nat) :
    (encodePictureCoded g sf ioSlot r bitstream).Extends (encodePicture g sf ioSlot r) := by
  unfold encodePictureCoded encodePicture
  refine .exit (.leave _) (.bind (.onFst _) fun nvs =>
    .exit (.onFst _) (.bind (.onFst _) fun s => .bind (.onFst _)
    fun nvs => .exit (.onFst _) (.bind (.onFst _) fun _ => .bind (.onFst _) fun s =>
      .bind (.onFst _) fun nvs =>
      .exit (.onFst _) (.ite ?_ ?_))))
  · exact .after (fun _ => rfl) (.exit (.leave _) (.bind (.onFst _) fun _ => .pure _))
  · refine .bind (.onFst _) fun nvs =>
      .exit (.onFst _) (.after (fun _ => rfl) (.bind (.onFst _) fun _ => ?_))
    exact .exit (.leave _) (.bind (.onFst _) fun _ => .pure _)

/-- Without the coded buffer it is the `nvEndPicture` of the session. -/
theorem extends_nvEndPictureCoded :
    (nvEndPictureCoded g t r bitstream).Extends (nvEndPicture g t r) := by
  unfold nvEndPictureCoded nvEndPicture
  refine .bind (.onFst _) fun s => .exit (.leave _) (.exit (.leave _) ?_)
  cases t.surface with
  | none => exact .leave _
  | some sf =>
    exact .exit (.leave _) (.exit (.leave _) (.exit (.leave _) (.bind (.onFst _) fun _ =>
      extends_encodePictureCoded sf _)))

/-- What the encoder's reply to a picture leaves in the coded buffer, if it changes it. -/
def leftBy (reply lockBitstream : NvencStatus) (bitstream : List UInt8) : Option (List UInt8) :=
  match reply with
  | .needMoreInput => some []
  | .success => if lockBitstream = .success then some bitstream else none
  | _ => none

/-- What an `nvEndPicture` leaves in the coded buffer, if it changes it. -/
def left (g : EncodeSettings) (s : EncodeSession) (t : EncodeTarget) (r : NvencReplies)
    (bitstream : List UInt8) : Option (List UInt8) :=
  if s.Checked t ∧ Fills r then
    t.surface.bind fun sf => leftBy (s.finalReply g sf r) r.lockBitstream bitstream
  else none

theorem leftBy_of_not_taken {nvs lockBitstream : NvencStatus} (h : ¬Taken nvs) :
    leftBy nvs lockBitstream bitstream = none := by
  unfold leftBy
  split
  · exact absurd (.inr rfl) h
  · exact absurd (.inl rfl) h
  · rfl

theorem left_of_fills {sf : EncodeSurface} (h : s.Finds t sf) (hf : Fills r) :
    s.left g t r bitstream = leftBy (s.finalReply g sf r) r.lockBitstream bitstream := by
  unfold left
  rw [if_pos ⟨h.1, hf⟩, h.2, Option.bind_some]

theorem left_of_not_fills (h : ¬Fills r) : s.left g t r bitstream = none :=
  if_neg fun hc => h hc.2

theorem left_of_not_finds (h : ∀ sf, ¬s.Finds t sf) : s.left g t r bitstream = none := by
  unfold left
  split
  · next hc =>
    cases ht : t.surface with
    | none => rfl
    | some sf => exact absurd ⟨hc.1, ht⟩ (h sf)
  · rfl

/-- What is left is the bitstream, or nothing of a delayed picture. -/
theorem left_cases {bytes : List UInt8} (h : s.left g t r bitstream = some bytes) :
    ∃ sf ∈ t.surface, bytes = if s.finalReply g sf r = .needMoreInput then [] else bitstream := by
  unfold left at h
  split at h
  · obtain ⟨sf, hsf, hleft⟩ := Option.bind_eq_some_iff.mp h
    refine ⟨sf, hsf, ?_⟩
    unfold leftBy at hleft
    split at hleft
    · next hreply =>
      rw [if_pos hreply]
      exact (Option.some.inj hleft).symm
    · next hreply =>
      rw [if_neg (by simp [hreply])]
      split at hleft
      · exact (Option.some.inj hleft).symm
      · cases hleft
    · cases hleft
  · cases h

/-- What is to be shown of an `nvEndPicture`: it leaves `left` in the coded buffer, and succeeds
when that is something and the CUDA context can be popped. -/
def Leaves (r : NvencReplies) (buf : Option CodedBuffer) (left : Option (List UInt8))
    (vas : Objects.VAStatus) (x : EncodeSession × Option CodedBuffer) : Prop :=
  x.2 = left.elim buf (fun bytes => buf.map fun b => b.write bytes) ∧
    (vas = .success ↔ left.isSome ∧ r.popped)

variable {buf : Option CodedBuffer}

theorem leaves_none {left : Option (List UInt8)} {vas : Objects.VAStatus} (hl : left = none)
    (hv : vas ≠ .success) : Leaves r buf left vas (s, buf) := by
  subst hl
  exact ⟨rfl, iff_of_false hv (by simp)⟩

theorem leaves_some {left : Option (List UInt8)} {bytes : List UInt8} (hl : left = some bytes) :
    (r.popped = false →
      Leaves r buf left .errorOperationFailed (s, buf.map fun b => b.write bytes)) ∧
      (r.popped → Leaves r buf left .success (s, buf.map fun b => b.write bytes)) := by
  subst hl
  exact ⟨fun hp => ⟨rfl, by simp [hp]⟩, fun hp => ⟨rfl, by simp [hp]⟩⟩

theorem encodePictureCoded_leaves {sf : EncodeSurface} (h : s.Finds t sf) :
    (encodePictureCoded g sf s.ioSlot r bitstream).Returns (s.reconfiguredFor g r, buf)
      (Leaves r buf (s.left g t r bitstream)) := by
  unfold encodePictureCoded Prog.Returns failPicture
  simp only [Prog.ensures_bind, Prog.ensures_ite, Prog.ensures_onFst, ensures_nvenc,
    Prog.ensures_leave,
    Prog.ensures_read, Prog.ensures_update, Prog.ensures_pure, Bool.not_eq_true', Bool.not_eq_false,
      ne_eq, not_not]
  refine ⟨fun hp => ?_, fun hp => ⟨fun hl => ?_, fun hl => ⟨fun hu => ?_, fun hu => ?_⟩⟩⟩
  · exact leaves_none (left_of_not_fills fun hf => by simp [hf.pushed] at hp) (by decide)
  · exact leaves_none (left_of_not_fills fun hf =>
      hl hf.lockInputBuffer) (Objects.nvencToVaStatus_ne_success hl)
  · exact leaves_none (left_of_not_fills fun hf =>
      hu hf.unlockInputBuffer) (Objects.nvencToVaStatus_ne_success hu)
  rw [left_of_fills h ⟨hp, hl, hu⟩]
  refine (submitPicture_submits _).mono (fun nvs s' hs => ?_) fun _ _ h => h.elim
  have hreply : nvs = s.finalReply g sf r := hs.reply
  rw [← hreply]
  refine ⟨fun hn => ?_, fun hn => ⟨fun hmore => ?_, fun hmore => ?_⟩⟩
  · exact leaves_none (leftBy_of_not_taken (not_or.mpr hn))
      (Objects.nvencToVaStatus_ne_success hn.1)
  · subst hmore
    have hclear : CodedBuffer.clear = fun b => b.write [] := funext CodedBuffer.clear_eq_write
    rw [hclear]
    exact ⟨(leaves_some rfl).1, fun hp => (leaves_some rfl).2 hp⟩
  · obtain rfl : nvs = .success := by
      by_contra hc
      exact hn ⟨hc, hmore⟩
    refine ⟨fun hb => leaves_none (if_neg hb) (Objects.nvencToVaStatus_ne_success hb), fun hb => ?_⟩
    exact ⟨(leaves_some (if_pos hb)).1, fun hp => (leaves_some (if_pos hb)).2 hp⟩

/-- What an `nvEndPicture` leaves in the coded buffer, and when it succeeds. -/
theorem nvEndPictureCoded_leaves : (nvEndPictureCoded g t r bitstream).Returns (s, buf)
    (Leaves r buf (s.left g t r bitstream)) := by
  have hexit {vas : Objects.VAStatus} (hn : ¬s.Checked t) (hv : vas ≠ .success) :
      Leaves r buf (s.left g t r bitstream) vas (s, buf) :=
    leaves_none (left_of_not_finds fun _ h => hn h.1) hv
  unfold nvEndPictureCoded Prog.Returns
  simp only [Prog.ensures_bind, Prog.ensures_onFst, Prog.ensures_read, Prog.ensures_ite,
    Prog.ensures_leave, Bool.not_eq_true', Bool.not_eq_false]
  refine ⟨fun hs => hexit (fun hk => hk.1 hs) (by decide),
    fun hs => ⟨fun hb => hexit (fun hk => ?_) (by decide), fun hb => ?_⟩⟩
  · simp [hk.2.1] at hb
  cases ht : t.surface with
  | none => exact leaves_none (left_of_not_finds fun _ h => by rw [h.2] at ht; cases ht) (by decide)
  | some sf =>
    simp only [Prog.ensures_bind, Prog.ensures_onFst, Prog.ensures_ite, Prog.ensures_leave,
      Prog.ensures_update, Bool.not_eq_false]
    refine ⟨fun hd => hexit (fun hk => ?_) (by decide),
      fun hd => ⟨fun hn => hexit (fun hk => hk.2.2.2.1 hn)
      (by decide), fun hn => ⟨fun hi => hexit (fun hk => ?_) (by decide), fun hi => ?_⟩⟩⟩
    · simp [hk.2.2.1] at hd
    · simp [hk.2.2.2.2] at hi
    · exact encodePictureCoded_leaves ⟨⟨hs, hb, hd, hn, hi⟩, ht⟩

end EncodeSession

end NvVaapi
