import NvVaapi.Codec.Isolation
import NvVaapi.Lib.Latest

/-!
# The JPEG tables of a context

* `JpegCallback`, `jpegCallbacks`: the callbacks of the JPEG codec that build its context, in any
  order.
* `quantGiven`, `huffmanGiven`, `picGiven`: what a callback gives of the tables and of the frame
  header.
* `TablesKept`: a table is valid when some buffer has loaded it, and it is the latest one. The frame
  header is that of the picture under way.
* `tables_persist`: this holds after any callbacks.
-/

namespace NvVaapi

inductive JpegCallback where
  | beginPicture
  | pictureParameter (mem : Memory) (buffer : NVBuffer)
  | iqMatrix (mem : Memory) (buffer : NVBuffer)
  | huffmanTable (mem : Memory) (buffer : NVBuffer)
  | sliceParameter (mem : Memory) (buffer : NVBuffer)

/-- The callbacks on one JPEG context, for which `calloc` succeeds. -/
def jpegCallbacks : Lts PictureState JpegCallback where
  init st := ∃ width height, st = .init width height
  step st
    | .beginPicture => some (jpegBeginPicture st)
    | .pictureParameter mem buffer => copyJPEGPicParam mem buffer st
    | .iqMatrix mem buffer => copyJPEGIQMatrix mem buffer st
    | .huffmanTable mem buffer => copyJPEGHuffmanTable mem buffer st
    | .sliceParameter mem buffer => copyJPEGSliceParam mem buffer st

/-! ## What the callbacks give -/

namespace JpegCallback

/-- The quantiser table `t` that a callback loads. -/
def quantGiven (t : Fin 4) : JpegCallback → Option (Vector UInt8 64)
  | iqMatrix mem buffer =>
    let buf := (mem buffer.ptr).iqJPEG
    if buf.loadQuantiserTable t != 0 then some (buf.quantiserTable t) else none
  | _ => none

/-- The Huffman table `t` that a callback loads. -/
def huffmanGiven (t : Fin 2) : JpegCallback → Option JPEGHuffmanTable
  | huffmanTable mem buffer =>
    let buf := (mem buffer.ptr).huffmanJPEG
    if buf.loadHuffmanTable t != 0 then some (buf.huffmanTable t) else none
  | _ => none

def picGiven : JpegCallback → Option VAPictureParameterBufferJPEGBaseline
  | pictureParameter mem buffer => some (mem buffer.ptr).picJPEG
  | _ => none

def isBegin : JpegCallback → Bool
  | beginPicture => true
  | _ => false

end JpegCallback

open JpegCallback

/-- Bit `t` of the mask says whether there is a latest table, which is `table` then. -/
structure ValidTable {α : Type} (mask : BitVec 8) (t : Nat) (table : α)
    (given : Option α) : Prop where
  bit : mask.getLsbD t = given.isSome
  content : ∀ q ∈ given, table = q

/-- A frame header that `reconstructJPEG` can be given. -/
def VAPictureParameterBufferJPEGBaseline.Usable
    (pic : VAPictureParameterBufferJPEGBaseline) : Prop :=
  pic.pictureWidth ≠ 0 ∧ pic.pictureHeight ≠ 0 ∧ 1 ≤ pic.numComponents ∧ pic.numComponents ≤ 4

def QuantKept (calls : List JpegCallback) (ctx : JPEGContext) : Prop :=
  ∀ t : Fin 4, ValidTable ctx.validQuantTablesMask t (ctx.iqMatrix.quantiserTable t)
    (latest (quantGiven t) calls)

def HuffmanKept (calls : List JpegCallback) (ctx : JPEGContext) : Prop :=
  ∀ t : Fin 2,
    ValidTable ctx.validHuffmanDcMask t (ctx.huffmanTable.huffmanTable t)
      (latest (huffmanGiven t) calls) ∧
      ValidTable ctx.validHuffmanAcMask t (ctx.huffmanTable.huffmanTable t)
        (latest (huffmanGiven t) calls)

/-- The header was given since the latest `beginPicture`, and it is the last one that was. -/
def HeaderKept (calls : List JpegCallback) (ctx : JPEGContext) : Prop :=
  ctx.hasPicParams → latest picGiven (since isBegin calls) = some ctx.picParams ∧
    ctx.picParams.Usable

structure TablesKept (calls : List JpegCallback) (ctx : JPEGContext) : Prop where
  quant : QuantKept calls ctx
  huffman : HuffmanKept calls ctx
  header : HeaderKept calls ctx

/-! ## One buffer -/

theorem getLsbD_loadedMask {n : Nat} (hn : n ≤ 8) (load : Fin n → UInt8) (t : Fin n) :
    (loadedMask load).getLsbD t = (load t != 0) := by
  have hmask :
      loadedMask load = maskOf (((List.finRange n).filter fun t => load t != 0).map Fin.val) := by
    rw [loadedMask, maskOf, List.foldl_map, List.foldl_filter]
  rw [hmask, Bool.eq_iff_iff, getLsbD_maskOf _ (by omega)]
  simp [Fin.val_inj]

/-- A table after a buffer that may load it. -/
theorem ValidTable.load {α : Type} {n : Nat} {mask : BitVec 8} {table new : α} {given : Option α}
    (hn : n ≤ 8) {load : Fin n → UInt8} {t : Fin n} (h : ValidTable mask t table given) :
    ValidTable (mask ||| loadedMask load) t (if load t != 0 then new else table)
      ((if load t != 0 then some new else none).or given) := by
  constructor
  · rw [BitVec.getLsbD_or, h.bit, getLsbD_loadedMask hn]
    cases load t != 0 <;> simp
  · intro q hq
    cases hl : load t != 0 with
    | false =>
      rw [hl] at hq
      exact h.content q (by simpa using hq)
    | true =>
      rw [hl] at hq
      simpa using hq

/-! ## The callbacks -/

section Callbacks

variable {calls : List JpegCallback} {ctx ctx' : JPEGContext} {c : JpegCallback}

theorem tablesKept_zero : TablesKept [] .zero where
  quant _ := ⟨by simp [JPEGContext.zero], nofun⟩
  huffman _ := ⟨⟨by simp [JPEGContext.zero], nofun⟩, ⟨by simp [JPEGContext.zero], nofun⟩⟩
  header := nofun

/-- A callback that gives no quantiser table, and leaves those of the context. -/
theorem QuantKept.keep (h : QuantKept calls ctx) (hc : ∀ t, quantGiven t c = none)
    (hmask : ctx'.validQuantTablesMask = ctx.validQuantTablesMask)
    (htables : ctx'.iqMatrix = ctx.iqMatrix) : QuantKept (calls ++ [c]) ctx' := by
  intro t
  rw [hmask, htables, latest_concat_of_none (hc t)]
  exact h t

theorem HuffmanKept.keep (h : HuffmanKept calls ctx) (hc : ∀ t, huffmanGiven t c = none)
    (hdc : ctx'.validHuffmanDcMask = ctx.validHuffmanDcMask)
    (hac : ctx'.validHuffmanAcMask = ctx.validHuffmanAcMask)
    (htables : ctx'.huffmanTable = ctx.huffmanTable) : HuffmanKept (calls ++ [c]) ctx' := by
  intro t
  rw [hdc, hac, htables, latest_concat_of_none (hc t)]
  exact h t

theorem HeaderKept.keep (h : HeaderKept calls ctx) (hb : isBegin c = false) (hc : picGiven c = none)
    (hhas : ctx'.hasPicParams = ctx.hasPicParams) (hpic : ctx'.picParams = ctx.picParams) :
    HeaderKept (calls ++ [c]) ctx' := by
  intro hv
  rw [since_concat, hb, if_neg Bool.false_ne_true, latest_concat_of_none hc, hpic]
  exact h (hhas ▸ hv)

/-- Each callback keeps what holds of the tables and of the header. -/
theorem TablesKept.step {st st' : PictureState} (h : TablesKept calls (getJPEGContext st))
    (hst : jpegCallbacks.step st c = some st') :
    TablesKept (calls ++ [c]) (getJPEGContext st') := by
  obtain ⟨hquant, hhuffman, hheader⟩ := h
  cases c with
  | beginPicture =>
    obtain rfl := Option.some_inj.mp hst
    rw [jpegBeginPicture, getJPEGContext_reset]
    -- there is no header any more
    exact ⟨hquant.keep (fun _ => rfl) rfl rfl, hhuffman.keep (fun _ => rfl) rfl rfl rfl, nofun⟩
  | pictureParameter mem buffer =>
    obtain rfl := Option.some_inj.mp hst
    refine ⟨hquant.keep (fun _ => rfl) rfl rfl, hhuffman.keep (fun _ => rfl) rfl rfl rfl,
      fun hv => ⟨?_, ?_⟩⟩
    · have hb : isBegin (.pictureParameter mem buffer) = false := rfl
      rw [since_concat, hb, if_neg Bool.false_ne_true, latest_concat]
      rfl
    · simp only [getJPEGContext, Option.getD_some, Bool.and_eq_true, bne_iff_ne,
        decide_eq_true_eq] at hv
      obtain ⟨⟨⟨hw, hh⟩, hpos⟩, hle⟩ := hv
      exact ⟨hw, hh, UInt8.le_iff_toNat_le.mpr (UInt8.lt_iff_toNat_lt.mp hpos), hle⟩
  | iqMatrix mem buffer =>
    obtain rfl := Option.some_inj.mp hst
    refine ⟨fun t => ?_, hhuffman.keep (fun _ => rfl) rfl rfl rfl, hheader.keep rfl rfl rfl rfl⟩
    rw [latest_concat]
    exact (hquant t).load (by omega)
  | huffmanTable mem buffer =>
    obtain rfl := Option.some_inj.mp hst
    refine ⟨hquant.keep (fun _ => rfl) rfl rfl, fun t => ?_, hheader.keep rfl rfl rfl rfl⟩
    rw [latest_concat]
    obtain ⟨hdc, hac⟩ := hhuffman t
    exact ⟨hdc.load (by omega), hac.load (by omega)⟩
  | sliceParameter mem buffer =>
    obtain rfl := Option.some_inj.mp hst
    exact ⟨hquant.keep (fun _ => rfl) rfl rfl, hhuffman.keep (fun _ => rfl) rfl rfl rfl,
      hheader.keep rfl rfl rfl rfl⟩

theorem TablesKept.run {st st' : PictureState} {more : List JpegCallback}
    (h : TablesKept calls (getJPEGContext st)) (hr : jpegCallbacks.run st more = some st') :
    TablesKept (calls ++ more) (getJPEGContext st') := by
  induction more generalizing calls st with
  | nil =>
    obtain rfl : st = st' := by simpa using hr
    rwa [List.append_nil]
  | cons c more ih =>
    obtain ⟨st₁, hst, hr⟩ := Option.bind_eq_some_iff.mp hr
    rw [← List.singleton_append, ← List.append_assoc]
    exact ih (h.step hst) hr

end Callbacks

/-- The callbacks always return. -/
theorem jpegCallbacks_returns (calls : List JpegCallback) (st : PictureState) :
    ∃ st', jpegCallbacks.run st calls = some st' := by
  induction calls generalizing st with
  | nil => exact ⟨st, rfl⟩
  | cons c calls ih =>
    obtain ⟨st₁, hst⟩ : ∃ st₁, jpegCallbacks.step st c = some st₁ := by cases c <;> exact ⟨_, rfl⟩
    obtain ⟨st', hr⟩ := ih st₁
    exact ⟨st', by rw [Lts.run_cons, hst]; exact hr⟩

/-- After any callbacks on one context: a table is valid exactly when a buffer has loaded it, and is
the latest one that was loaded. There is a frame header only if one was given for the picture under
way. -/
theorem tables_persist (width height : UInt32) (calls : List JpegCallback) :
    ∃ st, jpegCallbacks.run (.init width height) calls = some st ∧
      TablesKept calls (getJPEGContext st) := by
  obtain ⟨st, hr⟩ := jpegCallbacks_returns calls (.init width height)
  have h0 : TablesKept [] (getJPEGContext (.init width height)) := tablesKept_zero
  exact ⟨st, hr, h0.run hr⟩

end NvVaapi
