import Mathlib.Data.List.Basic
import Mathlib.Data.List.Forall2
import Mathlib.Data.UInt

/-!
# Reading a JPEG interchange stream

A reader of the interchange format, from the marker segments up. It is independent of how a stream
was made.

* `Segment`: a marker with its payload; `readSegment` takes one off the front of a stream and
  `readUntilScan` all segments up to the next start of scan.
* `Header`: what the segments read so far define: frame headers, quantiser tables, Huffman tables,
  and the restart interval in effect. A DRI segment sets the interval until the next one.
* `readScans lens`: the scans of a stream whose entropy-coded parts have the lengths `lens`.
* `readUntilScan_encode` and `readScans_cons`: reading inverts encoding.
-/

namespace Jfif

/-! ## Markers and segments -/

def SOI : UInt8 := 0xD8
def EOI : UInt8 := 0xD9
def APP0 : UInt8 := 0xE0
def DQT : UInt8 := 0xDB
def SOF0 : UInt8 := 0xC0
def DHT : UInt8 := 0xC4
def DRI : UInt8 := 0xDD
def SOS : UInt8 := 0xDA

/-- A marker segment, without its marker and its length field. -/
structure Segment where
  marker : UInt8
  payload : List UInt8
  deriving DecidableEq, Repr

/-- A 16-bit value, most significant byte first. -/
def be16 (v : UInt16) : List UInt8 := [(v >>> 8).toUInt8, v.toUInt8]

def ofBe16 (hi lo : UInt8) : UInt16 := hi.toUInt16 <<< 8 ||| lo.toUInt16

@[simp] theorem length_be16 (v : UInt16) : (be16 v).length = 2 := rfl

theorem ofBe16_be16 (v : UInt16) : ofBe16 (v >>> 8).toUInt8 v.toUInt8 = v := by
  apply UInt16.toBitVec_inj.mp
  refine BitVec.eq_of_getLsbD_eq fun i hi => ?_
  simp only [ofBe16, UInt16.toBitVec_or, UInt16.toBitVec_shiftLeft, UInt8.toBitVec_toUInt16,
    UInt16.toBitVec_toUInt8, UInt16.toBitVec_shiftRight]
  simp
  grind

/-- The bytes of a segment. -/
def Segment.encode (s : Segment) : List UInt8 :=
  0xFF :: s.marker :: (be16 (UInt16.ofNat (s.payload.length + 2)) ++ s.payload)

/-- The segment fits its length field. -/
def Segment.Fits (s : Segment) : Prop := s.payload.length + 2 < 65536

/-- The segment at the front of a stream, and what follows it. -/
def readSegment : List UInt8 → Option (Segment × List UInt8)
  | 0xFF :: m :: hi :: lo :: rest =>
    let n := (ofBe16 hi lo).toNat
    if 2 ≤ n ∧ n - 2 ≤ rest.length then some (⟨m, rest.take (n - 2)⟩, rest.drop (n - 2)) else none
  | _ => none

theorem readSegment_encode {s : Segment} (h : s.Fits) (rest : List UInt8) :
    readSegment (s.encode ++ rest) = some (s, rest) := by
  have hn : (UInt16.ofNat (s.payload.length + 2)).toNat = s.payload.length + 2 := by
    rw [UInt16.toNat_ofNat', Nat.mod_eq_of_lt h]
  have hl : (s.payload ++ rest).length = s.payload.length + rest.length := List.length_append
  simp only [Segment.encode, readSegment, be16, List.cons_append, List.nil_append, ofBe16_be16, hn,
    hl, Nat.add_sub_cancel, List.take_left, List.drop_left]
  rw [if_pos ⟨Nat.le_add_left _ _, Nat.le_add_right _ _⟩]

/-- The segments up to the next start of scan, that segment, and what follows it. -/
def readUntilScan : Nat → List UInt8 → Option (List Segment × Segment × List UInt8)
  | 0, _ => none
  | fuel + 1, bs => do
    let (s, rest) ← readSegment bs
    if s.marker = SOS then return ([], s, rest)
    let (ss, sos, rest) ← readUntilScan fuel rest
    return (s :: ss, sos, rest)

/-- Reading the encoded segments gives them back, with as much fuel as there are bytes. -/
theorem readUntilScan_encode {ss : List Segment} {sos : Segment} (hs : ∀ s ∈ ss, s.Fits)
    (hm : ∀ s ∈ ss, s.marker ≠ SOS) (hsos : sos.Fits) (hmark : sos.marker = SOS)
    (rest : List UInt8) {fuel : Nat} (hf : ss.length < fuel) :
    readUntilScan fuel (ss.flatMap Segment.encode ++ (sos.encode ++ rest)) =
      some (ss, sos, rest) := by
  induction ss generalizing fuel with
  | nil =>
    obtain ⟨fuel, rfl⟩ := Nat.exists_eq_add_of_lt hf
    simp [readUntilScan, readSegment_encode hsos, hmark]
  | cons s ss ih =>
    obtain ⟨fuel, rfl⟩ := Nat.exists_eq_add_of_lt hf
    have hf' : ss.length < ss.length + 1 + fuel := by omega
    have ih := ih (fun t ht => hs t (List.mem_cons_of_mem _ ht))
      (fun t ht => hm t (List.mem_cons_of_mem _ ht)) hf'
    have hms := hm s (List.mem_cons_self ..)
    rw [List.length_cons, readUntilScan, List.flatMap_cons, List.append_assoc,
      readSegment_encode (hs s (List.mem_cons_self ..))]
    simp [hms, ih]

theorem length_le_encode (ss : List Segment) :
    ss.length ≤ (ss.flatMap Segment.encode).length := by
  induction ss with
  | nil => simp
  | cons s ss ih =>
    simp only [List.flatMap_cons, List.length_append, List.length_cons, Segment.encode]
    omega

/-! ## What the segments define -/

structure FrameComponent where
  id : UInt8
  h : Nat
  v : Nat
  tq : UInt8
  deriving DecidableEq, Repr

structure FrameHeader where
  precision : UInt8
  height : UInt16
  width : UInt16
  components : List FrameComponent
  deriving DecidableEq, Repr

structure QuantTable where
  id : Nat
  values : List UInt8
  deriving DecidableEq, Repr

/-- `cls` is 0 for a DC table and 1 for an AC table. -/
structure HuffmanTable where
  cls : Nat
  id : Nat
  counts : List UInt8
  values : List UInt8
  deriving DecidableEq, Repr

structure ScanComponent where
  selector : UInt8
  dc : Nat
  ac : Nat
  deriving DecidableEq, Repr

structure ScanHeader where
  components : List ScanComponent
  ss : UInt8
  se : UInt8
  ahAl : UInt8
  deriving DecidableEq, Repr

/-- The number of codes of a Huffman table. -/
def codeCount (counts : List UInt8) : Nat := (counts.map UInt8.toNat).sum

/-- The payload of a DQT segment: 8-bit tables, one after the other. -/
def parseDQT : Nat → List UInt8 → Option (List QuantTable)
  | _, [] => some []
  | 0, _ => none
  | fuel + 1, pt :: rest =>
    if pt.toNat / 16 = 0 ∧ 64 ≤ rest.length then
      (parseDQT fuel (rest.drop 64)).map (⟨pt.toNat % 16, rest.take 64⟩ :: ·)
    else none

/-- The payload of a DHT segment: tables of 16 counts and as many values as they add up to. -/
def parseDHT : Nat → List UInt8 → Option (List HuffmanTable)
  | _, [] => some []
  | 0, _ => none
  | fuel + 1, tc :: rest =>
    let counts := rest.take 16
    let n := codeCount counts
    if 16 + n ≤ rest.length then
      (parseDHT fuel (rest.drop (16 + n))).map
        (⟨tc.toNat / 16, tc.toNat % 16, counts, (rest.drop 16).take n⟩ :: ·)
    else none

def parseFrameComponents : List UInt8 → Option (List FrameComponent)
  | [] => some []
  | c :: hv :: tq :: rest =>
    (parseFrameComponents rest).map (⟨c, hv.toNat / 16, hv.toNat % 16, tq⟩ :: ·)
  | _ => none

/-- The payload of a SOF0 segment. -/
def parseSOF : List UInt8 → Option FrameHeader
  | p :: y₁ :: y₀ :: x₁ :: x₀ :: n :: rest => do
    let cs ← parseFrameComponents rest
    if cs.length = n.toNat then some ⟨p, ofBe16 y₁ y₀, ofBe16 x₁ x₀, cs⟩ else none
  | _ => none

def parseScanComponents : Nat → List UInt8 → Option (List ScanComponent × List UInt8)
  | 0, rest => some ([], rest)
  | n + 1, c :: t :: rest =>
    (parseScanComponents n rest).map fun r => (⟨c, t.toNat / 16, t.toNat % 16⟩ :: r.1, r.2)
  | _, _ => none

/-- The payload of a SOS segment. -/
def parseSOS : List UInt8 → Option ScanHeader
  | n :: rest => do
    match ← parseScanComponents n.toNat rest with
    | (cs, [ss, se, a]) => some ⟨cs, ss, se, a⟩
    | _ => none
  | [] => none

/-- What the segments read so far define, and the restart interval in effect. -/
structure Header where
  frames : List FrameHeader
  quant : List QuantTable
  huffman : List HuffmanTable
  restart : UInt16
  deriving DecidableEq, Repr

/-- Nothing is defined and no restart interval is set. -/
def Header.empty : Header := ⟨[], [], [], 0⟩

/-- `h` after one more segment. Application segments define nothing. -/
def Header.add (h : Header) (s : Segment) : Option Header :=
  if s.marker = DQT then
    (parseDQT s.payload.length s.payload).map fun ts => { h with quant := h.quant ++ ts }
  else if s.marker = DHT then
    (parseDHT s.payload.length s.payload).map fun ts => { h with huffman := h.huffman ++ ts }
  else if s.marker = SOF0 then
    (parseSOF s.payload).map fun f => { h with frames := h.frames ++ [f] }
  else if s.marker = DRI then
    match s.payload with
    | [hi, lo] => some { h with restart := ofBe16 hi lo }
    | _ => none
  else some h

/-- A scan: its header, the definitions and the restart interval in effect, and its data. -/
structure Scan where
  scan : ScanHeader
  header : Header
  data : List UInt8
  deriving DecidableEq, Repr

/-- The scans of a stream whose entropy-coded parts have the given lengths, and what follows. -/
def readScans : List Nat → Header → List UInt8 → Option (List Scan × List UInt8)
  | [], _, bs => some ([], bs)
  | n :: ns, h, bs => do
    let (ss, sos, rest) ← readUntilScan bs.length bs
    let h ← ss.foldlM Header.add h
    let scan ← parseSOS sos.payload
    if n ≤ rest.length then
      let (scans, rest') ← readScans ns h (rest.drop n)
      return (⟨scan, h, rest.take n⟩ :: scans, rest')
    else none

/-- A stream from its start of image on. -/
def readImage (lens : List Nat) : List UInt8 → Option (List Scan × List UInt8)
  | 0xFF :: 0xD8 :: rest => readScans lens .empty rest
  | _ => none

/-- A stream up to its first start of scan: what is defined there, the scan header, and what
follows it. -/
def readHeader : List UInt8 → Option (Header × ScanHeader × List UInt8)
  | 0xFF :: 0xD8 :: bs => do
    let (ss, sos, rest) ← readUntilScan bs.length bs
    let h ← ss.foldlM Header.add .empty
    let scan ← parseSOS sos.payload
    return (h, scan, rest)
  | _ => none

/-! ## Reading what was encoded -/

/-- Two values below 16 in one byte. -/
theorem toNat_nibbles {a b : UInt8} (ha : a < 16) (hb : b < 16) :
    (a <<< 4 ||| b).toNat = a.toNat * 16 + b.toNat := by
  have ha := UInt8.lt_iff_toNat_lt.mp ha
  have hb : b.toNat < 2 ^ 4 := UInt8.lt_iff_toNat_lt.mp hb
  have h4 : ((4 : UInt8).toNat % 8) = 4 := rfl
  rw [UInt8.toNat_or, UInt8.toNat_shiftLeft, h4, Nat.shiftLeft_eq, Nat.mod_eq_of_lt,
    ← Nat.shiftLeft_eq, ← Nat.shiftLeft_add_eq_or_of_lt hb, Nat.shiftLeft_eq]
  simp only [UInt8.reduceToNat] at ha
  omega

/-- A segment with one quantiser table defines it. -/
theorem Header.add_dqt (h : Header) {t : Nat} {vals : List UInt8} (ht : t < 16)
    (hv : vals.length = 64) : h.add ⟨DQT, UInt8.ofNat t :: vals⟩ =
      some { h with quant := h.quant ++ [⟨t, vals⟩] } := by
  have hmod : (UInt8.ofNat t).toNat = t := by
    rw [UInt8.toNat_ofNat', Nat.mod_eq_of_lt (by omega)]
  have hdrop : vals.drop 64 = [] := by rw [← hv, List.drop_length]
  have htake : vals.take 64 = vals := by rw [← hv, List.take_length]
  rw [Header.add, if_pos rfl, List.length_cons, parseDQT, hmod, htake, hdrop,
    if_pos ⟨Nat.div_eq_of_lt ht, Nat.le_of_eq hv.symm⟩, Nat.mod_eq_of_lt ht]
  cases vals.length <;> rfl

/-- A segment with one Huffman table defines it. -/
theorem Header.add_dht (h : Header) (tc : UInt8) {counts vals : List UInt8}
    (hc : counts.length = 16) (hv : vals.length = codeCount counts) :
    h.add ⟨DHT, tc :: (counts ++ vals)⟩ =
      some { h with huffman := h.huffman ++ [⟨tc.toNat / 16, tc.toNat % 16, counts, vals⟩] } := by
  have htake : (counts ++ vals).take 16 = counts := by rw [← hc, List.take_left]
  have hdrop : (counts ++ vals).drop 16 = vals := by rw [← hc, List.drop_left]
  have hall : (counts ++ vals).drop (16 + codeCount counts) = [] := by
    rw [← hc, ← hv, ← List.length_append, List.drop_length]
  have hlen : 16 + codeCount counts ≤ (counts ++ vals).length :=
    Nat.le_of_eq (by rw [List.length_append, hc, hv])
  have hne : DHT ≠ DQT := by decide
  rw [Header.add, if_neg hne, if_pos rfl, List.length_cons, parseDHT, htake, if_pos hlen, hdrop,
    hall, ← hv, List.take_length]
  cases (counts ++ vals).length <;> rfl

theorem Header.add_dri (h : Header) (ri : UInt16) :
    h.add ⟨DRI, be16 ri⟩ = some { h with restart := ri } := by
  have h₁ : DRI ≠ DQT := by decide
  have h₂ : DRI ≠ DHT := by decide
  have h₃ : DRI ≠ SOF0 := by decide
  rw [Header.add, if_neg h₁, if_neg h₂, if_neg h₃, if_pos rfl]
  simp only [be16, ofBe16_be16]

/-- Frame components, three bytes each. -/
theorem parseFrameComponents_flatMap {α : Type} (xs : List α) (bytes : α → List UInt8)
    (c : α → FrameComponent) (h : ∀ x ∈ xs, ∃ a hv tq, bytes x = [a, hv, tq] ∧
      c x = ⟨a, hv.toNat / 16, hv.toNat % 16, tq⟩) :
    parseFrameComponents (xs.flatMap bytes) = some (xs.map c) := by
  induction xs with
  | nil => rfl
  | cons x xs ih =>
    obtain ⟨a, hv, tq, hb, hc⟩ := h x (List.mem_cons_self ..)
    have ih := ih fun y hy => h y (List.mem_cons_of_mem _ hy)
    rw [List.flatMap_cons, hb, List.cons_append, List.cons_append, List.cons_append,
      List.nil_append, parseFrameComponents, ih, List.map_cons, hc]
    rfl

theorem Header.add_sof0 (h : Header) {p n : UInt8} {height width : UInt16} {rest : List UInt8}
    {cs : List FrameComponent} (hp : parseFrameComponents rest = some cs)
    (hn : cs.length = n.toNat) :
    h.add ⟨SOF0, p :: (be16 height ++ be16 width ++ [n] ++ rest)⟩ =
      some { h with frames := h.frames ++ [⟨p, height, width, cs⟩] } := by
  have h₁ : SOF0 ≠ DQT := by decide
  have h₂ : SOF0 ≠ DHT := by decide
  rw [Header.add, if_neg h₁, if_neg h₂, if_pos rfl]
  simp [parseSOF, be16, hp, hn, ofBe16_be16]

/-- Scan components, two bytes each. -/
theorem parseScanComponents_flatMap {α : Type} (xs : List α) (bytes : α → List UInt8)
    (c : α → ScanComponent) (rest : List UInt8) (h : ∀ x ∈ xs, ∃ a t, bytes x = [a, t] ∧
      c x = ⟨a, t.toNat / 16, t.toNat % 16⟩) :
    parseScanComponents xs.length (xs.flatMap bytes ++ rest) = some (xs.map c, rest) := by
  induction xs with
  | nil => rfl
  | cons x xs ih =>
    obtain ⟨a, t, hb, hc⟩ := h x (List.mem_cons_self ..)
    have ih := ih fun y hy => h y (List.mem_cons_of_mem _ hy)
    rw [List.length_cons, List.flatMap_cons, hb, List.append_assoc, List.cons_append,
      List.cons_append, List.nil_append, parseScanComponents, ih, List.map_cons, hc]
    rfl

/-- The segment defines one quantiser table. -/
def DefinesQuant (s : Segment) (t : QuantTable) : Prop :=
  ∀ h : Header, h.add s = some { h with quant := h.quant ++ [t] }

/-- The segment defines one Huffman table. -/
def DefinesHuffman (s : Segment) (t : HuffmanTable) : Prop :=
  ∀ h : Header, h.add s = some { h with huffman := h.huffman ++ [t] }

theorem foldlM_definesQuant {ss : List Segment} {ts : List QuantTable}
    (hs : List.Forall₂ DefinesQuant ss ts) (h : Header) :
    ss.foldlM Header.add h = some { h with quant := h.quant ++ ts } := by
  induction hs generalizing h with
  | nil => simp
  | cons hd _ ih =>
    rw [List.foldlM_cons, hd h, Option.bind_eq_bind, Option.bind_some, ih]
    simp

theorem foldlM_definesHuffman {ss : List Segment} {ts : List HuffmanTable}
    (hs : List.Forall₂ DefinesHuffman ss ts) (h : Header) :
    ss.foldlM Header.add h = some { h with huffman := h.huffman ++ ts } := by
  induction hs generalizing h with
  | nil => simp
  | cons hd _ ih =>
    rw [List.foldlM_cons, hd h, Option.bind_eq_bind, Option.bind_some, ih]
    simp

/-- Reading a header: the segments, and the header of the first scan. -/
theorem readHeader_encode {ss : List Segment} {sos : Segment} {h : Header} {scan : ScanHeader}
    (hs : ∀ s ∈ ss, s.Fits) (hm : ∀ s ∈ ss, s.marker ≠ SOS) (hsos : sos.Fits)
    (hmark : sos.marker = SOS) (hh : ss.foldlM Header.add .empty = some h)
    (hscan : parseSOS sos.payload = some scan) (rest : List UInt8) :
    readHeader (0xFF :: 0xD8 :: (ss.flatMap Segment.encode ++ (sos.encode ++ rest))) =
      some (h, scan, rest) := by
  have hf : ss.length < (ss.flatMap Segment.encode ++ (sos.encode ++ rest)).length := by
    have := length_le_encode ss
    simp only [List.length_append, Segment.encode, List.length_cons]
    omega
  rw [readHeader, readUntilScan_encode hs hm hsos hmark _ hf]
  simp [hh, hscan]

/-- Reading segments, a scan header and entropy-coded data off the front of a stream. -/
theorem readScans_cons {ss : List Segment} {sos : Segment} {h h' : Header} {scan : ScanHeader}
    {ns : List Nat} {rest rest' : List UInt8} {scans : List Scan} (data : List UInt8)
    (hs : ∀ s ∈ ss, s.Fits) (hm : ∀ s ∈ ss, s.marker ≠ SOS) (hsos : sos.Fits)
    (hmark : sos.marker = SOS) (hh : ss.foldlM Header.add h = some h')
    (hscan : parseSOS sos.payload = some scan)
    (hrest : readScans ns h' rest = some (scans, rest')) :
    readScans (data.length :: ns) h
        (ss.flatMap Segment.encode ++ (sos.encode ++ (data ++ rest))) =
      some (⟨scan, h', data⟩ :: scans, rest') := by
  have hf : ss.length <
      (ss.flatMap Segment.encode ++ (sos.encode ++ (data ++ rest))).length := by
    have := length_le_encode ss
    simp only [List.length_append, Segment.encode, List.length_cons]
    omega
  have hl : data.length ≤ (data ++ rest).length := by simp
  rw [readScans, readUntilScan_encode hs hm hsos hmark _ hf]
  simp only [Option.bind_eq_bind, Option.bind_some, hh, hscan, if_pos hl, List.drop_left,
    List.take_left, hrest]
  rfl

end Jfif
