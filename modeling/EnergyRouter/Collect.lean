import EnergyRouter.Receive
import EnergyRouter.Lemmas.Fcs

/-!
# What the receiver is for

`collect` says what the receiver does over the bytes of the frame collected so far alone, with no flags and no counters. `Tracks`
relates it to the state of the receiver: every flag, counter and buffer cell of the source is a function of these bytes.
-/

namespace EnergyRouter

open Buffer

/-- The number of bytes a frame announces in its length field, the first and the last byte included. -/
def wantLen (seg : List Byte) : Nat := (seg.getD 2 0).toNat * 256 + (seg.getD 1 0).toNat + 2

/-- The length field of the broadcast request of the other meter protocol. -/
def Escaped (seg : List Byte) : Prop := seg.getD 1 0 = 0xaa ∧ seg.getD 2 0 = 0xaa
deriving Decidable

/-- The length of the server address; the broadcast request counts as four. -/
def addrLen (seg : List Byte) : Nat := if Escaped seg then 4 else (seg.getD 4 0 &&& 0x0f#8).toNat + 1

/-- Where the header ends, its two check bytes included. -/
def headEnd (seg : List Byte) : Nat := 8 + addrLen seg

/-- The bytes the buffer keeps of a segment: one cell always stays free. -/
def kept (seg : List Byte) : List Byte := seg.take (hplcDataMaxSize - 1)

/-- The broadcast request of the other meter protocol. -/
def Is645 (seg : List Byte) : Prop :=
  12 ≤ seg.length ∧ (seg.getD 0 0 = 0x68 ∧ seg.getD 7 0 = 0x68 ∧ seg.getD 11 0 = 0x16) ∧
    seg.getD 1 0 = 0xAA ∧ seg.getD 8 0 = 0x13 ∧ seg.getD 10 0 = 0xDF
deriving Decidable

/-- What a receiver makes of one more byte. -/
inductive Verdict where
  | more (seg : List Byte)
  | reject
  | badHeader
  | is645
  | complete (seg : List Byte)
  deriving DecidableEq, Repr

/-- One more byte, after `seg` was collected. -/
def collect (seg : List Byte) (b : Byte) : Verdict :=
  if seg = [] then
    if b = 0x68 then .more [b] else .more []
  else
    let seg := seg ++ [b]
    if seg.length < 3 then .more seg
    else if seg.length = 3 ∧ wantLen seg < 12 then .reject
    else if seg.length = 5 ∧ ¬ Escaped seg ∧ wantLen seg > hplcDataMaxSize then .reject
    else if 5 < seg.length ∧ seg.length = headEnd seg ∧ ¬ FcsGood seg then
      if Is645 seg then .is645 else .badHeader
    else if 3 < seg.length ∧ seg.length = wantLen seg then
      if (kept seg).getLast? = some 0x16 then .complete seg else .reject
    else .more seg

/-- A frame of at most 1023 bytes with a matching length field (its reserved bits clear), good checks and the end character. The
address may have any length its nibble can say. -/
structure WellFormed (frame : List Byte) : Prop where
  head : frame.head? = some 0x68
  length : wantLen frame = frame.length
  fits : frame.length ≤ 1023
  room : headEnd frame + 3 ≤ frame.length
  hcs : FcsGood (frame.take (headEnd frame))
  fcs : FcsGood frame.dropLast
  last : frame.getLast? = some 0x16

/-- A frame as the link layer has it, of any length: what `WellFormed` asks for apart from the bound. -/
structure LinkFrame (frame : List Byte) : Prop where
  head : frame.head? = some 0x68
  length : wantLen frame = frame.length
  room : headEnd frame + 3 ≤ frame.length
  hcs : FcsGood (frame.take (headEnd frame))
  fcs : FcsGood frame.dropLast
  last : frame.getLast? = some 0x16

/-- The reads that deliver some bytes: fewer than thirty empty ones before each of them. -/
inductive Delivery : List Byte → List (Option Byte) → Prop
  | nil : Delivery [] []
  | cons (k : Nat) (hk : k < 30) (b : Byte) {bs : List Byte} {reads : List (Option Byte)} (h : Delivery bs reads) :
    Delivery (b :: bs) (List.replicate k none ++ some b :: reads)

/-- The reads bring neither a header that fails its check, unless it is the broadcast request, nor a completed frame without room
for its header and its frame check. -/
def SoundCall : List (Option Byte) → Nat → List Byte → Prop
  | [], _, _ => True
  | none :: reads, times, seg => if times + 1 = 30 then True else SoundCall reads (times + 1) seg
  | some b :: reads, _, seg =>
    match collect seg b with
    | .more seg => SoundCall reads 0 seg
    | .reject => True
    | .badHeader => False
    | .is645 => True
    | .complete seg => headEnd seg + 3 ≤ wantLen seg

instance decidableSoundCall : ∀ reads times seg, Decidable (SoundCall reads times seg)
  | [], _, _ => isTrue trivial
  | none :: reads, times, seg =>
    if h : times + 1 = 30 then isTrue (by rw [SoundCall, if_pos h]; trivial)
    else
      haveI := decidableSoundCall reads (times + 1) seg
      decidable_of_iff (SoundCall reads (times + 1) seg) (by rw [SoundCall, if_neg h])
  | some b :: reads, _, seg =>
    match h : collect seg b with
    | .more seg' =>
      haveI := decidableSoundCall reads 0 seg'
      decidable_of_iff (SoundCall reads 0 seg') (by rw [SoundCall, h])
    | .reject => isTrue (by rw [SoundCall, h]; trivial)
    | .badHeader => isFalse (by rw [SoundCall, h]; exact id)
    | .is645 => isTrue (by rw [SoundCall, h]; trivial)
    | .complete seg' => decidable_of_iff (headEnd seg' + 3 ≤ wantLen seg') (by rw [SoundCall, h])

/-- The bytes of a segment, read one after the other, were all collected. -/
def Growing (seg : List Byte) : Prop := ∀ p b q, seg = p ++ b :: q → collect p b = .more (p ++ [b])

/-- The bytes of a frame, read one after the other, are collected, and the last of them brings the verdict. -/
def Collects (frame : List Byte) (verdict : Verdict) : Prop :=
  ∀ p b q, frame = p ++ b :: q → collect p b = if q = [] then verdict else .more (p ++ [b])

/-- The frame of a call that returned 0 has a header that was found good, and announces enough bytes for its header, its frame check
and the end character. -/
structure HeaderChecked (rx : RxState) (rev : CharPointDataManage) : Prop where
  computed : rx.usartRxSta &&& 0x08000000 ≠ 0
  good : FcsGood (rev.contents.take (headEnd rev.contents))
  room : headEnd rev.contents + 3 ≤ wantLen rev.contents

/-- The bytes collected so far may be the start of a frame that was not given up. -/
structure Opened (seg : List Byte) : Prop where
  /-- A frame starts with 0x68. -/
  head : seg ≠ [] → seg.head? = some 0x68
  /-- The length field announces at least twelve bytes, and not all of them have come in. -/
  want : 3 ≤ seg.length → 12 ≤ wantLen seg ∧ seg.length < wantLen seg
  /-- The announced length fits the buffer, or the length field is the escape. -/
  fits : 5 ≤ seg.length → Escaped seg ∨ wantLen seg ≤ hplcDataMaxSize

/-- The flags of the source, from the number of bytes collected. -/
def staOf (seg : List Byte) : BitVec 32 :=
  if seg.length = 0 then 0
  else if seg.length < 3 then 0x40000000
  else if seg.length < 5 then 0x60000000
  else if seg.length < headEnd seg then 0x70000000
  else 0x78000000

/-- The buffer holds the bytes collected, as far as they fit. -/
structure Stored (seg : List Byte) (rev : CharPointDataManage) : Prop where
  size : rev.size = hplcDataMaxSize
  dataSize : rev.dataSize = (kept seg).length
  contents : rev.contents = kept seg

/-- The state of the receiver after it collected `seg`. -/
structure Tracks (seg : List Byte) (rx : RxState) (rev : CharPointDataManage) : Prop extends Stored seg rev where
  opened : Opened seg
  sta : rx.usartRxSta = staOf seg
  lenAll : rx.lenAll = if seg.length < 3 then 0 else (wantLen seg : Int)
  lenLeft : rx.lenLeft = if seg.length < 3 then 0 else (wantLen seg : Int) - seg.length
  lenSa : rx.lenSa = if seg.length < 5 then 0 else (addrLen seg : Int)

/-- How the receiver shows a verdict. A header that fails its check is given up only after the receiver looked at the byte in front
of the cleared buffer; were it the end character, the call would return 0 with an empty buffer. -/
def Shows (below : Byte) : Verdict → Flow → Prop
  | .more seg, .next rx rev => Tracks seg rx rev ∧ rev.below = below
  | .reject, .ret result rx rev => result = -1 ∧ Tracks [] rx rev ∧ rev.below = below
  | .badHeader, .ret result rx rev => result = -1 ∧ below ≠ 0x16 ∧ Tracks [] rx rev ∧ rev.below = below
  | .badHeader, .complete _ rev => below = 0x16 ∧ rev.dataSize = 0
  | .is645, .ret result _ rev => result = 1 ∧ rev.size = hplcDataMaxSize ∧ rev.below = below
  | .complete seg, .complete _ rev => Stored seg rev ∧ rev.below = below
  | _, _ => False

end EnergyRouter
