import EnergyRouter.Scan

/-!
# The files of the meter

The files of the half-hours, the price model, the measured values, and the power of each day of a month. A file is written over the
one before it without truncation. Opening, reading and writing do not fail, and memory is never short.
-/

namespace EnergyRouter

open Numeral CString Memory

section HalfPower

/-- The name of a half-hour. -/
def halfName (i : Nat) : List Char := indexed (ascii "ulMeter_Half") i

/-- The text `Meter_HalfPower_Storage` writes. -/
def halfPowerText (clock : SystemTime) (half : Vector (BitVec 32) 48) : List Char :=
  timeLine clock ++ (List.range 48).flatMap fun i => line (halfName i) (decimalPad 0 (half.getD i 0).toNat)

/-- The values it reads. -/
def halfPowerFields : List (Field (Vector (BitVec 32) 48)) :=
  (List.range 48).map fun i => .word (halfName i) fun v half => half.setIfInBounds i v

/-- `Meter_HalfPower_Storage` with `WRITE`: what it returns, and the file. -/
def meterHalfPowerWrite (clock : SystemTime) (half : Vector (BitVec 32) 48) (file : File) : Option (Int × File) :=
  file.save (halfPowerText clock half)

/-- `Meter_HalfPower_Storage` with `READ`: what it returns, and the array of the caller. -/
def meterHalfPowerRead (half : Vector (BitVec 32) 48) : File → Option (Int × Vector (BitVec 32) 48)
  | none => some (-2, half)
  | some content => do
    let buff ← readBuff content
    let (_, half) ← readFields halfPowerFields buff half
    some (0, half)

end HalfPower

section PriceModel

/-- `ScmMeter_PriceModle`, as it lies in memory. -/
abbrev PriceModle := Vector Byte 268

namespace PriceModle

def uiJFmodID (m : PriceModle) : List Byte := bytesAt m 0 8

def state (m : PriceModle) : Byte := byteAt m 22

def style (m : PriceModle) : Byte := byteAt m 23

def timeNo (m : PriceModle) (i : Nat) : Byte := byteAt m (24 + i)

def count (m : PriceModle) : Byte := byteAt m 72

/-- Three bytes stand between the count and the prices. -/
def priceNo (m : PriceModle) (i : Nat) : BitVec 32 := wordAt m (76 + 4 * i)

end PriceModle

/-- The six values of a time that are written, from a `STR_SYSTEM_TIME` at an offset: all but the weekday. -/
def timeBytes {n : Nat} (m : Vector Byte n) (off : Nat) : List Byte := bytesAt m off 4 ++ bytesAt m (off + 5) 2

@[simp] theorem length_timeBytes {n : Nat} (m : Vector Byte n) (off : Nat) : (timeBytes m off).length = 6 := by simp [timeBytes]

/-- The name of a tariff number. -/
def timeNoName (i : Nat) : List Char := indexed (ascii "ulTimeNo") i

/-- The name of a price. -/
def priceNoName (i : Nat) : List Char := indexed (ascii "ulPriceNo") i

/-- The text `Meter_GJFMode_Storage` writes. -/
def gjfModeText (clock : SystemTime) (m : PriceModle) : List Char :=
  timeLine clock ++ line (ascii "uiJFmodID") (m.uiJFmodID.flatMap hexByte) ++
    line (ascii "EffectiveTime") ((timeBytes m 8).flatMap hexByte) ++
    line (ascii "unEffectiveTime") ((timeBytes m 15).flatMap hexByte) ++
    line (ascii "state") (decimalPad 0 m.state.toNat) ++ line (ascii "style") (decimalPad 0 m.style.toNat) ++
    ((List.range 48).flatMap fun i => line (timeNoName i) (decimalPad 0 (m.timeNo i).toNat)) ++
    line (ascii "count") (decimalPad 0 m.count.toNat) ++
    (List.range m.count.toNat).flatMap fun i => line (priceNoName i) (decimalPad 0 (m.priceNo i).toNat)

/-- The values it reads before it knows how many prices follow. Each is stored as a word, or as bytes from the address on. -/
def gjfModeFields : List (Field PriceModle) :=
  [.bytes (ascii "uiJFmodID") 8 (storeBytes 0), .bytes (ascii "EffectiveTime") 6 (storeBytes 8),
    .bytes (ascii "unEffectiveTime") 6 (storeBytes 15), .word (ascii "state") (storeWord 22), .word (ascii "style") (storeWord 23)] ++
    ((List.range 48).map fun i => .word (timeNoName i) (storeWord (24 + i))) ++ [.word (ascii "count") (storeWord 72)]

/-- The prices it reads; the array has 48. -/
def priceFields (count : Nat) : List (Field PriceModle) :=
  (List.range count).map fun i => if i < 48 then .word (priceNoName i) (storeWord (76 + 4 * i)) else .outside (priceNoName i)

/-- `Meter_GJFMode_Storage` with `WRITE`. A price behind the last one is outside of the array. -/
def meterGJFModeWrite (clock : SystemTime) (m : PriceModle) (file : File) : Option (Int × File) :=
  if m.count.toNat ≤ 48 then file.save (gjfModeText clock m) else none

/-- `Meter_GJFMode_Storage` with `READ`. The count it goes by is the one just read. -/
def meterGJFModeRead (m : PriceModle) : File → Option (Int × PriceModle)
  | none => some (-2, m)
  | some content => do
    let buff ← readBuff content
    let (fpoint, m) ← readFields gjfModeFields buff m
    let (_, m) ← readFields (priceFields m.count.toNat) fpoint m
    some (0, m)

end PriceModel

section Analogue

/-- `ScmMeter_Analog`, as it lies in memory: six words. -/
abbrev AnalogMemory := Vector Byte 24

/-- The values with their offsets, in the order they are written and read. -/
def analogFields : List (List Char × Nat) :=
  [(ascii "ulVol", 0), (ascii "ulCur", 4), (ascii "ulAcPwr", 8), (ascii "ulMeterTotal", 12), (ascii "ulPwrFactor", 16),
    (ascii "ulFrequency", 20)]

/-- The text `Meter_Anolag_Storage` writes. -/
def analogText (clock : SystemTime) (m : AnalogMemory) : List Char :=
  timeLine clock ++ analogFields.flatMap fun f => line f.1 (decimalPad 0 (wordAt m f.2).toNat)

/-- `Meter_Anolag_Storage` with `WRITE`. -/
def meterAnolagWrite (clock : SystemTime) (m : AnalogMemory) (file : File) : Option (Int × File) := file.save (analogText clock m)

/-- One value of the reader. `get_pvalue` gets the value of the field for the address to store to; the caller's structure begins at
`addr`. -/
def readAnalog (addr : BitVec 32) (name : List Char) (off : Nat) (fpoint : List Char) (m : AnalogMemory) :
    Option (List Char × AnalogMemory) := do
  let (fpname, fpoint) ← getName fpoint
  if fpname = name then do
    let (value, fpoint) ← getWord fpoint
    let fpvalue := wordAt m off
    if addr.toNat ≤ fpvalue.toNat ∧ fpvalue.toNat + 4 ≤ addr.toNat + 24 then
      some (fpoint, storeWord (fpvalue.toNat - addr.toNat) value m)
    else none
  else some (fpoint, m)

/-- The values one after the other. -/
def readAnalogs (addr : BitVec 32) : List (List Char × Nat) → List Char → AnalogMemory → Option (List Char × AnalogMemory)
  | [], fpoint, m => some (fpoint, m)
  | f :: fields, fpoint, m => do
    let (fpoint, m) ← readAnalog addr f.1 f.2 fpoint m
    readAnalogs addr fields fpoint m

/-- `Meter_Anolag_Storage` with `READ`. As many bytes are read as the string has that `Para_Buff` holds when it is allocated.
Without a file the terminator is stored in front of the buffer. -/
def meterAnolagRead (addr : BitVec 32) (leftover : List Char) (m : AnalogMemory) : File → Option (Int × AnalogMemory)
  | none => none
  | some content =>
    if leftover.length < maxMallocNum then do
      let (_, m) ← readAnalogs addr analogFields (cString (content.take leftover.length)) m
      some (0, m)
    else none

end Analogue

section DailyPower

/-- The files by their paths. -/
abbrev Files := List Char → File

/-- The file of a month: the day is the low byte of `YMD`. -/
def powerPath (ymd : BitVec 32) : List Char := ascii "/Meter" ++ '/' :: hexPad 6 (ymd >>> 8).toNat ++ ascii ".txt"

/-- The line that says which day the lines behind it are of. -/
def dayKey (ymd : BitVec 32) : List Char := hexPad 8 ymd.toNat

/-- The five values of a day or a month. -/
def powerLines (period : String) (w : Nat) (p : MeterPower) : List Char :=
  line (ascii "ulPowerT" ++ ascii period) (decimalPad w p.powerT.toNat) ++
    line (ascii "ulPowerJ" ++ ascii period) (decimalPad w p.powerJ.toNat) ++
    line (ascii "ulPowerF" ++ ascii period) (decimalPad w p.powerF.toNat) ++
    line (ascii "ulPowerP" ++ ascii period) (decimalPad w p.powerP.toNat) ++
    line (ascii "ulPowerG" ++ ascii period) (decimalPad w p.powerG.toNat)

/-- The text `Meter_Power_Storage` writes for a day. -/
def powerText (clock : SystemTime) (ymd : BitVec 32) (his : MeterHisData) : List Char :=
  timeLine clock ++ dayKey ymd ++ '\n' :: powerLines "day" 6 his.meterDay ++ powerLines "mon" 8 his.meterMonth

/-- The five values of a day or a month, read to where `put` puts them. -/
def powerFields (period : String) (put : (MeterPower → MeterPower) → MeterHisData → MeterHisData) : List (Field MeterHisData) :=
  [.word (ascii "ulPowerT" ++ ascii period) fun v => put fun p => { p with powerT := v },
    .word (ascii "ulPowerJ" ++ ascii period) fun v => put fun p => { p with powerJ := v },
    .word (ascii "ulPowerF" ++ ascii period) fun v => put fun p => { p with powerF := v },
    .word (ascii "ulPowerP" ++ ascii period) fun v => put fun p => { p with powerP := v },
    .word (ascii "ulPowerG" ++ ascii period) fun v => put fun p => { p with powerG := v }]

/-- The values `Meter_Power_Storage` reads. -/
def hisDataFields : List (Field MeterHisData) :=
  powerFields "day" (fun f his => { his with meterDay := f his.meterDay }) ++
    powerFields "mon" (fun f his => { his with meterMonth := f his.meterMonth })

/-- `Meter_Power_Storage` with `WRITE`. The file is read into a block of its size, without a terminator: the search for the day goes
on into what stands behind. The day is overwritten from 23 characters before the key on; one not found, or with a key nearer to the
start, is written where the reading stopped. What a file holds that is written behind its end is not said. -/
def meterPowerWrite (clock : SystemTime) (his : MeterHisData) (ymd : BitVec 32) (behind : List Char) (files : Files) :
    Option (Int × Files) := do
  let content := (files (powerPath ymd)).getD []
  let pos ←
    if content.length = 0 then some 0
    else do
      let addr ← strstr (dayKey ymd) (content ++ behind) 0
      match addr with
      | none => some content.length
      | some addr => if 23 ≤ addr then some (addr - 23) else some content.length
  if pos ≤ content.length then
    let content := spliceAt content pos (powerText clock ymd his)
    some (0, fun path => if path = powerPath ymd then some content else files path)
  else none

/-- `Meter_Power_Storage` with `READ`. The terminator is stored behind the block, after the search. -/
def meterPowerRead (his : MeterHisData) (ymd : BitVec 32) (behind : List Char) (files : Files) : Option (Int × MeterHisData) :=
  match files (powerPath ymd) with
  | none => some (-2, his)
  | some content =>
    if content.length = 0 then some (-1, his)
    else do
      let addr ← strstr (dayKey ymd) (content ++ behind) 0
      match addr with
      | none => some (-4, his)
      | some addr =>
        let memory := content ++ '\x00' :: behind.drop 1
        if behind ≠ [] ∧ '\x00' ∈ memory.drop addr then do
          let (_, his) ← readFields hisDataFields (cString (memory.drop addr)) his
          some (0, his)
        else none

end DailyPower

end EnergyRouter
