import EnergyRouter.Fcs

/-!
# Metering by half-hours

`cmMeter_electricity_calc` keeps the consumption of each half-hour of the day in 48 buckets, and sums them by tariff for the day and
the month. A write or an addition outside of an array has no outcome in the model.
-/

namespace EnergyRouter

/-- `STR_SYSTEM_TIME`, in BCD; the year has two digits. -/
structure SystemTime where
  second : Byte
  minute : Byte
  hour : Byte
  day : Byte
  week : Byte
  month : Byte
  year : Byte
  deriving DecidableEq, Repr

/-- `BCD_toInt`, one byte. -/
def bcdToInt (data2 : Byte) : Byte := data2 - (data2 >>> 4) * 6

/-- `ScmMeter_Power`: a total and the four tariffs. -/
@[ext]
structure MeterPower where
  powerT : BitVec 32
  powerJ : BitVec 32
  powerF : BitVec 32
  powerP : BitVec 32
  powerG : BitVec 32
  deriving DecidableEq, Repr

/-- Cleared power. -/
def zeroPower : MeterPower := ⟨0, 0, 0, 0, 0⟩

/-- `ScmMeter_HisData`. -/
structure MeterHisData where
  meterDay : MeterPower
  meterMonth : MeterPower
  deriving DecidableEq, Repr

/-- The static variables of the meter, and the records handed to `SetStorageData` with their dates, oldest first. -/
structure Meter where
  meterHalf : Vector (BitVec 32) 48
  monthOld : MeterPower
  hisData : MeterHisData
  timeNo : Vector Byte 48
  evminStart : BitVec 32
  totalStart : Bool
  clearHalf : Bool
  clearMonth : Bool
  stored : List (MeterHisData × BitVec 32)
  deriving DecidableEq, Repr

/-- A run of half-hours gets a tariff. -/
def fillTimeNo (start count : Nat) (no : Byte) (timeNo : Vector Byte 48) : Vector Byte 48 :=
  (List.range count).foldl (fun timeNo i => timeNo.setIfInBounds (start + i) no) timeNo

/-- `cmMeter_GJFModeInit`, the tariffs of the half-hours. The first two tariffs are named in the comments only. -/
def cmMeterGJFModeInit (timeNo : Vector Byte 48) : Vector Byte 48 :=
  let timeNo := fillTimeNo 21 2 0x02 timeNo
  let timeNo := fillTimeNo 38 4 0x02 timeNo
  let timeNo := fillTimeNo 17 4 0x02 timeNo
  let timeNo := fillTimeNo 32 6 0x02 timeNo
  let timeNo := fillTimeNo 14 3 0x02 timeNo
  let timeNo := fillTimeNo 23 9 0x02 timeNo
  let timeNo := fillTimeNo 42 4 0x02 timeNo
  let timeNo := fillTimeNo 0 14 0x03 timeNo
  (timeNo.setIfInBounds 46 0x03).setIfInBounds 47 0x03

/-- The date a record is stored under. -/
def meterTime (clock : SystemTime) : BitVec 32 := 0x20#8 ++ clock.year ++ clock.month ++ clock.day

/-- The reading is the first one since the clock entered the first hour of a day. -/
def StartsDay (clock : SystemTime) (s : Meter) : Prop := bcdToInt clock.hour = 0 ∧ s.clearHalf = false
deriving Decidable

/-- The start of a day: in its first hour the day is stored and the buckets are cleared, once. -/
def startDay (clock : SystemTime) (s : Meter) : Meter :=
  if StartsDay clock s then
    { s with
      clearHalf := true
      meterHalf := Vector.replicate 48 0
      monthOld := s.hisData.meterMonth
      stored := s.stored ++ [(s.hisData, meterTime clock)] }
  else if bcdToInt clock.hour ≠ 0 then { s with clearHalf := false }
  else s

/-- The start of a month: on its first day the month is stored and cleared, once. -/
def startMonth (clock : SystemTime) (s : Meter) : Meter :=
  if bcdToInt clock.day = 1 ∧ s.clearMonth = false then
    { s with
      stored := s.stored ++ [(s.hisData, meterTime clock)]
      clearMonth := true
      monthOld := zeroPower
      hisData := { s.hisData with meterMonth := zeroPower } }
  else if bcdToInt clock.day ≠ 1 then { s with clearMonth := false }
  else s

/-- The reading falls in the first minute of a half-hour. -/
def AtBoundary (clock : SystemTime) : Prop := (bcdToInt clock.minute).toNat % 30 = 0
deriving Decidable

/-- The half-hour of a reading. -/
def bucketOf (clock : SystemTime) : Nat := 2 * (bcdToInt clock.hour).toNat + (bcdToInt clock.minute).toNat / 30

/-- The consumption of the running half-hour: in its first minute the total it starts from is noted, later its bucket is set. -/
def setBucket (clock : SystemTime) (meterTotal : BitVec 32) (s : Meter) : Option Meter :=
  if ¬ AtBoundary clock then
    if bucketOf clock < 48 then
      some { s with
        totalStart := false
        meterHalf := s.meterHalf.setIfInBounds (bucketOf clock) (meterTotal - s.evminStart) }
    else none
  else if s.totalStart = false then some { s with totalStart := true, evminStart := meterTotal }
  else some s

/-- One bucket added to the sum of its tariff. -/
def addTariff (sums : Vector (BitVec 32) 4) (bucket : Byte × BitVec 32) : Option (Vector (BitVec 32) 4) :=
  if bucket.1.toNat < 4 then some (sums.setIfInBounds bucket.1.toNat (sums.getD bucket.1.toNat 0 + bucket.2)) else none

/-- The buckets summed by tariff. -/
def daySums (s : Meter) : Option (Vector (BitVec 32) 4) :=
  (s.timeNo.toList.zip s.meterHalf.toList).foldlM addTariff (Vector.replicate 4 0)

/-- The powers of the day and the month. All four tariffs of the month are written to the first of them. -/
def setPowers (sums : Vector (BitVec 32) 4) (s : Meter) : Meter :=
  let j := sums.getD 0 0
  let f := sums.getD 1 0
  let p := sums.getD 2 0
  let g := sums.getD 3 0
  let month := { s.hisData.meterMonth with powerJ := s.monthOld.powerJ + j }
  let month := { month with powerJ := s.monthOld.powerF + f }
  let month := { month with powerJ := s.monthOld.powerP + p }
  let month := { month with powerJ := s.monthOld.powerG + g }
  { s with
    hisData :=
      { meterDay := ⟨j + f + p + g, j, f, p, g⟩
        meterMonth := { month with powerT := month.powerJ + month.powerF + month.powerP + month.powerG } } }

/-- The clock passes the check of the times. -/
def TimeLegal (clock : SystemTime) : Prop :=
  ¬ (bcdToInt clock.month > 12 ∨ bcdToInt clock.month < 1 ∨ bcdToInt clock.day > 31 ∨ bcdToInt clock.day < 1 ∨
    bcdToInt clock.hour > 24 ∨ bcdToInt clock.minute > 60)
deriving Decidable

/-- `cmMeter_electricity_calc`, at a time and with a total of the meter. -/
def cmMeterElectricityCalc (clock : SystemTime) (meterTotal : BitVec 32) (s : Meter) : Option Meter :=
  if TimeLegal clock then do
    let s ← setBucket clock meterTotal (startMonth clock (startDay clock s))
    let sums ← daySums s
    some (setPowers sums s)
  else some s

/-- The total last received from the meter, with the variables of the metering. -/
structure MeterThread where
  meterTotal : BitVec 32
  meter : Meter

/-- `meter_thread_entry` up to its loop. The tariffs and the half-hours are read back, where `none` is a read that fails. What the
half-hour holds is taken off the total, which is not known yet. -/
def meterThreadEntry (storedTimeNo : Option (Vector Byte 48)) (storedHalf : Option (Vector (BitVec 32) 48)) (clock : SystemTime) :
    MeterThread :=
  let timeNo := storedTimeNo.getD (cmMeterGJFModeInit (Vector.replicate 48 0))
  let hour := (bcdToInt clock.hour).toNat
  let cleared : Meter := ⟨Vector.replicate 48 0, zeroPower, ⟨zeroPower, zeroPower⟩, timeNo, 0, false, false, false, []⟩
  if hour < 24 then
    let half := storedHalf.getD (Vector.replicate 48 0)
    ⟨0, { cleared with meterHalf := half, evminStart := 0 - half.getD (hour * 2) 0 }⟩
  else ⟨0, cleared⟩

/-- One turn of the loop: a valid reply brings the total, a missing one leaves it. -/
def MeterThread.turn (clock : SystemTime) (reply : Option (BitVec 32)) (t : MeterThread) : Option MeterThread :=
  let meterTotal := reply.getD t.meterTotal
  (cmMeterElectricityCalc clock meterTotal t.meter).map fun meter => ⟨meterTotal, meter⟩

end EnergyRouter
