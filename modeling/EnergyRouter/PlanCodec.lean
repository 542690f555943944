import EnergyRouter.Build
import EnergyRouter.Plan

/-!
# The charge plan on the wire

`charge_strategy_package` writes a plan, `action_response_charge_strategy` reads one out of the user data of a request. A read or a
write outside of an array has no outcome in the model.
-/

namespace EnergyRouter

open Buffer

/-! ## Writing a plan -/

/-- A digit pair of `STR_SYSTEM_TIME_to__date_time_s`. The sum binds before the mask, so of a pair only four bits are left. -/
def dateDigits (tens ones : Byte) : Byte := ((tens >>> 4) * 10 + ones) &&& 0x0f

/-- `STR_SYSTEM_TIME_to__date_time_s`. The month's low digit is taken from the year. -/
def strSystemTimeToDateTimeS (t : SystemTime) : List Byte :=
  [20, dateDigits t.year t.year, dateDigits t.month t.year, dateDigits t.day t.day, dateDigits t.hour t.hour,
    dateDigits t.minute t.minute, dateDigits t.second t.second]

/-- One time slot: a structure of two times and a power. -/
def putSolt (d : CharPointDataManage) (solt : ChargeTimesolt) : CharPointDataManage :=
  let d := putEach d [2, 3, 28]
  let d := putBytes d (strSystemTimeToDateTimeS solt.strDecStartTime)
  let d := putEach d [28]
  let d := putBytes d (strSystemTimeToDateTimeS solt.strDecStopTime)
  putEach d (5 :: bytesOf32 solt.ulChargePow)

/-- The loop over the time slots from slot `i` on. Its condition compares `j`, which no turn changes. -/
def putSolts : List ChargeTimesolt → CharPointDataManage → Option CharPointDataManage
  | [], _ => none
  | solt :: solts, d => putSolts solts (putSolt d solt)

/-- `charge_strategy_package`. In place of the charge mode stands the kind of decision a second time. -/
def chargeStrategyPackage (p : ChargeStrategy) (hplcData : CharPointDataManage) : Option CharPointDataManage :=
  let d := putEach hplcData [2, 10, 9, 16]
  let d := putBytes d (p.cRequestNO.toList.take 16)
  let d := putEach d [10, 64]
  let d := putBytes d (p.cUserID.toList.take 64)
  let d := putEach d [22, p.ucDecMaker, 22, p.ucDecType, 28]
  let d := putBytes d (strSystemTimeToDateTimeS p.strDecTime)
  let d := putEach d [10, 22]
  let d := putBytes d (p.cAssetNO.toList.take 22)
  let d := putEach d (6 :: bytesOf32 p.ulChargeReqEle)
  let d := putEach d (5 :: bytesOf32 p.ulChargeRatePow)
  let d := putEach d [22, p.ucDecType, 1, p.ucTimeSlotNum]
  if p.ucTimeSlotNum = 0 then some d else putSolts p.strChargeTimeSolts.toList d

/-! ## Reading a plan -/

/-- A string whose first byte is its length, copied together with that byte, and the number of bytes copied. -/
def takeString {n : Nat} (usrData : List Byte) (i : Nat) (dst : Vector Byte n) : Option (Nat × Vector Byte n) := do
  let len := (← usrData[i]?).toNat + 1
  if i + len ≤ usrData.length ∧ len ≤ n then some (len, copyAt dst 0 ((usrData.drop i).take len)) else none

/-- Four bytes of a number. The first byte is read twice and the last not at all. -/
def takeLong (usrData : List Byte) (i : Nat) : Option (BitVec 32) := do
  let b₀ ← usrData[i]?
  let b₁ ← usrData[i + 1]?
  let b₂ ← usrData[i + 2]?
  some ((b₀.setWidth 32 <<< 24) + (b₀.setWidth 32 <<< 16) + (b₁.setWidth 32 <<< 8) + b₂.setWidth 32)

/-- The time of the decision. The year's byte is read again for the month. -/
def takeDecTime (usrData : List Byte) (i : Nat) (t : SystemTime) : Option SystemTime := do
  let year ← usrData[i]?
  let month ← usrData[i]?
  let day ← usrData[i + 1]?
  let hour ← usrData[i + 2]?
  let minute ← usrData[i + 3]?
  let second ← usrData[i + 4]?
  some { t with year := year, month := month, day := day, hour := hour, minute := minute, second := second }

/-- A time of a slot: the year out of two bytes, the second of which is read again for the month. -/
def takeSoltTime (usrData : List Byte) (i : Nat) (t : SystemTime) : Option SystemTime := do
  let high ← usrData[i]?
  let low ← usrData[i + 1]?
  let month ← usrData[i + 1]?
  let day ← usrData[i + 2]?
  let hour ← usrData[i + 3]?
  let minute ← usrData[i + 4]?
  let second ← usrData[i + 5]?
  some { t with
    year := BitVec.ofNat 8 ((high.toNat * 256 + low.toNat) % 2000)
    month := month
    day := day
    hour := hour
    minute := minute
    second := second }

/-- The loop over the time slots: `n` more of them, slot `j` next, whose bytes begin at `i`. -/
def takeSolts (usrData : List Byte) : Nat → Nat → Nat → Vector ChargeTimesolt timeSoltMax → Option (Vector ChargeTimesolt timeSoltMax)
  | 0, _, _, solts => some solts
  | n + 1, j, i, solts => do
    let old := solts.getD j ⟨zeroTime, zeroTime, 0⟩
    let i := i + 3
    let start ← takeSoltTime usrData i old.strDecStartTime
    let i := i + 6 + 8
    let stop ← takeSoltTime usrData i old.strDecStopTime
    let i := i + 6 + 8
    let power ← takeLong usrData i
    if j < timeSoltMax then takeSolts usrData n (j + 1) (i + 3) (solts.setIfInBounds j ⟨start, stop, power⟩) else none

/-- `action_response_charge_strategy`. It skips one byte too many in front of the first string, and stores neither the charge mode
nor the number of slots. -/
def actionResponseChargeStrategy (p : ChargeStrategy) (usrData : List Byte) (timeFlagPositon : Nat) : Option ChargeStrategy := do
  let i := timeFlagPositon + 1
  let _members ← usrData[i]?
  let i := i + 1 + 2
  let (len, cRequestNO) ← takeString usrData i p.cRequestNO
  let i := i + len + 1
  let (len, cUserID) ← takeString usrData i p.cUserID
  let i := i + len + 1
  let ucDecMaker ← usrData[i]?
  let i := i + 2
  let ucDecType ← usrData[i]?
  let i := i + 3
  let strDecTime ← takeDecTime usrData i p.strDecTime
  let i := i + 5 + 2
  let (len, cAssetNO) ← takeString usrData i p.cAssetNO
  let i := i + len + 1
  let ulChargeReqEle ← takeLong usrData i
  let i := i + 3 + 2
  let ulChargeRatePow ← takeLong usrData i
  let i := i + 3 + 2
  let count ← usrData[i]?
  let solts ← takeSolts usrData count.toNat 0 (i + 1) p.strChargeTimeSolts
  some { p with
    cRequestNO := cRequestNO
    cUserID := cUserID
    ucDecMaker := ucDecMaker
    ucDecType := ucDecType
    strDecTime := strDecTime
    cAssetNO := cAssetNO
    ulChargeReqEle := ulChargeReqEle
    ulChargeRatePow := ulChargeRatePow
    strChargeTimeSolts := solts }

end EnergyRouter
