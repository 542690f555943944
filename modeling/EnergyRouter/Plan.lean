import EnergyRouter.Control
import EnergyRouter.Meter

/-!
# The charge plan

`CHARGE_STRATEGY`: the plan the 698 thread receives, hands to the energy control (`CtrlUnit_RecResp`, in most cases by
`copy_charge_strategy`) and sends back.
-/

namespace EnergyRouter

/-- `CHARGE_TIMESOLT`. -/
structure ChargeTimesolt where
  strDecStartTime : SystemTime
  strDecStopTime : SystemTime
  ulChargePow : BitVec 32
  deriving DecidableEq, Repr

/-- The number of time slots a plan has room for. -/
def timeSoltMax : Nat := 50

/-- `CHARGE_STRATEGY`. -/
structure ChargeStrategy where
  cRequestNO : Vector Byte 17
  cAssetNO : Vector Byte 23
  cUserID : Vector Byte 65
  gunNum : Byte
  ucDecMaker : Byte
  ucDecType : Byte
  strDecTime : SystemTime
  ulChargeReqEle : BitVec 32
  ulChargeRatePow : BitVec 32
  ucChargeMode : Byte
  ucTimeSlotNum : Byte
  strChargeTimeSolts : Vector ChargeTimesolt timeSoltMax
  deriving DecidableEq, Repr

/-- Cleared time. -/
def zeroTime : SystemTime := ⟨0, 0, 0, 0, 0, 0, 0⟩

/-- A cleared plan. -/
def zeroPlan : ChargeStrategy where
  cRequestNO := Vector.replicate 17 0
  cAssetNO := Vector.replicate 23 0
  cUserID := Vector.replicate 65 0
  gunNum := 0
  ucDecMaker := 0
  ucDecType := 0
  strDecTime := zeroTime
  ulChargeReqEle := 0
  ulChargeRatePow := 0
  ucChargeMode := 0
  ucTimeSlotNum := 0
  strChargeTimeSolts := Vector.replicate timeSoltMax ⟨zeroTime, zeroTime, 0⟩

/-- Slot number `i` of a plan. -/
def ChargeStrategy.slot (p : ChargeStrategy) (i : Nat) : ChargeTimesolt := p.strChargeTimeSolts.getD i ⟨zeroTime, zeroTime, 0⟩

/-- `copy_charge_strategy`. The number of the gun is not copied, and of the time slots only the first. -/
def copyChargeStrategy (des src : ChargeStrategy) : ChargeStrategy :=
  { des with
    cRequestNO := src.cRequestNO
    cUserID := src.cUserID
    ucDecMaker := src.ucDecMaker
    ucDecType := src.ucDecType
    strDecTime := src.strDecTime
    cAssetNO := src.cAssetNO
    ulChargeReqEle := src.ulChargeReqEle
    ulChargeRatePow := src.ulChargeRatePow
    ucChargeMode := src.ucChargeMode
    ucTimeSlotNum := src.ucTimeSlotNum
    strChargeTimeSolts := des.strChargeTimeSolts.setIfInBounds 0 (src.slot 0) }

/-- The plans of the port, and what the pointer of a call of `CtrlUnit_RecResp` points at: a plan, the plans behind it, and their
number. -/
structure Plans where
  chargeStrategyChgPlanIssue : ChargeStrategy
  chargeStrategyChgPlanAdjust : ChargeStrategy
  chargeStrategyChgRecord : ChargeStrategy
  chargeStrategy698 : List ChargeStrategy
  setPara : ChargeStrategy
  behind : List ChargeStrategy
  count : Nat

/-- The plans a call names. -/
def Plans.named (w : Plans) : List ChargeStrategy := (w.setPara :: w.behind).take w.count

/-- What `CtrlUnit_RecResp` copies of plans. An adjusted plan is assigned as a whole, and of the plans of a query the port keeps the
pointer. -/
def Plans.copy (cmd : CommCmd) (w : Plans) : Plans :=
  match cmd with
  | .chgPlanIssue => { w with setPara := copyChargeStrategy w.setPara w.chargeStrategyChgPlanIssue }
  | .chgPlanAdjust => { w with setPara := w.chargeStrategyChgPlanAdjust }
  | .chgRecord => { w with chargeStrategyChgRecord := copyChargeStrategy w.chargeStrategyChgRecord w.setPara }
  | .chgPlanIssueGetAck => { w with chargeStrategy698 := w.named }
  | _ => w

end EnergyRouter
