import EnergyRouter.Lib.Buffer
import EnergyRouter.Meter

/-!
# The charge pile

The state machine of `chargepile.c`: the state of the pile, the local commands (`ChargepileDataGetSet`), the task and the timer of
its run time. What is received is in `EnergyRouter.PileReceive`.
-/

namespace EnergyRouter

/-- The frames of the CAN protocol. -/
inductive CanFrame
  | chargeStartFrame | chargeStartFrameAck | chargeStopFrame | chargeStopFrameAck | timingFrame | timingFrameAck
  | vertionCheckFrame | vertionCheckFrameAck | chargeParaInfoFrame | chargeParaInfoFrameAck
  | chargeServeOnOffFrame | chargeServeOnOffFrameAck | elecLockFrame | elecLockFrameAck | powerAdjustFrame | powerAdjustFrameAck
  | pileParaInfoFrame | pileParaInfoFrameAck
  | chargeStartStateFrame | chargeStartStateFrameAck | chargeStopStateFrame | chargeStopStateFrameAck
  | ycRecDataFrame | ycSendDataFrame | yxRecDataFrame | yxBackupSendDataFrame | heartSendFrame | heartRecFrame
  | sendErrorStateFrame | recErrorStateFrame | funPwmFrame
  | updateBeginFrame | updateBeginFrameAck | dataSendReqFrame | dataSendReqFrameAck | dataSendFrame | dataSendFrameAck
  | updateCheckFrame | updateCheckFrameAck | resetFrame | resetFrameAck
  deriving DecidableEq, Repr

/-- `CHG_PILE_STATE_E`. -/
inductive PileState
  | powerON | waitVertionCheck | waitPilePara | standby | recChargStartCmd | chargStart | chargStartErr | actStartOK | actStartErr
  | chargStartOK | waitChargeStartFrameAsk | charging | toCheck | autoCheck | actStopOK | actStopErr | waitStop | errStop
  | chargEnd | update | updateData | waitChargeStopFrameAsk
  deriving DecidableEq, Repr

/-- `PILE_EVENT_TYPE`: the events posted to the energy control. -/
inductive PileEvent
  | chargeStartOK | chargeStartER | chargeStopOK | chargeStopER | setPowerOK | setPowerER | pileComFau
  deriving DecidableEq, Repr

/-- The fields of `STR_STATE_SYSTEM` that received frames set. -/
structure StateSystem where
  chargIdent : Byte
  deviceType : Byte
  replyState : Byte
  ldSwitch : Byte
  recStatus : Byte
  recCount : Byte
  reaonIdent : Byte
  confIdent : Byte
  startReson : Byte
  stopReson : Byte
  resetAct : Byte
  deriving DecidableEq, Repr

/-- `STR_ELELOCK_CONTROL`. -/
structure ElelockControl where
  num : Byte
  elelock : Byte
  deriving DecidableEq, Repr

/-- The fields of `STR_YC` that received frames set. -/
structure Yc where
  chargVa : BitVec 16
  chargVb : BitVec 16
  chargVc : BitVec 16
  chargIa : BitVec 16
  chargIb : BitVec 16
  chargIc : BitVec 16
  vCp1 : BitVec 16
  tempt1 : Byte
  tempt2 : Byte
  tempt3 : Byte
  tempt4 : Byte
  deriving DecidableEq, Repr

/-- The fields of `CHG_YC` that received frames set, and the low byte kept for the next frame (`tempanalog`). -/
structure ChgYc where
  mesNum : Byte
  addition : BitVec 16
  totalCheck : BitVec 16
  tempanalog : Byte
  deriving DecidableEq, Repr

/-- `CHG_UPDATE`. -/
structure ChgUpdate where
  updateConfIdent : Byte
  noDownloadReason : Byte
  messageNum : Byte
  frameNum : Byte
  valDataLen : BitVec 16
  additionUp : BitVec 16
  revCheckUp : BitVec 16
  errResendCount : Byte
  deriving DecidableEq, Repr

/-- The fields of `Update_TypeDef` that received frames use. -/
structure ProgramUpdate where
  appMark : BitVec 32
  updatePackageNo : BitVec 32
  fileTotalNo : BitVec 32
  fileByteNo : BitVec 32
  updateConfirm : BitVec 32
  updateMessageNo : Byte
  additionAll : BitVec 32
  deriving DecidableEq, Repr

/-- The fields of `ChargPilePara_TypeDef` that local commands use. -/
structure PilePara where
  pwmDuty : BitVec 32
  startReson : BitVec 32
  stopReson : BitVec 32
  deriving DecidableEq, Repr

/-- `FlashBufLenMax` and the two check bytes behind it. -/
def flashBufLen : Nat := 1026

/-- The static variables of `chargepile.c`. `reSendFlag` are the flags of `STR_STATE_FRAME`; `sent` and `events` are the frames sent
and the events posted so far, oldest first. -/
structure Pile where
  chgState : PileState
  pwmDuty : BitVec 32
  reSendFlag : CanFrame → Bool
  system : StateSystem
  elelock : ElelockControl
  clock : SystemTime
  yc : Yc
  chgYc : ChgYc
  chgUpdate : ChgUpdate
  programUpdate : ProgramUpdate
  flashBuff : Vector Byte flashBufLen
  flashLenth : BitVec 32
  para : PilePara
  runTime : BitVec 32
  waitStopTime : BitVec 16
  heartTx : Bool
  tx250ms : Bool
  sent : List CanFrame
  events : List PileEvent

/-- Set one of the flags. -/
def Pile.setFlag (s : Pile) (frame : CanFrame) (flag : Bool) : Pile :=
  { s with reSendFlag := fun f => if f = frame then flag else s.reSendFlag f }

/-- `rt_event_send` to the energy control. -/
def Pile.post (s : Pile) (e : PileEvent) : Pile := { s with events := s.events ++ [e] }

/-- The frames `Inform_Communicate_Can` has a case for. -/
def CanFrame.sendable : CanFrame → Bool
  | chargeStartFrame | chargeStopFrame | timingFrame | timingFrameAck | vertionCheckFrame | chargeParaInfoFrame
  | chargeServeOnOffFrame | chargeServeOnOffFrameAck | elecLockFrame | elecLockFrameAck | powerAdjustFrame | powerAdjustFrameAck
  | chargeStartStateFrameAck | chargeStopStateFrameAck | ycSendDataFrame | heartSendFrame | sendErrorStateFrame
  | pileParaInfoFrameAck | updateBeginFrameAck | dataSendReqFrameAck | dataSendFrameAck | updateCheckFrameAck
  | resetFrameAck => true
  | _ => false

/-- `Inform_Communicate_Can`: a frame is sent, and its flag is set, if it has one, when it is to be sent again. -/
def informCommunicateCan (sendCmd : CanFrame) (resend : Bool) (s : Pile) : Pile :=
  if sendCmd.sendable then
    let s := { s with sent := s.sent ++ [sendCmd] }
    if resend ∧ sendCmd ≠ .ycSendDataFrame ∧ sendCmd ≠ .heartSendFrame then s.setFlag sendCmd true else s
  else s

/-! ## Local commands -/

/-- `COMM_CMD_P`. -/
inductive CommCmdP
  | chargeStart | chargeStartResp | chargeStop | chargeStopResp | setPower | getPower | setPowerResp | rdVertion | rdVoltCurrPara
  deriving DecidableEq, Repr

/-- `SUCCESSFUL` and `FAILED`. -/
def successful : Byte := 0

def failed : Byte := 1

/-- A local start: accepted in standby only. -/
def chargeStart (s : Pile) : Byte × Pile :=
  if s.chgState = .standby then (successful, { s with chgState := .chargStart }) else (failed, s)

/-- A local stop: accepted while charging only. -/
def chargeStop (s : Pile) : Byte × Pile :=
  if s.chgState = .charging then (successful, { s with chgState := .toCheck }) else (failed, s)

/-- `ChargepileDataGetSet`: the result, the parameter after the call, `none` for a null pointer, and the pile. Reading or writing
through a null pointer has no outcome. -/
def chargepileDataGetSet (cmd : CommCmdP) (para : Option PilePara) (s : Pile) : Option (Byte × Option PilePara × Pile) :=
  match cmd with
  | .chargeStart => some ((chargeStart s).1, para, (chargeStart s).2)
  | .chargeStartResp => para.map fun p => (successful, some { p with startReson := s.para.startReson }, s)
  | .chargeStop => some ((chargeStop s).1, para, (chargeStop s).2)
  | .chargeStopResp => para.map fun p => (successful, some { p with stopReson := s.para.stopReson }, s)
  | .setPower => para.map fun p => (successful, some p, { s with para := { s.para with pwmDuty := p.pwmDuty } })
  | .getPower => para.map fun p => (successful, some { p with pwmDuty := s.para.pwmDuty }, s)
  | .rdVertion => some (successful, para, s)
  | .rdVoltCurrPara => some (successful, para, s)
  -- no case of its own
  | .setPowerResp => some (failed, para, s)

/-! ## The task -/

/-- The pile as the task starts it: static variables are zero. -/
def initPile : Pile where
  chgState := .waitVertionCheck
  pwmDuty := 0
  reSendFlag := fun _ => false
  system := ⟨0, 0, 0, 0x01, 0, 0, 0, 0, 0, 0, 0⟩
  elelock := ⟨0, 0⟩
  clock := ⟨0, 0, 0, 0, 0, 0, 0⟩
  yc := ⟨2200, 2200, 2200, 0, 0, 0, 0, 0, 0, 0, 0⟩
  chgYc := ⟨0, 0, 0, 0⟩
  chgUpdate := ⟨0, 0, 0, 0, 0, 0, 0, 0⟩
  programUpdate := ⟨0, 0, 0, 0, 0, 0, 0⟩
  flashBuff := Vector.replicate flashBufLen 0
  flashLenth := 0
  para := ⟨0, 0, 0⟩
  runTime := 0
  waitStopTime := 0
  heartTx := true
  tx250ms := true
  sent := []
  events := []

/-- The orders the task gives itself: a start every 5 s in standby, a stop every 10 s while charging. -/
def taskOrder (s : Pile) : Pile :=
  if s.chgState = .standby ∧ s.runTime % 5 = 0 then (chargeStart s).2
  else if s.chgState = .charging ∧ s.runTime % 10 = 0 then (chargeStop s).2
  else s

/-- The switch of the task over the state. After the frame to stop it waits for a start again. -/
def taskSwitch (s : Pile) : Pile :=
  match s.chgState with
  | .waitVertionCheck => informCommunicateCan .vertionCheckFrame false s
  | .waitPilePara => informCommunicateCan .chargeParaInfoFrame false s
  | .chargStart => { informCommunicateCan .chargeStartFrame false s with chgState := .waitChargeStartFrameAsk }
  | .toCheck => { informCommunicateCan .chargeStopFrame false s with chgState := .waitChargeStartFrameAsk }
  | .chargEnd =>
    { s with
      reSendFlag := fun f => f = .ycSendDataFrame ∨ f = .yxBackupSendDataFrame
      chgState := .standby }
  | _ => s

/-- One turn of `chargepile_thread_entry`, every 500 ms. -/
def chargepileTurn (s : Pile) : Pile := taskSwitch (taskOrder s)

/-- `CAN_Heart_Tx_callback`, every second while its timer runs. -/
def canHeartTxCallback (s : Pile) : Pile :=
  if s.heartTx then { s with runTime := s.runTime + 1, waitStopTime := s.waitStopTime + 1 } else s

end EnergyRouter
