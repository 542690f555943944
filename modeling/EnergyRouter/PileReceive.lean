import EnergyRouter.Pile

/-!
# Frames the charge pile receives

`CAN_V110_RecProtocal`, one definition for each of its cases. A frame marked as repeated by the flag of its case is ignored. An
access outside of an array has no outcome.
-/

namespace EnergyRouter

/-- `struct rt_can_msg`. -/
structure CanMsg where
  id : BitVec 29
  data : Vector Byte 8
  deriving DecidableEq, Repr

/-- A byte of the data. -/
def CanMsg.byte (msg : CanMsg) (i : Nat) : Byte := msg.data.getD i 0

/-- The frame of a command number (PF). -/
def CanFrame.ofCode (code : Byte) : Option CanFrame :=
  match code.toNat with
  | 0x01 => some chargeStartFrame
  | 0x02 => some chargeStartFrameAck
  | 0x03 => some chargeStopFrame
  | 0x04 => some chargeStopFrameAck
  | 0x05 => some timingFrame
  | 0x06 => some timingFrameAck
  | 0x07 => some vertionCheckFrame
  | 0x08 => some vertionCheckFrameAck
  | 0x09 => some chargeParaInfoFrame
  | 0x0A => some chargeParaInfoFrameAck
  | 0x0B => some chargeServeOnOffFrame
  | 0x0C => some chargeServeOnOffFrameAck
  | 0x0D => some elecLockFrame
  | 0x0E => some elecLockFrameAck
  | 0x0F => some powerAdjustFrame
  | 0x10 => some powerAdjustFrameAck
  | 0x60 => some pileParaInfoFrame
  | 0x61 => some pileParaInfoFrameAck
  | 0x11 => some chargeStartStateFrame
  | 0x12 => some chargeStartStateFrameAck
  | 0x13 => some chargeStopStateFrame
  | 0x14 => some chargeStopStateFrameAck
  | 0x30 => some ycRecDataFrame
  | 0x31 => some ycSendDataFrame
  | 0x32 => some yxRecDataFrame
  | 0x33 => some yxBackupSendDataFrame
  | 0x40 => some heartSendFrame
  | 0x41 => some heartRecFrame
  | 0x51 => some sendErrorStateFrame
  | 0x52 => some recErrorStateFrame
  | 0xFE => some funPwmFrame
  | 0x70 => some updateBeginFrame
  | 0x71 => some updateBeginFrameAck
  | 0x72 => some dataSendReqFrame
  | 0x73 => some dataSendReqFrameAck
  | 0x74 => some dataSendFrame
  | 0x75 => some dataSendFrameAck
  | 0x76 => some updateCheckFrame
  | 0x77 => some updateCheckFrameAck
  | 0x78 => some resetFrame
  | 0x79 => some resetFrameAck
  | _ => none

/-- The frame a message carries (`pRxcmdstate`). -/
def CanMsg.frame (msg : CanMsg) : Option CanFrame := CanFrame.ofCode ((msg.id >>> 16).setWidth 8)

/-- Bytes added to a sum of any width. -/
def addBytes {w : Nat} (sum : BitVec w) (bytes : List Byte) : BitVec w := bytes.foldl (fun sum b => sum + b.setWidth w) sum

/-- The charging interface a frame names. -/
def Pile.ident (s : Pile) (chargIdent : Byte) : Pile := { s with system := { s.system with chargIdent := chargIdent } }

/-- The charging interface and the type of device a frame names. -/
def Pile.device (s : Pile) (chargIdent deviceType : Byte) : Pile :=
  { s with system := { s.system with chargIdent := chargIdent, deviceType := deviceType } }

/-- A case of the receiver that ignores repeated frames. -/
def onceOnly (flag : CanFrame) (run : Pile → Pile) (s : Pile) : Pile := if s.reSendFlag flag then s else run s

/-! ## Charging -/

/-- The answer to the frame to stop. -/
def recChargeStopFrameAck (msg : CanMsg) : Pile → Pile :=
  onceOnly .chargeStopFrame fun s =>
    { (s.setFlag .chargeStopFrame true).ident (msg.byte 0) with chgState := .waitStop, waitStopTime := 0 }

/-- The state of a start: in whatever state the pile is, a success makes it a charging one. -/
def recChargeStartStateFrame (msg : CanMsg) : Pile → Pile :=
  onceOnly .chargeStartStateFrameAck fun s =>
    let s := { s with
      system := { s.system with
        chargIdent := msg.byte 0
        ldSwitch := msg.byte 1
        confIdent := msg.byte 2
        startReson := msg.byte 3 } }
    let s :=
      if msg.byte 2 = successful then
        { informCommunicateCan .chargeStartStateFrameAck false s with chgState := .charging }.post .chargeStartOK
      else s
    s.setFlag .chargeStartStateFrameAck true

/-- The state of a stop. -/
def recChargeStopStateFrame (msg : CanMsg) : Pile → Pile :=
  onceOnly .chargeStopStateFrameAck fun s =>
    let s := { s with
      system := { s.system with chargIdent := msg.byte 0, stopReson := msg.byte 1, confIdent := msg.byte 2 } }
    let s :=
      if msg.byte 2 = successful then
        { informCommunicateCan .chargeStopStateFrameAck false s with chgState := .chargEnd }.post .chargeStopOK
      else s
    s.setFlag .chargeStopStateFrameAck true

/-! ## Set-up and control -/

/-- `Pro_Version`. -/
def proVersion : BitVec 16 := 0x0110

/-- The answer to the version check. -/
def recVertionCheckFrameAck (msg : CanMsg) : Pile → Pile :=
  onceOnly .vertionCheckFrame fun s =>
    let s := s.ident (msg.byte 0)
    if s.chgState = .waitVertionCheck ∧ proVersion = msg.byte 2 ++ msg.byte 1 then
      { s with chgState := .waitPilePara }.setFlag .vertionCheckFrame true
    else s

/-- The answer to the parameters: in whatever state the pile is, a success makes it a pile in standby. -/
def recChargeParaInfoFrameAck (msg : CanMsg) : Pile → Pile :=
  onceOnly .chargeParaInfoFrame fun s =>
    let s := s.ident (msg.byte 0)
    if msg.byte 1 = 0x00 then
      ({ s with chgState := .standby }.setFlag .vertionCheckFrameAck false).setFlag .ycSendDataFrame true
    else s

/-- The time a timing frame sets, when it is legal and in another minute. -/
def timingOf (msg : CanMsg) (clock : SystemTime) : Option SystemTime :=
  let second := (msg.byte 2 ++ msg.byte 1).toNat / 1000
  let minute := msg.byte 3 &&& 0x3F
  let hour := msg.byte 4 &&& 0x1F
  let day := msg.byte 5 &&& 0x1F
  let month := msg.byte 6 &&& 0x0F
  let year := msg.byte 7 &&& 0x7F
  if second ≤ 60 ∧ minute < 60 ∧ hour < 24 ∧ day ≤ 31 ∧ 1 ≤ day ∧ month ≤ 12 ∧ 1 ≤ month ∧ year < 100 ∧ minute ≠ clock.minute then
    some ⟨BitVec.ofNat 8 second, minute, hour, day, msg.byte 5 &&& 0xE0, month, year⟩
  else none

/-- The time. -/
def recTimingFrame (msg : CanMsg) : Pile → Pile :=
  onceOnly .timingFrameAck fun s =>
    let s := s.ident (msg.byte 0)
    informCommunicateCan .timingFrameAck true { s with clock := (timingOf msg s.clock).getD s.clock }

/-- The charging service switched on or off: answered only. -/
def recChargeServeOnOffFrame : Pile → Pile :=
  onceOnly .chargeServeOnOffFrameAck (informCommunicateCan .chargeServeOnOffFrameAck true)

/-- The electronic lock. -/
def recElecLockFrame (msg : CanMsg) : Pile → Pile :=
  onceOnly .elecLockFrameAck fun s =>
    let s := { s.ident (msg.byte 0) with elelock := ⟨msg.byte 1, msg.byte 2⟩ }
    let s :=
      if msg.byte 1 < 1 ∨ msg.byte 1 > 2 then { s with system := { s.system with replyState := failed, reaonIdent := 0x01 } }
      else s
    informCommunicateCan .elecLockFrameAck true s

/-- The power: answered only, every time. -/
def recPowerAdjustFrame (msg : CanMsg) : Pile → Pile :=
  onceOnly .powerAdjustFrameAck fun s => informCommunicateCan .powerAdjustFrameAck false (s.ident (msg.byte 0))

/-- The question for the configuration. -/
def recPileParaInfoFrame : Pile → Pile :=
  onceOnly .pileParaInfoFrameAck (informCommunicateCan .pileParaInfoFrameAck false)

/-! ## Telemetry -/

/-- The measured values, in four frames. -/
def recYcRecDataFrame (msg : CanMsg) (s : Pile) : Pile :=
  let s := { s with chgYc := { s.chgYc with mesNum := msg.byte 0 } }
  let body := msg.data.toList.drop 1
  if msg.byte 0 = 1 then
    { s.ident (msg.byte 4) with
      yc := { s.yc with chargVa := msg.byte 6 ++ msg.byte 5 }
      chgYc := { s.chgYc with tempanalog := msg.byte 7, addition := addBytes 0 body } }
  else if msg.byte 0 = 2 then
    { s with
      yc := { s.yc with
        chargVb := msg.byte 1 ++ s.chgYc.tempanalog
        chargVc := msg.byte 3 ++ msg.byte 2
        chargIa := msg.byte 5 ++ msg.byte 4
        chargIb := ((msg.byte 7).setWidth 16 <<< 7) + (msg.byte 6).setWidth 16 }
      chgYc := { s.chgYc with addition := addBytes s.chgYc.addition body } }
  else if msg.byte 0 = 3 then
    { s with
      yc := { s.yc with chargIc := msg.byte 2 ++ msg.byte 1, vCp1 := msg.byte 4 ++ msg.byte 3, tempt1 := msg.byte 7 }
      pwmDuty := BitVec.ofNat 32 ((msg.byte 6 ++ msg.byte 5).toNat / 10)
      chgYc := { s.chgYc with addition := addBytes s.chgYc.addition body } }
  else if msg.byte 0 = 4 then
    { s with
      yc := { s.yc with tempt2 := msg.byte 1, tempt3 := msg.byte 2, tempt4 := msg.byte 3 }
      chgYc := { s.chgYc with totalCheck := msg.byte 5 ++ msg.byte 4, addition := addBytes s.chgYc.addition (body.take 3) } }
  else s

/-- The heartbeat. -/
def recHeartRecFrame (msg : CanMsg) (s : Pile) : Pile :=
  { s with system := { s.system with chargIdent := msg.byte 0, recCount := msg.byte 1, recStatus := msg.byte 2 } }

/-! ## Update -/

/-- The command to update: in standby it only stops the timers. -/
def recUpdateBeginFrame (msg : CanMsg) : Pile → Pile :=
  onceOnly .updateBeginFrameAck fun s =>
    if s.chgState = .standby ∧ s.programUpdate.appMark = 0x00 then
      { s.device (msg.byte 0) (msg.byte 1) with heartTx := false, tx250ms := false }
    else s

/-- The request to send data. -/
def recDataSendReqFrame (msg : CanMsg) (s : Pile) : Pile :=
  if s.chgState = .update then
    { s.device (msg.byte 0) (msg.byte 1) with
      programUpdate := { s.programUpdate with
        fileTotalNo := (msg.byte 3 ++ msg.byte 2).setWidth 32
        fileByteNo := msg.byte 7 ++ msg.byte 6 ++ msg.byte 5 ++ msg.byte 4 } }
  else s

/-- Bytes copied to `STMFLASH_BUFF` behind what it holds. -/
def writeFlash (s : Pile) (bytes : List Byte) : Option (Vector Byte flashBufLen) :=
  if s.flashLenth.toNat + bytes.length ≤ flashBufLen then some (Buffer.copyAt s.flashBuff s.flashLenth.toNat bytes) else none

/-- The first frame of a package: its length, the number of its frames and two bytes. -/
def recFirstData (msg : CanMsg) (s : Pile) : Option Pile := do
  let flashBuff ← writeFlash s [msg.byte 6, msg.byte 7]
  some { s.device (msg.byte 4) (msg.byte 5) with
    chgUpdate := { s.chgUpdate with
      frameNum := msg.byte 1
      valDataLen := msg.byte 3 ++ msg.byte 2
      additionUp := addBytes 0 (msg.data.toList.drop 1) }
    flashBuff := flashBuff
    flashLenth := s.flashLenth + 2
    programUpdate := { s.programUpdate with
      updateMessageNo := s.programUpdate.updateMessageNo + 1
      additionAll := addBytes s.programUpdate.additionAll [msg.byte 6, msg.byte 7] } }

/-- A frame in the middle of a package: seven bytes. -/
def recNextData (msg : CanMsg) (s : Pile) : Option Pile := do
  let flashBuff ← writeFlash s (msg.data.toList.drop 1)
  some { s with
    flashBuff := flashBuff
    flashLenth := s.flashLenth + 7
    programUpdate := { s.programUpdate with updateMessageNo := s.programUpdate.updateMessageNo + 1 } }

/-- A package whose check fails is asked for again; after the third time the update is given up. -/
def dataError (s : Pile) : Pile :=
  let s := { s with chgUpdate := { s.chgUpdate with errResendCount := s.chgUpdate.errResendCount + 1 } }
  if s.chgUpdate.errResendCount ≥ 3 then
    let s := { s with
      flashLenth := 0
      chgUpdate := { s.chgUpdate with updateConfIdent := 0x01, noDownloadReason := 0x01 }
      programUpdate := { s.programUpdate with updateMessageNo := 0x00, updatePackageNo := 0x01 } }
    let s := informCommunicateCan .dataSendFrameAck false s
    let s := { s with programUpdate := { s.programUpdate with appMark := 0x00 } }
    let s := informCommunicateCan .sendErrorStateFrame false s
    { s with
      chgUpdate := { s.chgUpdate with errResendCount := 0 }
      chgState := .standby
      heartTx := true
      tx250ms := true }
  else
    let s := { s with
      flashLenth := 0
      chgUpdate := { s.chgUpdate with updateConfIdent := 0x01, noDownloadReason := 0x01 } }
    let s := informCommunicateCan .dataSendFrameAck false s
    { s with programUpdate := { s.programUpdate with updateMessageNo := 0x01 } }

/-- The number of bytes the last frame of a package is said to hold. -/
def lastDataLen (s : Pile) : Nat := (s.chgUpdate.valDataLen.setWidth 32 - s.flashLenth).toNat

/-- The length of the package without its check. -/
def packageLen (s : Pile) : BitVec 32 := s.chgUpdate.valDataLen.setWidth 32 - 2

/-- The package with its last frame stored: its sums, and the check it came with. -/
def sumPackage (flashBuff : Vector Byte flashBufLen) (s : Pile) : Pile :=
  let len := (packageLen s).toNat
  let body := (flashBuff.toList.take len).drop 2
  { s with
    flashBuff := flashBuff
    flashLenth := packageLen s
    chgUpdate := { s.chgUpdate with
      additionUp := addBytes s.chgUpdate.additionUp body
      revCheckUp := flashBuff.getD (len + 1) 0 ++ flashBuff.getD len 0 }
    programUpdate := { s.programUpdate with additionAll := addBytes s.programUpdate.additionAll body } }

/-- The last frame of a package. -/
def recLastData (msg : CanMsg) (s : Pile) : Option Pile :=
  if lastDataLen s ≤ 7 then do
    let flashBuff ← writeFlash s ((msg.data.toList.drop 1).take (lastDataLen s))
    if (packageLen s).toNat + 1 < flashBufLen then
      let s := sumPackage flashBuff s
      some (if s.chgUpdate.additionUp = s.chgUpdate.revCheckUp then s else dataError s)
    else none
  else none

/-- The number of a data frame is noted. -/
def Pile.message (s : Pile) (messageNum : Byte) : Pile := { s with chgUpdate := { s.chgUpdate with messageNum := messageNum } }

/-- The data of an update. -/
def recDataSendFrame (msg : CanMsg) (s : Pile) : Option Pile :=
  if msg.byte 0 = 1 then recFirstData msg (s.message (msg.byte 0))
  else if msg.byte 0 = s.programUpdate.updateMessageNo then
    if s.chgUpdate.frameNum = s.programUpdate.updateMessageNo then recLastData msg (s.message (msg.byte 0))
    else recNextData msg (s.message (msg.byte 0))
  else some (s.message (msg.byte 0))

/-- The check over all packages. -/
def recUpdateCheckFrame (msg : CanMsg) (s : Pile) : Pile :=
  let s := s.device (msg.byte 0) (msg.byte 1)
  let s :=
    if s.programUpdate.additionAll = msg.byte 5 ++ msg.byte 4 ++ msg.byte 3 ++ msg.byte 2 then
      { s with
        programUpdate := { s.programUpdate with updateConfirm := 0 }
        chgUpdate := { s.chgUpdate with updateConfIdent := 0x00, noDownloadReason := 0x00 } }
    else
      { s with
        programUpdate := { s.programUpdate with updateConfirm := 0x01 }
        chgUpdate := { s.chgUpdate with updateConfIdent := 0x01, noDownloadReason := 0x01 } }
  informCommunicateCan .updateCheckFrameAck false s

/-- The system starts again; what was sent and posted stays so. -/
def systemReset (s : Pile) : Pile := { initPile with sent := s.sent, events := s.events }

/-- The command to start again. -/
def recResetFrame (msg : CanMsg) (s : Pile) : Pile :=
  let s := s.device (msg.byte 0) (msg.byte 1)
  let s := { s with system := { s.system with resetAct := msg.byte 2 } }
  if msg.byte 2 = 0xAA then systemReset (informCommunicateCan .resetFrameAck false s) else s

/-! ## The receiver -/

/-- `CAN_V110_RecProtocal`. -/
def canV110RecProtocal (msg : CanMsg) (s : Pile) : Option Pile :=
  match msg.frame with
  | some .chargeStopFrameAck => some (recChargeStopFrameAck msg s)
  | some .timingFrame => some (recTimingFrame msg s)
  | some .vertionCheckFrameAck => some (recVertionCheckFrameAck msg s)
  | some .chargeParaInfoFrameAck => some (recChargeParaInfoFrameAck msg s)
  | some .chargeServeOnOffFrame => some (recChargeServeOnOffFrame s)
  | some .elecLockFrame => some (recElecLockFrame msg s)
  | some .powerAdjustFrame => some (recPowerAdjustFrame msg s)
  | some .chargeStartStateFrame => some (recChargeStartStateFrame msg s)
  | some .chargeStopStateFrame => some (recChargeStopStateFrame msg s)
  | some .ycRecDataFrame => some (recYcRecDataFrame msg s)
  | some .yxRecDataFrame => some (s.ident (msg.byte 0))
  | some .heartRecFrame => some (recHeartRecFrame msg s)
  | some .recErrorStateFrame => some (s.ident (msg.byte 0))
  | some .pileParaInfoFrame => some (recPileParaInfoFrame s)
  | some .updateBeginFrame => some (recUpdateBeginFrame msg s)
  | some .dataSendReqFrame => some (recDataSendReqFrame msg s)
  | some .dataSendFrame => recDataSendFrame msg s
  | some .updateCheckFrame => some (recUpdateCheckFrame msg s)
  | some .resetFrame => some (recResetFrame msg s)
  | _ => some s

end EnergyRouter
