import EnergyRouter.Receive

/-!
# The frame builders

`link_request_package`, `connect_request_package` and `Report_Cmd_ChgPlanExeState` write the fields of a frame one after another,
leave gaps for the length field and the checks, and patch them at the end. What they do alike is written once (`openFrame`,
`closeFrame`).
-/

namespace EnergyRouter

/-- The fields of `_698_STATE` that say who the port is and how far the link has come. -/
structure State698 where
  linkFlag : Byte
  connectFlag : Byte
  tryLinkType : Int
  heartBeatTime0 : Byte
  heartBeatTime1 : Byte
  lastLinkRequsetTime : Vector Byte 10
  addr : Addr698
  piid : Byte
  meterAddrSendOk : Byte
  version : Vector Byte 2
  protocolconformance : Vector Byte 8
  functionconformance : Vector Byte 16
  connectOvertime : Vector Byte 4
  sessionKeyNegotiation : Int
  deriving DecidableEq, Repr

/-- The port at power-up: a static variable, hence zeroed. -/
def zeroState : State698 where
  linkFlag := 0
  connectFlag := 0
  tryLinkType := 0
  heartBeatTime0 := 0
  heartBeatTime1 := 0
  lastLinkRequsetTime := Vector.replicate 10 0
  addr := ⟨0, Vector.replicate 8 0, 0, 0⟩
  piid := 0
  meterAddrSendOk := 0
  version := Vector.replicate 2 0
  protocolconformance := Vector.replicate 8 0
  functionconformance := Vector.replicate 16 0
  connectOvertime := Vector.replicate 4 0
  sessionKeyNegotiation := 0

/-- `get_meter_addr`: the six address bytes. -/
def getMeterAddr (addr : Vector Byte 8) : Vector Byte 8 := Buffer.copyAt addr 0 [0x01, 0x00, 0x00, 0x00, 0x00, 0x00]

/-- The clock: the reading of each call of `get_current_time` during a function, by its number. -/
abbrev Clock := Nat → Vector Byte 10

/-- `get_current_time`: the source fills in a constant. -/
def getCurrentTime : Clock := fun _ => Vector.replicate 10 0xfe

/-- `init_698_state`: the identity and a link that was never tried. -/
def init698State (clock : Clock) (s : State698) : State698 :=
  { s with
    piid := 0
    version := #v[0x18, 0x19]
    addr := { sa := 0x05, sAddrLen := 6, sAddr := getMeterAddr s.addr.sAddr, ca := 0x00 }
    heartBeatTime0 := 0x00
    heartBeatTime1 := 0xb4
    lastLinkRequsetTime := clock 0
    tryLinkType := -1
    meterAddrSendOk := 0
    linkFlag := 0
    connectFlag := 0
    sessionKeyNegotiation := 0 }

/-- `save_char_point_data` at the end of the bytes in use, its result not looked at, as the builders call it. -/
def putBytes (hplcData : CharPointDataManage) (res : List Byte) : CharPointDataManage :=
  (saveCharPointData hplcData hplcData.dataSize res res.length).2

/-- Single bytes, stored one call each. -/
def putEach (hplcData : CharPointDataManage) (bytes : List Byte) : CharPointDataManage :=
  bytes.foldl (fun d b => putBytes d [b]) hplcData

/-- Leave a gap of two bytes. -/
def skipTwo (hplcData : CharPointDataManage) : CharPointDataManage := { hplcData with dataSize := hplcData.dataSize + 2 }

/-- The first part of a frame, up to the gap for the header check, with the places of the two gaps. `addr` is the address as the
builder fills it in. -/
def openFrame (hplcData : CharPointDataManage) (control : Byte) (addr : Addr698) : CharPointDataManage × Nat × Nat :=
  let d := putEach { hplcData with dataSize := 0 } [0x68]
  let lenPosition := d.dataSize
  let d := putEach (skipTwo d) [control, addr.sa]
  let d := (saveCharPointData d d.dataSize addr.sAddr.toList addr.sAddrLen).2
  let d := putEach d [addr.ca]
  let hcsPosition := d.dataSize
  let frame := { hplcData.frame698 with
    head := 0x68
    control := control
    addr := addr
    usrDataLen := 0
    usrData := 8 + addr.sAddrLen.toNat }
  ({ skipTwo d with frame698 := frame }, lenPosition, hcsPosition)

/-- The first part of an answer: like `openFrame`, but it starts with the first byte of the request it answers. -/
def openResponse (head : Byte) (hplcData : CharPointDataManage) (control : Byte) (addr : Addr698) :
    CharPointDataManage × Nat × Nat :=
  let d := putEach { hplcData with dataSize := 0 } [head]
  let lenPosition := d.dataSize
  let d := putEach (skipTwo d) [control, addr.sa]
  let d := (saveCharPointData d d.dataSize addr.sAddr.toList addr.sAddrLen).2
  let d := putEach d [addr.ca]
  let hcsPosition := d.dataSize
  let frame := { hplcData.frame698 with
    head := head
    control := control
    addr := addr
    usrDataLen := 0
    usrData := 8 + addr.sAddrLen.toNat }
  ({ skipTwo d with frame698 := frame }, lenPosition, hcsPosition)

/-- The last part of a frame, behind the user data: end character, length field and the two checks in their gaps. Only one of the
builders looks whether the frame became too long. -/
def closeFrame (hplcData : CharPointDataManage) (lenPosition hcsPosition : Nat) (checksSize : Bool) :
    Option (Int × CharPointDataManage) :=
  let fcsPosition := hplcData.dataSize
  let frame := { hplcData.frame698 with usrDataLen := (hplcData.dataSize : Int) - hcsPosition - 2, endChar := 0x16 }
  let d := { putEach (skipTwo hplcData) [0x16] with frame698 := frame }
  if checksSize ∧ d.dataSize > hplcDataMaxSize then some (-1, d)
  else do
    let length0 : Byte := BitVec.ofNat 8 ((d.dataSize - 2) % 256)
    let length1 : Byte := BitVec.ofNat 8 ((d.dataSize - 2) / 256)
    let bytes := (d.priveData.setIfInBounds lenPosition length0).setIfInBounds (lenPosition + 1) length1
    let (_, bytes) ← tryfcs16 bytes hcsPosition
    let (result, bytes') ← tryfcs16 bytes fcsPosition
    some (result, { d with
      priveData := bytes'
      frame698 := { frame with
        length0 := length0
        length1 := length1
        hcs0 := bytes.getD hcsPosition 0
        hcs1 := bytes.getD (hcsPosition + 1) 0
        fcs0 := bytes'.getD fcsPosition 0
        fcs1 := bytes'.getD (fcsPosition + 1) 0 } })

/-- The address of a frame whose builder copies the server address over the one in the buffer. -/
def copiedAddr (d : CharPointDataManage) (addr : Addr698) (ca : Byte) : Addr698 :=
  { sa := addr.sa
    sAddrLen := addr.sAddrLen
    sAddr := Buffer.copyAt d.frame698.addr.sAddr 0 (addr.sAddr.toList.take addr.sAddrLen.toNat)
    ca := ca }

/-- The seconds since the last link request, in the sixteen bits of a `short`. -/
def pastTime (currentTime lastTime : Vector Byte 10) : Int :=
  let since (i : Nat) : Int := ((currentTime.getD i 0).toNat : Int) - (lastTime.getD i 0).toNat
  (BitVec.ofInt 16 (since 5 * 60 * 60 + since 6 * 60 + since 7)).toInt

/-- The rest of a link request behind its kind: the heartbeat time, the clock and the end of the frame. -/
def closeLinkRequest (clock : Clock) (d : CharPointDataManage) (lenPosition hcsPosition : Nat) (s : State698) :
    Option (Int × CharPointDataManage × State698) := do
  let d := putEach d [s.heartBeatTime0, s.heartBeatTime1]
  let (result, d) ← closeFrame (putBytes d (clock 2).toList) lenPosition hcsPosition false
  some (result, d, s)

/-- `link_request_package`: a login before the link is up, a heartbeat once it is; 1 when neither is due. -/
def linkRequestPackage (clock : Clock) (hplcData : CharPointDataManage) (s : State698) :
    Option (Int × CharPointDataManage × State698) :=
  if pastTime (clock 0) s.lastLinkRequsetTime ≥ (s.heartBeatTime0.toNat : Int) * 256 + s.heartBeatTime1.toNat - 5 then
    let (d, lenPosition, hcsPosition) := openFrame hplcData (0x80 ||| 0x01) (copiedAddr hplcData s.addr 0x00)
    let d := putEach d [0x01]
    if s.linkFlag = 0 then
      closeLinkRequest clock (putEach d [0x00, 0x01]) lenPosition hcsPosition
        { s with tryLinkType := 0, lastLinkRequsetTime := clock 1 }
    else if s.connectFlag = 1 then
      closeLinkRequest clock (putEach d [0x01, 0x01]) lenPosition hcsPosition
        { s with tryLinkType := 1, lastLinkRequsetTime := clock 1 }
    else some (-1, d, s)
  else some (1, hplcData, s)

/-- `connect_request_package`. -/
def connectRequestPackage (hplcData : CharPointDataManage) (s : State698) : Option (Int × CharPointDataManage) :=
  let (d, lenPosition, hcsPosition) := openFrame hplcData (0x40 ||| 0x03) (copiedAddr hplcData s.addr s.addr.ca)
  let d := putEach d [0x02, s.piid]
  let d := putBytes d s.version.toList
  let d := putBytes d s.protocolconformance.toList
  let d := putBytes d s.functionconformance.toList
  let d := putEach d [0x04, 0x00, 0x04, 0x00, 0x01, 0x04, 0x00]
  let d := putBytes d s.connectOvertime.toList
  let d := putEach d [0x00, 0x00]
  closeFrame d lenPosition hcsPosition false

/-- `CHARGE_EXE_STATE`: the state of the charge plan that is being carried out. -/
structure ChargeExeState where
  cRequestNO : Vector Byte 17
  cAssetNO : Vector Byte 23
  exeState : Byte
  ulEleBottomValue : Vector (BitVec 32) 5
  ulEleActualValue : Vector (BitVec 32) 5
  ucChargeEle : Vector (BitVec 32) 5
  ucChargeTime : BitVec 32
  ucPlanPower : BitVec 32
  ucActualPower : BitVec 32
  ucVoltage : BitVec 16
  ucCurrent : BitVec 32
  chgPileState : Byte
  deriving DecidableEq, Repr

/-- The four bytes of a value, high byte first. -/
def bytesOf32 (v : BitVec 32) : List Byte :=
  [((v &&& 0xff000000#32) >>> 24).setWidth 8, ((v &&& 0x00ff0000#32) >>> 16).setWidth 8,
    ((v &&& 0x0000ff00#32) >>> 8).setWidth 8, (v &&& 0x000000ff#32).setWidth 8]

/-- An array of five tagged values: the total and the four tariffs. -/
def putValues (d : CharPointDataManage) (values : Vector (BitVec 32) 5) : CharPointDataManage :=
  values.toList.foldl (fun d v => putEach d (5 :: bytesOf32 v)) (putEach d [1, 5])

/-- `charge_exe_state_package`. In place of the meter reading at the start of the charge stands the present one. -/
def chargeExeStatePackage (priv : ChargeExeState) (hplcData : CharPointDataManage) : CharPointDataManage :=
  let d := putEach hplcData [2, 12, 9, 16]
  let d := putBytes d (priv.cRequestNO.toList.take 16)
  let d := putEach d [10, 22]
  let d := putBytes d (priv.cAssetNO.toList.take 22)
  let d := putEach d [22, priv.exeState]
  let d := putValues d priv.ulEleActualValue
  let d := putValues d priv.ulEleActualValue
  let d := putValues d priv.ucChargeEle
  let d := putEach d (6 :: bytesOf32 priv.ucChargeTime)
  let d := putEach d (5 :: bytesOf32 priv.ucPlanPower)
  let d := putEach d (5 :: bytesOf32 priv.ucActualPower)
  let d := putEach d [1, 1, 18, ((priv.ucVoltage &&& 0xff00#16) >>> 8).setWidth 8, (priv.ucVoltage &&& 0x00ff#16).setWidth 8]
  let d := putEach d ([1, 1, 5] ++ bytesOf32 priv.ucCurrent)
  putEach d [22, priv.chgPileState]

/-- `Report_Cmd_ChgPlanExeState`: the report of the plan's state, whose address is copied whole. -/
def reportCmdChgPlanExeState (reportChargeExeState : ChargeExeState) (hplcData : CharPointDataManage) (s : State698) :
    Option (Int × CharPointDataManage) :=
  let (d, lenPosition, hcsPosition) := openFrame hplcData (0x80 ||| 0x03) { s.addr with ca := 0x00 }
  let d := putEach d [0x88, 0x01, 0x09, 0x01, 0x34, 0x04, 0x06, 0x00, 0x01]
  let d := chargeExeStatePackage reportChargeExeState d
  let d := putEach d [0x00]
  closeFrame d lenPosition hcsPosition true

end EnergyRouter
