import EnergyRouter.Build
import EnergyRouter.Esam

/-!
# Serving a received frame

`rev_698_del_affairs` calls the routine of the service that the first byte of the user data names. A security request is unwrapped
first: what the ESAM's buffer then holds takes the place of the user data. The routines are parameters; the model records which of
them ran and on which user data.
-/

namespace EnergyRouter

open Buffer

/-- A byte of the user data. -/
def CharPointDataManage.usrByte (d : CharPointDataManage) (i : Nat) : Option Byte := d.priveData[d.frame698.usrData + i]?

/-- The user data as the frame delimits it. -/
def CharPointDataManage.apdu (d : CharPointDataManage) : List Byte :=
  (d.priveData.toList.drop d.frame698.usrData).take d.frame698.usrDataLen.toNat

/-- `my_strcpy` of a part of the user data behind the bytes to be sent, and their new number. -/
def appendTx (d : CharPointDataManage) (position len : Nat) (comm : ScmEsamComm) : Option ScmEsamComm :=
  let bytes := (d.priveData.toList.drop (d.frame698.usrData + position)).take len
  if bytes.length = len ∧ (len = 0 ∨ comm.dataTxLen + len ≤ 1024) then
    some { comm with txData := copyAt comm.txData comm.dataTxLen bytes, dataTxLen := (comm.dataTxLen + len) % 2 ^ 16 }
  else none

/-- `unpatch_ScmEsam_Comm`: the parts of a security request in the order the ESAM wants them. The attached data are looked for
`len_data` bytes behind the SID, and a request with a random number is appended to what the buffer held. -/
def unpatchScmEsamComm (hplcData : CharPointDataManage) (comm : ScmEsamComm) : Option ScmEsamComm := do
  let hi ← hplcData.usrByte 3
  let lo ← hplcData.usrByte 4
  let lenData := hi.toNat * 256 + lo.toNat
  let positionData := 5
  let kind ← hplcData.usrByte (positionData + lenData)
  if kind = 0 then
    let lenSid := 4
    let positionSid := positionData + lenData + 1
    let lenAData ← hplcData.usrByte (positionSid + lenSid)
    let positionAData := positionSid + lenData + 1
    let lenMac ← hplcData.usrByte (positionAData + lenAData.toNat)
    let positionMac := positionAData + lenAData.toNat + 1
    let comm ← appendTx hplcData positionSid lenSid { comm with dataTxLen := 0 }
    let comm ← appendTx hplcData positionAData lenAData.toNat comm
    let comm ← appendTx hplcData positionData lenData comm
    appendTx hplcData positionMac lenMac.toNat comm
  else if kind = 2 then
    let lenRn ← hplcData.usrByte (positionData + lenData + 1)
    let positionRn := positionData + lenData + 1 + 1
    let lenMac ← hplcData.usrByte (positionRn + lenRn.toNat)
    let positionMac := positionRn + lenRn.toNat + 1
    let comm ← appendTx hplcData positionData lenData comm
    appendTx hplcData positionMac lenMac.toNat comm
  else some comm

/-- The length the ESAM's buffer announces, as the dispatcher reads it. -/
def announced (rx : Vector Byte 1024) : Nat := (rx.getD 2 0).toNat * 256 + (rx.getD 1 0).toNat

/-- The services of which the dispatcher serves something. -/
inductive Service698
  | connect
  | release
  | get
  | action
  | notice
  deriving DecidableEq, Repr

/-- What the routines may change: the port, the transmit buffer, the ESAM's buffers and everything else. -/
structure Port (W : Type) where
  state : State698
  dataTx : CharPointDataManage
  esam : Esam
  world : W

/-- The routines of the services, with their results. -/
structure Routines (W : Type) where
  connectResponsePackage : CharPointDataManage → Port W → Int × Port W
  getResponsePackage : CharPointDataManage → Port W → Int × Port W
  actionResponsePackage : CharPointDataManage → Port W → Int × Port W
  actionResponseNoticeUser : CharPointDataManage → Port W → Int × Port W
  securityGetPackage : Port W → Int × Port W

/-- What a call of the dispatcher leaves: its result, the port, the frame and the service with its user data. -/
structure Affairs (W : Type) where
  result : Int
  port : Port W
  dataRev : CharPointDataManage
  served : Option (Service698 × List Byte)

variable {W : Type}

/-- The answer to a link request. The inner comparisons look at the byte that was just found to be 0x80. -/
def linkResponse (result : Byte) (s : State698) : Int × State698 :=
  if result = 0x80 then
    let s := if result = 1 then { s with linkFlag := 0, connectFlag := 0 } else s
    let s := if result = 0 then { s with linkFlag := 1, connectFlag := 1 } else s
    (1, s)
  else (-1, s)

/-- The switch of `rev_698_del_affairs` over the first byte of the user data. -/
def serve (routines : Routines W) (dataRev : CharPointDataManage) (p : Port W) : Option (Affairs W) := do
  let tag ← dataRev.usrByte 0
  if tag = 1 then some ⟨1, p, dataRev, none⟩
  else if tag = 0x81 then
    let (result, state) := linkResponse (← dataRev.usrByte 2) p.state
    some ⟨result, { p with state := state }, dataRev, none⟩
  else if tag = 2 then
    let (result, p) := routines.connectResponsePackage dataRev p
    some ⟨result, { p with state := { p.state with connectFlag := 1 } }, dataRev, some (.connect, dataRev.apdu)⟩
  else if tag = 0x82 then some ⟨1, p, dataRev, none⟩
  else if tag = 3 then
    some ⟨1, { p with state := { p.state with connectFlag := 0 } }, dataRev, some (.release, dataRev.apdu)⟩
  else if tag = 0x83 ∨ tag = 0x84 then some ⟨1, p, dataRev, none⟩
  else if tag = 5 then
    let (result, p) := routines.getResponsePackage dataRev p
    some ⟨result, p, dataRev, some (.get, dataRev.apdu)⟩
  else if tag = 7 then
    let (result, p) := routines.actionResponsePackage dataRev p
    some ⟨result, p, dataRev, some (.action, dataRev.apdu)⟩
  else if tag = 0x87 then
    let (result, p) := routines.actionResponseNoticeUser dataRev p
    some ⟨result, p, dataRev, some (.notice, dataRev.apdu)⟩
  else some ⟨-1, p, dataRev, none⟩

/-- The exchange a security request causes: its parts to the ESAM, whose answer the dispatcher does not look at. -/
def unwrapExchange (fuel : Nat) (sendbuf : Vector Byte 1024) (spi : Spi) (dataRev : CharPointDataManage) (e : Esam) :
    Option (RtErr × Esam) := do
  let comm ← unpatchScmEsamComm dataRev e.comm
  esamCommunicattion fuel sendbuf spi .hostSessVeriMac { e with comm := comm }

/-- The user data replaced by what the ESAM's buffer holds. -/
def unwrapped (dataRev : CharPointDataManage) (rx : Vector Byte 1024) : Option CharPointDataManage :=
  if announced rx ≤ 1024 ∧ dataRev.frame698.usrData + announced rx ≤ hplcDataMaxSize then
    some { dataRev with
      priveData := copyAt dataRev.priveData dataRev.frame698.usrData (front rx (announced rx))
      frame698 := { dataRev.frame698 with usrDataLen := announced rx } }
  else none

/-- `rev_698_del_affairs`. -/
def rev698DelAffairs (routines : Routines W) (fuel : Nat) (sendbuf : Vector Byte 1024) (spi : Spi)
    (dataRev : CharPointDataManage) (p : Port W) : Option (Affairs W) := do
  let tag ← dataRev.usrByte 0
  if tag = 16 then
    let (_, e) ← unwrapExchange fuel sendbuf spi dataRev p.esam
    let dataRev ← unwrapped dataRev e.comm.rxData
    let a ← serve routines dataRev { p with esam := e }
    if a.result = 0 then
      let (result, port) := routines.securityGetPackage
        { a.port with dataTx := { a.port.dataTx with dataSize := p.dataTx.dataSize } }
      some { a with result := result, port := port }
    else some a
  else serve routines dataRev p

end EnergyRouter
