import EnergyRouter.Requests

/-!
# Replies out of the ESAM

Three answers of the 698 thread carry what the ESAM replied. They look at the caller's buffer after the exchange and at its length,
but not at the result of `ESAM_Communicattion`.
-/

namespace EnergyRouter

open Buffer

/-! ## Exchanges of a call -/

/-- What one exchange meets: the turns of its loop, what the driver's uninitialised array held, and the bus. -/
structure Link where
  fuel : Nat
  sendbuf : Vector Byte 1024
  spi : Spi

/-- An exchange of a call: its result, the bytes it delivered, none when it failed, and the caller's buffer. -/
structure Exchange where
  res : RtErr
  delivered : List Byte
  comm : ScmEsamComm

/-- The buffers of the ESAM during a call, and the exchanges of the call so far, oldest first. -/
structure Talk where
  esam : Esam
  made : List Exchange

/-- `ESAM_Communicattion`, its result not looked at. -/
def Talk.exchange (links : Nat → Link) (cmd : EsamCmd) (t : Talk) : Option Talk := do
  let link := links t.made.length
  let (res, e) ← esamCommunicattion link.fuel link.sendbuf link.spi cmd t.esam
  some ⟨e, t.made ++ [⟨res, if res = .eok then e.delivered else [], e.comm⟩]⟩

/-- What is sent with the next exchange. -/
def Talk.setTx (t : Talk) (txData : Vector Byte 1024) (dataTxLen : Nat) : Talk :=
  { t with esam := { t.esam with comm := { t.esam.comm with txData := txData, dataTxLen := dataTxLen } } }

/-- The caller's receive buffer, as a list. -/
def ScmEsamComm.rx (comm : ScmEsamComm) : List Byte := comm.rxData.toList

/-! ## Objects of the ESAM -/

/-- `get_data_class`. -/
def getDataClass (d : CharPointDataManage) (dataType : Byte) : CharPointDataManage := putEach d [0x01, dataType]

/-- The attributes `oi_esam_oib` reads, each by the command with its number or the one before it. -/
inductive EsamAttribute
  | octets (n : Fin 12)
  | counters
  deriving DecidableEq, Repr

def esamAttribute (attributeId : Byte) : Option EsamAttribute :=
  if attributeId = 2 then some (.octets 1)
  else if attributeId = 4 then some (.octets 3)
  else if attributeId = 7 then some .counters
  else none

def EsamAttribute.cmd : EsamAttribute → EsamCmd
  | octets n => .rdInfo n
  | counters => .rdInfo 5

/-- `RD_INFO_01`. -/
def rdInfo01 : EsamCmd := .rdInfo 0

/-- What is stored in front of the exchange. -/
def EsamAttribute.open (d : CharPointDataManage) : EsamAttribute → CharPointDataManage
  | octets _ => getDataClass d 9
  | counters => putEach (getDataClass d 2) [4]

/-- What is stored behind it, and whether the reply was long enough. A string's length is stored all the same. -/
def EsamAttribute.store (rx : List Byte) (rxLen : Nat) (d : CharPointDataManage) : EsamAttribute → Bool × CharPointDataManage
  | octets _ =>
    let d := putEach d [BitVec.ofInt 8 ((rxLen : Int) - 5)]
    if rxLen < 12 then (false, d) else (true, (saveCharPointData d d.dataSize (rx.drop 4) ((rxLen : Int) - 5)).2)
  | counters =>
    if rxLen < 12 then (false, d)
    else (true, [4, 8, 12, 16].foldl (fun d i => putBytes (putEach d [6]) ((rx.drop i).take 4)) d)

/-- The loop of `oi_esam_oib`, with `n` attempts left. What a failed attempt stored stays in front of the next one. -/
def oiEsamLoop (links : Nat → Link) (attr : EsamAttribute) :
    Nat → CharPointDataManage × Talk → Option (Int × CharPointDataManage × Talk)
  | 0, (d, t) => some (-1, putEach d [0, 2], t)
  | n + 1, (d, t) => do
    let t ← (t.setTx t.esam.comm.txData 0).exchange links attr.cmd
    match attr.store t.esam.comm.rx t.esam.comm.dataRxLen (attr.open d) with
    | (true, d) => some (0, d, t)
    | (false, d) => oiEsamLoop links attr n (d, t)

/-- `oi_esam_oib`. -/
def oiEsamOib (links : Nat → Link) (oad : Oad698) : CharPointDataManage × Talk → Option (Int × CharPointDataManage × Talk)
  | (d, t) =>
    if oad.oi1 = 0 then
      match esamAttribute oad.attributeId with
      | some attr => oiEsamLoop links attr 5 (d, t)
      | none => some (-1, putEach d [0, 6], t)
    else some (-1, d, t)

/-! ## Connection requests -/

/-- `_698_FactoryVersion`. -/
structure FactoryVersion where
  manufacturerCode : Vector Byte 4
  softVersion : Vector Byte 4
  softDate : Vector Byte 6
  hardVersion : Vector Byte 4
  hardDate : Vector Byte 6
  manufacturerExInfo : Vector Byte 8
  deriving DecidableEq, Repr

/-- A run of the user data. -/
def CharPointDataManage.usrBytes (d : CharPointDataManage) (i n : Nat) : Option (List Byte) :=
  let bytes := (d.priveData.toList.drop (d.frame698.usrData + i)).take n
  if bytes.length = n then some bytes else none

/-- `unPackage_698_connect_request`, as far as it changes the port. -/
def unPackage698ConnectRequest (dataRev : CharPointDataManage) (s : State698) : Option State698 := do
  some { s with
    version := copyAt s.version 0 (← dataRev.usrBytes 2 2)
    protocolconformance := copyAt s.protocolconformance 0 (← dataRev.usrBytes 4 8)
    functionconformance := copyAt s.functionconformance 0 (← dataRev.usrBytes 12 16) }

/-- The answer up to the result of the authentication: who the router is, and what the request asked for. -/
def connectHead (factory : FactoryVersion) (dataRev d : CharPointDataManage) : Option CharPointDataManage := do
  let d := putEach d [0x82, ← dataRev.usrByte 1]
  let d := [factory.manufacturerCode.toList, factory.softVersion.toList, factory.softDate.toList, factory.hardVersion.toList,
    factory.hardDate.toList, factory.manufacturerExInfo.toList].foldl putBytes d
  some ([← dataRev.usrBytes 2 2, ← dataRev.usrBytes 4 8, ← dataRev.usrBytes 12 16, ← dataRev.usrBytes 28 2, ← dataRev.usrBytes 30 2,
    ← dataRev.usrBytes 32 1, ← dataRev.usrBytes 33 2, ← dataRev.usrBytes 35 4].foldl putBytes d)

/-- The two parts of the request the ESAM wants, each behind its length. -/
def connectTx (dataRev : CharPointDataManage) (t : Talk) : Option Talk := do
  let lenSession := (← dataRev.usrByte 40).toNat
  let lenSign := (← dataRev.usrByte (41 + lenSession)).toNat
  let usrData := dataRev.priveData.toList.drop dataRev.frame698.usrData
  let txData ← blit t.esam.comm.txData 0 (usrData.drop 41) lenSession
  let txData ← blit txData lenSession (usrData.drop (42 + lenSession)) lenSign
  some (t.setTx txData (lenSession + lenSign))

/-- The answer from the result of the authentication on. The reply names the length of the first part, in eight bits. -/
def connectTail (d : CharPointDataManage) (lenPosition hcsPosition : Nat) (rx : List Byte) (rxLen : Nat) :
    Option (Int × CharPointDataManage) :=
  if rxLen < 52 then some (-1, putEach d [0xff, 0])
  else
    let len : Byte := BitVec.ofInt 8 ((rx.getD 2 0).toNat * 256 + (rx.getD 3 0).toNat - 4)
    let d := putBytes (putEach d [0, 1, len]) ((rx.drop 4).take len.toNat)
    let d := putBytes (putEach d [4]) ((rx.drop (len.toNat + 4)).take 4)
    closeFrame (putEach d [0, 0]) lenPosition hcsPosition false

/-- `connect_response_package`. -/
def connectResponsePackage (links : Nat → Link) (factory : FactoryVersion) (dataRev : CharPointDataManage) :
    State698 × CharPointDataManage × Talk → Option (Int × State698 × CharPointDataManage × Talk)
  | (s, d, t) => do
    let s ← unPackage698ConnectRequest dataRev s
    let ca := dataRev.frame698.addr.ca
    let (d, lenPosition, hcsPosition) := openResponse dataRev.frame698.head d (0xc0 ||| 0x03) (copiedAddr d s.addr ca)
    let d ← connectHead factory dataRev d
    let t ← connectTx dataRev t
    let t ← t.exchange links (if ca ≠ 0 then .conKeyAgree else .hostKeyAgree)
    let (result, d) ← connectTail d lenPosition hcsPosition t.esam.comm.rx t.esam.comm.dataRxLen
    some (result, s, d, t)

/-! ## Wrapped answers -/

/-- `security_get_package`. The user data of the answer go to the ESAM, its reply is written where `dataSize` stands, and the frame
is closed around that, with the two places the builder left. A reply longer than the array has no outcome. -/
def securityGetPackage (links : Nat → Link) (lenPosition hcsPosition : Nat) :
    CharPointDataManage × Talk → Option (Int × CharPointDataManage × Talk)
  | (d, t) => do
    let usrDataLen := d.frame698.usrDataLen
    let txData ← blit t.esam.comm.txData 0 (d.priveData.toList.drop d.frame698.usrData) usrDataLen.toNat
    let t ← (t.setTx txData (BitVec.ofInt 16 usrDataLen).toNat).exchange links .hostSessCalcMac11
    let rx := t.esam.comm.rx
    let rxLen := t.esam.comm.dataRxLen
    if rxLen ≤ 1024 then
      let lenMac : Int := if usrDataLen > rxLen then 0 else rxLen - usrDataLen
      let d := putEach d [0x90, 1, BitVec.ofInt 8 usrDataLen]
      let d := (saveCharPointData d d.dataSize rx usrDataLen).2
      let d := putEach d [1, 0, BitVec.ofInt 8 lenMac]
      let d := (saveCharPointData d d.dataSize (rx.drop usrDataLen.toNat) lenMac).2
      if usrDataLen > rxLen then some (-1, d, t)
      else
        let (result, d) ← closeFrame d lenPosition hcsPosition false
        some (result, d, t)
    else none

end EnergyRouter
