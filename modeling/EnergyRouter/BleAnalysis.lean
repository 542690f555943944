import EnergyRouter.BleSession

/-!
# Requests over Bluetooth

`BLE_698_Data_Analysis_and_Response`: a record that was unpacked asks for the address of the meter, a step of a session or a charge,
or it is a security request, whose decrypted content is analysed in its place. An access outside of an array has no outcome in the
model, and neither has a request that is analysed without end.
-/

namespace EnergyRouter

open Buffer

/-! ## Replies -/

/-- The end both builders of replies have: the length field, the two checks and the end character. -/
def closeReply (tx : Vector Byte 1024) (lenth totalLenth : Nat) (endChar : Byte) : Option (Vector Byte 1024) := do
  let tx := (tx.setIfInBounds 1 (BitVec.ofNat 8 totalLenth)).setIfInBounds 2 (BitVec.ofNat 8 (totalLenth / 256))
  let (_, tx) ← tryfcs16 tx (lenth + 6)
  let (_, tx) ← tryfcs16 tx ((totalLenth : Int) - 1)
  some (tx.setIfInBounds (totalLenth + 1) endChar)

/-- The address of the meter that is answered; the one out of the storage is overwritten by it. -/
def meterAddrData : List Byte := [0x01, 0x09, 0x06, 0x00, 0x00, 0x00, 0x00, 0x00, 0x01, 0x00, 0x00]

/-- `BLE_698_Get_METER_ADDR_Package`. -/
def ble698GetMeterAddrPackage (devRecv : Ble698Frame) (stData : ScmUartComm) : Option ScmUartComm := do
  let lenth := addrLenthOf devRecv.sa
  -- the address is read past its array
  if devRecv.addr.size < lenth then none
  else
    let tx := copyAt stData.txData 0
      ([devRecv.head, devRecv.uclenth0, devRecv.uclenth1, devRecv.ucControl ||| 0x80, devRecv.sa]
      ++ front devRecv.addr lenth ++ [devRecv.ca, devRecv.ucHcs0, devRecv.ucHcs1, devRecv.apduCmd ||| 0x80]
      ++ front devRecv.apduData 6 ++ meterAddrData)
    let totalLenth := 27 + lenth
    let tx ← closeReply tx lenth totalLenth devRecv.endChar
    some { stData with txData := tx, dataTxLen := (totalLenth + 2) % 256 }

/-! ## Charge applications -/

/-- `CHARGE_APPLY`, as far as it is filled in here. -/
structure ChargeApply where
  cRequestNO : Vector Byte 17
  cAssetNO : Vector Byte 23
  cUserID : Vector Byte 65
  ulChargeReqEle : BitVec 32
  planUnChg : SystemTime
  chargeMode : Byte
  token : Vector Byte 33
  deriving DecidableEq, Repr

/-- `Int_toBCD`, one byte. -/
def intToBcd (data2 : Byte) : Byte := data2 + data2 / 10 * 6

/-- The string at `10 + ptr` and its length byte, into a field of the application. -/
def applyString {n : Nat} (field : Vector Byte n) (apduData : Vector Byte 512) (ptr : Nat) : Option (Vector Byte n) :=
  let dataLen := apduData.getD (10 + ptr) 0
  blit (field.setIfInBounds 0 dataLen) 1 (apduData.toList.drop (11 + ptr)) dataLen.toNat

/-- `BLE_698_Action_Request_Normal_Charge_Appply`, up to the event. `ptr` has eight bits. The mode's length 1 is stored as the
user's. -/
def ble698ActionRequestNormalChargeAppply (apduData : Vector Byte 512) (a : ChargeApply) : Option ChargeApply := do
  let cRequestNO ← applyString a.cRequestNO apduData 0
  let ptr := ((apduData.getD 10 0).toNat + 2) % 256
  let cUserID ← applyString a.cUserID apduData ptr
  let ptr := (ptr + (apduData.getD (10 + ptr) 0).toNat + 2) % 256
  let cAssetNO ← applyString a.cAssetNO apduData ptr
  let ptr := (ptr + (apduData.getD (10 + ptr) 0).toNat + 1) % 256
  let power := apduData.getD (11 + ptr) 0 ++ apduData.getD (12 + ptr) 0 ++ apduData.getD (13 + ptr) 0 ++ apduData.getD (14 + ptr) 0
  let ptr := (ptr + 5) % 256
  let time := ((apduData.getD (11 + ptr) 0).toNat * 256 + (apduData.getD (12 + ptr) 0).toNat) % 100
  let planUnChg := { a.planUnChg with
    year := intToBcd (BitVec.ofNat 8 time)
    month := intToBcd (apduData.getD (13 + ptr) 0)
    day := intToBcd (apduData.getD (14 + ptr) 0)
    hour := intToBcd (apduData.getD (15 + ptr) 0)
    minute := intToBcd (apduData.getD (16 + ptr) 0)
    second := intToBcd (apduData.getD (17 + ptr) 0) }
  let ptr := (ptr + 8) % 256
  let cUserID := cUserID.setIfInBounds 0 1
  let chargeMode := apduData.getD (11 + ptr) 0
  let ptr := (ptr + 3) % 256
  let token ← applyString a.token apduData ptr
  some ⟨cRequestNO, cAssetNO, cUserID, power, planUnChg, chargeMode, token⟩

/-! ## The analysis -/

/-- What the analysis works on, and what it wrote to the serial device so far. -/
structure BleAnalyser where
  session : BleSession
  apply : ChargeApply
  event : BitVec 32
  written : List (List Byte)

/-- `Cmd_StartChg`. -/
def cmdStartChg : BitVec 32 := 4

/-- The object a request names. -/
def apduOad (devRecv : Ble698Frame) : BitVec 32 :=
  devRecv.apduData.getD 2 0 ++ devRecv.apduData.getD 3 0 ++ devRecv.apduData.getD 4 0 ++ devRecv.apduData.getD 5 0

/-- `BLE_698_Get_Request_Normal_Analysis`. -/
def ble698GetRequestNormalAnalysis (devRecv : Ble698Frame) (s : BleAnalyser) : Option BleAnalyser :=
  if apduOad devRecv = 0x40010200 then do
    let stData ← ble698GetMeterAddrPackage devRecv s.session.stData
    some { s with session := { s.session with stData := stData } }
  else some s

/-- `BLE_698_Action_Request_Normal_Analysis`. -/
def ble698ActionRequestNormalAnalysis (links : Nat → Link) (devRecv : Ble698Frame) (s : BleAnalyser) : Option BleAnalyser :=
  if apduOad devRecv = 0xF1000B00 then do
    let (_, session) ← ble698EsamSessIntiPackage links devRecv s.session
    some { s with session := session }
  else if apduOad devRecv = 0xF1000C00 then do
    let (_, session) ← ble698EsamSessKeyPackage links devRecv s.session
    some { s with session := session }
  else if apduOad devRecv = 0x90027F00 then do
    let apply ← ble698ActionRequestNormalChargeAppply devRecv.apduData s.apply
    some { s with apply := apply, event := s.event ||| cmdStartChg }
  else some s

/-- `ESAM_Communicattion`, its result kept. -/
def Talk.communicattion (links : Nat → Link) (cmd : EsamCmd) (t : Talk) : Option (RtErr × Talk) := do
  let link := links t.made.length
  let (res, e) ← esamCommunicattion link.fuel link.sendbuf link.spi cmd t.esam
  some (res, ⟨e, t.made ++ [⟨res, if res = .eok then e.delivered else [], e.comm⟩]⟩)

/-- The number of bytes of a ciphertext. -/
def cipherdataLenth (devRecv : Ble698Frame) : Nat := (devRecv.apduData.getD 1 0).toNat

/-- The session data and the ciphertext, as they are put before the ESAM through an eight-bit pointer. -/
def BleSession.cipherTx (devRecv : Ble698Frame) (s : BleSession) : BleSession :=
  let (tx, ptr) := putPtr (copyAt s.talk.esam.comm.txData 0 s.keys.data.toList, 32)
    ((devRecv.apduData.toList.drop 2).take (cipherdataLenth devRecv))
  { s with talk := s.talk.setTx tx ptr }

/-- The decrypted bytes are copied over the request; there is room for 513. -/
def Ble698Frame.decrypted (devRecv : Ble698Frame) (comm : ScmEsamComm) : Option Ble698Frame :=
  if 5 ≤ comm.dataRxLen ∧ comm.dataRxLen - 5 ≤ 513 then
    match comm.rxPart 4 (comm.dataRxLen - 5) with
    | [] => some devRecv
    | cmd :: data => some { devRecv with apduCmd := cmd, apduData := copyAt devRecv.apduData 0 data }
  else none

/-- `BLE_698_Security_Request_CipherText_Analysis`: the decrypted request to analyse, if there is any. -/
def ble698SecurityRequestCipherText (links : Nat → Link) (devRecv : Ble698Frame) (s : BleSession) :
    Option (Option Ble698Frame × BleSession) := do
  let s := s.cipherTx devRecv
  let (res, t) ← s.talk.communicattion links .appSessVeriMac
  let s := { s with talk := t }
  if res = .eok ∧ StatusOk t.esam.comm.rx then do
    let devRecv ← devRecv.decrypted t.esam.comm
    some (some devRecv, s)
  else some (none, s)

/-- The end of `BLE_698_Data_Analysis_and_Response`: a reply is written, and it and the request are cleared. -/
def BleAnalyser.respond (devRecv : Ble698Frame) (s : BleAnalyser) : Ble698Frame × BleAnalyser :=
  let stData := s.session.stData
  if stData.dataTxLen ≠ 0 then
    (zeroBleFrame, { s with
      session := { s.session with
        stData := { stData with
          txData := copyAt stData.txData 0 (List.replicate stData.dataTxLen 0)
          dataTxLen := 0 } }
      written := s.written ++ [front stData.txData stData.dataTxLen] })
  else (devRecv, s)

/-- `BLE_698_Data_Analysis_and_Response`, with at most `depth` requests one inside the other. -/
def ble698DataAnalysisAndResponse (links : Nat → Link) : Nat → Ble698Frame → BleAnalyser → Option (Ble698Frame × BleAnalyser)
  | 0, _, _ => none
  | depth + 1, devRecv, s => do
    let (devRecv, s) ←
      if devRecv.apduCmd = 5 then
        if devRecv.apduData.getD 0 0 = 1 then (ble698GetRequestNormalAnalysis devRecv s).map (devRecv, ·) else some (devRecv, s)
      else if devRecv.apduCmd = 16 then
        if devRecv.apduData.getD 0 0 = 0 then (ble698GetRequestNormalAnalysis devRecv s).map (devRecv, ·)
        else if devRecv.apduData.getD 0 0 = 1 then do
          let (inner, session) ← ble698SecurityRequestCipherText links devRecv s.session
          let s := { s with session := session }
          match inner with
          | some devRecv => ble698DataAnalysisAndResponse links depth devRecv s
          | none => some (devRecv, s)
        else some (devRecv, s)
      else if devRecv.apduCmd = 7 then
        if devRecv.apduData.getD 0 0 = 1 then (ble698ActionRequestNormalAnalysis links devRecv s).map (devRecv, ·)
        else some (devRecv, s)
      else some (devRecv, s)
    some (s.respond devRecv)

end EnergyRouter
