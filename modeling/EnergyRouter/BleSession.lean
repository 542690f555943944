import EnergyRouter.Ble
import EnergyRouter.Connect

/-!
# Sessions over Bluetooth

The two requests that agree on a session key: four and two exchanges with the ESAM, each judged by the first two bytes of the
buffer, and a reply stored through an eight-bit pointer.
-/

namespace EnergyRouter

open Buffer

/-- `ScmUart_Comm`. Both lengths have eight bits. -/
structure ScmUartComm where
  dataRxLen : Nat
  rxData : Vector Byte 1024
  dataTxLen : Nat
  txData : Vector Byte 1024
  deriving DecidableEq, Repr

/-- The numbers two requests of a session share. -/
structure BleKeys where
  r1 : Vector Byte 16
  r2 : Vector Byte 16
  r3 : Vector Byte 16
  data : Vector Byte 32
  deriving DecidableEq, Repr

/-- What the session requests work on. -/
structure BleSession where
  keys : BleKeys
  stData : ScmUartComm
  talk : Talk

/-- Bytes stored one after another through an eight-bit pointer. -/
def putPtr : Vector Byte 1024 × Nat → List Byte → Vector Byte 1024 × Nat
  | (tx, ptr), [] => (tx, ptr)
  | (tx, ptr), b :: bs => putPtr (tx.setIfInBounds ptr b, (ptr + 1) % 256) bs

/-- A session reply around its `data`: the header of the request, its object, the result, and the checks. -/
def sessReply (devRecv : Ble698Frame) (data : List Byte) (stData : ScmUartComm) : Option ScmUartComm := do
  let lenth := addrLenthOf devRecv.sa
  -- the address is read past its array
  if devRecv.addr.size < lenth then none
  else
    let (tx, ptr) := putPtr (stData.txData, 0)
      ([devRecv.head, devRecv.uclenth0, devRecv.uclenth1, devRecv.ucControl ||| 0x80, devRecv.sa]
      ++ front devRecv.addr lenth ++ [devRecv.ca, devRecv.ucHcs0, devRecv.ucHcs1, devRecv.apduCmd ||| 0x80]
      ++ front devRecv.apduData 6 ++ [0, 1] ++ data ++ [0])
    let totalLenth := (ptr + 2) % 256
    let tx := (tx.setIfInBounds 1 (BitVec.ofNat 8 totalLenth)).setIfInBounds 2 0
    let (_, tx) ← tryfcs16 tx (lenth + 6)
    let (_, tx) ← tryfcs16 tx ((totalLenth : Int) - 1)
    some { stData with
      txData := tx.setIfInBounds (totalLenth + 1) devRecv.endChar
      dataTxLen := (totalLenth + 2) % 256 }

/-- The first two bytes of the caller's buffer are `90 00`. -/
def StatusOk (rx : List Byte) : Prop := rx.getD 0 0 = 0x90 ∧ rx.getD 1 0 = 0x00
deriving Decidable

/-- A part of the caller's buffer. -/
def ScmEsamComm.rxPart (comm : ScmEsamComm) (i n : Nat) : List Byte := (comm.rx.drop i).take n

/-- An exchange and the branch behind it: `next` when the buffer says success, else the end of the call, without a reply. -/
def BleSession.asks (links : Nat → Link) (cmd : EsamCmd) (s : BleSession) (next : BleSession → Option (Bool × BleSession)) :
    Option (Bool × BleSession) := do
  let t ← s.talk.exchange links cmd
  let s := { s with talk := t }
  if StatusOk t.esam.comm.rx then next s else some (false, s)

/-- `Tx_data` filled from its start, and its length. -/
def BleSession.setTx (s : BleSession) (bytes : List Byte) : BleSession :=
  { s with talk := s.talk.setTx (copyAt s.talk.esam.comm.txData 0 bytes) bytes.length }

/-- What the reply to the first request carries. The loop that stores it counts in eight bits and may not end. -/
def intiData (devRecv : Ble698Frame) (rx : List Byte) : Option (List Byte) :=
  let endataLen := (rx.getD 2 0).toNat * 256 + (rx.getD 3 0).toNat
  if 256 ≤ endataLen then none
  else some ([0x09, BitVec.ofNat 8 (endataLen + 2), devRecv.apduData.getD 8 0, devRecv.apduData.getD 9 0]
    ++ (rx.drop 4).take endataLen)

/-- `BLE_698_ESAM_SESS_INTI_Package`. The outcome tells whether a reply was stored. -/
def ble698EsamSessIntiPackage (links : Nat → Link) (devRecv : Ble698Frame) (s : BleSession) : Option (Bool × BleSession) :=
  BleSession.asks links rdInfo01 { s with talk := s.talk.setTx s.talk.esam.comm.txData 0 } fun s =>
  let version := s.talk.esam.comm.rxPart 4 5
  BleSession.asks links .appKeyAgreeOne s fun s =>
  let r1 := (devRecv.apduData.toList.drop 11).take 16
  let keys := { s.keys with r1 := copyAt s.keys.r1 0 r1, r2 := copyAt s.keys.r2 0 (s.talk.esam.comm.rxPart 4 16) }
  BleSession.asks links .appKeyAgreeTwo ({ s with keys := keys }.setTx (r1 ++ version)) fun s =>
  let data2 := s.talk.esam.comm.rxPart 4 16
  BleSession.asks links .appKeyAgreeThree (s.setTx (data2 ++ r1 ++ s.keys.r2.toList)) fun s => do
  let data ← intiData devRecv s.talk.esam.comm.rx
  let stData ← sessReply devRecv data s.stData
  some (true, { s with stData := stData })

/-- What the reply to the second request carries. -/
def keyData (devRecv : Ble698Frame) : List Byte :=
  [0x09, 4, devRecv.apduData.getD 4 0, devRecv.apduData.getD 5 0, 0, 0]

/-- `BLE_698_ESAM_SESS_KEY_Package`. A length below two in the request wraps and leaves the buffer. -/
def ble698EsamSessKeyPackage (links : Nat → Link) (devRecv : Ble698Frame) (s : BleSession) : Option (Bool × BleSession) :=
  BleSession.asks links .appSessAgreeOne (s.setTx (s.keys.r1.toList ++ s.keys.r2.toList)) fun s => do
  let keys := { s.keys with data := copyAt s.keys.data 0 (s.talk.esam.comm.rxPart 4 32) }
  let keydataLen := ((devRecv.apduData.getD 7 0).setWidth 16 - 2#16).toNat
  let tx ← blit (copyAt s.talk.esam.comm.txData 0 keys.data.toList) 32 (devRecv.apduData.toList.drop 10) keydataLen
  BleSession.asks links .appSessAgreeTwo { s with keys := keys, talk := s.talk.setTx tx (32 + keydataLen) } fun s =>
  let s := { s with keys := { s.keys with r3 := copyAt s.keys.r3 0 (s.talk.esam.comm.rxPart 4 16) } }
  if s.keys.r3 = s.keys.r1 then do
    let stData ← sessReply devRecv (keyData devRecv) s.stData
    some (true, { s with stData := stData })
  else some (false, s)

end EnergyRouter
