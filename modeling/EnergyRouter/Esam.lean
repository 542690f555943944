import EnergyRouter.Frame

/-!
# The driver of the security chip

`ESAM_Communicattion` and the exchange on the bus, `ESAM_Send_and_Recv`. The driver works on a buffer of its own, and both buffers
keep what earlier exchanges left. An access behind the end of an array has no outcome in the model.
-/

namespace EnergyRouter

open Buffer

/-- `ScmEsam_Comm`: the receive and the transmit buffer of an exchange. -/
structure ScmEsamComm where
  dataRxLen : Nat
  rxData : Vector Byte 1024
  dataTxLen : Nat
  txData : Vector Byte 1024
  deriving DecidableEq, Repr

/-- `ESAM_CMD`. -/
inductive EsamCmd
  | rdInfo (n : Fin 12)
  | rdInfoFf
  | hostKeyAgree
  | hostKeyUpdate
  | hostCertUpdate
  | hostSessCalcMac11
  | hostSessCalcMacA2
  | hostSessCalcMacA7
  | hostSessVeriMac
  | conKeyAgree
  | conKeyUpdate
  | conCertUpdate
  | conSessCalcMac11
  | conSessCalcMac12
  | conSessCalcMac13
  | conSessVeriMac11
  | conSessVeriMac12
  | conSessVeriMac13
  | appKeyAgreeOne
  | appKeyAgreeTwo
  | appKeyAgreeThree
  | appKeyAgreeFour
  | appSessAgreeOne
  | appSessAgreeTwo
  | appKeyUpdate
  | appCertUpdate
  | appSessCalcMac11
  | appSessCalcMacA2
  | appSessCalcMacA7
  | appSessVeriMac
  | hostRead
  deriving DecidableEq, Repr

/-- A length in two bytes, high byte first. -/
def lengthBytes (lenth : Nat) : List Byte := [BitVec.ofNat 8 (lenth / 256), BitVec.ofNat 8 lenth]

/-- The header bytes of a command in front of its payload. -/
def EsamCmd.header (lenth : Nat) : EsamCmd → List Byte
  | .rdInfo n => [0x80, 0x36, 0x00, BitVec.ofNat 8 (n + 1), 0x00, 0x00]
  | .rdInfoFf => [0x80, 0x36, 0x00, 0xff, 0x00, 0x00]
  | .hostKeyAgree => [0x81, 0x02, 0x00, 0x00, 0x00, 0x24]
  | .hostSessCalcMac11 => [0x81, 0x1c, 0x00, 0x11] ++ lengthBytes lenth
  | .hostSessCalcMacA2 => [0x81, 0x1c, 0x00, 0xa2] ++ lengthBytes lenth
  | .hostSessCalcMacA7 => [0x81, 0x1c, 0x00, 0xa7] ++ lengthBytes lenth
  | .conKeyAgree => [0x82, 0x02, 0x00, 0x00, 0x00, 0x24]
  | .conSessCalcMac11 => [0x82, 0x24, 0x00, 0x11] ++ lengthBytes lenth
  | .conSessCalcMac12 => [0x82, 0x24, 0x00, 0x12] ++ lengthBytes lenth
  | .conSessCalcMac13 => [0x82, 0x24, 0x00, 0x13] ++ lengthBytes lenth
  | .conSessVeriMac11 => [0x82, 0x24, 0x31, 0x00] ++ lengthBytes lenth ++ [0x82, 0x24, 0x00, 0x31] ++ veriLength lenth
  | .conSessVeriMac12 => [0x82, 0x24, 0x32, 0x00] ++ lengthBytes lenth ++ [0x82, 0x24, 0x00, 0x32] ++ veriLength lenth
  | .conSessVeriMac13 => [0x82, 0x24, 0x33, 0x00] ++ lengthBytes lenth ++ [0x82, 0x24, 0x00, 0x33] ++ veriLength lenth
  | .appKeyAgreeOne => [0x80, 0x04, 0x00, 0x10, 0x00, 0x00]
  | .appKeyAgreeTwo => [0x80, 0x4a, 0x00, 0x80, 0x00, 0x15]
  | .appKeyAgreeThree => [0x80, 0x4a, 0x00, 0x00, 0x00, 0x30]
  | .appSessAgreeOne => [0x80, 0x4a, 0x00, 0xc0, 0x00, 0x20]
  | .appSessAgreeTwo => [0x80, 0x4c, 0x00, 0x00] ++ lengthBytes lenth
  | .appSessVeriMac => [0x80, 0x4c, 0x00, 0x00] ++ lengthBytes lenth
  | _ => []
where
  /-- The length less two, as the source computes it in `int`. -/
  veriLength (lenth : Nat) : List Byte :=
    let less : BitVec 32 := BitVec.ofNat 32 lenth - 2
    [(less >>> 8).setWidth 8, less.setWidth 8]

/-- The second header of the two commands that copy their payload before it. -/
def EsamCmd.overlay (lenth : Nat) : EsamCmd → List Byte
  | .conSessCalcMac11 => [0x80, 0x24, 0x11, 0x00] ++ lengthBytes lenth
  | .conSessCalcMac13 => [0x80, 0x24, 0x13, 0x00] ++ lengthBytes lenth
  | _ => []

/-- `ESAM_Check`: the complement of the exclusive or. -/
def esamCheck (data : List Byte) : Byte := ~~~(data.foldl (· ^^^ ·) 0)

/-- The command as it goes out, with its length. `sendbuf` is what the uninitialised array held. -/
def esamFrame (sendbuf : Vector Byte 1024) (cmd : EsamCmd) (comm : ScmEsamComm) : Option (Vector Byte 1024 × Nat) :=
  let lenth := comm.dataTxLen
  let head := 0x55 :: cmd.header lenth
  let ptr := head.length + (cmd.overlay lenth).length
  if ptr + lenth < 1024 then
    let buf := copyAt sendbuf 0 head
    let buf := copyAt buf head.length (front comm.txData lenth)
    let buf := copyAt buf head.length (cmd.overlay lenth)
    let buf := buf.setIfInBounds (ptr + lenth) (esamCheck ((front buf (ptr + lenth)).drop 1))
    some (buf, ptr + lenth + 1)
  else none

/-- `rt_err_t`, as far as the driver returns it. -/
inductive RtErr
  | eok
  | error
  deriving DecidableEq, Repr

/-- The bus during one exchange: whether it can be taken, and the bytes it reads back one after another. -/
structure Spi where
  takeBus : Bool
  line : Nat → Byte

/-- `n` bytes of the line. -/
def Spi.read (spi : Spi) (pos n : Nat) : List Byte := (List.range n).map fun i => spi.line (pos + i)

/-- The length of the rest of a reply, out of its two length bytes. -/
def replyLenth (hi lo : Byte) : Nat := hi.toNat <<< 8 ||| (lo.toNat + 1)

/-- The receive loop of `ESAM_Send_and_Recv`, for at most `fuel` turns: the length of the reply, or none when 50000 reads brought no
start byte. A reply with a wrong check does not count. -/
def recvLoop (spi : Spi) : Nat → Nat → Nat → Vector Byte 1024 → Option (Option Nat × Vector Byte 1024)
  | 0, _, _, _ => none
  | fuel + 1, pos, count, rx =>
    if count < 50000 then
      if spi.line pos = 0x55 then
        let rx := copyAt rx 0 (spi.read (pos + 1) 4)
        let lenth := replyLenth (rx.getD 2 0) (rx.getD 3 0)
        if lenth < 1023 then
          if lenth + 4 ≤ 1024 then
            let rx := copyAt rx 4 (spi.read (pos + 5) lenth)
            if rx.getD (lenth + 3) 0 = esamCheck (front rx (lenth + 3)) then some (some (lenth + 4), rx)
            else recvLoop spi fuel (pos + 5 + lenth) count rx
          else none
        else recvLoop spi fuel (pos + 5) count rx
      else recvLoop spi fuel (pos + 1) (count + 1) (rx.setIfInBounds 0 (spi.line pos))
    else some (none, rx)

/-- `ESAM_Send_and_Recv`, with at most `fuel` turns of its loop. -/
def esamSendAndRecv (fuel : Nat) (spi : Spi) (comm : ScmEsamComm) : Option (RtErr × ScmEsamComm) :=
  if spi.takeBus then
    match recvLoop spi fuel 0 0 comm.rxData with
    | none => none
    | some (some n, rx) => some (.eok, { comm with rxData := rx, dataRxLen := n })
    | some (none, rx) => some (.error, { comm with rxData := rx, dataRxLen := 0 })
  else some (.error, { comm with dataRxLen := 0 })

/-- The two buffers an exchange works on: the caller's (`hplc_ScmEsam_Comm`) and the driver's (`stEsam_Comm`). -/
structure Esam where
  comm : ScmEsamComm
  driver : ScmEsamComm
  deriving DecidableEq, Repr

/-- The buffers at power-up. -/
def zeroEsam : Esam :=
  let comm := ⟨0, Vector.replicate 1024 0, 0, Vector.replicate 1024 0⟩
  ⟨comm, comm⟩

/-- The reply the driver holds. -/
def Esam.delivered (e : Esam) : List Byte := front e.driver.rxData e.driver.dataRxLen

/-- `ESAM_Communicattion`: only a reply that was received is copied to the caller. -/
def esamCommunicattion (fuel : Nat) (sendbuf : Vector Byte 1024) (spi : Spi) (cmd : EsamCmd) (e : Esam) :
    Option (RtErr × Esam) := do
  let (buf, n) ← esamFrame sendbuf cmd e.comm
  let (res, driver) ← esamSendAndRecv fuel spi
    { e.driver with txData := copyAt e.driver.txData 0 (front buf n), dataTxLen := n }
  match res with
  | .eok =>
    some (.eok, {
      comm := { e.comm with
        rxData := copyAt e.comm.rxData 0 (front driver.rxData driver.dataRxLen)
        dataRxLen := driver.dataRxLen }
      driver := driver })
  | .error => some (.error, { e with driver := driver })

end EnergyRouter
