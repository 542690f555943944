import EnergyRouter.Ble

/-!
# Reception over Bluetooth

In transparent mode the UART callback appends what it reads to a buffer. The thread copies the frames it finds there to a ring of
four slots, unpacks and analyses them, and starts the buffer anew. The buffer is never cleared. An access outside of an array has no
outcome in the model.
-/

namespace EnergyRouter

open Buffer

/-- `BLE_698_Get_Addr`. -/
def ble698GetAddr : List Byte :=
  [0x68, 0x17, 0x00, 0x43, 0x45, 0xAA, 0xAA, 0xAA, 0xAA, 0xAA, 0xAA, 0x10, 0xDA, 0x5F, 0x05, 0x01, 0x00, 0x40, 0x01, 0x02, 0x00, 0x00,
    0xED, 0x03, 0x16]

/-- The length of a slot of `BLE_698_data_buf`. -/
def bleSlot : Nat := 255

/-- The static variables of the reception. `dataBuf` are the four slots. `enqueued` and `analysed` are what was copied to a slot and
analysed so far, oldest first. -/
structure BleReceiver where
  rxData : Vector Byte 1024
  rxBeg : Bool
  rxPtr : Nat
  rxPre : Nat
  dataBuf : Vector Byte 1020
  rxWrite : Nat
  rxRead : Nat
  recv698InAT : Bool
  frame : Ble698Frame
  atMode : Bool
  enqueued : List (List Byte)
  analysed : List Ble698Frame

/-- `BLE_Uart_Data_Recv`. Bytes that do not fit behind the ones before go to the start of the buffer. -/
def bleUartDataRecv (bytes : List Byte) (s : BleReceiver) : Option BleReceiver := do
  let rxPtr := if 1024 ≤ s.rxPtr + bytes.length then 0 else s.rxPtr
  let rxData ← blit s.rxData rxPtr bytes bytes.length
  some { s with rxData := rxData, rxPtr := rxPtr + bytes.length, rxBeg := true }

/-- The tests at one place of the buffer: the length of the frame found there, less two. -/
def bleFrameAt (rxData : Vector Byte 1024) (i : Nat) : Option (Option Nat) := do
  let head ← rxData[i]?
  if head ≠ 0x68 then some none
  else
    let high ← rxData[i + 2]?
    let low ← rxData[i + 1]?
    let lenth := high.toNat * 256 + low.toNat
    let last ← rxData[i + lenth + 1]?
    if last ≠ 0x16 then some none
    else
      let sa ← rxData[i + 4]?
      let hcs ← hcs698 rxData (i + 1 : Nat) ((sa &&& 0x0f#8).toNat + 8 : Nat) 0
      if hcs ≠ 0 then some none
      else
        let fcs ← fcs698 rxData (i + 1 : Nat) lenth 0
        if fcs ≠ 0 then some none else some (some lenth)

/-- The next place of the ring. -/
def nextSlot (slot : Nat) : Nat := if 4 ≤ slot + 1 then 0 else slot + 1

/-- A frame found at `i` goes to the ring. -/
def bleEnqueue (i lenth : Nat) (s : BleReceiver) : Option BleReceiver := do
  let dataBuf ← blit s.dataBuf (s.rxWrite * bleSlot) (s.rxData.toList.drop i) (lenth + 2)
  some { s with
    rxPre := i + lenth + 2
    dataBuf := dataBuf
    rxWrite := nextSlot s.rxWrite
    enqueued := s.enqueued ++ [(s.rxData.toList.drop i).take (lenth + 2)] }

/-- The loop of `BLE_Check_Data_to_Buf` over the `n` places from `i` on. After a frame it goes on with the frame's second byte. The
outcome tells whether the loop came to its end. -/
def bleScan : Nat → Nat → BleReceiver → Option (Bool × BleReceiver)
  | 0, _, s => some (true, s)
  | n + 1, i, s =>
    if 1023 < i then some (false, s)
    else do
      match ← bleFrameAt s.rxData i with
      | none => bleScan n (i + 1) s
      | some lenth => bleScan n (i + 1) (← bleEnqueue i lenth s)

/-- A request that came in AT mode is put in front. -/
def bleTakeGetAddr (s : BleReceiver) : Option BleReceiver :=
  if s.recv698InAT then do
    let rxData ← blit s.rxData s.rxPre ble698GetAddr ble698GetAddr.length
    some { s with recv698InAT := false, rxData := rxData, rxPtr := ble698GetAddr.length }
  else some s

/-- `BLE_Check_Data_to_Buf`. -/
def bleCheckDataToBuf (s : BleReceiver) : Option (RtErr × BleReceiver) := do
  let s ← bleTakeGetAddr s
  let (ended, s) ← bleScan (s.rxPtr - s.rxPre) s.rxPre s
  some (if ended ∧ s.rxWrite ≠ s.rxRead then .eok else .error, s)

/-- What `BLE_ATCmd_Recv` leaves: as many bytes as were read last are cleared, and a request may have been noted. -/
def bleATCmdRecv (dataRxLen : Nat) (noted : Bool) (s : BleReceiver) : Option BleReceiver := do
  let rxData ← blit s.rxData 0 (List.replicate dataRxLen 0) dataRxLen
  some { s with rxData := rxData, rxBeg := false, rxPtr := 0, rxPre := 0, recv698InAT := s.recv698InAT || noted }

section Analysis

-- what the analysis leaves of a record it was handed, by the number of records before it
variable (respond : Nat → Ble698Frame → Ble698Frame)

/-- A record is handed to the analysis when it was unpacked. -/
def bleHand (s : BleReceiver) : RtErr × Ble698Frame → BleReceiver
  | (.eok, frame) => { s with frame := respond s.analysed.length frame, analysed := s.analysed ++ [frame] }
  | (.error, frame) => { s with frame := frame }

/-- One turn of the loop over the ring: a slot is unpacked, analysed and cleared. -/
def bleAnalyse (s : BleReceiver) : Option BleReceiver := do
  let s := bleHand respond s (← ble698DataUnPackage s.frame (s.dataBuf.toList.drop (s.rxRead * bleSlot)))
  let dataBuf ← blit s.dataBuf (s.rxRead * bleSlot) (List.replicate bleSlot 0) bleSlot
  some { s with dataBuf := dataBuf, rxRead := nextSlot s.rxRead }

/-- The loop over the ring, for at most `n` turns; it needs no more than there are slots. -/
def bleDrain : Nat → BleReceiver → Option BleReceiver
  | 0, s => if s.rxWrite = s.rxRead then some s else none
  | n + 1, s => if s.rxWrite = s.rxRead then some s else (bleAnalyse respond s).bind (bleDrain n)

/-- `+BLEDISCONN`. -/
def bleDisconn : List Byte := [0x2b, 0x42, 0x4c, 0x45, 0x44, 0x49, 0x53, 0x43, 0x4f, 0x4e, 0x4e]

/-- `BLE_Trans_Recv`. The text is looked for up to the first zero of the buffer. -/
def bleTransRecv (s : BleReceiver) : Option BleReceiver := do
  let (res, s) ← bleCheckDataToBuf s
  let s ← if res = .eok then bleDrain respond 4 s else some s
  some { s with
    atMode := s.atMode || decide (bleDisconn <:+: s.rxData.toList.takeWhile (· ≠ 0))
    rxBeg := false
    rxPtr := 0
    rxPre := 0 }

end Analysis

end EnergyRouter
