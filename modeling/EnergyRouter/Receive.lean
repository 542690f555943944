import EnergyRouter.Frame

/-!
# The receiver of the HPLC port

`get_single_frame_frome_hplc` reads the serial port until a frame is complete or given up or thirty reads in a row were empty;
`hplc_thread_entry` calls it for ever. The port is the list of the results of its reads, `none` for an empty one. What the receiver
does not touch is a type `W`; `check_afair_from_botom` and the service of an accepted frame act on it and are parameters.
-/

namespace EnergyRouter

/-- `save_hplc_data`: it answers 0 also when the byte found no room and was dropped. -/
def saveHplcData (hplcData : CharPointDataManage) (position : Nat) (res : Byte) : Int × CharPointDataManage :=
  (0, (saveCharPointData hplcData position [res] 1).2)

/-- `hplc_645_addr_receive`: 1 for the broadcast address request of the other meter protocol. -/
def hplc645AddrReceive (dataRev : CharPointDataManage) : Int :=
  if dataRev.dataSize ≥ 12 then
    if dataRev.at 0 = 0x68 ∧ dataRev.at 7 = 0x68 ∧ dataRev.at 11 = 0x16 then
      if dataRev.at 1 = 0xAA ∧ dataRev.at 8 = 0x13 ∧ dataRev.at 10 = 0xDF then 1 else -1
    else -1
  else 0

/-- How a part of the receive loop ends: the loop goes on, the call returns, or the frame is complete. -/
inductive Flow where
  | next (rx : RxState) (rev : CharPointDataManage)
  | ret (result : Int) (rx : RxState) (rev : CharPointDataManage)
  | complete (rx : RxState) (rev : CharPointDataManage)
  deriving DecidableEq, Repr

/-- Go on with a cleared receiver. -/
def Flow.cleared (rx : RxState) (rev : CharPointDataManage) : Flow := .next (clearData rx rev).1 (clearData rx rev).2

/-- Give the frame up: clear and return -1. -/
def Flow.fail (rx : RxState) (rev : CharPointDataManage) : Flow := .ret (-1) (clearData rx rev).1 (clearData rx rev).2

/-- The part of the loop between the length field and the header check: find where the header ends, then check it. -/
def headerByte (testDisCheck : Bool) (rx : RxState) (rev : CharPointDataManage) : Option Flow :=
  if rx.usartRxSta &&& 0x10000000 ≠ 0 then
    if (rev.dataSize : Int) = 8 + rx.lenSa then
      let rx := { rx with usartRxSta := rx.usartRxSta ||| 0x08000000 }
      if testDisCheck then some (.next rx rev)
      else do
        let hcs ← hcs698 rev.priveData 1 (7 + rx.lenSa) 0
        if hcs < 0 then
          if hplc645AddrReceive rev = 1 then some (.ret 1 rx rev)
          else some (.cleared rx rev)
        else some (.next rx rev)
    else some (.next rx rev)
  else if rev.dataSize = 5 then
    let rx := { rx with usartRxSta := rx.usartRxSta ||| 0x10000000 }
    if rev.at 1 = 0xaa ∧ rev.at 2 = 0xaa then some (.next { rx with lenSa := 4 } rev)
    else if rx.lenAll > (hplcDataMaxSize : Int) then some (.fail rx rev)
    else some (.next { rx with lenSa := (rev.at 4 &&& 0x0f#8).toNat + 1 } rev)
  else some (.next rx rev)

/-- The part of the loop that counts a byte of a frame of known length and looks at the last one. -/
def countByte (rx : RxState) (rev : CharPointDataManage) : Flow :=
  let rx := { rx with lenLeft := rx.lenLeft - 1 }
  if rx.lenLeft ≤ 0 then
    if rev.at ((rev.dataSize : Int) - 1) ≠ 0x16 then .fail rx rev
    else .complete { rx with usartRxSta := rx.usartRxSta ||| 0x04000000 } rev
  else .next rx rev

/-- A byte of the header is counted unless the call returned at it. -/
def Flow.thenCount : Flow → Flow
  | .next rx rev => countByte rx rev
  | flow => flow

/-- The part of the loop that waits for the length field. -/
def lengthByte (rx : RxState) (rev : CharPointDataManage) : Flow :=
  if rev.dataSize = 3 then
    let rx := { rx with
      usartRxSta := rx.usartRxSta ||| 0x20000000
      lenAll := (rev.at 2).toNat * 256 + (rev.at 1).toNat + 2 }
    if rx.lenAll < 12 then .fail rx rev
    else .next { rx with lenLeft := rx.lenAll - 3 } rev
  else .next rx rev

/-- One byte read by the loop. -/
def receiveByte (testDisCheck : Bool) (rx : RxState) (rev : CharPointDataManage) (res : Byte) : Option Flow :=
  if rx.usartRxSta &&& 0x40000000 ≠ 0 then
    let (saved, rev) := saveHplcData rev rev.dataSize res
    if saved < 0 then some (.cleared rx rev)
    else if rx.usartRxSta &&& 0x20000000 ≠ 0 then
      if rx.usartRxSta &&& 0x08000000 = 0 then (headerByte testDisCheck rx rev).map Flow.thenCount
      else some (countByte rx rev)
    else some (lengthByte rx rev)
  else if res = 0x68 then
    let rx := { rx with feNo := 0 }
    let (saved, rev) := saveHplcData rev rev.dataSize res
    if saved < 0 then some (.cleared rx rev)
    else some (.next { rx with usartRxSta := rx.usartRxSta ||| 0x40000000 } rev)
  else some (.next rx rev)

/-! ## The cells of `priveData` the loop uses

Every index the source uses, in the order of its code; an index of a comparison that `&&` may leave out is listed all the same. -/

/-- The cell a byte is stored to, if it finds room. -/
def saveIndices (rev : CharPointDataManage) : List Int := if (rev.size : Int) > rev.dataSize + 1 then [(rev.dataSize : Int)] else []

/-- The cells `clear_data` sets to zero. -/
def clearIndices (rev : CharPointDataManage) : List Int := (List.range rev.size).map Nat.cast

/-- The cells `hplc_645_addr_receive` looks at. -/
def addr645Indices (rev : CharPointDataManage) : List Int := if rev.dataSize ≥ 12 then [0, 7, 11, 1, 8, 10] else []

/-- The cells of the header part of the loop. -/
def headerIndices (testDisCheck : Bool) (rx : RxState) (rev : CharPointDataManage) : List Int :=
  if rx.usartRxSta &&& 0x10000000 ≠ 0 then
    if (rev.dataSize : Int) = 8 + rx.lenSa then
      if testDisCheck then []
      else
        (List.range (7 + rx.lenSa).toNat).map (fun i : Nat => (1 : Int) + i) ++
          if hcs698 rev.priveData 1 (7 + rx.lenSa) 0 = some 0 then []
          else addr645Indices rev ++ if hplc645AddrReceive rev = 1 then [] else clearIndices rev
    else []
  else if rev.dataSize = 5 then
    [1, 2] ++
      if rev.at 1 = 0xaa ∧ rev.at 2 = 0xaa then []
      else if rx.lenAll > (hplcDataMaxSize : Int) then clearIndices rev
      else [4]
  else []

/-- The cells of the part that counts a byte: the one taken for the last byte of the frame. -/
def countIndices (rx : RxState) (rev : CharPointDataManage) : List Int :=
  if rx.lenLeft - 1 ≤ 0 then
    ((rev.dataSize : Int) - 1) :: if rev.at ((rev.dataSize : Int) - 1) ≠ 0x16 then clearIndices rev else []
  else []

/-- The cells of the part that waits for the length field. -/
def lengthIndices (rev : CharPointDataManage) : List Int :=
  if rev.dataSize = 3 then
    [2, 1] ++ if ((rev.at 2).toNat * 256 + (rev.at 1).toNat + 2 : Int) < 12 then clearIndices rev else []
  else []

/-- The cells one byte read by the loop makes it use. -/
def byteIndices (testDisCheck : Bool) (rx : RxState) (rev : CharPointDataManage) (res : Byte) : List Int :=
  if rx.usartRxSta &&& 0x40000000 ≠ 0 then
    let saved := (saveHplcData rev rev.dataSize res).2
    saveIndices rev ++
      if rx.usartRxSta &&& 0x20000000 ≠ 0 then
        if rx.usartRxSta &&& 0x08000000 = 0 then
          headerIndices testDisCheck rx saved ++
            match headerByte testDisCheck rx saved with
            | some (.next rx rev) => countIndices rx rev
            | _ => []
        else countIndices rx saved
      else lengthIndices saved
  else if res = 0x68 then saveIndices rev
  else []

/-- `init_CharPointDataManage`: an empty buffer over whatever the memory of the array held; the user data starts at the array. -/
def initCharPointDataManage (des : CharPointDataManage) : CharPointDataManage :=
  { des with
    size := 1024
    dataSize := 0
    frame698 := { des.frame698 with
      addr := { des.frame698.addr with ca := 0, sa := 0 }
      usrDataLen := 0
      usrData := 0 } }

/-- The receiver as the thread first finds it: the flags are zero as static data is, and `init_698_state` sets the rest. -/
def rxStart : RxState := { usartRxSta := 0, lenLeft := 0, lenAll := 0, lenSa := 0, feNo := 0 }

/-- What a call of the receiver leaves: its result, the receiver, the rest of the port and the reads not made yet. -/
structure Received (W : Type) where
  result : Int
  rx : RxState
  rev : CharPointDataManage
  world : W
  reads : List (Option Byte)

section

variable {W : Type} (checkAfairFromBotom : W → W) (testDisCheck : Bool)

/-- The loop of `get_single_frame_frome_hplc`; `times` counts the empty reads in a row. -/
def receiveLoop : List (Option Byte) → Nat → RxState → CharPointDataManage → W → Option (Received W)
  | [], _, _, _, _ => none
  | none :: reads, times, rx, rev, w =>
    if times + 1 = 30 then
      some ⟨-1, (clearData rx rev).1, (clearData rx rev).2, checkAfairFromBotom w, reads⟩
    else receiveLoop reads (times + 1) rx rev (checkAfairFromBotom w)
  | some res :: reads, _, rx, rev, w =>
    match receiveByte testDisCheck rx rev res with
    | none => none
    | some (.next rx rev) => receiveLoop reads 0 rx rev w
    | some (.ret result rx rev) => some ⟨result, rx, rev, w, reads⟩
    | some (.complete rx rev) => some ⟨0, rx, rev, checkAfairFromBotom w, reads⟩

/-- The cells of `priveData` a call uses over the reads given, up to its return. -/
def loopIndices : List (Option Byte) → Nat → RxState → CharPointDataManage → List Int
  | [], _, _, _ => []
  | none :: reads, times, rx, rev =>
    if times + 1 = 30 then clearIndices rev else loopIndices reads (times + 1) rx rev
  | some res :: reads, _, rx, rev =>
    byteIndices testDisCheck rx rev res ++
      match receiveByte testDisCheck rx rev res with
      | some (.next rx rev) => loopIndices reads 0 rx rev
      | _ => []

/-- `get_single_frame_frome_hplc`. -/
def getSingleFrameFromeHplc (reads : List (Option Byte)) (rx : RxState) (rev : CharPointDataManage) (w : W) :
    Option (Received W) :=
  receiveLoop checkAfairFromBotom testDisCheck reads 0 rx rev (checkAfairFromBotom w)

/-- The service of an accepted frame. It may change the bytes of the frame and the fields unpacked from it, not the size of its
buffer. -/
abbrev Service (W : Type) := Frame698 → Vector Byte hplcDataMaxSize → W → Frame698 × Vector Byte hplcDataMaxSize × W

variable (answer645 : CharPointDataManage → W → W) (service : Service W)

/-- One turn of the loop of `hplc_thread_entry`: a call of the receiver and what the thread does with its result. -/
def hplcThreadTurn (reads : List (Option Byte)) (rx : RxState) (rev : CharPointDataManage) (w : W) :
    Option (Received W) := do
  let r ← getSingleFrameFromeHplc checkAfairFromBotom testDisCheck reads rx rev w
  if r.result ≠ 0 then
    if r.result = 1 then
      some { r with rx := (clearData r.rx r.rev).1, rev := (clearData r.rx r.rev).2, world := answer645 r.rev r.world }
    else some r
  else
    let (analysed, rev) ← priveDataAnalysis testDisCheck r.rev
    if analysed = 0 then
      let (frame, bytes, w) := service rev.frame698 rev.priveData r.world
      let rev := { rev with frame698 := frame, priveData := bytes }
      some { r with rx := (clearData r.rx rev).1, rev := (clearData r.rx rev).2, world := w }
    else some { r with rx := (clearData r.rx rev).1, rev := (clearData r.rx rev).2 }

/-- `n` turns of the thread, each with the reads the one before it left. -/
def hplcThreadTurns : Nat → List (Option Byte) → RxState → CharPointDataManage → W → Option (Received W)
  | 0, reads, rx, rev, w => some ⟨0, rx, rev, w, reads⟩
  | n + 1, reads, rx, rev, w => do
    let r ← hplcThreadTurn checkAfairFromBotom testDisCheck answer645 service reads rx rev w
    hplcThreadTurns n r.reads r.rx r.rev r.world

end

end EnergyRouter
