import EnergyRouter.Fcs
import EnergyRouter.Lib.Buffer

/-!
# Frames and their buffers

The buffer of a frame (`CharPointDataManage`), the fields `_698_unPackage` reads out of it, and the part of `_698_STATE` that the
receiver works on. A pointer into the buffer is an offset from its start.
-/

namespace EnergyRouter

/-- `HPLC_DATA_MAX_SIZE`: the length of `priveData`. -/
def hplcDataMaxSize : Nat := 1024

/-- `_698_ADDR`: the address field. -/
structure Addr698 where
  sa : Byte
  sAddr : Vector Byte 8
  ca : Byte
  sAddrLen : Int
  deriving DecidableEq, Repr

/-- `_698_FRAME`: the fields of an unpacked frame. The user data pointer is the offset of the data in the frame's buffer. -/
structure Frame698 where
  head : Byte
  length0 : Byte
  length1 : Byte
  length : Nat
  control : Byte
  addr : Addr698
  hcs0 : Byte
  hcs1 : Byte
  usrData : Nat
  usrDataLen : Int
  fcs0 : Byte
  fcs1 : Byte
  endChar : Byte
  frameApart : Byte
  deriving DecidableEq, Repr

/-- `CharPointDataManage`: a buffer, the number of its bytes in use and the frame unpacked from it. `below` is the byte in front of
the array: `priveData[dataSize-1]` reads it when `dataSize` is 0. -/
structure CharPointDataManage where
  frame698 : Frame698
  below : Byte
  priveData : Vector Byte hplcDataMaxSize
  size : Nat
  dataSize : Nat
  deriving DecidableEq, Repr

/-- A buffer as it is at power-up: a static variable, hence zeroed. -/
def zeroBuffer : CharPointDataManage where
  frame698 := ⟨0, 0, 0, 0, 0, ⟨0, Vector.replicate 8 0, 0, 0⟩, 0, 0, 0, 0, 0, 0, 0, 0⟩
  below := 0
  priveData := Vector.replicate hplcDataMaxSize 0
  size := 0
  dataSize := 0

/-- The bytes in use. -/
def CharPointDataManage.contents (d : CharPointDataManage) : List Byte := Buffer.front d.priveData d.dataSize

/-- The cell of the buffer at an index, as an array read of the source: the byte in front of the array at index -1. -/
def CharPointDataManage.at (d : CharPointDataManage) (i : Int) : Byte :=
  if i < 0 then d.below else d.priveData.getD i.toNat 0

/-- `save_char_point_data`: store `size` bytes at `position`, only when the buffer keeps at least one free byte behind them. -/
def saveCharPointData (hplcData : CharPointDataManage) (position : Nat) (res : List Byte) (size : Int) :
    Int × CharPointDataManage :=
  if size < 0 then (-1, hplcData)
  else if (hplcData.size : Int) > position + size then
    (0, { hplcData with
      priveData := Buffer.copyAt hplcData.priveData position (res.take size.toNat)
      dataSize := hplcData.dataSize + size.toNat })
  else (-1, hplcData)

/-- The fields of `_698_STATE` the receiver works on. -/
structure RxState where
  usartRxSta : BitVec 32
  lenLeft : Int
  lenAll : Int
  lenSa : Int
  feNo : Int
  deriving DecidableEq, Repr

/-- `clear_data`: empty the buffer and reset the receiver. -/
def clearData (_rx : RxState) (dataRev : CharPointDataManage) : RxState × CharPointDataManage :=
  ({ usartRxSta := 0, lenLeft := 0, lenAll := 0, lenSa := 0, feNo := 0 },
   { dataRev with
     dataSize := 0
     priveData := Buffer.copyAt dataRev.priveData 0 (List.replicate dataRev.size 0) })

/-- `_address_unPackage`. An address longer than its array leaves the fields after `sAddrLen` as they were. -/
def addressUnPackage (data : Vector Byte hplcDataMaxSize) (addr : Addr698) (startSize : Nat) : Int × Addr698 :=
  let sa := data.getD startSize 0
  let sAddrLen := (sa &&& 0x0f#8).toNat + 1
  let addr := { addr with sa := sa, sAddrLen := sAddrLen }
  if sAddrLen > 8 then (-1, addr)
  else
    (0, { addr with
      sAddr := Buffer.copyAt addr.sAddr 0 ((data.toList.drop (startSize + 1)).take sAddrLen)
      ca := data.getD (startSize + 1 + sAddrLen) 0 })

/-- `_698_unPackage`: the fields of a frame of `size` bytes. The address counts as six bytes whatever its length field says. -/
def unPackage698 (data : Vector Byte hplcDataMaxSize) (frame : Frame698) (size : Int) : Int × Frame698 :=
  let frame := { frame with
    frameApart := data.getD 3 0 &&& 0x20#8
    head := data.getD 0 0
    length0 := data.getD 1 0
    length1 := data.getD 2 0
    length := (data.getD 2 0 &&& 0x3f#8).toNat * 256 + (data.getD 1 0).toNat }
  if (frame.length : Int) ≠ size - 2 then (-1, frame)
  else
    let addr := (addressUnPackage data frame.addr 4).2
    let frame := { frame with
      control := data.getD 3 0
      addr := { addr with sAddrLen := 6 }
      hcs0 := data.getD (6 + 6) 0
      hcs1 := data.getD (7 + 6) 0
      usrDataLen := size - 11 - 6 }
    if frame.usrDataLen < 0 ∨ frame.usrDataLen > 1024 then (-1, frame)
    else
      (0, { frame with
        usrData := 8 + 6
        fcs0 := data.getD (size - 3).toNat 0
        fcs1 := data.getD (size - 2).toNat 0
        endChar := data.getD (size - 1).toNat 0 })

/-- `priveData_analysis`: check the frame and unpack it; `testDisCheck` is the switch that turns the checks off. -/
def priveDataAnalysis (testDisCheck : Bool) (dataRev : CharPointDataManage) : Option (Int × CharPointDataManage) := do
  let fcs ← if testDisCheck then some 0 else fcs698 dataRev.priveData 1 ((dataRev.dataSize : Int) - 2) 0
  if fcs ≠ 0 then some (-1, dataRev)
  else
    let (result, frame) := unPackage698 dataRev.priveData dataRev.frame698 dataRev.dataSize
    some (if result ≠ 0 then -1 else 0, { dataRev with frame698 := frame })

/-- The loop of `judge_meter_no` from the `i`-th byte of the two addresses on, `left` bytes to go. -/
def judgeMeterNoFrom (own addr : Addr698) : Nat → Nat → Option Int
  | _, 0 => some 0
  | i, left + 1 =>
    match own.sAddr[i]?, addr.sAddr[i]? with
    | some mine, some other =>
      if other = 0xaa ∨ mine = other then judgeMeterNoFrom own addr (i + 1) left else some (-1)
    | _, _ => none

/-- `judge_meter_no`: whether a frame is for this device. As many bytes are compared as its own address has, and 0xaa stands for
any. -/
def judgeMeterNo (own : Addr698) (dataRev : CharPointDataManage) : Option Int :=
  judgeMeterNoFrom own dataRev.frame698.addr 0 own.sAddrLen.toNat

end EnergyRouter
