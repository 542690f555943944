import EnergyRouter.Esam

/-!
# Frames over Bluetooth

`BLE_698_Data_UnPackage`, the decoder of the Bluetooth side for the same frames, into a record with fixed arrays.
-/

namespace EnergyRouter

open Buffer

/-- `_698_BLE_FRAME`. -/
structure Ble698Frame where
  head : Byte
  uclenth0 : Byte
  uclenth1 : Byte
  ucControl : Byte
  sa : Byte
  addr : Vector Byte 6
  ca : Byte
  ucHcs0 : Byte
  ucHcs1 : Byte
  apduCmd : Byte
  apduData : Vector Byte 512
  ucFcs0 : Byte
  ucFcs1 : Byte
  endChar : Byte
  deriving DecidableEq, Repr

/-- A frame record with nothing in it. -/
def zeroBleFrame : Ble698Frame := ⟨0, 0, 0, 0, 0, Vector.replicate 6 0, 0, 0, 0, 0, Vector.replicate 512 0, 0, 0, 0⟩

/-- `datalenth.ullenth`, of which nothing but the two lower bytes is ever written. -/
def ullenthOf (uclenth0 uclenth1 : Byte) : Nat := uclenth1.toNat * 256 + uclenth0.toNat

/-- The length of the server address. -/
def addrLenthOf (sa : Byte) : Nat := (sa &&& 0x0f#8).toNat + 1

/-- The difference of two numbers in the 32 bits of `rt_uint32_t`. -/
def sub32 (a b : Nat) : Nat := if b ≤ a then a - b else a + 2 ^ 32 - b

/-- The number of bytes copied to `apdu_data`. -/
def apduLenthOf (totalLenth addrLenth : Nat) : Nat := sub32 (sub32 totalLenth addrLenth) 12

/-- `BLE_698_Data_UnPackage`, from a buffer that goes to the end of its array. -/
def ble698DataUnPackage (devRecv : Ble698Frame) (buf : List Byte) : Option (RtErr × Ble698Frame) := do
  let head ← buf[0]?
  if head ≠ 0x68 then some (.error, devRecv)
  else
    let uclenth0 ← buf[1]?
    let uclenth1 ← buf[2]?
    let ucControl ← buf[3]?
    let sa ← buf[4]?
    let addrLenth := addrLenthOf sa
    let totalLenth := ullenthOf uclenth0 uclenth1 + 2
    let apduLenth := apduLenthOf totalLenth addrLenth
    let addr ← blit devRecv.addr 0 (buf.drop 5) addrLenth
    let ca ← buf[5 + addrLenth]?
    let ucHcs0 ← buf[6 + addrLenth]?
    let ucHcs1 ← buf[7 + addrLenth]?
    let apduCmd ← buf[8 + addrLenth]?
    let apduData ← blit devRecv.apduData 0 (buf.drop (9 + addrLenth)) apduLenth
    let ucFcs0 ← buf[totalLenth - 3]?
    let ucFcs1 ← buf[totalLenth - 2]?
    let endChar ← buf[totalLenth - 1]?
    some (.eok, ⟨head, uclenth0, uclenth1, ucControl, sa, addr, ca, ucHcs0, ucHcs1, apduCmd, apduData, ucFcs0, ucFcs1, endChar⟩)

end EnergyRouter
