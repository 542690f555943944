import EnergyRouter.Fcs
import EnergyRouter.Lib.Hamming

/-!
# The pages of the NAND flash

`nand_MT29F4G08_writepage` and `nand_MT29F4G08_readpage` keep four bytes behind the data of a page for its check code;
`nand_datacorrect` compares two codes and corrects the data. A page is programmed after it was erased, and arrays are as long as the
lengths passed with them. An access behind the end of an array has no outcome in the model.
-/

namespace EnergyRouter

/-- `HAL_StatusTypeDef`. -/
inductive HalStatus
  | ok | error | busy | timeout
  deriving DecidableEq, Repr

def HalStatus.code : HalStatus → BitVec 32
  | ok => 0x00
  | error => 0x01
  | busy => 0x02
  | timeout => 0x03

/-- `PAGE_DATA_SIZE`. -/
def pageDataSize : Nat := 2048

/-- `ECC_SIZE`. -/
def eccSize : Nat := 4

/-- The fields of `rt_mtd_nand_device` the routines use. -/
structure NandDevice where
  blockStart : Nat
  blockEnd : Nat
  pagesPerBlock : Nat
  deriving DecidableEq, Repr

/-- `_partition[0]`. -/
def nandPartition : NandDevice := ⟨0, 1023, 64⟩

/-- The cells of the flash, by row and column. -/
abbrev NandCells := Nat → Nat → Byte

/-- `n` bytes of a row, from a column on. -/
def NandCells.read (cells : NandCells) (row col n : Nat) : List Byte := (List.range n).map fun i => cells row (col + i)

/-- Bytes programmed into a row, from a column on. -/
def NandCells.program (cells : NandCells) (row col : Nat) (bytes : List Byte) : NandCells := fun r c =>
  if r = row ∧ col ≤ c ∧ c < col + bytes.length then bytes.getD (c - col) 0 else cells r c

/-- The row of a page where two of its bytes are sent. -/
def nandRow (page : Nat) : Nat := page % 2 ^ 16

/-- `FSMC_NAND_GetECC`: the status it returns and the code it stores, with two parities for each of the fourteen bits of a bit
address. -/
def fsmcNandGetECC (status : HalStatus) (moved : List Byte) : BitVec 32 × BitVec 32 :=
  (status.code, Hamming.code 32 14 moved)

/-- What both routines have in `gecc` afterwards: the status is assigned over the code. -/
def assignedEcc (status : HalStatus) (moved : List Byte) : BitVec 32 := (fsmcNandGetECC status moved).1

/-- The bit of a byte that `nand_datacorrect` reads off the even parities. -/
def eccBitNum (eccP : BitVec 32) : BitVec 32 :=
  (eccP &&& 0x01#32) ||| ((eccP >>> 1) &&& 0x02#32) ||| ((eccP >>> 2) &&& 0x04#32)

/-- The byte of a page that `nand_datacorrect` reads off the even parities. -/
def eccByteAddr (eccP : BitVec 32) : BitVec 32 :=
  ((eccP >>> 6) &&& 0x001#32) ||| ((eccP >>> 7) &&& 0x002#32) ||| ((eccP >>> 8) &&& 0x004#32) ||| ((eccP >>> 9) &&& 0x008#32) |||
    ((eccP >>> 10) &&& 0x010#32) ||| ((eccP >>> 11) &&& 0x020#32) ||| ((eccP >>> 12) &&& 0x040#32) |||
    ((eccP >>> 13) &&& 0x080#32) ||| ((eccP >>> 14) &&& 0x100#32) ||| ((eccP >>> 15) &&& 0x200#32) |||
    ((eccP >>> 16) &&& 0x400#32)

/-- `nand_datacorrect`. The ones of the syndrome are counted in its lower 24 bits. -/
def nandDatacorrect (generatedEcc readEcc : BitVec 32) (data : List Byte) : Option (Int × List Byte) :=
  let syndrome := (generatedEcc ^^^ readEcc) &&& 0x0fffffff#32
  if syndrome = 0#32 then some (0, data)
  else
    let eccPn := syndrome &&& 0x05555555#32
    let eccP := (syndrome >>> 1) &&& 0x05555555#32
    if eccPn ^^^ eccP = 0x05555555#32 then
      if (eccByteAddr eccP).toNat < data.length then
        some (0, Hamming.flipBit data (eccByteAddr eccP).toNat (eccBitNum eccP).toNat)
      else none
    else if (List.range 24).countP (fun i => syndrome.getLsbD i) = 1 then some (1, data)
    else some (-1, data)

/-- `nand_MT29F4G08_readpage`: the result with the arrays passed. Only a whole page is checked against its code. -/
def nandMT29F4G08Readpage (device : NandDevice) (status : HalStatus) (cells : NandCells) (page : Nat) (data spare : List Byte) :
    Option (Int × List Byte × List Byte) :=
  let page := page + device.blockStart * device.pagesPerBlock
  if page / device.pagesPerBlock > device.blockEnd then some (-3, data, spare)
  else
    let moved := cells.read (nandRow page) 0 data.length
    if data.length = pageDataSize then do
      let gecc := assignedEcc status moved
      let tmp := cells.read (nandRow page) pageDataSize eccSize
      let spare ←
        if spare.length = 0 then some spare
        else if spare.length < eccSize then none
        else some (tmp ++ cells.read (nandRow page) (pageDataSize + eccSize) (spare.length - eccSize))
      let recc : BitVec 32 := tmp.getD 3 0 ++ tmp.getD 2 0 ++ tmp.getD 1 0 ++ tmp.getD 0 0
      if recc ≠ 0xffffffff#32 ∧ gecc ≠ 0#32 then
        let (result, data) ← nandDatacorrect gecc recc moved
        some (result, data, spare)
      else some (0, moved, spare)
    -- three bytes of the page are sent when only spare bytes are read
    else some (0, moved, cells.read (page % 2 ^ 24) pageDataSize spare.length)

/-- `nand_MT29F4G08_writepage`. Spare bytes are written without their first four, also alone. -/
def nandMT29F4G08Writepage (device : NandDevice) (status : HalStatus) (ready : Bool) (cells : NandCells) (page : Nat)
    (data spare : List Byte) : Int × NandCells :=
  let page := page + device.blockStart * device.pagesPerBlock
  let result : Int := if ready then 0 else -3
  if page / device.pagesPerBlock > device.blockEnd then (-3, cells)
  else if data.length ≠ 0 then
    if data.length = pageDataSize then
      let gecc := assignedEcc status data
      let code : List Byte := [gecc.setWidth 8, (gecc >>> 8).setWidth 8, (gecc >>> 16).setWidth 8, (gecc >>> 24).setWidth 8]
      (result, cells.program (nandRow page) 0 (data ++ code ++ spare.drop eccSize))
    else (result, cells.program (nandRow page) 0 data)
  else if spare.length ≠ 0 then (result, cells.program (nandRow page) pageDataSize (spare.drop eccSize))
  else (0, cells)

end EnergyRouter
