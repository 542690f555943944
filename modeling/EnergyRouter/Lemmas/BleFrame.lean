import EnergyRouter.Ble
import EnergyRouter.Lemmas.Resync

/-!
# Frames by their fields

A valid frame as a record of its fields, and what the Bluetooth decoder makes of it.
-/

namespace EnergyRouter

open Buffer

/-! ## Frames by their fields -/

/-- The fields of a frame; the start and the end character are fixed. -/
structure Parts698 where
  length0 : Byte
  length1 : Byte
  control : Byte
  sa : Byte
  sAddr : List Byte
  ca : Byte
  hcs0 : Byte
  hcs1 : Byte
  apdu : List Byte
  fcs0 : Byte
  fcs1 : Byte

/-- The header of a frame with its check. -/
def Parts698.header (p : Parts698) : List Byte :=
  [0x68, p.length0, p.length1, p.control, p.sa] ++ p.sAddr ++ [p.ca, p.hcs0, p.hcs1]

/-- A frame as a string of bytes. -/
def Parts698.bytes (p : Parts698) : List Byte := p.header ++ p.apdu ++ [p.fcs0, p.fcs1, 0x16]

/-- A valid frame: address and frame have the lengths their fields say, and both checks are right. -/
structure Parts698.Valid (p : Parts698) : Prop where
  addr : p.sAddr.length = (p.sa &&& 0x0f#8).toNat + 1
  length : (p.length1 &&& 0x3f#8).toNat * 256 + p.length0.toNat + 2 = p.bytes.length
  hcs : FcsGood p.header
  fcs : FcsGood p.bytes.dropLast

/-- The two reserved bits of the length field, above its fourteen, are clear. -/
def Parts698.ReservedClear (p : Parts698) : Prop := p.length1.toNat < 2 ^ 6
deriving Decidable

theorem Parts698.header_length (p : Parts698) : p.header.length = 8 + p.sAddr.length := by
  simp [Parts698.header]
  omega

theorem Parts698.bytes_length (p : Parts698) : p.bytes.length = 11 + p.sAddr.length + p.apdu.length := by
  simp [Parts698.bytes, p.header_length]
  omega

/-! ## Reading a frame -/

section Reading

variable (p : Parts698) (rest : List Byte)

theorem Parts698.drop_addr :
    (p.bytes ++ rest).drop 5 = p.sAddr ++ ([p.ca, p.hcs0, p.hcs1] ++ p.apdu ++ [p.fcs0, p.fcs1, 0x16] ++ rest) := by
  simp [Parts698.bytes, Parts698.header]

theorem Parts698.drop_apdu {n : Nat} (hn : n = 8 + p.sAddr.length) :
    (p.bytes ++ rest).drop n = p.apdu ++ ([p.fcs0, p.fcs1, 0x16] ++ rest) := by
  rw [hn, ← p.header_length, Parts698.bytes, List.append_assoc, List.append_assoc, List.drop_left]

theorem Parts698.getElem?_behind_addr {i j : Nat} (hi : i = 5 + p.sAddr.length + j) :
    (p.bytes ++ rest)[i]? = ([p.ca, p.hcs0, p.hcs1] ++ p.apdu ++ [p.fcs0, p.fcs1, 0x16] ++ rest)[j]? := by
  rw [hi, Nat.add_assoc, ← List.getElem?_drop, p.drop_addr rest, List.getElem?_append_right (Nat.le_add_right _ _),
    Nat.add_sub_cancel_left]

end Reading

theorem toList_of_front {n : Nat} {data : Vector Byte n} {l : List Byte} (h : front data l.length = l) :
    data.toList = l ++ data.toList.drop l.length := by
  calc data.toList = data.toList.take l.length ++ data.toList.drop l.length := (List.take_append_drop _ _).symm
    _ = l ++ data.toList.drop l.length := by rw [← front, h]

/-! ## The Bluetooth decoder -/

theorem sub32_of_le {a b : Nat} (h : b ≤ a) : sub32 a b = a - b := by rw [sub32, if_pos h]

theorem apduLenthOf_of_le {totalLenth addrLenth : Nat} (h : addrLenth + 12 ≤ totalLenth) :
    apduLenthOf totalLenth addrLenth = totalLenth - addrLenth - 12 := by
  rw [apduLenthOf, sub32_of_le (by omega : addrLenth ≤ totalLenth), sub32_of_le (by omega)]

theorem ble698DataUnPackage_parts (devRecv : Ble698Frame) {p : Parts698} (rest : List Byte) {cmd : Byte} {params : List Byte}
    (hnibble : p.sAddr.length = addrLenthOf p.sa) (haddr : p.sAddr.length ≤ 6) (happ : p.apdu = cmd :: params)
    (hparams : params.length ≤ 512) (hlength : ullenthOf p.length0 p.length1 + 2 = p.bytes.length) :
    ble698DataUnPackage devRecv (p.bytes ++ rest) = some (.eok,
      { head := 0x68
        uclenth0 := p.length0
        uclenth1 := p.length1
        ucControl := p.control
        sa := p.sa
        addr := copyAt devRecv.addr 0 p.sAddr
        ca := p.ca
        ucHcs0 := p.hcs0
        ucHcs1 := p.hcs1
        apduCmd := cmd
        apduData := copyAt devRecv.apduData 0 params
        ucFcs0 := p.fcs0
        ucFcs1 := p.fcs1
        endChar := 0x16 }) := by
  have hlen := p.bytes_length
  have hapdu : p.apdu.length = params.length + 1 := by rw [happ, List.length_cons]
  have h0 : (p.bytes ++ rest)[0]? = some 0x68 := rfl
  have h1 : (p.bytes ++ rest)[1]? = some p.length0 := rfl
  have h2 : (p.bytes ++ rest)[2]? = some p.length1 := rfl
  have h3 : (p.bytes ++ rest)[3]? = some p.control := rfl
  have h4 : (p.bytes ++ rest)[4]? = some p.sa := rfl
  have hca : (p.bytes ++ rest)[5 + p.sAddr.length]? = some p.ca := p.getElem?_behind_addr rest (j := 0) (by omega)
  have hhcs0 : (p.bytes ++ rest)[6 + p.sAddr.length]? = some p.hcs0 := p.getElem?_behind_addr rest (j := 1) (by omega)
  have hhcs1 : (p.bytes ++ rest)[7 + p.sAddr.length]? = some p.hcs1 := p.getElem?_behind_addr rest (j := 2) (by omega)
  have hcmd : (p.bytes ++ rest)[8 + p.sAddr.length]? = some cmd := by
    rw [p.getElem?_behind_addr rest (j := 3) (by omega), happ]
    rfl
  have hend (j : Nat) (b : Byte) (hb : ([p.fcs0, p.fcs1, 0x16] ++ rest)[j]? = some b) {i : Nat}
      (hi : i = 8 + p.sAddr.length + p.apdu.length + j) : (p.bytes ++ rest)[i]? = some b := by
    rw [hi, Nat.add_assoc (8 + p.sAddr.length), ← List.getElem?_drop, p.drop_apdu rest rfl,
      List.getElem?_append_right (Nat.le_add_right _ _), Nat.add_sub_cancel_left, hb]
  have haddrCopy : blit devRecv.addr 0 ((p.bytes ++ rest).drop 5) p.sAddr.length = some (copyAt devRecv.addr 0 p.sAddr) := by
    rw [blit, p.drop_addr rest, if_pos ⟨by omega, by simp⟩, List.take_left]
  have hdataCopy : blit devRecv.apduData 0 ((p.bytes ++ rest).drop (9 + p.sAddr.length)) params.length =
      some (copyAt devRecv.apduData 0 params) := by
    have hdrop : (p.bytes ++ rest).drop (9 + p.sAddr.length) = params ++ ([p.fcs0, p.fcs1, 0x16] ++ rest) := by
      rw [show 9 + p.sAddr.length = 8 + p.sAddr.length + 1 by omega, ← List.drop_drop, p.drop_apdu rest rfl, happ]
      rfl
    rw [blit, hdrop, if_pos ⟨by omega, by simp⟩, List.take_left]
  have happLenth : apduLenthOf p.bytes.length p.sAddr.length = params.length := by
    rw [apduLenthOf_of_le (by omega)]
    omega
  have reads {α β : Type} {x : Option α} {a : α} (hx : x = some a) {f : α → Option β} {b : β} (hf : f a = some b) :
      x >>= f = some b := Option.bind_eq_some_iff.mpr ⟨a, hx, hf⟩
  refine reads h0 ?_
  rw [if_neg (not_not.mpr rfl)]
  refine reads h1 (reads h2 (reads h3 (reads h4 ?_)))
  dsimp only
  rw [← hnibble, hlength, happLenth]
  refine reads haddrCopy (reads hca (reads hhcs0 (reads hhcs1 (reads hcmd (reads hdataCopy ?_)))))
  exact reads (hend 0 p.fcs0 rfl (by omega)) (reads (hend 1 p.fcs1 rfl (by omega)) (reads (hend 2 0x16 rfl (by omega)) rfl))

theorem toNat_lengthMask (b : Byte) : (b &&& 0x3f#8).toNat = b.toNat % 64 := by
  rw [BitVec.toNat_and]
  exact Nat.and_two_pow_sub_one_eq_mod b.toNat 6

/-! ## A frame the source keeps -/

/-- The request for the address that the Bluetooth side keeps (`BLE_698_Get_Addr`), by its fields. -/
def getAddrParts : Parts698 where
  length0 := 0x17
  length1 := 0x00
  control := 0x43
  sa := 0x45
  sAddr := List.replicate 6 0xAA
  ca := 0x10
  hcs0 := 0xDA
  hcs1 := 0x5F
  apdu := [0x05, 0x01, 0x00, 0x40, 0x01, 0x02, 0x00, 0x00]
  fcs0 := 0xED
  fcs1 := 0x03

theorem getAddrParts_valid : getAddrParts.Valid := ⟨by decide, by decide, by decide, by decide⟩

end EnergyRouter
