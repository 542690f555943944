import EnergyRouter.Lib.BitCrc
import EnergyRouter.Objects

/-!
# The check of the meter's replies

`CRC_16` keeps its register in two bytes and looks each up in a table of its own. Put together, the tables are that of the reflected
polynomial 0xa001; a message with the two bytes of its register ends in the empty register.
-/

namespace EnergyRouter

open TableCrc

/-- `USCRCHi` and `USCRCLo` as one table. -/
def uscrcEntry (i : Byte) : BitVec 16 := uscrcHi.getD i.toNat 0 ++ uscrcLo.getD i.toNat 0

/-- The polynomial of the check, its bits in the order of the register. -/
def modbusPoly : BitVec 16 := 0xa001

theorem lo_append (h l : Byte) : lo (h ++ l) = l := BitVec.setWidth_append_eq_right

theorem append_shift (h l : Byte) : (h ++ l) >>> 8 = 0#8 ++ h := by
  apply BitVec.eq_of_getLsbD_eq
  intro i hi
  rw [BitVec.getLsbD_ushiftRight, BitVec.getLsbD_append, BitVec.getLsbD_append, if_neg (by omega), Nat.add_sub_cancel_left]
  split_ifs with hlow
  · rfl
  · rw [BitVec.getLsbD_of_ge h i (by omega)]
    exact BitVec.getLsbD_zero.symm

/-- A turn of the loop, with its register in two bytes, is a step of the table checksum. -/
theorem step_uscrcEntry (h l b : Byte) :
    step uscrcEntry (h ++ l) b = uscrcHi.getD (l ^^^ b).toNat 0 ++ (h ^^^ uscrcLo.getD (l ^^^ b).toNat 0) := by
  rw [step, lo_append, append_shift, uscrcEntry, BitVec.xor_append, BitVec.zero_xor]

theorem crc16Loop_eq (h l : Byte) (pcData : List Byte) (len : Nat) (hlen : len ≤ pcData.length) :
    crc16Loop h l pcData len = some (crc uscrcEntry (h ++ l) (pcData.take len)) := by
  induction len generalizing h l pcData with
  | zero => rw [crc16Loop, List.take_zero, crc_nil]
  | succ len ih =>
    cases pcData with
    | nil => simp at hlen
    | cons b pcData =>
      simp only [List.length_cons, Nat.add_le_add_iff_right] at hlen
      rw [crc16Loop, ih _ _ pcData hlen, List.take_succ_cons, crc_cons, step_uscrcEntry]

/-- `CRC_16` inside its object is the table checksum. -/
theorem crc16_eq {pcData : List Byte} {len : Nat} (hlen : len ≤ pcData.length) :
    crc16 pcData len = some (crc uscrcEntry 0xffff (pcData.take len)) := crc16Loop_eq 0xff 0xff pcData len hlen

/-- Each pair of entries is what eight moves of the bit-serial register make of the index. -/
theorem uscrcEntry_eq (i : Byte) : uscrcEntry i = BitCrc.shifts modbusPoly 8 (i.setWidth 16) := by
  have hall : ∀ i : Byte, uscrcEntry i = BitCrc.shifts modbusPoly 8 (i.setWidth 16) := by decide +kernel
  exact hall i

/-- `CRC_16` of a message is the bit-serial register after its bits, and a message with the low and the high byte of its register ends
in the empty one. -/
theorem modbus_crc (message : List Byte) :
    ∃ crc, crc16 message message.length = some crc ∧ crc = BitCrc.run modbusPoly 0xffff (BitCrc.bitsOf message) ∧
      crc16 (message ++ [crc.setWidth 8, (crc >>> 8).setWidth 8]) (message.length + 2) = some 0 := by
  have hregister := crc16_eq (Nat.le_refl message.length)
  rw [List.take_length] at hregister
  refine ⟨crc uscrcEntry 0xffff message, hregister, BitCrc.crc_eq_run uscrcEntry_eq _ _, ?_⟩
  rw [crc16_eq (by simp), List.take_of_length_le (by simp)]
  exact congrArg some (crc_append_own_bytes (by decide) _ _)

end EnergyRouter
