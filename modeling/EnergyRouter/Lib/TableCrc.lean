import Mathlib.Data.BitVec

/-!
# Reflected table-driven checksums

The low byte of the register, folded with the input byte, selects a table entry, which is folded into the register shifted by a
byte. The sender appends the complement of the register; over message and check bytes the receiver comes to one constant, the
residue. A sender that appends the register as it is leads to the empty register. Nothing here depends on the table.
-/

namespace TableCrc

/-- The low byte of a register. -/
def lo (r : BitVec 16) : BitVec 8 := r.setWidth 8

/-- The high byte of a register. -/
def hi (r : BitVec 16) : BitVec 8 := (r >>> 8).setWidth 8

/-- One byte of input: select an entry by the folded low byte and fold it into the shifted register. -/
def step (tab : BitVec 8 → BitVec 16) (r : BitVec 16) (b : BitVec 8) : BitVec 16 :=
  (r >>> 8) ^^^ tab (lo r ^^^ b)

/-- The register after a message. -/
def crc (tab : BitVec 8 → BitVec 16) (r : BitVec 16) (bs : List (BitVec 8)) : BitVec 16 :=
  bs.foldl (step tab) r

/-- The two bytes a sender appends after the register `r`: its complement, low byte first. -/
def check (r : BitVec 16) : List (BitVec 8) := [lo (r ^^^ 0xffff#16), hi (r ^^^ 0xffff#16)]

/-- The register every message followed by its own check bytes ends in. -/
def residue (tab : BitVec 8 → BitVec 16) : BitVec 16 :=
  (tab 0xff#8 >>> 8) ^^^ tab (lo (tab 0xff#8) ^^^ 0xff#8)

@[simp] theorem crc_nil (tab : BitVec 8 → BitVec 16) (r : BitVec 16) : crc tab r [] = r := rfl

@[simp] theorem crc_cons (tab : BitVec 8 → BitVec 16) (r : BitVec 16) (b : BitVec 8) (bs : List (BitVec 8)) :
    crc tab r (b :: bs) = crc tab (step tab r b) bs := rfl

/-- A checksum may be taken in two parts. -/
theorem crc_append (tab : BitVec 8 → BitVec 16) (r : BitVec 16) (bs cs : List (BitVec 8)) :
    crc tab r (bs ++ cs) = crc tab (crc tab r bs) cs := List.foldl_append

/-- The low byte of the complement, folded with the low byte of the register, is all ones. -/
theorem lo_xor_lo_compl (r : BitVec 16) : lo r ^^^ lo (r ^^^ 0xffff#16) = 0xff#8 := by
  simp only [lo, BitVec.setWidth_xor, ← BitVec.xor_assoc, BitVec.xor_self]
  rfl

theorem hi_compl (r : BitVec 16) : hi (r ^^^ 0xffff#16) = hi r ^^^ 0xff#8 := by
  simp only [hi, BitVec.ushiftRight_xor_distrib, BitVec.setWidth_xor]
  rfl

theorem shift_shift (r : BitVec 16) : (r >>> 8) >>> 8 = 0#16 := by
  rw [← BitVec.shiftRight_add]
  exact BitVec.ushiftRight_eq_zero (by omega)

/-- Feeding a register its own check bytes brings it to the residue, whatever the register held. -/
theorem crc_check (tab : BitVec 8 → BitVec 16) (r : BitVec 16) : crc tab r (check r) = residue tab := by
  -- the first check byte selects entry 255 whatever `r` is
  have hfirst : step tab r (lo (r ^^^ 0xffff#16)) = (r >>> 8) ^^^ tab 0xff#8 := by
    rw [step, lo_xor_lo_compl]
  -- the high byte of `r`, now the low byte of the register, cancels against its complement
  have hsel : lo ((r >>> 8) ^^^ tab 0xff#8) ^^^ (hi r ^^^ 0xff#8) = lo (tab 0xff#8) ^^^ 0xff#8 := by
    simp only [lo, hi, BitVec.setWidth_xor]
    generalize (r >>> 8).setWidth 8 = h
    generalize (tab 0xff#8).setWidth 8 = t
    calc h ^^^ t ^^^ (h ^^^ 0xff#8) = (h ^^^ h) ^^^ (t ^^^ 0xff#8) := by ac_rfl
      _ = t ^^^ 0xff#8 := by rw [BitVec.xor_self, BitVec.zero_xor]
  have hshift : ((r >>> 8) ^^^ tab 0xff#8) >>> 8 = tab 0xff#8 >>> 8 := by
    rw [BitVec.ushiftRight_xor_distrib, shift_shift, BitVec.zero_xor]
  simp only [check, crc_cons, crc_nil, hfirst, hi_compl]
  rw [step, hsel, hshift, residue]

/-- The residue law: a message followed by the complement of its checksum always ends in the residue. -/
theorem crc_append_check (tab : BitVec 8 → BitVec 16) (r : BitVec 16) (bs : List (BitVec 8)) :
    crc tab r (bs ++ check (crc tab r bs)) = residue tab := by
  rw [crc_append, crc_check]

/-- Where the first entry is zero, a register fed its own two bytes, the low one first, is empty: each byte meets itself. -/
theorem crc_own_bytes {tab : BitVec 8 → BitVec 16} (hzero : tab 0#8 = 0#16) (r : BitVec 16) : crc tab r [lo r, hi r] = 0#16 := by
  have hfirst : step tab r (lo r) = r >>> 8 := by
    rw [step, BitVec.xor_self, hzero, BitVec.xor_zero]
  have hsecond : step tab (r >>> 8) (hi r) = (r >>> 8) >>> 8 := by
    rw [step, lo, hi, BitVec.xor_self, hzero, BitVec.xor_zero]
  rw [crc_cons, crc_cons, crc_nil, hfirst, hsecond, shift_shift]

/-- The residue law of a checksum that is appended as it is: the message with it ends in the empty register. -/
theorem crc_append_own_bytes {tab : BitVec 8 → BitVec 16} (hzero : tab 0#8 = 0#16) (r : BitVec 16) (bs : List (BitVec 8)) :
    crc tab r (bs ++ [lo (crc tab r bs), hi (crc tab r bs)]) = 0#16 := by
  rw [crc_append, crc_own_bytes hzero]

end TableCrc
