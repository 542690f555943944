import EnergyRouter.Fcs
import EnergyRouter.Lib.Buffer
import EnergyRouter.Lib.BitCrc

/-!
# What the check functions compute

`pppfcs16` is the table checksum of `TableCrc` over `fcstab`. A block is good when the register after its bytes, the first one left
out, is the good one.
-/

namespace EnergyRouter

open TableCrc Buffer

variable {n len : Nat}

/-- The table of the check as a function of the selecting byte. -/
def fcsEntry (i : Byte) : BitVec 16 := fcstab.getD i.toNat 0

/-- The register of the check after a list of bytes. -/
def fcsOf (bs : List Byte) : BitVec 16 := crc fcsEntry pppInitFcs16 bs

/-- A block whose bytes, from the second on, end in their own check bytes. -/
def FcsGood (block : List Byte) : Prop := fcsOf (block.drop 1) = pppGoodFcs16
deriving Decidable

/-- The index the source computes, sixteen bits wide and masked, is the folded low byte. -/
theorem fcs_index (fcs : BitVec 16) (b : Byte) :
    ((fcs ^^^ b.setWidth 16) &&& 0xff#16).toNat = (lo fcs ^^^ b).toNat := by
  have hmask : ∀ x : BitVec 16, (x &&& 0xff#16).toNat = (x.setWidth 8).toNat := by
    intro x
    rw [BitVec.toNat_and, BitVec.toNat_setWidth]
    exact Nat.and_two_pow_sub_one_eq_mod x.toNat 8
  have hfold : (fcs ^^^ b.setWidth 16).setWidth 8 = lo fcs ^^^ b := by
    rw [BitVec.setWidth_xor, BitVec.setWidth_setWidth_of_le _ (by omega), BitVec.setWidth_eq, lo]
  rw [hmask, hfold]

theorem pppfcs16Loop_eq (fcs : BitVec 16) (cp : List Byte) (len : Nat) (h : len ≤ cp.length) :
    pppfcs16Loop fcs cp len = some (crc fcsEntry fcs (cp.take len)) := by
  induction len generalizing fcs cp with
  | zero => simp [pppfcs16Loop]
  | succ len ih =>
    cases cp with
    | nil => simp at h
    | cons b cp =>
      simp only [List.length_cons, Nat.add_le_add_iff_right] at h
      rw [pppfcs16Loop, fcs_index]
      exact ih _ cp h

/-- `pppfcs16` inside its object is the table checksum. -/
theorem pppfcs16_eq (fcs : BitVec 16) (cp : List Byte) (len : Nat) (h : len ≤ cp.length) :
    pppfcs16 fcs cp len = some (crc fcsEntry fcs (cp.take len)) := by
  rw [pppfcs16, if_neg (by omega), Int.toNat_natCast, pppfcs16Loop_eq fcs cp len h]

/-- The polynomial of the check, its bits in the order of the register. -/
def fcsPoly : BitVec 16 := 0x8408

/-- Each entry of the table is what eight moves of the bit-serial register make of its index. -/
theorem fcsEntry_eq (i : Byte) : fcsEntry i = BitCrc.shifts fcsPoly 8 (i.setWidth 16) := by
  have hall : ∀ i : Byte, fcsEntry i = BitCrc.shifts fcsPoly 8 (i.setWidth 16) := by decide +kernel
  exact hall i

/-- The good register of the source is the residue of its table. -/
theorem residue_fcsEntry : residue fcsEntry = pppGoodFcs16 := by decide

/-- `pppfcs16` from the second byte on walks the front of the buffer without its first byte. -/
theorem drop_one_take (v : Vector Byte n) (k : Nat) : (v.toList.drop 1).take k = (front v (k + 1)).drop 1 := by
  rw [front, List.drop_take, Nat.add_sub_cancel]

theorem pppfcs16_front (v : Vector Byte n) (k : Nat) (h : k + 1 ≤ n) :
    pppfcs16 pppInitFcs16 (v.toList.drop 1) k = some (fcsOf ((front v (k + 1)).drop 1)) := by
  rw [pppfcs16_eq _ _ _ (by simp; omega), drop_one_take, fcsOf]

theorem goodFcs_front (bad : Int) (v : Vector Byte n) (k : Nat) (h : k + 1 ≤ n) :
    goodFcs bad v 1 k = some (if FcsGood (front v (k + 1)) then 0 else bad) := by
  rw [goodFcs, if_neg (by omega)]
  simp only [Int.toNat_one, pppfcs16_front v k h, Option.bind_eq_bind, Option.bind_some]
  by_cases hg : FcsGood (front v (k + 1))
  · rw [if_pos hg]
    exact if_pos hg
  · rw [if_neg hg]
    exact if_neg hg

theorem fcsGood_append_check {block : List Byte} (h : block ≠ []) :
    FcsGood (block ++ check (fcsOf (block.drop 1))) := by
  have hpos : 1 ≤ block.length := List.length_pos_iff.mpr h
  rw [FcsGood, List.drop_append_of_le_length hpos, fcsOf, fcsOf, crc_append_check, residue_fcsEntry]

theorem check_eq (r : BitVec 16) : check r =
    [((r ^^^ 0xffff#16) &&& 0x00ff#16).setWidth 8, (((r ^^^ 0xffff#16) >>> 8) &&& 0x00ff#16).setWidth 8] := by
  have hmask : ∀ x : BitVec 16, (x &&& 0x00ff#16).setWidth 8 = x.setWidth 8 := by
    intro x
    rw [BitVec.setWidth_and]
    exact BitVec.and_allOnes
  rw [check, lo, hi, hmask, hmask]

/-- `tryfcs16` always succeeds: it stores the check bytes after the first `len` bytes of the buffer. -/
theorem tryfcs16_eq (cp : Vector Byte n) (len : Nat) (h1 : 1 ≤ len) (hn : len + 2 ≤ n) :
    tryfcs16 cp len = some (0, copyAt cp len (check (fcsOf ((front cp len).drop 1)))) := by
  have hreg : pppfcs16 pppInitFcs16 (cp.toList.drop 1) ((len : Int) - 1) = some (fcsOf ((front cp len).drop 1)) := by
    have hp := pppfcs16_front cp (len - 1) (by omega)
    rw [Nat.sub_add_cancel h1, Int.natCast_sub h1] at hp
    exact hp
  have hcopy := front_copyAt cp len (check (fcsOf ((front cp len).drop 1))) hn
  have hback : pppfcs16 pppInitFcs16
      ((copyAt cp len (check (fcsOf ((front cp len).drop 1)))).toList.drop 1) ((len : Int) + 2 - 1) = some pppGoodFcs16 := by
    have hp := pppfcs16_front (copyAt cp len (check (fcsOf ((front cp len).drop 1)))) (len + 1) hn
    have hne : front cp len ≠ [] := by
      rw [← List.length_pos_iff, front_length (by omega)]
      exact h1
    have hgood : FcsGood (front (copyAt cp len (check (fcsOf ((front cp len).drop 1)))) (len + 2)) := by
      rw [show len + 2 = len + (check (fcsOf ((front cp len).drop 1))).length from rfl, hcopy]
      exact fcsGood_append_check hne
    rw [show (len : Int) + 2 - 1 = ((len + 1 : Nat) : Int) by omega, hp]
    exact congrArg some hgood
  rw [check_eq] at hback ⊢
  simp only [tryfcs16, hreg, Option.bind_eq_bind, Option.bind_some, Int.toNat_natCast]
  rw [if_neg (by omega)]
  simp only [copyAt] at hback ⊢
  rw [hback]
  rfl

theorem tryfcs16_eq_none (cp : Vector Byte n) (h : n ≤ len + 1) : tryfcs16 cp len = none := by
  simp only [tryfcs16, Int.toNat_natCast, if_pos h]
  cases pppfcs16 pppInitFcs16 (cp.toList.drop 1) ((len : Int) - 1) <;> rfl

theorem tryfcs16_result {cp cp' : Vector Byte n} {result : Int} (h : tryfcs16 cp len = some (result, cp')) :
    result = 0 := by
  rcases Nat.lt_or_ge (len + 1) n with hlt | hge
  · rcases Nat.eq_zero_or_pos len with hzero | hpos
    · -- a check over no bytes has no outcome
      rw [hzero] at h
      cases h
    · rw [tryfcs16_eq cp len hpos hlt] at h
      exact (Prod.mk.inj (Option.some.inj h)).1.symm
  · rw [tryfcs16_eq_none cp hge] at h
    cases h

end EnergyRouter
