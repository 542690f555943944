import EnergyRouter.Theorems.NandPages

/-!
# What the correction makes of flipped bits

Given the codes of a page before and after, one flipped data bit is restored and two are refused. A flipped bit of the code itself
is told from an uncorrectable page by counting the ones of the difference, but only 24 of its 28 places are counted.
-/

namespace EnergyRouter

open Hamming

variable {ecc ecc' : BitVec 32} {data data' : List Byte}

/-! ## Codes -/

/-- The lower 28 bits of a word are the parities of a page: for each bit of an address, one place for the data bits with it and one
for those without. -/
def EccLayout (ecc : BitVec 32) (data : List Byte) : Prop :=
  ∀ k < 14, ecc.getLsbD (2 * k + 1) = parity (fun a => a.testBit k) data ∧ ecc.getLsbD (2 * k) = parity (fun a => !a.testBit k) data

theorem eccLayout_code (data : List Byte) : EccLayout (code 32 14 data) data :=
  fun _ hk => getLsbD_code_pair (by decide) hk data

/-- The layout leaves only the upper four bits open. -/
theorem EccLayout.getLsbD_eq (h : EccLayout ecc data) {i : Nat} (hi : i < 28) : ecc.getLsbD i = (code 32 14 data).getLsbD i := by
  have hcode := eccLayout_code data
  rcases Nat.mod_two_eq_zero_or_one i with heven | hodd
  · obtain ⟨k, rfl⟩ : ∃ k, i = 2 * k := ⟨i / 2, by omega⟩
    rw [(h k (by omega)).2, (hcode k (by omega)).2]
  · obtain ⟨k, rfl⟩ : ∃ k, i = 2 * k + 1 := ⟨i / 2, by omega⟩
    rw [(h k (by omega)).1, (hcode k (by omega)).1]

/-- Only the lower 28 bits of the difference count, so two codes may stand for any words of their layout. -/
theorem nandDatacorrect_layout (h : EccLayout ecc data) (h' : EccLayout ecc' data') (flips : BitVec 32) (page : List Byte) :
    nandDatacorrect ecc' (ecc ^^^ flips) page = nandDatacorrect (code 32 14 data' ^^^ code 32 14 data ^^^ flips) 0#32 page := by
  have hsyndrome : (ecc' ^^^ (ecc ^^^ flips)) &&& 0x0fffffff#32 =
      (code 32 14 data' ^^^ code 32 14 data ^^^ flips ^^^ 0#32) &&& 0x0fffffff#32 := by
    refine BitVec.eq_of_getLsbD_eq fun i hi => ?_
    simp only [BitVec.getLsbD_and, BitVec.getLsbD_xor, BitVec.getLsbD_zero, Bool.xor_false, getLsbD_mask hi]
    by_cases hin : i < 28
    · rw [h.getLsbD_eq hin, h'.getLsbD_eq hin, Bool.xor_assoc]
    · simp [hin]
  unfold nandDatacorrect
  simp only [hsyndrome]

/-! ## One data bit -/

/-- Given the codes of a page before and after one of its bits has flipped, the routine restores the page. Given equal codes it
changes nothing. -/
theorem flip_corrected (data : Vector Byte pageDataSize) (bit : DataBit) (hecc : EccLayout ecc data.toList)
    (hecc' : EccLayout ecc' (flipBit data.toList bit.1 bit.2)) :
    nandDatacorrect ecc' ecc (flipBit data.toList bit.1 bit.2) = some (0, data.toList) ∧
      ∀ (e : BitVec 32) (page : List Byte), nandDatacorrect e e page = some (0, page) := by
  constructor
  · have hlen : data.toList.length = pageDataSize := Vector.length_toList
    have hlayout := nandDatacorrect_layout hecc hecc' 0#32
    have hexact := nandDatacorrect_layout (eccLayout_code data.toList) (eccLayout_code (flipBit data.toList bit.1 bit.2)) 0#32
    rw [BitVec.xor_zero] at hlayout hexact
    rw [hlayout, ← hexact, nandDatacorrect_flipBit hlen bit.1.isLt bit.2.isLt]
  · intro e page
    unfold nandDatacorrect
    simp

/-- The first bit of a blank page. -/
theorem flip_corrected_first :
    nandDatacorrect (code 32 14 (flipBit blankPage.toList 0 0)) (code 32 14 blankPage.toList) (flipBit blankPage.toList 0 0) =
      some (0, blankPage.toList) :=
  (flip_corrected blankPage firstBit (eccLayout_code _) (eccLayout_code _)).1

/-! ## Other errors -/

/-- What has flipped in a page and its code: one bit of the code, or two bits of the data. -/
inductive NandFault
  | eccBit (b : Fin 28)
  | dataBits (p q : DataBit) (hne : p ≠ q)

/-- The data as they are read. -/
def NandFault.readData (data : List Byte) : NandFault → List Byte
  | eccBit _ => data
  | dataBits p q _ => flipBit (flipBit data p.1 p.2) q.1 q.2

/-- The bits of the code that are read wrong. -/
def NandFault.eccFlips : NandFault → BitVec 32
  | eccBit b => BitVec.twoPow 32 b
  | dataBits _ _ _ => 0#32

/-- `RT_MTD_EECC` when the code is at fault, `-RT_MTD_EECC` when the data are. -/
def NandFault.result : NandFault → Int
  | eccBit _ => 1
  | dataBits _ _ _ => -1

/-- The routine reports the error as what it is and leaves the data alone. -/
def Classified (data : List Byte) (fault : NandFault) : Prop :=
  ∀ ecc ecc', EccLayout ecc data → EccLayout ecc' (fault.readData data) →
    nandDatacorrect ecc' (ecc ^^^ fault.eccFlips) (fault.readData data) = some (fault.result, fault.readData data)

/-- An error that leaves a one in a place that is counted, or that is not told by counting. -/
def NandFault.Counted : NandFault → Prop
  | eccBit b => b.val < 24
  | dataBits _ _ _ => True

/-- With one bit of the code flipped the parities do not pair up, and it is seen when among the lower 24. -/
theorem nandDatacorrect_eccBit (b : Fin 28) (page : List Byte) :
    nandDatacorrect (BitVec.twoPow 32 b) 0#32 page = some (if b.val < 24 then 1 else -1, page) := by
  have hfacts : ∀ b : Fin 28, (BitVec.twoPow 32 b ^^^ 0#32) &&& 0x0fffffff#32 = BitVec.twoPow 32 b ∧ BitVec.twoPow 32 b ≠ 0#32 ∧
      (BitVec.twoPow 32 b &&& 0x05555555#32) ^^^ ((BitVec.twoPow 32 b >>> 1) &&& 0x05555555#32) ≠ 0x05555555#32 ∧
      (List.range 24).countP (fun i => (BitVec.twoPow 32 b).getLsbD i) = if b.val < 24 then 1 else 0 := by
    decide
  obtain ⟨hmask, hzero, hpairs, hcount⟩ := hfacts b
  unfold nandDatacorrect
  simp only [hmask, hcount]
  rw [if_neg hzero, if_neg hpairs]
  split_ifs with hlow hone hone
  · rfl
  · exact absurd rfl hone
  · exact absurd hone (by decide)
  · rfl

section TwoBits

/- The addresses of two data bits, with the word their flips leave in the difference of the codes. -/
variable (a b : Nat)

theorem twoPatterns_pair (k : Nat) :
    (pattern 32 14 a ^^^ pattern 32 14 b).getLsbD (2 * k + 1) = (pattern 32 14 a ^^^ pattern 32 14 b).getLsbD (2 * k) := by
  have hdiv : (2 * k + 1) / 2 = k := by omega
  have hmod : (2 * k + 1) % 2 = 1 := by omega
  have hin : 2 * k + 1 < 28 ↔ 2 * k < 28 := by omega
  rw [BitVec.getLsbD_xor, BitVec.getLsbD_xor]
  simp only [getLsbD_pattern (show 2 * 14 ≤ 32 by decide), hdiv, hmod, Nat.mul_div_cancel_left k Nat.two_pos, Nat.mul_mod_right, hin]
  cases a.testBit k <;> cases b.testBit k <;> simp

theorem xor_and_mask (x y mask : BitVec 32) : (x ^^^ y) &&& mask = (x &&& mask) ^^^ (y &&& mask) := by
  refine BitVec.eq_of_getLsbD_eq fun i _ => ?_
  simp [Bool.and_xor_distrib_right]

theorem twoPatterns_parities :
    ((pattern 32 14 a ^^^ pattern 32 14 b) &&& 0x05555555#32) ^^^
      (((pattern 32 14 a ^^^ pattern 32 14 b) >>> 1) &&& 0x05555555#32) = 0#32 := by
  calc _ = ((pattern 32 14 a &&& 0x05555555#32) ^^^ ((pattern 32 14 a >>> 1) &&& 0x05555555#32)) ^^^
        ((pattern 32 14 b &&& 0x05555555#32) ^^^ ((pattern 32 14 b >>> 1) &&& 0x05555555#32)) := by
        rw [BitVec.ushiftRight_xor_distrib, xor_and_mask, xor_and_mask]
        ac_rfl
    _ = 0#32 := by rw [parities_pattern, parities_pattern, BitVec.xor_self]

/-- Two flips leave as many even parities as odd ones: not the difference of one flip. -/
theorem nandDatacorrect_twoPatterns (ha : a < 2 ^ 14) (hb : b < 2 ^ 14) (hne : a ≠ b) (page : List Byte) :
    nandDatacorrect (pattern 32 14 a ^^^ pattern 32 14 b) 0#32 page = some (-1, page) := by
  have hmask : (pattern 32 14 a ^^^ pattern 32 14 b ^^^ 0#32) &&& 0x0fffffff#32 = pattern 32 14 a ^^^ pattern 32 14 b := by
    rw [BitVec.xor_zero, xor_and_mask, pattern_and_mask, pattern_and_mask]
  have hzero : pattern 32 14 a ^^^ pattern 32 14 b ≠ 0#32 := fun h =>
    hne (pattern_inj (by decide) ha hb (BitVec.xor_eq_zero_iff.mp h))
  have hcount := countP_range_pairs (twoPatterns_pair a b) 12
  unfold nandDatacorrect
  simp only [hmask, twoPatterns_parities]
  rw [if_neg hzero, if_neg (by decide), if_neg]
  intro hone
  have heven : 2 * _ = 1 := hcount.symm.trans hone
  omega

end TwoBits

/-- An error is reported as what it is exactly when it is not in one of the upper four bits of the code, which are not counted. -/
theorem classified_iff (data : Vector Byte pageDataSize) (fault : NandFault) :
    Classified data.toList fault ↔ fault.Counted := by
  have hcodes := eccLayout_code data.toList
  cases fault with
  | eccBit b =>
    have hout : ∀ ecc ecc', EccLayout ecc data.toList → EccLayout ecc' data.toList →
        nandDatacorrect ecc' (ecc ^^^ BitVec.twoPow 32 b) data.toList = some (if b.val < 24 then 1 else -1, data.toList) := by
      intro ecc ecc' hecc hecc'
      rw [nandDatacorrect_layout hecc hecc', BitVec.xor_self, BitVec.zero_xor, nandDatacorrect_eccBit]
    constructor
    · intro h
      have hclass := (hout _ _ hcodes hcodes).symm.trans (h _ _ hcodes hcodes)
      show b.val < 24
      by_contra hhigh
      rw [if_neg hhigh] at hclass
      cases hclass
    · intro hlow ecc ecc' hecc hecc'
      have hclass := hout ecc ecc' hecc hecc'
      rwa [if_pos (show b.val < 24 from hlow)] at hclass
  | dataBits p q hne =>
    refine ⟨fun _ => trivial, fun _ ecc ecc' hecc hecc' => ?_⟩
    obtain ⟨⟨i, hi⟩, j, hj⟩ := p
    obtain ⟨⟨k, hk⟩, l, hl⟩ := q
    have hi' : i < 2048 := hi
    have hk' : k < 2048 := hk
    have haddr : 8 * i + j ≠ 8 * k + l := by
      intro h
      have hik : i = k := by omega
      have hjl : j = l := by omega
      subst hik hjl
      exact hne rfl
    have hlen : data.toList.length = pageDataSize := Vector.length_toList
    have hflips : code 32 14 (flipBit (flipBit data.toList i j) k l) ^^^ code 32 14 data.toList ^^^ 0#32 =
        pattern 32 14 (8 * i + j) ^^^ pattern 32 14 (8 * k + l) := by
      rw [code_flipBit 32 14 (by rw [flipBit_length, hlen]; exact hk) hl, code_flipBit 32 14 (by rw [hlen]; exact hi) hj]
      calc _ = pattern 32 14 (8 * i + j) ^^^ pattern 32 14 (8 * k + l) ^^^ (code 32 14 data.toList ^^^ code 32 14 data.toList) := by
            rw [BitVec.xor_zero]
            ac_rfl
        _ = _ := by rw [BitVec.xor_self, BitVec.xor_zero]
    have hlayout := nandDatacorrect_layout hecc hecc' 0#32 (flipBit (flipBit data.toList i j) k l)
    exact hlayout.trans (by
      rw [NandFault.readData, hflips, nandDatacorrect_twoPatterns _ _ (by omega) (by omega) haddr]
      rfl)

/-- Bit 24 of the code of a blank page is flipped, and the page is reported as uncorrectable. -/
theorem high_eccBit_unclassified : ¬ Classified blankPage.toList (.eccBit 24) := by
  intro h
  have hclass := h _ _ (eccLayout_code _) (eccLayout_code _)
  have hlayout := nandDatacorrect_layout (eccLayout_code blankPage.toList) (eccLayout_code blankPage.toList)
    (BitVec.twoPow 32 24) blankPage.toList
  rw [BitVec.xor_self, BitVec.zero_xor] at hlayout
  have hresult := (hlayout.trans (nandDatacorrect_eccBit 24 _)).symm.trans hclass
  cases hresult

end EnergyRouter
