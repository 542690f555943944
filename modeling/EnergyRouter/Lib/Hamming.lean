import Mathlib.Data.BitVec

/-!
# Parity pairs over bit addresses

The code of a block keeps two parities for every bit of a bit address: over the bits whose address has that bit, and over those
whose address has not. So a flipped bit changes the code by the pattern of its address, whatever the block holds.
-/

namespace Hamming

variable {bs : List (BitVec 8)} {i j k w m : Nat}

/-- The pattern of an address of `m` bits, in a word of `w`. -/
def pattern (w : Nat) : Nat → Nat → BitVec w
  | 0, _ => 0#w
  | m + 1, a => pattern w m a ||| ((if a.testBit m then 2#w else 1#w) <<< (2 * m))

/-- What the bits of a byte, from bit `j` down, fold into the code; the byte starts at address `a`. -/
def bitsCode (w m a : Nat) (b : BitVec 8) : Nat → BitVec w
  | 0 => 0#w
  | j + 1 => bitsCode w m a b j ^^^ (if b.getLsbD j then pattern w m (a + j) else 0#w)

/-- The code of a block that starts at address `a`. -/
def codeFrom (w m : Nat) : Nat → List (BitVec 8) → BitVec w
  | _, [] => 0#w
  | a, b :: bs => bitsCode w m a b 8 ^^^ codeFrom w m (a + 8) bs

/-- The code of a block. -/
def code (w m : Nat) (bs : List (BitVec 8)) : BitVec w := codeFrom w m 0 bs

/-- One bit of a block flipped. -/
def flipBit (bs : List (BitVec 8)) (i j : Nat) : List (BitVec 8) := bs.modify i (· ^^^ (1#8 <<< j))

@[simp] theorem flipBit_length (bs : List (BitVec 8)) (i j : Nat) : (flipBit bs i j).length = bs.length :=
  List.length_modify _ _ _

theorem flipBit_flipBit (bs : List (BitVec 8)) (i j : Nat) : flipBit (flipBit bs i j) i j = bs := by
  refine List.ext_getElem? fun k => ?_
  rw [flipBit, flipBit, List.getElem?_modify, List.getElem?_modify]
  by_cases hk : i = k
  · cases bs[k]? with
    | none => rfl
    | some b => simp [hk, BitVec.xor_assoc]
  · cases bs[k]? with
    | none => rfl
    | some b => simp [hk]

theorem flipBit_ne (hi : i < bs.length) (hj : j < 8) : flipBit bs i j ≠ bs := by
  intro h
  have hcell : (flipBit bs i j)[i]? = bs[i]? := by rw [h]
  rw [flipBit, List.getElem?_modify, List.getElem?_eq_getElem hi] at hcell
  have hbyte : bs[i] ^^^ (1#8 <<< j) = bs[i] := by simpa using hcell
  have hbit := congrArg (BitVec.getLsbD · j) hbyte
  simp [hj] at hbit

/-! ## One flip -/

theorem getLsbD_bit (hk : k < 8) : (1#8 <<< j).getLsbD k = decide (k = j) := by
  by_cases h : k = j
  · subst h
    simp [hk]
  · by_cases hlt : k < j
    · simp [hlt, h]
    · have hsub : ¬ k - j = 0 := by omega
      simp [hk, hlt, h, hsub]

/-- A byte with one bit flipped folds in the pattern of that bit besides. -/
theorem bitsCode_flip (w m a : Nat) (b : BitVec 8) (n : Nat) (hn : n ≤ 8) :
    bitsCode w m a (b ^^^ (1#8 <<< j)) n = bitsCode w m a b n ^^^ (if j < n then pattern w m (a + j) else 0#w) := by
  induction n with
  | zero => simp [bitsCode]
  | succ k ih =>
    rw [bitsCode, bitsCode, ih (by omega), BitVec.getLsbD_xor, getLsbD_bit (by omega)]
    rcases Nat.lt_trichotomy j k with hlt | heq | hgt
    · have hne : ¬ k = j := by omega
      simp only [hlt, hne, decide_false, Bool.xor_false, if_true, Nat.lt_succ_of_lt hlt]
      ac_rfl
    · subst heq
      cases b.getLsbD j with
      | false => simp
      | true => simp [BitVec.xor_assoc]
    · have hne : ¬ k = j := by omega
      have hnot : ¬ j < k := by omega
      have hnot' : ¬ j < k + 1 := by omega
      simp [hne, hnot, hnot']

theorem codeFrom_flipBit (w m : Nat) (hi : i < bs.length) (hj : j < 8) (a : Nat) :
    codeFrom w m a (flipBit bs i j) = codeFrom w m a bs ^^^ pattern w m (a + 8 * i + j) := by
  induction bs generalizing i a with
  | nil => exact absurd hi (Nat.not_lt_zero i)
  | cons b bs ih =>
    cases i with
    | zero =>
      show bitsCode w m a (b ^^^ (1#8 <<< j)) 8 ^^^ codeFrom w m (a + 8) bs = _
      rw [bitsCode_flip w m a b 8 (Nat.le_refl 8), if_pos hj, codeFrom, Nat.mul_zero, Nat.add_zero]
      ac_rfl
    | succ i =>
      show bitsCode w m a b 8 ^^^ codeFrom w m (a + 8) (flipBit bs i j) = _
      rw [ih (Nat.lt_of_succ_lt_succ hi), codeFrom, show a + 8 * (i + 1) + j = a + 8 + 8 * i + j by omega]
      ac_rfl

/-- A flipped bit changes the code by the pattern of its address. -/
theorem code_flipBit (w m : Nat) (hi : i < bs.length) (hj : j < 8) :
    code w m (flipBit bs i j) = code w m bs ^^^ pattern w m (8 * i + j) := by
  rw [code, codeFrom_flipBit w m hi hj, Nat.zero_add]
  rfl

/-! ## Reading the address -/

theorem getLsbD_pair (hw : 1 < w) (c : Bool) (k : Nat) :
    (if c then 2#w else 1#w).getLsbD k = (decide (k < 2) && (c == decide (k = 1))) := by
  have hplaces : ∀ v : Nat, (BitVec.ofNat w v).getLsbD k = (decide (k < w) && v.testBit k) := fun v => BitVec.getLsbD_ofNat w v k
  match k with
  | 0 =>
    have hpos : 0 < w := Nat.lt_of_succ_lt hw
    cases c
    · exact (hplaces 1).trans (by simp [hpos])
    · exact (hplaces 2).trans (by simp)
  | 1 =>
    cases c
    · exact (hplaces 1).trans (by simp [Nat.testBit])
    · exact (hplaces 2).trans (by simp [hw, Nat.testBit])
  | k + 2 =>
    have hpow : 2 ^ 2 ≤ 2 ^ (k + 2) := Nat.pow_le_pow_right Nat.two_pos (Nat.le_add_left 2 k)
    have hzero : ∀ v < 4, Nat.testBit v (k + 2) = false := fun v hv => Nat.testBit_lt_two_pow (Nat.lt_of_lt_of_le hv hpow)
    cases c
    · exact (hplaces 1).trans (by simp [hzero])
    · exact (hplaces 2).trans (by simp [hzero])

/-- The pair of an address bit: the upper place holds the bit, the lower one its complement. -/
theorem getLsbD_pattern (hw : 2 * m ≤ w) (a i : Nat) :
    (pattern w m a).getLsbD i = (decide (i < 2 * m) && (a.testBit (i / 2) == decide (i % 2 = 1))) := by
  induction m with
  | zero => simp [pattern]
  | succ m ih =>
    rw [pattern, BitVec.getLsbD_or, ih (by omega), BitVec.getLsbD_shiftLeft, getLsbD_pair (by omega)]
    rcases Nat.lt_or_ge i (2 * m) with hlow | hhigh
    · have hlow' : i < 2 * (m + 1) := by omega
      simp [hlow, hlow']
    · have hnot : ¬ i < 2 * m := by omega
      by_cases hin : i < 2 * (m + 1)
      · -- the pair of bit `m`, shifted to its place
        have hiw : i < w := by omega
        have hdiv : i / 2 = m := by omega
        have hsub : i - 2 * m < 2 := by omega
        have hone : (i - 2 * m = 1) = (i % 2 = 1) := propext (by omega)
        simp [hnot, hin, hiw, hdiv, hsub, hone]
      · have hsub : ¬ i - 2 * m < 2 := by omega
        simp [hnot, hin, hsub]

theorem pattern_inj {a b : Nat} (hw : 2 * m ≤ w) (ha : a < 2 ^ m) (hb : b < 2 ^ m) (h : pattern w m a = pattern w m b) :
    a = b := by
  refine Nat.eq_of_testBit_eq fun k => ?_
  rcases Nat.lt_or_ge k m with hk | hk
  · have hbit := congrArg (BitVec.getLsbD · (2 * k + 1)) h
    have hin : 2 * k + 1 < 2 * m := by omega
    have hdiv : (2 * k + 1) / 2 = k := by omega
    have hmod : (2 * k + 1) % 2 = 1 := by omega
    simpa [getLsbD_pattern hw, hin, hdiv, hmod] using hbit
  · have hpow : 2 ^ m ≤ 2 ^ k := Nat.pow_le_pow_right Nat.two_pos hk
    rw [Nat.testBit_lt_two_pow (Nat.lt_of_lt_of_le ha hpow), Nat.testBit_lt_two_pow (Nat.lt_of_lt_of_le hb hpow)]

/-! ## The parities -/

/-- The exclusive or of the bits of a byte, from bit `j` down, whose addresses are selected. -/
def bitsParity (selected : Nat → Bool) (a : Nat) (b : BitVec 8) : Nat → Bool
  | 0 => false
  | j + 1 => bitsParity selected a b j ^^ (b.getLsbD j && selected (a + j))

/-- The parity of a block that starts at address `a`. -/
def parityFrom (selected : Nat → Bool) : Nat → List (BitVec 8) → Bool
  | _, [] => false
  | a, b :: bs => bitsParity selected a b 8 ^^ parityFrom selected (a + 8) bs

/-- The parity of the bits of a block whose addresses are selected. A bit's address is its byte's number times eight plus its place.
-/
def parity (selected : Nat → Bool) (bs : List (BitVec 8)) : Bool := parityFrom selected 0 bs

theorem getLsbD_bitsCode (w m a : Nat) (b : BitVec 8) (n i : Nat) :
    (bitsCode w m a b n).getLsbD i = bitsParity (fun a => (pattern w m a).getLsbD i) a b n := by
  induction n with
  | zero => simp [bitsCode, bitsParity]
  | succ j ih =>
    rw [bitsCode, bitsParity, BitVec.getLsbD_xor, ih]
    cases b.getLsbD j <;> simp

/-- Every place of the code is the parity of the bits whose patterns have that place. -/
theorem getLsbD_codeFrom (w m a : Nat) (bs : List (BitVec 8)) (i : Nat) :
    (codeFrom w m a bs).getLsbD i = parityFrom (fun a => (pattern w m a).getLsbD i) a bs := by
  induction bs generalizing a with
  | nil => simp [codeFrom, parityFrom]
  | cons b bs ih => rw [codeFrom, parityFrom, BitVec.getLsbD_xor, getLsbD_bitsCode, ih]

/-- The two places of an address bit hold the parities of the bits with it and of those without it. -/
theorem getLsbD_code_pair (hw : 2 * m ≤ w) (hk : k < m) (bs : List (BitVec 8)) :
    (code w m bs).getLsbD (2 * k + 1) = parity (fun a => a.testBit k) bs ∧
      (code w m bs).getLsbD (2 * k) = parity (fun a => !a.testBit k) bs := by
  have hupper : (fun a => (pattern w m a).getLsbD (2 * k + 1)) = fun a => a.testBit k := by
    funext a
    have hin : 2 * k + 1 < 2 * m := by omega
    have hdiv : (2 * k + 1) / 2 = k := by omega
    have hmod : (2 * k + 1) % 2 = 1 := by omega
    simp [getLsbD_pattern hw, hin, hdiv, hmod]
  have hlower : (fun a => (pattern w m a).getLsbD (2 * k)) = fun a => !a.testBit k := by
    funext a
    have hin : 2 * k < 2 * m := by omega
    simp [getLsbD_pattern hw, hin]
  rw [code, getLsbD_codeFrom, getLsbD_codeFrom, hupper, hlower]
  exact ⟨rfl, rfl⟩

/-- Places that are set in pairs are even in number. -/
theorem countP_range_pairs {p : Nat → Bool} (h : ∀ k, p (2 * k + 1) = p (2 * k)) (n : Nat) :
    (List.range (2 * n)).countP p = 2 * (List.range n).countP fun k => p (2 * k) := by
  induction n with
  | zero => rfl
  | succ n ih =>
    rw [Nat.mul_succ, List.range_succ, List.range_succ, List.range_succ]
    simp only [List.countP_append, List.countP_singleton, ih, h]
    split_ifs <;> omega

end Hamming
