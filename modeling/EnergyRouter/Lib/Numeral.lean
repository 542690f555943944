import Mathlib.Data.Char
import Mathlib.Data.List.Lex
import Mathlib.Data.Nat.Log
import Mathlib.Tactic.IntervalCases
import Mathlib.Tactic.Ring

/-!
# Numbers printed as text

Decimal numbers padded with zeros to a width, and hexadecimal numbers of a fixed width: which characters such a text has, how long
it is, that the number can be read back, and that texts of one width are in the order of the numbers.
-/

namespace Numeral

variable {d w n m : Nat} {c : Char} {a b : List Char}

/-- The characters of the two kinds of digits. -/
def IsHex (c : Char) : Prop := c.isDigit ∨ ('A' ≤ c ∧ c ≤ 'F')
deriving Decidable

/-- A hexadecimal digit; a digit above nine is an upper-case letter. -/
def hexDigit (d : Nat) : Char := if d < 10 then Char.ofNat (48 + d) else Char.ofNat (55 + d)

/-- The last `w` hexadecimal digits of a number, the most significant one first: `%0wX` for a number that has no more. -/
def hexPad : Nat → Nat → List Char
  | 0, _ => []
  | w + 1, n => hexPad w (n / 16) ++ [hexDigit (n % 16)]

/-- A decimal number of at least `w` digits: `%0wu`, and `%u` for `w = 0`. -/
def decimalPad (w n : Nat) : List Char := (Nat.toDigits 10 n).leftpad w '0'

/-- The last `w` decimal digits of a number, the most significant one first. -/
def decimalTail : Nat → Nat → List Char
  | 0, _ => []
  | w + 1, n => decimalTail w (n / 10) ++ [Nat.digitChar (n % 10)]

section Hexadecimal

theorem isHex_hexDigit (h : d < 16) : IsHex (hexDigit d) := by
  interval_cases d <;> decide

theorem hexDigit_inj {e : Nat} (hd : d < 16) (he : e < 16) (h : hexDigit d = hexDigit e) : d = e := by
  have hall : ∀ d < 16, ∀ e < 16, hexDigit d = hexDigit e → d = e := by decide
  exact hall d hd e he h

@[simp] theorem length_hexPad (w n : Nat) : (hexPad w n).length = w := by
  induction w generalizing n with
  | zero => rfl
  | succ w ih => simp [hexPad, ih]

theorem isHex_of_mem_hexPad (h : c ∈ hexPad w n) : IsHex c := by
  induction w generalizing n with
  | zero => simp [hexPad] at h
  | succ w ih =>
    rw [hexPad, List.mem_append, List.mem_singleton] at h
    rcases h with h | rfl
    · exact ih h
    · exact isHex_hexDigit (Nat.mod_lt n (by decide))

/-- A number of at most `w` digits is determined by its text. -/
theorem hexPad_inj (hn : n < 16 ^ w) (hm : m < 16 ^ w) (h : hexPad w n = hexPad w m) : n = m := by
  induction w generalizing n m with
  | zero =>
    rw [Nat.pow_zero] at hn hm
    omega
  | succ w ih =>
    rw [Nat.pow_succ] at hn hm
    rw [hexPad, hexPad] at h
    obtain ⟨hinit, hlast⟩ := List.append_inj h (by simp)
    have hdiv := ih (by omega) (by omega) hinit
    have hmod := hexDigit_inj (Nat.mod_lt n (by decide)) (Nat.mod_lt m (by decide)) (List.singleton_inj.mp hlast)
    omega

end Hexadecimal

section Values

/-- What a digit of either kind counts for. -/
def digitValue (c : Char) : Nat := if c.isDigit then c.toNat - '0'.toNat else c.toNat - 'A'.toNat + 10

/-- The number a text of digits stands for in a base, the most significant digit first. -/
def ofDigitsIn (base : Nat) (l : List Char) : Nat := l.foldl (fun n c => base * n + digitValue c) 0

theorem toNat_of_isHex (h : IsHex c) :
    c.isDigit ∧ 48 ≤ c.toNat ∧ c.toNat ≤ 57 ∨ ¬ c.isDigit ∧ 65 ≤ c.toNat ∧ c.toNat ≤ 70 := by
  rcases h with hdigit | ⟨hlow, hhigh⟩
  · exact .inl ⟨hdigit, Char.isDigit_iff_toNat.mp hdigit⟩
  · have hlow : 65 ≤ c.toNat := hlow
    have hhigh : c.toNat ≤ 70 := hhigh
    refine .inr ⟨fun hdigit => ?_, hlow, hhigh⟩
    have hnine : c.toNat ≤ 57 := (Char.isDigit_iff_toNat.mp hdigit).2
    omega

theorem hexDigit_digitValue (h : IsHex c) : digitValue c < 16 ∧ hexDigit (digitValue c) = c := by
  have hzero : '0'.toNat = 48 := rfl
  have hletter : 'A'.toNat = 65 := rfl
  rw [digitValue, hexDigit, hzero, hletter]
  rcases toNat_of_isHex h with ⟨hdigit, hlow, hhigh⟩ | ⟨hdigit, hlow, hhigh⟩
  · have hcode : 48 + (c.toNat - 48) = c.toNat := by omega
    rw [if_pos hdigit, if_pos (by omega), hcode, Char.ofNat_toNat]
    exact ⟨by omega, rfl⟩
  · have hcode : 55 + (c.toNat - 65 + 10) = c.toNat := by omega
    rw [if_neg hdigit, if_neg (by omega), hcode, Char.ofNat_toNat]
    exact ⟨by omega, rfl⟩

/-- What stands in front of a text is shifted by its places. -/
theorem foldl_digitValue (base : Nat) (l : List Char) (n : Nat) :
    l.foldl (fun n c => base * n + digitValue c) n = n * base ^ l.length + ofDigitsIn base l := by
  induction l generalizing n with
  | nil => simp [ofDigitsIn]
  | cons c l ih =>
    rw [ofDigitsIn, List.foldl_cons, List.foldl_cons, ih, ih (base * 0 + digitValue c), List.length_cons, Nat.pow_succ]
    ring

theorem ofDigitsIn_cons (base : Nat) (c : Char) (l : List Char) :
    ofDigitsIn base (c :: l) = digitValue c * base ^ l.length + ofDigitsIn base l := by
  rw [ofDigitsIn, List.foldl_cons, foldl_digitValue, Nat.mul_zero, Nat.zero_add]

/-- In base ten this is the number the text of decimal digits is read as. -/
theorem ofDigitsIn_ten {l : List Char} (h : ∀ c ∈ l, c.isDigit) : ofDigitsIn 10 l = Nat.ofDigitChars 10 l 0 := by
  suffices hfold : ∀ n, l.foldl (fun n c => 10 * n + digitValue c) n = Nat.ofDigitChars 10 l n from hfold 0
  induction l with
  | nil => exact fun n => rfl
  | cons c l ih =>
    rw [List.forall_mem_cons] at h
    intro n
    rw [List.foldl_cons, Nat.ofDigitChars_cons, ih h.2, digitValue, if_pos h.1]

end Values

section Decimal

theorem isDigit_of_mem_decimalPad (h : c ∈ decimalPad w n) : c.isDigit := by
  rw [decimalPad, List.leftpad, List.mem_append] at h
  rcases h with h | h
  · rw [List.eq_of_mem_replicate h]
    decide
  · exact Nat.isDigit_of_mem_toDigits (by decide) (by decide) h

theorem decimalPad_ne_nil (w n : Nat) : decimalPad w n ≠ [] := by
  simp [decimalPad, List.leftpad]

/-- A number below `10 ^ k` takes at most `k` characters, unless the width asks for more. -/
theorem length_decimalPad_le {k : Nat} (hk : 0 < k) (hw : w ≤ k) (h : n < 10 ^ k) : (decimalPad w n).length ≤ k := by
  have hlen := (Nat.length_toDigits_le_iff (b := 10) (by decide) hk).mpr h
  rw [decimalPad, List.length_leftpad]
  omega

theorem length_decimalPad (hw : 0 < w) (h : n < 10 ^ w) : (decimalPad w n).length = w := by
  have hle := length_decimalPad_le hw (Nat.le_refl w) h
  rw [decimalPad, List.length_leftpad] at hle ⊢
  omega

theorem length_decimalPad_zero (n : Nat) : (decimalPad 0 n).length = Nat.log 10 n + 1 := by
  have hsame : (decimalPad 0 n).length = (Nat.toDigits 10 n).length := by simp [decimalPad]
  have hpos : 0 < (Nat.toDigits 10 n).length := Nat.length_toDigits_pos
  have hle : (Nat.toDigits 10 n).length ≤ Nat.log 10 n + 1 :=
    (Nat.length_toDigits_le_iff (by decide) (by omega)).mpr (Nat.lt_pow_succ_log_self (by decide) n)
  have hlt : n < 10 ^ (Nat.toDigits 10 n).length := (Nat.length_toDigits_le_iff (by decide) hpos).mp (Nat.le_refl _)
  have hge : Nat.log 10 n < (Nat.toDigits 10 n).length := by
    rcases Nat.eq_zero_or_pos n with rfl | hn
    · rwa [Nat.log_zero_right]
    · exact Nat.log_lt_of_lt_pow (by omega) hlt
  omega

theorem ofDigitChars_decimalPad (w n : Nat) : Nat.ofDigitChars 10 (decimalPad w n) 0 = n := by
  simp [decimalPad, List.leftpad, Nat.ofDigitChars_append]

theorem digit_le (h : c.isDigit) : '0'.toNat ≤ c.toNat ∧ c.toNat - '0'.toNat ≤ 9 := by
  rw [Char.isDigit_iff_toNat] at h
  exact ⟨h.1, Nat.sub_le_of_le_add h.2⟩

/-- Whatever digits follow, a smaller beginning gives the smaller number. -/
theorem ofDigitChars_lt_of_lt (ha : ∀ c ∈ a, c.isDigit) (hlen : a.length = b.length) {i j : Nat} (h : i < j) :
    Nat.ofDigitChars 10 a i < Nat.ofDigitChars 10 b j := by
  induction a generalizing b i j with
  | nil =>
    rw [List.length_nil, eq_comm, List.length_eq_zero_iff] at hlen
    rw [hlen]
    exact h
  | cons c a ih =>
    cases b with
    | nil => cases hlen
    | cons d b =>
      rw [List.forall_mem_cons] at ha
      have hc := digit_le ha.1
      rw [Nat.ofDigitChars_cons, Nat.ofDigitChars_cons]
      exact ih ha.2 (Nat.succ.inj hlen) (by omega)

/-- The smaller of two texts of digits of one length is the one of the smaller number. -/
theorem ofDigitChars_lt (ha : ∀ c ∈ a, c.isDigit) (hlen : a.length = b.length) (h : a < b) (i : Nat) :
    Nat.ofDigitChars 10 a i < Nat.ofDigitChars 10 b i := by
  induction a generalizing b i with
  | nil =>
    rw [List.length_nil, eq_comm, List.length_eq_zero_iff] at hlen
    rw [hlen] at h
    exact absurd h (lt_irrefl _)
  | cons c a ih =>
    cases b with
    | nil => cases hlen
    | cons d b =>
      rw [List.forall_mem_cons] at ha
      rw [Nat.ofDigitChars_cons, Nat.ofDigitChars_cons]
      rcases List.cons_lt_cons_iff.mp h with hlt | ⟨heq, hlt⟩
      · have hc := digit_le ha.1
        have hcode : c.toNat < d.toNat := hlt
        exact ofDigitChars_lt_of_lt ha.2 (Nat.succ.inj hlen) (by omega)
      · rw [heq]
        exact ih ha.2 (Nat.succ.inj hlen) hlt _

/-- Numbers that fit the width are printed in their order. -/
theorem decimalPad_lt (hw : 0 < w) (hm : m < 10 ^ w) (h : n < m) : decimalPad w n < decimalPad w m := by
  have hlen : (decimalPad w m).length = (decimalPad w n).length := by
    rw [length_decimalPad hw hm, length_decimalPad hw (h.trans hm)]
  by_contra hnot
  rcases lt_or_eq_of_le (not_lt.mp hnot) with hlt | heq
  · have hvalue := ofDigitChars_lt (fun _ hc => isDigit_of_mem_decimalPad hc) hlen hlt 0
    rw [ofDigitChars_decimalPad, ofDigitChars_decimalPad] at hvalue
    omega
  · have hvalue := congrArg (fun a => Nat.ofDigitChars 10 a 0) heq
    simp only [ofDigitChars_decimalPad] at hvalue
    omega

end Decimal

section Tail

@[simp] theorem length_decimalTail (w n : Nat) : (decimalTail w n).length = w := by
  induction w generalizing n with
  | zero => rfl
  | succ w ih => simp [decimalTail, ih]

theorem isDigit_of_mem_decimalTail (h : c ∈ decimalTail w n) : c.isDigit := by
  induction w generalizing n with
  | zero => simp [decimalTail] at h
  | succ w ih =>
    rw [decimalTail, List.mem_append, List.mem_singleton] at h
    rcases h with h | rfl
    · exact ih h
    · rw [Nat.isDigit_digitChar]
      exact decide_eq_true (Nat.mod_lt n (by decide))

theorem decimalTail_add (m w n : Nat) : decimalTail (m + w) n = decimalTail m (n / 10 ^ w) ++ decimalTail w n := by
  induction w generalizing n with
  | zero => simp [decimalTail]
  | succ w ih =>
    rw [← Nat.add_assoc, decimalTail, ih, decimalTail, Nat.div_div_eq_div_mul, ← Nat.pow_succ', List.append_assoc]

/-- The number is read back up to the places that are missing. -/
theorem ofDigitChars_decimalTail (w n : Nat) : Nat.ofDigitChars 10 (decimalTail w n) 0 = n % 10 ^ w := by
  induction w generalizing n with
  | zero => simp [decimalTail, Nat.mod_one]
  | succ w ih =>
    have hdigit : (Nat.digitChar (n % 10)).toNat - '0'.toNat = n % 10 :=
      Nat.toNat_digitChar_sub_48_of_lt_ten (Nat.mod_lt n (by decide))
    rw [decimalTail, Nat.ofDigitChars_append, ih, Nat.ofDigitChars_cons, Nat.ofDigitChars_nil, hdigit, Nat.pow_succ', Nat.mod_mul]
    exact Nat.add_comm _ _

end Tail

end Numeral
