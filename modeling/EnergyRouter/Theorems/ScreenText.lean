import EnergyRouter.Screen
import EnergyRouter.Lib.Numeral

/-!
# What the screen shows

What `LCD_Ltoa` prints is the last digits of the number, as many as there are places, so the screen shows a reading as it is exactly
when it has no more digits than that.
-/

namespace EnergyRouter

open Buffer CString Numeral

variable {n m k len : Nat} {dec : Byte} {s : LtoaState} {buf : Vector Char n} {i : BitVec 32}

/-! ## The loop -/

/-- The characters the loop stores, in the order in which they stand. -/
def ltoaText (dec : Byte) : Nat → LtoaState → List Char
  | 0, _ => []
  | len + 1, s => ltoaText dec len (ltoaTurn dec s).2 ++ [(ltoaTurn dec s).1]

/-- The loop leaves its text in front of what stood behind it. -/
theorem toList_ltoaLoop (hroom : len ≤ n) :
    (ltoaLoop dec len s buf).toList = ltoaText dec len s ++ buf.toList.drop len := by
  induction len generalizing s buf with
  | zero => rfl
  | succ len ih =>
    rw [ltoaLoop, ih (by omega), drop_setIfInBounds _ _ (by omega), ltoaText, List.append_assoc]
    rfl

theorem lcdLtoa_eq (buf : Vector Char n) (i : BitVec 32) (dec : Byte) (hroom : len < n) :
    ∃ buf', lcdLtoa buf i len dec = some buf' ∧
      buf'.toList = ltoaText dec len ⟨i, 0⟩ ++ '\x00' :: buf.toList.drop (len + 1) := by
  refine ⟨_, if_pos hroom, ?_⟩
  rw [toList_ltoaLoop (Nat.le_of_lt hroom), drop_setIfInBounds _ _ hroom]

theorem ltoaDigit_eq (tmp : BitVec 32) : ltoaDigit tmp = Nat.digitChar (tmp.toNat % 10) := by
  have hall : ∀ d < 10, Char.ofNat (d + '0'.toNat) = Nat.digitChar d := by decide
  rw [ltoaDigit, BitVec.toNat_umod]
  exact hall _ (Nat.mod_lt _ (by decide))

theorem ltoaTurn_digit (h : dec = 0 ∨ (s.index + 1).toNat ≠ dec.toNat + 1) :
    ltoaTurn dec s = (Nat.digitChar (s.tmp.toNat % 10), ⟨s.tmp / 10, if dec = 0 then s.index else s.index + 1⟩) := by
  unfold ltoaTurn
  rw [ltoaDigit_eq]
  by_cases hdec : dec = 0
  · rw [if_neg (not_not.mpr hdec), if_pos hdec]
  · rw [if_pos hdec, if_neg hdec]
    exact if_neg (h.resolve_left hdec)

theorem ltoaTurn_point (hdec : dec ≠ 0) (h : (s.index + 1).toNat = dec.toNat + 1) :
    ltoaTurn dec s = ('.', ⟨s.tmp, s.index + 1⟩) := by
  unfold ltoaTurn
  rw [if_pos hdec]
  exact if_pos h

theorem toNat_div_ten (tmp : BitVec 32) : (tmp / 10).toNat = tmp.toNat / 10 := BitVec.toNat_udiv

theorem toNat_succ_index {index : Byte} (h : index.toNat + 1 < 256) : (index + 1).toNat = index.toNat + 1 := by
  rw [BitVec.toNat_add]
  exact Nat.mod_eq_of_lt h

theorem ltoaText_digits (h : dec = 0 ∨ dec.toNat < s.index.toNat ∧ s.index.toNat + len < 256) :
    ltoaText dec len s = decimalTail len s.tmp.toNat := by
  induction len generalizing s with
  | zero => rfl
  | succ len ih =>
    have hturn : ltoaTurn dec s = (Nat.digitChar (s.tmp.toNat % 10), ⟨s.tmp / 10, if dec = 0 then s.index else s.index + 1⟩) := by
      refine ltoaTurn_digit (h.imp_right fun hcount => ?_)
      rw [toNat_succ_index (by omega)]
      omega
    have hrest : ltoaText dec len ⟨s.tmp / 10, if dec = 0 then s.index else s.index + 1⟩ = decimalTail len (s.tmp.toNat / 10) := by
      rw [ih, toNat_div_ten]
      by_cases hdec : dec = 0
      · exact .inl hdec
      · have hcount := h.resolve_left hdec
        simp only [if_neg hdec]
        rw [toNat_succ_index (by omega)]
        exact .inr ⟨by omega, by omega⟩
    rw [ltoaText, hturn, decimalTail, hrest]

/-- With `k` decimals still to come, the turns store them, the point, and the digits in front of it. -/
theorem ltoaText_point (hdec : dec ≠ 0) (hindex : s.index.toNat + k = dec.toNat) (hcount : dec.toNat + 1 + m < 256) :
    ltoaText dec (m + 1 + k) s = decimalTail m (s.tmp.toNat / 10 ^ k) ++ '.' :: decimalTail k s.tmp.toNat := by
  have hsucc : (s.index + 1).toNat = s.index.toNat + 1 := toNat_succ_index (by omega)
  induction k generalizing s with
  | zero =>
    have hpoint := ltoaTurn_point hdec (s := s) (by omega)
    have hrest : ltoaText dec m ⟨s.tmp, s.index + 1⟩ = decimalTail m s.tmp.toNat :=
      ltoaText_digits (.inr ⟨by simp only [hsucc]; omega, by simp only [hsucc]; omega⟩)
    rw [Nat.add_zero, ltoaText, hpoint, hrest, Nat.pow_zero, Nat.div_one]
    rfl
  | succ k ih =>
    have hturn : (s.index + 1).toNat ≠ dec.toNat + 1 := by omega
    have hdigit := ltoaTurn_digit (.inr hturn)
    rw [if_neg hdec] at hdigit
    have hnext : (s.index + 1 + 1).toNat = (s.index + 1).toNat + 1 := toNat_succ_index (by omega)
    have hrest := ih (s := ⟨s.tmp / 10, s.index + 1⟩) (by simp only [hsucc]; omega) hnext
    simp only [toNat_div_ten, Nat.div_div_eq_div_mul, ← Nat.pow_succ'] at hrest
    rw [← Nat.add_assoc, ltoaText, hdigit, hrest, decimalTail, List.append_assoc, List.cons_append]

/-! ## Numbers with decimals -/

/-- A number in `len` places: digits only, but for one point with `dec` digits behind it when there are decimals. -/
structure Fixed (text : List Char) (len dec value : Nat) : Prop where
  length : text.length = len
  digits : ∀ c ∈ text, c ≠ '.' → c.isDigit
  value : Nat.ofDigitChars 10 (text.filter (· ≠ '.')) 0 = value
  point : ∀ j, text[j]? = some '.' ↔ 0 < dec ∧ j + dec + 1 = len

/-- The places for digits: the point takes one. -/
def digitPlaces (len : Nat) (dec : Byte) : Nat := if dec = 0 then len else len - 1

theorem not_point_of_isDigit {c : Char} (h : c.isDigit) : c ≠ '.' := by
  rintro rfl
  exact absurd h (by decide)

theorem filter_decimalTail (w v : Nat) : (decimalTail w v).filter (· ≠ '.') = decimalTail w v := by
  refine List.filter_eq_self.mpr fun c hc => ?_
  simpa using not_point_of_isDigit (isDigit_of_mem_decimalTail hc)

theorem decimalTail_ne_point (w v j : Nat) : (decimalTail w v)[j]? ≠ some '.' := by
  intro h
  exact not_point_of_isDigit (isDigit_of_mem_decimalTail (List.mem_of_getElem? h)) rfl

theorem fixed_decimalTail (w v : Nat) : Fixed (decimalTail w v) w 0 (v % 10 ^ w) where
  length := length_decimalTail w v
  digits := fun _ hc _ => isDigit_of_mem_decimalTail hc
  value := by rw [filter_decimalTail, ofDigitChars_decimalTail]
  point := fun j => iff_of_false (decimalTail_ne_point w v j) fun h => absurd h.1 (Nat.lt_irrefl 0)

theorem fixed_point (m v : Nat) (hk : 0 < k) :
    Fixed (decimalTail m (v / 10 ^ k) ++ '.' :: decimalTail k v) (m + 1 + k) k (v % 10 ^ (m + k)) where
  length := by
    simp
    omega
  digits := by
    intro c hc hpoint
    rcases List.mem_append.mp hc with hfront | hback
    · exact isDigit_of_mem_decimalTail hfront
    · rcases List.mem_cons.mp hback with rfl | hback
      · exact absurd rfl hpoint
      · exact isDigit_of_mem_decimalTail hback
  value := by
    rw [List.filter_append, List.filter_cons_of_neg (by simp), filter_decimalTail, filter_decimalTail, ← decimalTail_add,
      ofDigitChars_decimalTail]
  point := by
    intro j
    rcases Nat.lt_trichotomy j m with hlt | rfl | hgt
    · rw [List.getElem?_append_left (by simpa using hlt)]
      exact iff_of_false (decimalTail_ne_point m _ j) fun h => by omega
    · rw [List.getElem?_append_right (by simp), length_decimalTail, Nat.sub_self]
      exact iff_of_true rfl ⟨hk, by omega⟩
    · obtain ⟨d, rfl⟩ : ∃ d, j = m + (d + 1) := ⟨j - m - 1, by omega⟩
      rw [List.getElem?_append_right (by simp), length_decimalTail, Nat.add_sub_cancel_left, List.getElem?_cons_succ]
      exact iff_of_false (decimalTail_ne_point k _ d) fun h => by omega

/-- What the turns of a call store: as many of the last digits as there are places for digits. -/
theorem fixed_ltoaText (hshape : dec = 0 ∨ dec.toNat + 2 ≤ len ∧ len ≤ 100) :
    Fixed (ltoaText dec len ⟨i, 0⟩) len dec.toNat (i.toNat % 10 ^ digitPlaces len dec) := by
  by_cases hdec : dec = 0
  · rw [hdec, digitPlaces, if_pos rfl, ltoaText_digits (.inl rfl)]
    exact fixed_decimalTail len i.toNat
  · obtain ⟨hlow, hhigh⟩ := hshape.resolve_left hdec
    have hpos : 0 < dec.toNat := Nat.pos_of_ne_zero fun h => hdec (BitVec.eq_of_toNat_eq h)
    obtain ⟨m, rfl⟩ : ∃ m, len = m + 1 + dec.toNat := ⟨len - 1 - dec.toNat, by omega⟩
    have hplaces : m + 1 + dec.toNat - 1 = m + dec.toNat := by omega
    rw [digitPlaces, if_neg hdec, hplaces, ltoaText_point hdec (by simp) (by omega)]
    exact fixed_point m i.toNat hpos

theorem Fixed.unbroken {text : List Char} {value : Nat} (h : Fixed text len k value) : Unbroken text := by
  intro c hc hzero
  have hdigit := h.digits c hc (by rw [hzero]; decide)
  rw [hzero] at hdigit
  exact absurd hdigit (by decide)

/-- The last digits of every number are printed, in every shape. -/
theorem lcdLtoa_last_digits (buf : Vector Char n) (i : BitVec 32) (hshape : dec = 0 ∨ dec.toNat + 2 ≤ len ∧ len ≤ 100)
    (hroom : len < n) :
    ∃ buf', lcdLtoa buf i len dec = some buf' ∧
      Fixed (cString buf'.toList) len dec.toNat (i.toNat % 10 ^ digitPlaces len dec) := by
  obtain ⟨buf', hcall, htext⟩ := lcdLtoa_eq buf i dec hroom
  have hfixed := fixed_ltoaText (i := i) hshape
  refine ⟨buf', hcall, ?_⟩
  rw [htext, cString_terminated hfixed.unbroken]
  exact hfixed

/-- A number that has no more digits than there are places is printed as it is, in any buffer that has room. -/
theorem number_printed (buf : Vector Char n) (i : BitVec 32) (len : Nat) (dec : Byte)
    (hshape : dec = 0 ∨ dec.toNat + 2 ≤ len ∧ len ≤ 100) (hvalue : i.toNat < 10 ^ digitPlaces len dec) (hroom : len < n) :
    ∃ buf', lcdLtoa buf i len dec = some buf' ∧ Fixed (cString buf'.toList) len dec.toNat i.toNat := by
  have hprinted := lcdLtoa_last_digits buf i hshape hroom
  rwa [Nat.mod_eq_of_lt hvalue] at hprinted

/-- Twelve kilowatt-hours and 345 thousandths, as the screen prints them. -/
theorem number_printed_energy :
    ∃ buf', lcdLtoa (Vector.replicate 20 ' ') 12345 8 3 = some buf' ∧ Fixed (cString buf'.toList) 8 3 12345 :=
  number_printed (Vector.replicate 20 ' ') 12345 8 3 (.inr (by decide)) (by decide) (by decide)

/-! ## The screen of the meter -/

/-- A call with room in `s_cStrBuf` and a place in front of its decimals. -/
def NumberCall.Shaped (c : NumberCall) : Prop := (c.dec = 0 ∨ c.dec.toNat + 2 ≤ c.len ∧ c.len ≤ 100) ∧ c.len < 20

/-- What is drawn for a call shows a number in its place and shape. -/
structure DrawnText.Shows (d : DrawnText) (c : NumberCall) (value : Nat) : Prop where
  x : d.x = c.x
  y : d.y = c.y
  text : Fixed d.text c.len c.dec.toNat value

/-- Every number is drawn by its last digits, whatever the calls before it have left in the buffer. -/
theorem drawNumbers_shows {calls : List NumberCall} (hshaped : ∀ c ∈ calls, c.Shaped) (sCStrBuf : Vector Char 20) :
    ∃ drawn sCStrBuf', drawNumbers calls sCStrBuf = some (drawn, sCStrBuf') ∧
      List.Forall₂ (fun d c => d.Shows c (c.i.toNat % 10 ^ digitPlaces c.len c.dec)) drawn calls := by
  induction calls generalizing sCStrBuf with
  | nil => exact ⟨[], sCStrBuf, rfl, .nil⟩
  | cons c calls ih =>
    rw [List.forall_mem_cons] at hshaped
    obtain ⟨buf', hcall, hfixed⟩ := lcdLtoa_last_digits sCStrBuf c.i hshaped.1.1 hshaped.1.2
    obtain ⟨drawn, buf'', hrest, hshows⟩ := ih hshaped.2 buf'
    refine ⟨⟨c.x, c.y, cString buf'.toList⟩ :: drawn, buf'', ?_, .cons ⟨rfl, rfl, hfixed⟩ hshows⟩
    rw [drawNumbers, hcall]
    simp [hrest]

/-- A number that is drawn by its last digits is shown as it is when it has no others. -/
theorem DrawnText.Shows.right_iff {d : DrawnText} {c : NumberCall}
    (h : d.Shows c (c.i.toNat % 10 ^ digitPlaces c.len c.dec)) :
    d.Shows c c.i.toNat ↔ c.i.toNat < 10 ^ digitPlaces c.len c.dec := by
  constructor
  · intro hright
    have hsame : c.i.toNat = c.i.toNat % 10 ^ digitPlaces c.len c.dec := hright.text.value.symm.trans h.text.value
    rw [hsame]
    exact Nat.mod_lt _ (by positivity)
  · intro hsmall
    rwa [Nat.mod_eq_of_lt hsmall] at h

theorem forall₂_shows_iff {drawn : List DrawnText} {calls : List NumberCall}
    (h : List.Forall₂ (fun d c => d.Shows c (c.i.toNat % 10 ^ digitPlaces c.len c.dec)) drawn calls) :
    List.Forall₂ (fun d c => d.Shows c c.i.toNat) drawn calls ↔ ∀ c ∈ calls, c.i.toNat < 10 ^ digitPlaces c.len c.dec := by
  induction h with
  | nil => simp
  | cons hhead _ ih => rw [List.forall₂_cons, List.forall_mem_cons, hhead.right_iff, ih]

/-- The screen of the meter shows the readings exactly when the energy is below 10000.000, the voltage and the current are below
1000.00 and the power factor is below 10.000. -/
theorem screen004_right_iff (stMeterAnalog : MeterAnalog) (sCStrBuf : Vector Char 20) :
    ∃ drawn sCStrBuf', lcdUpdateScreen004 stMeterAnalog sCStrBuf = some (drawn, sCStrBuf') ∧
      (List.Forall₂ (fun d c => d.Shows c c.i.toNat) drawn (screen004Calls stMeterAnalog) ↔
        stMeterAnalog.ulMeterTotal.toNat < 10000000 ∧ (stMeterAnalog.ulVol * 10).toNat < 100000 ∧
          stMeterAnalog.ulCur.toNat < 100000 ∧ stMeterAnalog.ulPwrFactor.toNat < 10000) := by
  have hshaped : ∀ c ∈ screen004Calls stMeterAnalog, c.Shaped := by
    simp [screen004Calls, NumberCall.Shaped]
  obtain ⟨drawn, buf', hdrawn, hshows⟩ := drawNumbers_shows hshaped sCStrBuf
  refine ⟨drawn, buf', hdrawn, ?_⟩
  rw [forall₂_shows_iff hshows]
  simp [screen004Calls, digitPlaces]

end EnergyRouter
