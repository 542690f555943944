import EnergyRouter.Scan
import Mathlib.Algebra.Order.BigOperators.Group.List

/-!
# The scanners over written lines

A name and its value are taken from a line, and the reader stands before the end of that line afterwards, whether it wanted the line
or not. So a reader that meets its names in the order of the lines takes them all.
-/

namespace EnergyRouter

open Numeral CString

variable {c : Char} {l v strtemp valueArry rest fpoint name tail fpoint' : List Char} {bs values : List Byte} {cnt : Nat}

section Numbers

theorem powDf_ofNat (m n : Nat) : powDf (BitVec.ofNat 32 m) n = BitVec.ofNat 32 (m ^ n) := by
  induction n with
  | zero => rfl
  | succ n ih => rw [powDf, ih, Nat.pow_succ, BitVec.ofNat_mul]

theorem charValue_of_isHex (h : IsHex c) : charValue c = BitVec.ofNat 32 (digitValue c) := by
  have hzero : '0'.toNat = 48 := rfl
  have hletter : 'A'.toNat = 65 := rfl
  rw [charValue, digitValue, hzero, hletter]
  have h48 : (48 : BitVec 32).toNat = 48 := rfl
  have h65 : (65 : BitVec 32).toNat = 65 := rfl
  have h10 : (10 : BitVec 32).toNat = 10 := rfl
  apply BitVec.eq_of_toNat_eq
  rcases toNat_of_isHex h with ⟨hdigit, hlow, hhigh⟩ | ⟨hdigit, hlow, hhigh⟩
  · rw [if_pos hdigit, if_pos hdigit]
    simp only [BitVec.toNat_sub, BitVec.toNat_ofNat, h48]
    omega
  · rw [if_neg hdigit, if_neg hdigit]
    simp only [BitVec.toNat_add, BitVec.toNat_sub, BitVec.toNat_ofNat, h65, h10]
    omega

/-- A text of digits passes the first pass, in base ten when it has no letters. -/
theorem str2numPass_of_isHex (h : ∀ c ∈ l, IsHex c) {bnum hexdec : Nat} (hbase : hexdec = 16 ∨ ∀ c ∈ l, ¬ 'A' ≤ c)
    (hlen : bnum + l.length < 256) : str2numPass l bnum hexdec = some (bnum + l.length, hexdec) := by
  induction l generalizing bnum with
  | nil => rfl
  | cons c l ih =>
    rw [List.forall_mem_cons] at h hbase
    have hkept : (if 'A' ≤ c then 16 else hexdec) = hexdec := by
      rcases hbase with rfl | ⟨hletter, -⟩
      · exact ite_self _
      · exact if_neg hletter
    rw [List.length_cons] at hlen ⊢
    rw [str2numPass, if_pos (.inl h.1), hkept, Nat.mod_eq_of_lt (by omega), ih h.2 (hbase.imp_right And.right) (by omega),
      Nat.add_right_comm, Nat.add_assoc]

theorem not_letter_of_isDigit (hc : c.isDigit) : ¬ 'A' ≤ c := by
  intro hletter
  rw [Char.isDigit, Bool.and_eq_true, decide_eq_true_eq, decide_eq_true_eq] at hc
  exact absurd (Char.le_trans hletter hc.2) (by decide)

theorem str2numSum_of_isHex (h : ∀ c ∈ l, IsHex c) (hexdec : Nat) (dest : BitVec 32) :
    str2numSum hexdec l l.length dest = dest + BitVec.ofNat 32 (ofDigitsIn hexdec l) := by
  induction l generalizing dest with
  | nil => simp [str2numSum, ofDigitsIn]
  | cons c l ih =>
    rw [List.forall_mem_cons] at h
    rw [str2numSum, List.length_cons, Nat.add_sub_cancel, ih h.2, charValue_of_isHex h.1, powDf_ofNat, ← BitVec.ofNat_mul,
      BitVec.add_assoc, ← BitVec.ofNat_add, ofDigitsIn_cons]

theorem str2num_of_isDigit (h : ∀ c ∈ l, c.isDigit) (hne : l ≠ []) (hlen : l.length < 256) :
    str2num l = (0, BitVec.ofNat 32 (Nat.ofDigitChars 10 l 0)) := by
  have hpass : str2numPass l 0 10 = some (0 + l.length, 10) :=
    str2numPass_of_isHex (fun c hc => .inl (h c hc)) (.inr fun c hc => not_letter_of_isDigit (h c hc)) (by omega)
  have hcount : ¬0 + l.length = 0 := by
    rw [Nat.zero_add, List.length_eq_zero_iff]
    exact hne
  rw [str2num, hpass]
  simp only [Nat.reduceEqDiff, if_false, if_neg hcount]
  rw [Nat.zero_add, str2numSum_of_isHex fun c hc => .inl (h c hc), zero_add, ofDigitsIn_ten h]

theorem str2nnum_hexByte (b : Byte) : str2nnum (hexByte b ++ ['\x00']) = some (0, b) := by
  revert b
  decide +kernel

end Numbers

section Values

theorem scanValue_append (hv : ∀ c ∈ v, IsHex c) (valueArry strtemp : List Char) (hlen : valueArry.length + v.length < 48) :
    scanValue valueArry (v ++ strtemp) = scanValue (valueArry ++ v) strtemp := by
  induction v generalizing valueArry with
  | nil => simp
  | cons c v ih =>
    rw [List.length_cons] at hlen
    have hroom : valueArry.length < 48 := by omega
    have hc : (c.isDigit ∧ valueArry.length < 48) ∨ ('A' ≤ c ∧ c ≤ 'F') := by
      rcases hv c List.mem_cons_self with hdigit | hletter
      · exact .inl ⟨hdigit, hroom⟩
      · exact .inr hletter
    rw [List.cons_append, scanValue, if_pos hc, if_pos hroom, ih (fun d hd => hv d (List.mem_cons_of_mem c hd)) _ (by simp; omega),
      List.append_assoc, List.singleton_append]

theorem scanValue_stop (hend : ∀ c ∈ strtemp.head?, ¬ IsHex c) (h : valueArry ≠ [] ∨ strtemp = []) :
    scanValue valueArry strtemp = some (valueArry, strtemp) := by
  cases strtemp with
  | nil => rfl
  | cons c strtemp =>
    have hc : ¬ IsHex c := hend c rfl
    rw [scanValue, if_neg fun hin => hc (hin.imp_left And.left), if_pos (h.resolve_right (List.cons_ne_nil _ _))]

theorem getValueArry_value (hv : ∀ c ∈ v, IsHex c) (hne : v ≠ []) (hlen : v.length < 48) (rest : List Char) :
    getValueArry ('=' :: v ++ '\n' :: rest) = some (v, '\n' :: rest) := by
  have hend : ∀ c ∈ ('\n' :: rest).head?, ¬ IsHex c := by
    rintro c ⟨⟩
    decide
  have hscan : scanValue [] ('=' :: v ++ '\n' :: rest) = some (v, '\n' :: rest) := by
    rw [List.cons_append, scanValue, if_neg (by decide), if_neg (by simp), scanValue_append hv [] _ (by simpa using hlen),
      List.nil_append, scanValue_stop hend (.inl hne)]
  rw [getValueArry, hscan]
  exact if_pos hlen

theorem getWord_value (hv : ∀ c ∈ v, c.isDigit) (hne : v ≠ []) (hlen : v.length < 48) (rest : List Char) :
    getWord ('=' :: v ++ '\n' :: rest) = some (BitVec.ofNat 32 (Nat.ofDigitChars 10 v 0), '\n' :: rest) := by
  rw [getWord, getValueArry_value (fun c hc => .inl (hv c hc)) hne hlen]
  simp [str2num_of_isDigit hv hne (by omega)]

@[simp] theorem length_flatMap_hexByte (bs : List Byte) : (bs.flatMap hexByte).length = bs.length * 2 := by
  simp [List.length_flatMap, hexByte]

theorem pairBytes_hexByte (bs : List Byte) (rest : List Char) :
    pairBytes bs.length (bs.flatMap hexByte ++ rest) = some bs := by
  induction bs with
  | nil => rfl
  | cons b bs ih =>
    have hpair := str2nnum_hexByte b
    have htwo : hexByte b = [hexDigit (b.toNat / 16 % 16), hexDigit (b.toNat % 16)] := rfl
    rw [htwo] at hpair
    rw [List.flatMap_cons, htwo, List.append_assoc, List.length_cons]
    simp only [List.cons_append, List.nil_append, pairBytes] at hpair ⊢
    simp [hpair, ih]

theorem getBytes_value (hne : bs ≠ []) (hlen : bs.length < 24) (rest : List Char) :
    getBytes bs.length ('=' :: bs.flatMap hexByte ++ '\n' :: rest) = some (bs, '\n' :: rest) := by
  have hhex : ∀ c ∈ bs.flatMap hexByte, IsHex c := by
    intro c hc
    obtain ⟨b, -, hb⟩ := List.mem_flatMap.mp hc
    exact isHex_of_mem_hexPad hb
  have htwo := length_flatMap_hexByte bs
  have hdigits : bs.flatMap hexByte ≠ [] := by
    intro hnil
    rw [hnil, List.length_nil] at htwo
    exact hne (List.length_eq_zero_iff.mp (by omega))
  rw [getBytes, getValueArry_value hhex hdigits (by omega)]
  simp [List.rightpad, pairBytes_hexByte]

/-- A digit of either kind, as a test. -/
def isHexDigit (c : Char) : Bool := decide (IsHex c)

@[simp] theorem isHexDigit_iff : isHexDigit c = true ↔ IsHex c := decide_eq_true_iff

@[simp] theorem isHexDigit_eq_false : isHexDigit c = false ↔ ¬ IsHex c := decide_eq_false_iff_not

/-- The first run of digits in a text, which is what `get_pvalue` looks for. -/
def digitRun (strtemp : List Char) : List Char := (strtemp.dropWhile (!isHexDigit ·)).takeWhile isHexDigit

theorem isHex_of_mem_digitRun (h : c ∈ digitRun strtemp) : IsHex c :=
  isHexDigit_iff.mp (List.all_eq_true.mp List.all_takeWhile c h)

theorem scanValue_skip (strtemp : List Char) : scanValue [] strtemp = scanValue [] (strtemp.dropWhile (!isHexDigit ·)) := by
  induction strtemp with
  | nil => rfl
  | cons c strtemp ih =>
    by_cases hc : IsHex c
    · rw [List.dropWhile_cons_of_neg (by simp [hc])]
    · have hnot : ¬ ((c.isDigit ∧ ([] : List Char).length < 48) ∨ ('A' ≤ c ∧ c ≤ 'F')) := fun h => hc (h.imp_left And.left)
      rw [List.dropWhile_cons_of_pos (by simp [hc]), ← ih, scanValue, if_neg hnot, if_neg (not_not.mpr rfl)]

/-- With more digits the loop fills `valueArry` to its end or runs over it. -/
theorem scanValue_full {out : List Char × List Char} (hlen : 48 ≤ valueArry.length + (strtemp.takeWhile isHexDigit).length)
    (h : scanValue valueArry strtemp = some out) :
    48 ≤ out.1.length := by
  induction strtemp generalizing valueArry with
  | nil =>
    rw [← Option.some.inj h]
    simpa using hlen
  | cons c strtemp ih =>
    rw [scanValue] at h
    split_ifs at h with hin hroom hne
    · have hc : IsHex c := hin.imp_left And.left
      refine ih ?_ h
      rw [List.takeWhile_cons_of_pos (by simp [hc]), List.length_cons] at hlen
      rw [List.length_append, List.length_singleton]
      omega
    · rw [← Option.some.inj h]
      by_contra hshort
      have hroom : valueArry.length < 48 := Nat.lt_of_not_le hshort
      have hc : ¬ IsHex c := fun hc => hin (hc.imp_left fun hdigit => ⟨hdigit, hroom⟩)
      rw [List.takeWhile_cons_of_neg (by simp [hc]), List.length_nil] at hlen
      exact hshort hlen
    · have hc : ¬ IsHex c := by
        intro hc
        refine hin (hc.imp_left fun hdigit => ⟨hdigit, ?_⟩)
        rw [not_not.mp hne]
        decide
      rw [List.takeWhile_cons_of_neg (by simp [hc]), not_not.mp hne] at hlen
      simp at hlen

/-- `get_pvalue` gets the first run of digits of any text, if `valueArry` has room for it. -/
theorem getValueArry_eq (strtemp : List Char) :
    ∃ rest, getValueArry strtemp = if (digitRun strtemp).length < 48 then some (digitRun strtemp, rest) else none := by
  generalize hbehind : strtemp.dropWhile (!isHexDigit ·) = behind
  have hrun : digitRun strtemp = behind.takeWhile isHexDigit := by rw [digitRun, hbehind]
  have hscan : scanValue [] strtemp = scanValue [] behind := by rw [scanValue_skip, hbehind]
  refine ⟨behind.dropWhile isHexDigit, ?_⟩
  split_ifs with hlen
  · have hdigits : ∀ c ∈ digitRun strtemp, IsHex c := fun c hc => isHex_of_mem_digitRun hc
    have hend : ∀ c ∈ (behind.dropWhile isHexDigit).head?, ¬ IsHex c := by
      intro c hc
      have hnot := List.head?_dropWhile_not isHexDigit behind
      rw [Option.mem_def.mp hc] at hnot
      simpa using hnot
    have hstop : digitRun strtemp ≠ [] ∨ behind.dropWhile isHexDigit = [] := by
      rw [hrun]
      cases hcases : behind with
      | nil => exact .inr rfl
      | cons c l =>
        -- what is left of the text begins with a digit
        have hfirst := List.head?_dropWhile_not (!isHexDigit ·) strtemp
        rw [hbehind, hcases] at hfirst
        have hc : IsHex c := by simpa using hfirst
        rw [List.takeWhile_cons_of_pos (by simp [hc])]
        exact .inl (List.cons_ne_nil _ _)
    have hvalue : scanValue [] strtemp = some (digitRun strtemp, behind.dropWhile isHexDigit) := by
      have hsplit : behind = digitRun strtemp ++ behind.dropWhile isHexDigit := by
        rw [hrun, List.takeWhile_append_dropWhile]
      rw [hscan]
      conv_lhs => rw [hsplit]
      rw [scanValue_append hdigits [] _ (by simpa using hlen), List.nil_append, scanValue_stop hend hstop]
    rw [getValueArry, hvalue]
    exact if_pos hlen
  · rw [getValueArry, hscan]
    cases hout : scanValue [] behind with
    | none => rfl
    | some out =>
      have hfull := scanValue_full (by rw [← hrun, List.length_nil]; omega) hout
      exact if_neg (by omega)

theorem length_of_pairBytes (h : pairBytes cnt valueArry = some values) :
    values.length = cnt := by
  induction cnt, valueArry using pairBytes.induct generalizing values with
  | case1 => cases h; rfl
  | case2 cnt a b valueArry ih =>
    obtain ⟨_, -, h⟩ := Option.bind_eq_some_iff.mp h
    obtain ⟨rest, hrest, h⟩ := Option.bind_eq_some_iff.mp h
    cases h
    rw [List.length_cons, ih hrest]
  | case3 cnt valueArry hshort =>
    rw [pairBytes] at h
    · cases h
    · exact hshort

theorem length_of_getBytes (h : getBytes cnt strtemp = some (values, rest)) : values.length = cnt := by
  obtain ⟨_, -, h⟩ := Option.bind_eq_some_iff.mp h
  obtain ⟨values', hvalues, h⟩ := Option.bind_eq_some_iff.mp h
  cases h
  exact length_of_pairBytes hvalues

end Values

section Unbroken

theorem unbroken_of_isHex {a : List Char} (h : ∀ c ∈ a, IsHex c) : Unbroken a := by
  intro c hc hnul
  have hhex := h c hc
  rw [hnul] at hhex
  exact absurd hhex (by decide)

theorem unbroken_decimalPad (w n : Nat) : Unbroken (decimalPad w n) :=
  unbroken_of_isHex fun _ hc => .inl (isDigit_of_mem_decimalPad hc)

theorem unbroken_hexByte (b : Byte) : Unbroken (hexByte b) := unbroken_of_isHex fun _ hc => isHex_of_mem_hexPad hc

theorem unbroken_timeLine (clock : SystemTime) : Unbroken (timeLine clock) := by
  have htitle : Unbroken (ascii "Time=") := by
    simp only [ascii]
    decide
  simp [timeLine, unbroken_append, unbroken_cons, unbroken_nil, unbroken_hexByte, htitle]

end Unbroken

section Names

/-- The names the writers use. -/
structure IsName (name : List Char) : Prop where
  ne_nil : name ≠ []
  length_lt : name.length < 32
  plain : ∀ c ∈ name, isSeparator c = false
  unbroken : Unbroken name

instance (name : List Char) : Decidable (IsName name) :=
  decidable_of_iff (name ≠ [] ∧ name.length < 32 ∧ (∀ c ∈ name, isSeparator c = false) ∧ Unbroken name)
    ⟨fun ⟨h₁, h₂, h₃, h₄⟩ => ⟨h₁, h₂, h₃, h₄⟩, fun ⟨h₁, h₂, h₃, h₄⟩ => ⟨h₁, h₂, h₃, h₄⟩⟩

/-- A reader stands in a line and has `rest` ahead of it. -/
def Ahead (rest fpoint : List Char) : Prop := ∃ skip, (∀ c ∈ skip, isLineEnd c = false) ∧ fpoint = skip ++ '\n' :: rest

theorem ahead_newline (rest : List Char) : Ahead rest ('\n' :: rest) := ⟨[], by simp, rfl⟩

theorem isLineEnd_of_isHex (h : IsHex c) : isLineEnd c = false := by
  rw [isLineEnd, Bool.or_eq_false_iff, decide_eq_false_iff_not, decide_eq_false_iff_not]
  refine ⟨?_, ?_⟩ <;> rintro rfl <;> exact absurd h (by decide)

theorem ahead_timeLine (clock : SystemTime) (rest : List Char) : Ahead rest (timeLine clock ++ rest) := by
  have hbyte (b : Byte) : ∀ c ∈ hexByte b, isLineEnd c = false := fun c hc => isLineEnd_of_isHex (isHex_of_mem_hexPad hc)
  have htitle : ∀ c ∈ ascii "Time=", isLineEnd c = false := by
    simp only [ascii]
    decide
  have hdash : isLineEnd '-' = false := by decide
  refine ⟨ascii "Time=" ++ hexByte clock.year ++ '-' :: hexByte clock.month ++ '-' :: hexByte clock.day ++ '-' ::
    hexByte clock.hour ++ '-' :: hexByte clock.minute ++ '-' :: hexByte clock.second, ?_, by simp [timeLine]⟩
  simp only [List.forall_mem_append, List.forall_mem_cons]
  exact ⟨⟨⟨⟨⟨⟨htitle, hbyte _⟩, hdash, hbyte _⟩, hdash, hbyte _⟩, hdash, hbyte _⟩, hdash, hbyte _⟩, hdash, hbyte _⟩

@[simp] theorem length_timeLine (clock : SystemTime) : (timeLine clock).length = 23 := by
  have htitle : (ascii "Time=").length = 5 := by simp [ascii]
  simp [timeLine, hexByte, htitle]

theorem Ahead.skipped (h : Ahead rest fpoint) :
    (fpoint.dropWhile (!isLineEnd ·)).dropWhile isSeparator = rest.dropWhile isSeparator := by
  obtain ⟨skip, hskip, rfl⟩ := h
  rw [List.dropWhile_append_of_pos (by simpa using hskip), List.dropWhile_cons_of_neg (by decide),
    List.dropWhile_cons_of_pos (by decide)]

/-- `get_name` takes the name of the line ahead, if no character of it separates names. -/
theorem Ahead.getName_of_plain (hne : name ≠ []) (hlen : name.length < 32) (hplain : ∀ c ∈ name, isSeparator c = false)
    (h : Ahead (name ++ '=' :: tail) fpoint) :
    getName fpoint = some (name, '=' :: tail) := by
  have hplain' : ∀ c ∈ name, (!isSeparator c) = true := by simpa using hplain
  obtain ⟨c, cs, hcons⟩ := List.exists_cons_of_ne_nil hne
  have hstart : (name ++ '=' :: tail).dropWhile isSeparator = name ++ '=' :: tail := by
    have hc := hplain c (by simp [hcons])
    rw [hcons, List.cons_append, List.dropWhile_cons_of_neg (by simp [hc])]
  have htake : (name ++ '=' :: tail).takeWhile (!isSeparator ·) = name := by
    rw [List.takeWhile_append_of_pos hplain', List.takeWhile_cons_of_neg (by decide), List.append_nil]
  rw [getName, h.skipped, hstart, htake, List.take_of_length_le (by omega), if_pos hlen, List.drop_left]

theorem Ahead.getName (hname : IsName name) (h : Ahead (name ++ '=' :: tail) fpoint) :
    getName fpoint = some (name, '=' :: tail) :=
  h.getName_of_plain hname.ne_nil hname.length_lt hname.plain

/-- Behind the last line `get_name` finds nothing and stays there. -/
theorem Ahead.getName_nil (h : Ahead [] fpoint) : EnergyRouter.getName fpoint = some ([], []) := by
  rw [EnergyRouter.getName, h.skipped]
  rfl

end Names

section Readers

variable {σ : Type}

/-- A field with the value a writer prints for it and what taking that value does. -/
structure Entry (σ : Type) where
  field : Field σ
  value : List Char
  effect : σ → σ

/-- The line of an entry. -/
def Entry.line (e : Entry σ) : List Char := EnergyRouter.line e.field.name e.value

/-- The name can be scanned, and the value is taken to the end of the line. -/
structure Entry.Sound (e : Entry σ) : Prop where
  name : IsName e.field.name
  unbroken : Unbroken e.value
  takes : ∀ rest s, e.field.getPvalue ('=' :: e.value ++ '\n' :: rest) s = some ('\n' :: rest, e.effect s)

/-- A word printed in decimal. -/
def wordEntry (name : List Char) (w : Nat) (v : BitVec 32) (store : BitVec 32 → σ → σ) : Entry σ :=
  ⟨.word name store, decimalPad w v.toNat, store v⟩

/-- Bytes printed in hexadecimal. -/
def bytesEntry (name : List Char) (bs : List Byte) (store : List Byte → σ → σ) : Entry σ :=
  ⟨.bytes name bs.length store, bs.flatMap hexByte, store bs⟩

theorem wordEntry_sound (hname : IsName name) {w : Nat} (hw : w ≤ 10) (v : BitVec 32) (store : BitVec 32 → σ → σ) :
    (wordEntry name w v store).Sound := by
  have hlen : (decimalPad w v.toNat).length ≤ 10 :=
    length_decimalPad_le (by decide) hw (Nat.lt_of_lt_of_le v.isLt (by decide))
  refine ⟨hname, unbroken_decimalPad w v.toNat, ?_⟩
  intro rest s
  rw [wordEntry, Field.getPvalue,
    getWord_value (fun c hc => isDigit_of_mem_decimalPad hc) (decimalPad_ne_nil w v.toNat) (by omega), ofDigitChars_decimalPad]
  simp

theorem bytesEntry_sound (hname : IsName name) (hne : bs ≠ []) (hlen : bs.length < 24) (store : List Byte → σ → σ) :
    (bytesEntry name bs store).Sound := by
  refine ⟨hname, unbroken_flatMap fun b _ => unbroken_hexByte b, ?_⟩
  intro rest s
  rw [bytesEntry, Field.getPvalue, getBytes_value hne hlen]
  rfl

theorem Entry.Sound.unbroken_line {e : Entry σ} (he : e.Sound) : Unbroken e.line := by
  simp [Entry.line, EnergyRouter.line, unbroken_append, unbroken_cons, unbroken_nil, he.name.unbroken, he.unbroken]

theorem Entry.Sound.readField {e : Entry σ} (he : e.Sound) (h : Ahead (e.line ++ rest) fpoint) (s : σ) :
    EnergyRouter.readField e.field fpoint s = some ('\n' :: rest, e.effect s) := by
  have hline : e.line ++ rest = e.field.name ++ '=' :: (e.value ++ '\n' :: rest) := by simp [Entry.line, EnergyRouter.line]
  rw [hline] at h
  have htakes := he.takes rest s
  rw [List.cons_append] at htakes
  rw [EnergyRouter.readField, h.getName he.name]
  simp [htakes]

/-- A reader that meets its fields in the order of the lines takes them all. -/
theorem readFields_entries {es : List (Entry σ)} (hes : ∀ e ∈ es, e.Sound) (h : Ahead (es.flatMap Entry.line ++ rest) fpoint)
    (s : σ) :
    ∃ fpoint', readFields (es.map Entry.field) fpoint s = some (fpoint', es.foldl (fun s e => e.effect s) s) ∧
      Ahead rest fpoint' := by
  induction es generalizing fpoint s with
  | nil => exact ⟨fpoint, rfl, h⟩
  | cons e es ih =>
    rw [List.flatMap_cons, List.append_assoc] at h
    have hstep := (hes e List.mem_cons_self).readField h s
    obtain ⟨fpoint', hrest, hahead⟩ :=
      ih (fun e' he' => hes e' (List.mem_cons_of_mem e he')) (ahead_newline _) (e.effect s)
    refine ⟨fpoint', ?_, hahead⟩
    rw [List.map_cons, readFields, hstep]
    exact hrest

theorem readFields_append (fs gs : List (Field σ)) (fpoint : List Char) (s : σ) :
    readFields (fs ++ gs) fpoint s = (readFields fs fpoint s).bind fun (fpoint, s) => readFields gs fpoint s := by
  induction fs generalizing fpoint s with
  | nil => rfl
  | cons f fs ih =>
    rw [List.cons_append, readFields, readFields, Option.bind_eq_bind, Option.bind_assoc]
    congr
    funext ⟨fpoint, s⟩
    exact ih fpoint s

theorem readField_of_ne {f : Field σ} (hname : getName fpoint = some (name, fpoint')) (hne : name ≠ f.name) (s : σ) :
    readField f fpoint s = some (fpoint', s) := by
  rw [readField, hname]
  simp [hne]

theorem readFields_nil {fields : List (Field σ)} (hnames : ∀ f ∈ fields, f.name ≠ []) (s : σ) :
    readFields fields [] s = some ([], s) := by
  induction fields with
  | nil => rfl
  | cons f fields ih =>
    rw [List.forall_mem_cons] at hnames
    have hend : getName [] = some ([], []) := rfl
    rw [readFields, readField_of_ne hend (Ne.symm hnames.1)]
    exact ih hnames.2

/-- A reader that is one line ahead or behind takes nothing. -/
theorem readFields_missed {fields : List (Field σ)} {rows : List (List Char × List Char)} (hfields : ∀ f ∈ fields, f.name ≠ [])
    (hnames : ∀ row ∈ rows, IsName row.1) (hvalues : ∀ row ∈ rows, ∀ c ∈ row.2, isLineEnd c = false)
    (hne : ∀ p ∈ rows.zip fields, p.1.1 ≠ p.2.name) (h : Ahead (rows.flatMap fun row => line row.1 row.2) fpoint) (s : σ) :
    ∃ fpoint', readFields fields fpoint s = some (fpoint', s) := by
  induction rows generalizing fields fpoint with
  | nil =>
    cases fields with
    | nil => exact ⟨fpoint, rfl⟩
    | cons f fields =>
      rw [List.forall_mem_cons] at hfields
      refine ⟨[], ?_⟩
      rw [readFields, readField_of_ne h.getName_nil (Ne.symm hfields.1)]
      exact readFields_nil hfields.2 s
  | cons row rows ih =>
    cases fields with
    | nil => exact ⟨fpoint, rfl⟩
    | cons f fields =>
      rw [List.forall_mem_cons] at hfields hnames hvalues
      rw [List.zip_cons_cons, List.forall_mem_cons] at hne
      have hline : (row :: rows).flatMap (fun row => line row.1 row.2) =
          row.1 ++ '=' :: (row.2 ++ '\n' :: rows.flatMap fun row => line row.1 row.2) := by simp [line]
      rw [hline] at h
      have hahead : Ahead (rows.flatMap fun row => line row.1 row.2)
          ('=' :: (row.2 ++ '\n' :: rows.flatMap fun row => line row.1 row.2)) :=
        ⟨'=' :: row.2, List.forall_mem_cons.mpr ⟨by decide, hvalues.1⟩, rfl⟩
      obtain ⟨fpoint', hrest⟩ := ih hfields.2 hnames.2 hvalues.2 hne.2 hahead
      refine ⟨fpoint', ?_⟩
      rw [readFields, readField_of_ne (h.getName hnames.1) hne.1]
      exact hrest

/-- Taking a value for the field leaves a part of the record. -/
def Field.Leaves {β : Type} (part : σ → β) : Field σ → Prop
  | .word _ store => ∀ v s, part (store v s) = part s
  | .bytes _ cnt store => ∀ vs s, vs.length = cnt → part (store vs s) = part s
  | .outside _ => True

theorem Field.Leaves.getPvalue {β : Type} {part : σ → β} {f : Field σ} (hf : f.Leaves part) {s s' : σ}
    (h : f.getPvalue fpoint s = some (fpoint', s')) : part s' = part s := by
  cases f with
  | word name store =>
    obtain ⟨⟨v, rest⟩, -, hstore⟩ := Option.map_eq_some_iff.mp h
    rw [← (Prod.mk.inj hstore).2]
    exact hf v s
  | bytes name cnt store =>
    obtain ⟨⟨vs, rest⟩, hvs, hstore⟩ := Option.map_eq_some_iff.mp h
    rw [← (Prod.mk.inj hstore).2]
    exact hf vs s (length_of_getBytes hvs)
  | outside name => cases h

/-- A reader leaves the part of the record that none of its fields is in, whatever the text. -/
theorem readFields_leaves {β : Type} {part : σ → β} {fields : List (Field σ)} (hfields : ∀ f ∈ fields, f.Leaves part) {s s' : σ}
    (h : readFields fields fpoint s = some (fpoint', s')) : part s' = part s := by
  induction fields generalizing fpoint s with
  | nil =>
    cases h
    rfl
  | cons f fields ih =>
    obtain ⟨⟨fpoint₁, s₁⟩, hstep, hrest⟩ := Option.bind_eq_some_iff.mp h
    obtain ⟨⟨name, fpoint₂⟩, -, hstep⟩ := Option.bind_eq_some_iff.mp hstep
    have hfirst : part s₁ = part s := by
      dsimp only at hstep
      split_ifs at hstep with hname
      · exact (hfields f List.mem_cons_self).getPvalue hstep
      · rw [(Prod.mk.inj (Option.some.inj hstep)).2]
    rw [ih (fun g hg => hfields g (List.mem_cons_of_mem f hg)) hrest, hfirst]

end Readers

section Files

@[simp] theorem length_line (name value : List Char) : (line name value).length = name.length + value.length + 2 := by
  simp [line]
  omega

theorem length_flatMap_le {α : Type} {l : List α} {f : α → List Char} {bound : α → Nat} (h : ∀ a ∈ l, (f a).length ≤ bound a) :
    (l.flatMap f).length ≤ (l.map bound).sum := by
  rw [List.length_flatMap]
  exact List.sum_le_sum h

theorem length_decimalPad_word (v : BitVec 32) : (decimalPad 0 v.toNat).length ≤ 10 :=
  length_decimalPad_le (by decide) (by decide) (Nat.lt_of_lt_of_le v.isLt (by decide))

theorem length_decimalPad_byte (b : Byte) : (decimalPad 0 b.toNat).length ≤ 3 :=
  length_decimalPad_le (by decide) (by decide) (Nat.lt_of_lt_of_le b.isLt (by decide))

/-- A text written over a file is what the next reader finds behind the first line. -/
theorem save_ahead {file : File} (hold : (file.getD []).length < maxMallocNum) (clock : SystemTime) {body : List Char}
    (hbody : Unbroken body) (hfit : (timeLine clock ++ body).length < maxMallocNum) :
    ∃ content buff rest, file.save (timeLine clock ++ body) = some (0, some content) ∧ content.length < maxMallocNum ∧
      readBuff content = some buff ∧ Ahead (body ++ rest) buff := by
  have htext : Unbroken (timeLine clock ++ body) := unbroken_append.mpr ⟨unbroken_timeLine clock, hbody⟩
  have hlen : (spliceAt (file.getD []) 0 (timeLine clock ++ body)).length < maxMallocNum := by
    simp only [spliceAt, List.take_zero, List.nil_append, Nat.zero_add, List.length_append, List.length_drop] at hfit ⊢
    omega
  refine ⟨spliceAt (file.getD []) 0 (timeLine clock ++ body), _, cString ((file.getD []).drop (timeLine clock ++ body).length),
    if_pos hfit, hlen, ?_, ahead_timeLine clock _⟩
  rw [readBuff, List.take_of_length_le (Nat.le_of_lt hlen), if_pos hlen, spliceAt, List.take_zero, List.nil_append, Nat.zero_add,
    cString_append htext, List.append_assoc]

end Files

end EnergyRouter
