import EnergyRouter.Lemmas.Scan

/-!
# The scanners on any text

`str2num` reads decimal digits, and hexadecimal ones behind `0X`, and refuses every other text. Over lines `name=digits` the
scanners deliver names and values in their order. `get_pvalue` of several values asks neither whether the text has that many nor
whether its arrays do.
-/

namespace EnergyRouter

open Numeral CString Memory

variable {l src rest fpoint : List Char} {bnum cnt : Nat}

/-! ## Numbers -/

/-- The texts `str2num` is for, with their numbers. -/
inductive ReadsAs : List Char → Nat → Prop
  | decimal {ds : List Char} : ds ≠ [] → (∀ c ∈ ds, c.isDigit) → ReadsAs ds (Nat.ofDigitChars 10 ds 0)
  | hexadecimal {ds : List Char} : ds ≠ [] → (∀ c ∈ ds, IsHex c) → ReadsAs ('0' :: 'X' :: ds) (ofDigitsIn 16 ds)

/-- The first pass lets through digits, and an `X` in the second place. Letters make the base sixteen. -/
theorem str2numPass_some {hexdec : Nat} {out : Nat × Nat} (hlen : bnum + l.length < 256)
    (h : str2numPass l bnum hexdec = some out) :
    out.1 = bnum + l.length ∧ (∀ i c, l[i]? = some c → IsHex c ∨ c = 'X' ∧ bnum + i = 1) ∧
      (out.2 = 16 ∨ out.2 = hexdec ∧ ∀ c ∈ l, ¬ 'A' ≤ c) := by
  induction l generalizing bnum hexdec with
  | nil =>
    rw [← Option.some.inj h]
    exact ⟨rfl, fun i c hc => by simp at hc, .inr ⟨rfl, by simp⟩⟩
  | cons a l ih =>
    rw [List.length_cons] at hlen ⊢
    rw [str2numPass, Nat.mod_eq_of_lt (by omega)] at h
    by_cases ha : IsHex a ∨ a = 'X' ∧ bnum = 1
    · rw [if_pos ha] at h
      obtain ⟨hcount, hplaces, hbase⟩ := ih (by omega) h
      refine ⟨by omega, ?_, ?_⟩
      · intro i c hc
        cases i with
        | zero =>
          rw [List.getElem?_cons_zero, Option.some.injEq] at hc
          rw [← hc]
          exact ha
        | succ i =>
          rw [List.getElem?_cons_succ] at hc
          exact (hplaces i c hc).imp_right fun hx => ⟨hx.1, by omega⟩
      · by_cases hletter : 'A' ≤ a
        · rw [if_pos hletter] at hbase
          exact .inl (hbase.elim id And.left)
        · rw [if_neg hletter] at hbase
          exact hbase.imp_right fun hten => ⟨hten.1, List.forall_mem_cons.mpr ⟨hletter, hten.2⟩⟩
    · rw [if_neg ha] at h
      cases h

theorem isHex_le {c : Char} (h : IsHex c) (hletter : ¬ 'A' ≤ c) : c.isDigit := h.resolve_right fun hc => hletter hc.1

/-- `str2num` reads a text of hexadecimal digits behind `0X` as their value. -/
theorem str2num_of_isHex {ds : List Char} (h : ∀ c ∈ ds, IsHex c) (hne : ds ≠ []) (hlen : ds.length < 254) :
    str2num ('0' :: 'X' :: ds) = (0, BitVec.ofNat 32 (ofDigitsIn 16 ds)) := by
  have hpos : 0 < ds.length := List.length_pos_of_ne_nil hne
  have hpass : str2numPass ('0' :: 'X' :: ds) 0 10 = some (2 + ds.length, 16) :=
    str2numPass_of_isHex h (.inl rfl) (by omega)
  have hcount : ¬ 2 + ds.length < 3 := by omega
  rw [str2num, hpass]
  simp only [if_true, if_neg hcount]
  rw [if_pos ⟨rfl, .inl rfl⟩, List.drop_succ_cons, List.drop_succ_cons, List.drop_zero, Nat.add_sub_cancel_left,
    str2numSum_of_isHex h, zero_add]

/-- What passes the tests of `str2num` is a number of one of the two forms. -/
theorem readsAs_of_str2num (hlen : src.length < 256) (h : (str2num src).1 = 0) : ∃ n, ReadsAs src n := by
  cases hpass : str2numPass src 0 10 with
  | none =>
    rw [str2num, hpass] at h
    cases h
  | some out =>
    obtain ⟨hcount, hplaces, hbase⟩ := str2numPass_some (by omega) hpass
    rw [str2num, hpass] at h
    simp only at h
    rw [Nat.zero_add] at hcount
    split_ifs at h with hsixteen hshort hstart hempty
    · -- behind `0X` every place holds a digit
      obtain ⟨ds, rfl⟩ : ∃ ds, src = '0' :: 'X' :: ds := by
        rcases src with - | ⟨a, - | ⟨b, ds⟩⟩
        · simp at hstart
        · simp at hstart
        · simp only [List.getElem?_cons_zero, List.getElem?_cons_succ, Option.some.injEq] at hstart
          have hb : b ≠ 'x' := by
            rintro rfl
            rcases hplaces 1 'x' rfl with hhex | hx
            · exact absurd hhex (by decide)
            · exact absurd hx.1 (by decide)
          exact ⟨ds, by rw [hstart.1, hstart.2.resolve_right hb]⟩
      have hds : ∀ c ∈ ds, IsHex c := by
        intro c hc
        obtain ⟨i, hi⟩ := List.getElem?_of_mem hc
        exact (hplaces (i + 2) c hi).resolve_right fun hx => by omega
      have hne : ds ≠ [] := by
        rintro rfl
        rw [hcount] at hshort
        exact hshort (by decide)
      exact ⟨_, .hexadecimal hne hds⟩
    · have hdigits : ∀ c ∈ src, c.isDigit := by
        intro c hc
        obtain ⟨i, hi⟩ := List.getElem?_of_mem hc
        have hletter := (hbase.resolve_left hsixteen).2
        rcases hplaces i c hi with hhex | hx
        · exact isHex_le hhex (hletter c hc)
        · rw [hx.1] at hc
          exact absurd (by decide) (hletter 'X' hc)
      have hne : src ≠ [] := by
        rintro rfl
        exact hempty hcount
      exact ⟨_, .decimal hne hdigits⟩

/-- When `str2num` refuses a text it has cleared its destination. -/
theorem str2num_refused (h : (str2num src).1 ≠ 0) : (str2num src).2 = 0 := by
  cases hpass : str2numPass src 0 10 with
  | none => rw [str2num, hpass]
  | some out =>
    rw [str2num, hpass] at h ⊢
    simp only at h ⊢
    split_ifs at h ⊢ <;> first | rfl | exact absurd rfl h

/-- Every text of at most 255 characters that is a number is read as that number, and every other one is refused. -/
theorem str2num_reads (src : List Char) (hlen : src.length ≤ 255) :
    (∀ n, ReadsAs src n → str2num src = (0, BitVec.ofNat 32 n)) ∧
      ((¬ ∃ n, ReadsAs src n) → (str2num src).1 ≠ 0 ∧ (str2num src).2 = 0) := by
  constructor
  · rintro n (⟨hne, hdigits⟩ | ⟨hne, hdigits⟩)
    · exact str2num_of_isDigit hdigits hne (by omega)
    · rw [List.length_cons, List.length_cons] at hlen
      exact str2num_of_isHex hdigits hne (by omega)
  · intro hnone
    have hcode : (str2num src).1 ≠ 0 := fun hzero => hnone (readsAs_of_str2num (by omega) hzero)
    exact ⟨hcode, str2num_refused hcode⟩

/-- Ten nines, and a text with a sign. -/
theorem str2num_reads_nines :
    str2num (List.replicate 10 '9') = (0, BitVec.ofNat 32 9999999999) ∧ (str2num ['-', '1']).1 ≠ 0 := by
  have hnines : ReadsAs (List.replicate 10 '9') 9999999999 := .decimal (by decide) (by decide)
  have hsign : ¬ ∃ n, ReadsAs ['-', '1'] n := by
    rintro ⟨n, hn⟩
    cases hn with
    | decimal _ h => exact absurd (h '-' (by decide)) (by decide)
  exact ⟨(str2num_reads _ (by decide)).1 _ hnines, ((str2num_reads _ (by decide)).2 hsign).1⟩

/-! ## Lines -/

/-- `get_name` and `get_pvalue` of one value in turn, `n` times, each from where the one before stopped. -/
def scanLines : Nat → List Char → Option (List (List Char × BitVec 32) × List Char)
  | 0, fpoint => some ([], fpoint)
  | n + 1, fpoint => do
    let (fpname, fpoint) ← getName fpoint
    let (value, fpoint) ← getWord fpoint
    let (rows, fpoint) ← scanLines n fpoint
    some ((fpname, value) :: rows, fpoint)

/-- A line `name=digits` that the scanners can take. -/
structure ValueLine where
  name : List Char
  digits : List Char
  name_ne_nil : name ≠ []
  name_length : name.length ≤ 31
  plain : ∀ c ∈ name, isSeparator c = false
  digits_ne_nil : digits ≠ []
  digits_length : digits.length ≤ 47
  decimal : ∀ c ∈ digits, c.isDigit

def ValueLine.text (l : ValueLine) : List Char := line l.name l.digits

/-- What a line is to deliver. -/
def ValueLine.row (l : ValueLine) : List Char × BitVec 32 := (l.name, BitVec.ofNat 32 (Nat.ofDigitChars 10 l.digits 0))

/-- The step over one line: its name and its value are taken, and the scanners stand before its end. -/
theorem scanLines_step (l : ValueLine) (h : Ahead (l.text ++ rest) fpoint) (n : Nat) :
    scanLines (n + 1) fpoint = (scanLines n ('\n' :: rest)).map fun out => (l.row :: out.1, out.2) := by
  have htext : l.text ++ rest = l.name ++ '=' :: (l.digits ++ '\n' :: rest) := by simp [ValueLine.text, line]
  rw [htext] at h
  have hname := h.getName_of_plain l.name_ne_nil (Nat.lt_succ_of_le l.name_length) l.plain
  have hvalue := getWord_value l.decimal l.digits_ne_nil (Nat.lt_succ_of_le l.digits_length) rest
  rw [List.cons_append] at hvalue
  rw [scanLines, hname]
  simp only [Option.bind_eq_bind, Option.bind_some, hvalue]
  cases scanLines n ('\n' :: rest) <;> rfl

/-- Lines are delivered from wherever the first of them is ahead. -/
theorem scanLines_ahead (lines : List ValueLine) (h : Ahead (lines.flatMap ValueLine.text ++ rest) fpoint) :
    ∃ fpoint', scanLines lines.length fpoint = some (lines.map ValueLine.row, fpoint') := by
  induction lines generalizing fpoint with
  | nil => exact ⟨fpoint, rfl⟩
  | cons l lines ih =>
    rw [List.flatMap_cons, List.append_assoc] at h
    obtain ⟨fpoint', hrest⟩ := ih (ahead_newline _)
    refine ⟨fpoint', ?_⟩
    rw [List.length_cons, scanLines_step l h, hrest]
    rfl

/-- Behind a first line, as many pairs of calls as there are lines deliver their names and values in order, whatever follows. -/
theorem lines_delivered (first : List Char) (hfirst : ∀ c ∈ first, isLineEnd c = false) (lines : List ValueLine)
    (rest : List Char) :
    ∃ fpoint, scanLines lines.length (first ++ '\n' :: (lines.flatMap ValueLine.text ++ rest)) =
      some (lines.map ValueLine.row, fpoint) :=
  scanLines_ahead lines ⟨first, hfirst, rfl⟩

/-- A line with a value that does not fit 32 bits. -/
def wideLine : ValueLine :=
  ⟨['n'], List.replicate 10 '9', by decide, by decide, by decide, by decide, by decide, by decide⟩

theorem lines_delivered_wide :
    ∃ fpoint, scanLines 2 (['T', '=', '1'] ++ '\n' :: ([wideLine, wideLine].flatMap ValueLine.text ++ ['?'])) =
      some ([(['n'], 1410065407), (['n'], 1410065407)], fpoint) :=
  lines_delivered ['T', '=', '1'] (by decide) [wideLine, wideLine] ['?']

/-! ## Pairs of digits -/

/-- The byte of two digits. -/
def pairValue (a b : Char) : Byte := BitVec.ofNat 8 (16 * digitValue a + digitValue b)

/-- No access leaves its array, just `cnt` bytes are stored, and each of them is that of its pair of digits. -/
def PairsStored (cnt : Nat) (strtemp : List Char) : Prop :=
  ∃ values rest, getPvalue cnt strtemp = some (values, rest) ∧ values.length = cnt ∧
    ∀ i < cnt, ∃ a b, (digitRun strtemp)[2 * i]? = some a ∧ (digitRun strtemp)[2 * i + 1]? = some b ∧
      values[i]? = some (pairValue a b)

theorem str2nnum_pair {a b : Char} (ha : IsHex a) (hb : IsHex b) : str2nnum [a, b, '\x00'] = some (0, pairValue a b) := by
  obtain ⟨hva, hda⟩ := hexDigit_digitValue ha
  obtain ⟨hvb, hdb⟩ := hexDigit_digitValue hb
  have hbyte := str2nnum_hexByte (pairValue a b)
  have hvalue : (pairValue a b).toNat = 16 * digitValue a + digitValue b := by
    rw [pairValue, BitVec.toNat_ofNat]
    omega
  have htwo : hexByte (pairValue a b) = [a, b] := by
    have hhigh : (16 * digitValue a + digitValue b) / 16 % 16 = digitValue a := by omega
    have hlow : (16 * digitValue a + digitValue b) % 16 = digitValue b := by omega
    rw [hexByte, hvalue, hexPad, hexPad, hexPad, hhigh, hlow, hda, hdb]
    rfl
  rw [htwo] at hbyte
  exact hbyte

/-- The pairs are taken in their order as long as there are digits. -/
theorem pairBytes_digits {digits : List Char} (hdigits : ∀ c ∈ digits, IsHex c) (hlen : 2 * cnt ≤ digits.length)
    (rest : List Char) :
    ∃ values, pairBytes cnt (digits ++ rest) = some values ∧
      ∀ i < cnt, ∃ a b, digits[2 * i]? = some a ∧ digits[2 * i + 1]? = some b ∧ values[i]? = some (pairValue a b) := by
  induction cnt generalizing digits with
  | zero => exact ⟨[], rfl, fun i hi => absurd hi (Nat.not_lt_zero i)⟩
  | succ cnt ih =>
    rcases digits with - | ⟨a, - | ⟨b, digits⟩⟩
    · simp at hlen
    · rw [List.length_singleton] at hlen
      omega
    · simp only [List.forall_mem_cons] at hdigits
      simp only [List.length_cons] at hlen
      obtain ⟨values, hvalues, hpairs⟩ := ih hdigits.2.2 (by omega)
      refine ⟨pairValue a b :: values, ?_, ?_⟩
      · rw [List.cons_append, List.cons_append, pairBytes, str2nnum_pair hdigits.1 hdigits.2.1]
        simp [hvalues]
      · intro i hi
        cases i with
        | zero => exact ⟨a, b, rfl, rfl, rfl⟩
        | succ i => exact hpairs i (by omega)

/-- One value is stored as a word, pairs that are not there are no pairs, and a run of 48 digits has run over `valueArry`. -/
theorem PairsStored.bounds {strtemp : List Char} (h : PairsStored cnt strtemp) :
    cnt ≠ 1 ∧ 2 * cnt ≤ (digitRun strtemp).length ∧ (digitRun strtemp).length < 48 := by
  obtain ⟨values, rest, hget, hcount, hpairs⟩ := h
  have hone : cnt ≠ 1 := by
    rintro rfl
    rw [getPvalue, if_pos rfl] at hget
    obtain ⟨out, -, hout⟩ := Option.bind_eq_some_iff.mp hget
    rw [← (Prod.mk.inj (Option.some.inj hout)).1] at hcount
    exact absurd hcount (by simp [wordBytes])
  refine ⟨hone, ?_, ?_⟩
  · cases cnt with
    | zero => omega
    | succ cnt =>
      obtain ⟨_, b, -, hb, -⟩ := hpairs cnt (Nat.lt_succ_self cnt)
      have hin := (List.getElem?_eq_some_iff.mp hb).1
      omega
  · by_contra hlong
    obtain ⟨rest', harry⟩ := getValueArry_eq strtemp
    rw [getPvalue, if_neg hone, getBytes, harry, if_neg hlong] at hget
    cases hget

/-- The pairs are stored exactly when more than one value is asked for, the first run of digits has that many pairs, and it leaves
room for its terminator. -/
theorem pairs_stored_iff (cnt : Nat) (strtemp : List Char) :
    PairsStored cnt strtemp ↔ cnt ≠ 1 ∧ 2 * cnt ≤ (digitRun strtemp).length ∧ (digitRun strtemp).length < 48 := by
  refine ⟨PairsStored.bounds, ?_⟩
  rintro ⟨hone, hdigits, hroom⟩
  obtain ⟨rest, harry⟩ := getValueArry_eq strtemp
  obtain ⟨values, hvalues, hpairs⟩ := pairBytes_digits (fun c hc => isHex_of_mem_digitRun hc) hdigits
    (List.replicate (48 - (digitRun strtemp).length) '\x00')
  refine ⟨values, rest, ?_, length_of_pairBytes hvalues, hpairs⟩
  rw [getPvalue, if_neg hone, getBytes, harry, if_pos hroom]
  simp only [Option.bind_eq_bind, Option.bind_some, List.rightpad, hvalues]

/-- A user's id of 65 bytes is read from behind both arrays; a request's number of more than 23 bytes is written behind the first; of
a time with two digits five bytes are made up; and one value is stored as four bytes. -/
theorem user_id_outside :
    getPvalue 65 ('=' :: List.replicate 130 '4' ++ ['\n']) = none ∧ ¬ PairsStored 65 ('=' :: List.replicate 130 '4' ++ ['\n']) ∧
      getPvalue 17 ('=' :: List.replicate 48 'A' ++ ['\n']) = none ∧ ¬ PairsStored 17 ('=' :: List.replicate 48 'A' ++ ['\n']) ∧
      getPvalue 6 ['=', '2', '0', '\n'] = some ([0x20, 0xc9, 0xc9, 0xc9, 0xc9, 0xc9], ['\n']) ∧
      ¬ PairsStored 6 ['=', '2', '0', '\n'] ∧
      getPvalue 1 ['=', '2', '0', '\n'] = some ([20, 0, 0, 0], ['\n']) ∧ ¬ PairsStored 1 ['=', '2', '0', '\n'] := by
  refine ⟨by decide, ?_, by decide, ?_, by decide, ?_, by decide, ?_⟩
  · intro h
    obtain ⟨-, hdigits, hroom⟩ := h.bounds
    omega
  · exact fun h => absurd h.bounds (by decide)
  · exact fun h => absurd h.bounds (by decide)
  · exact fun h => h.bounds.1 rfl

end EnergyRouter
