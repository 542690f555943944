import EnergyRouter.MeterFiles
import EnergyRouter.Lemmas.Scan

/-!
# The text of a day

A day is found in the file of its month by the eight characters of its key, which can stand in two places only: in the line of a
key, and in a month's value. From the line of its key on a day is read back.
-/

namespace EnergyRouter

open Numeral CString

variable {ymd : BitVec 32} {c : Char} {a name : List Char} {period : String} {w : Nat} {p : MeterPower}
    {row : List Char × List Char}

section Keys

theorem isHex_of_mem_dayKey (h : c ∈ dayKey ymd) : IsHex c := isHex_of_mem_hexPad h

@[simp] theorem length_dayKey (ymd : BitVec 32) : (dayKey ymd).length = 8 := length_hexPad 8 ymd.toNat

theorem dayKey_ne_nil (ymd : BitVec 32) : dayKey ymd ≠ [] := List.ne_nil_of_length_pos (by simp)

theorem unbroken_dayKey (ymd : BitVec 32) : Unbroken (dayKey ymd) := unbroken_of_isHex fun _ h => isHex_of_mem_dayKey h

theorem not_mem_dayKey (hc : ¬IsHex c) (ymd : BitVec 32) : c ∉ dayKey ymd := fun h => hc (isHex_of_mem_dayKey h)

theorem dayKey_inj {ymd' : BitVec 32} (h : dayKey ymd = dayKey ymd') : ymd = ymd' :=
  BitVec.eq_of_toNat_eq (hexPad_inj (w := 8) ymd.isLt ymd'.isLt h)

theorem not_infix_of_length_lt (h : a.length < 8) : ¬dayKey ymd <:+: a := by
  intro hin
  have hle := hin.length_le
  rw [length_dayKey] at hle
  omega

theorem eq_of_infix_of_length (hlen : a.length = 8) (h : dayKey ymd <:+: a) : a = dayKey ymd :=
  (h.eq_of_length (by rw [length_dayKey, hlen])).symm

theorem strstr_pass_key (hc : ¬IsHex c) (hterm : c ≠ '\x00') (ha : Unbroken a) (hnot : ¬dayKey ymd <:+: a) (memory : List Char)
    (i : Nat) :
    strstr (dayKey ymd) (a ++ c :: memory) i = strstr (dayKey ymd) memory (i + a.length + 1) :=
  strstr_pass (not_mem_dayKey hc ymd) (dayKey_ne_nil ymd) hterm ha hnot i

/-- The line of the time has no run of digits longer than two. -/
theorem strstr_timeLine (ymd : BitVec 32) (clock : SystemTime) (memory : List Char) (i : Nat) :
    strstr (dayKey ymd) (timeLine clock ++ memory) i = strstr (dayKey ymd) memory (i + 23) := by
  have htitle : ascii "Time=" = ascii "Time" ++ ['='] := by simp [ascii]
  have hshort : Unbroken (ascii "Time") ∧ (ascii "Time").length = 4 := by
    simp only [ascii]
    decide
  have hbyte (b : Byte) : (hexByte b).length = 2 := length_hexPad 2 b.toNat
  have hpass (b : Byte) {c : Char} (hc : ¬IsHex c) (hterm : c ≠ '\x00') (memory : List Char) (i : Nat) :
      strstr (dayKey ymd) (hexByte b ++ c :: memory) i = strstr (dayKey ymd) memory (i + 3) := by
    rw [strstr_pass_key hc hterm (unbroken_hexByte b) (not_infix_of_length_lt (by rw [hbyte]; decide)), hbyte]
  rw [timeLine, htitle]
  simp only [List.append_assoc, List.cons_append, List.nil_append]
  rw [strstr_pass_key (by decide) (by decide) hshort.1 (not_infix_of_length_lt (by omega)), hpass _ (by decide) (by decide),
    hpass _ (by decide) (by decide), hpass _ (by decide) (by decide), hpass _ (by decide) (by decide),
    hpass _ (by decide) (by decide), hpass _ (by decide) (by decide), hshort.2]

end Keys

section Rows

/-- The five values of a day or a month. -/
def MeterPower.values (p : MeterPower) : List (BitVec 32) := [p.powerT, p.powerJ, p.powerF, p.powerP, p.powerG]

/-- The names of the five values. -/
def powerNames (period : String) : List (List Char) :=
  [ascii "ulPowerT" ++ ascii period, ascii "ulPowerJ" ++ ascii period, ascii "ulPowerF" ++ ascii period,
    ascii "ulPowerP" ++ ascii period, ascii "ulPowerG" ++ ascii period]

/-- The five lines. -/
def powerRows (period : String) (w : Nat) (p : MeterPower) : List (List Char × List Char) :=
  (powerNames period).zip (p.values.map fun v => decimalPad w v.toNat)

theorem powerLines_eq (period : String) (w : Nat) (p : MeterPower) :
    powerLines period w p = (powerRows period w p).flatMap fun row => line row.1 row.2 := by
  simp [powerLines, powerRows, powerNames, MeterPower.values]

/-- The names can be scanned, and the only letter in them that could be a digit stands apart. -/
structure IsPowerName (name : List Char) : Prop where
  isName : IsName name
  length_eq : name.length = 11
  cut : name.take 6 ++ 'r' :: name.drop 7 = name

instance (name : List Char) : Decidable (IsPowerName name) :=
  decidable_of_iff (IsName name ∧ name.length = 11 ∧ name.take 6 ++ 'r' :: name.drop 7 = name)
    ⟨fun ⟨h₁, h₂, h₃⟩ => ⟨h₁, h₂, h₃⟩, fun ⟨h₁, h₂, h₃⟩ => ⟨h₁, h₂, h₃⟩⟩

theorem isPowerName_day : ∀ name ∈ powerNames "day", IsPowerName name := by decide +kernel

theorem isPowerName_mon : ∀ name ∈ powerNames "mon", IsPowerName name := by decide +kernel

theorem IsPowerName.keyless (h : IsPowerName name) (ymd : BitVec 32) : ¬dayKey ymd <:+: name := by
  intro hin
  have hlen := h.length_eq
  rw [← h.cut] at hin
  rcases infix_of_infix_append (not_mem_dayKey (by decide) ymd) (dayKey_ne_nil ymd) hin with hleft | hright
  · exact not_infix_of_length_lt (by rw [List.length_take]; omega) hleft
  · exact not_infix_of_length_lt (by rw [List.length_drop]; omega) hright

theorem strstr_line {value : List Char} (hname : IsPowerName name) (hvalue : ∀ c ∈ value, IsHex c) (hnot : ¬dayKey ymd <:+: value)
    (memory : List Char) (i : Nat) :
    strstr (dayKey ymd) (line name value ++ memory) i = strstr (dayKey ymd) memory (i + (line name value).length) := by
  rw [length_line, line]
  simp only [List.append_assoc, List.cons_append, List.nil_append]
  rw [strstr_pass_key (by decide) (by decide) hname.isName.unbroken (hname.keyless ymd),
    strstr_pass_key (by decide) (by decide) (unbroken_of_isHex hvalue) hnot]
  congr 1
  omega

theorem strstr_rows {rows : List (List Char × List Char)} (hnames : ∀ row ∈ rows, IsPowerName row.1)
    (hvalues : ∀ row ∈ rows, ∀ c ∈ row.2, IsHex c) (hnot : ∀ row ∈ rows, ¬dayKey ymd <:+: row.2) (memory : List Char) (i : Nat) :
    strstr (dayKey ymd) ((rows.flatMap fun row => line row.1 row.2) ++ memory) i =
      strstr (dayKey ymd) memory (i + (rows.flatMap fun row => line row.1 row.2).length) := by
  induction rows generalizing i with
  | nil => rfl
  | cons row rows ih =>
    rw [List.forall_mem_cons] at hnames hvalues hnot
    rw [List.flatMap_cons, List.append_assoc, strstr_line hnames.1 hvalues.1 hnot.1, ih hnames.2 hvalues.2 hnot.2,
      List.length_append, Nat.add_assoc]

theorem mem_powerRows (h : row ∈ powerRows period w p) :
    row.1 ∈ powerNames period ∧ ∃ v ∈ p.values, row.2 = decimalPad w v.toNat := by
  obtain ⟨hname, hvalue⟩ := List.of_mem_zip h
  obtain ⟨v, hv, hrow⟩ := List.mem_map.mp hvalue
  exact ⟨hname, v, hv, hrow.symm⟩

theorem isHex_of_mem_powerRows :
    ∀ row ∈ powerRows period w p, ∀ c ∈ row.2, IsHex c := by
  intro row hrow c hc
  obtain ⟨-, v, -, hvalue⟩ := mem_powerRows hrow
  rw [hvalue] at hc
  exact .inl (isDigit_of_mem_decimalPad hc)

theorem strstr_rows_found {pre post : List (List Char × List Char)} (hnames : ∀ row ∈ pre, IsPowerName row.1)
    (hname : IsPowerName name) (hvalues : ∀ row ∈ pre, ∀ c ∈ row.2, IsHex c) (hnot : ∀ row ∈ pre, ¬dayKey ymd <:+: row.2)
    (memory : List Char) (i : Nat) :
    strstr (dayKey ymd) (((pre ++ (name, dayKey ymd) :: post).flatMap fun row => line row.1 row.2) ++ memory) i =
      some (some (i + ((pre.flatMap fun row => line row.1 row.2) ++ name ++ ['=']).length)) := by
  rw [List.flatMap_append, List.flatMap_cons, List.append_assoc, strstr_rows hnames hvalues hnot, line]
  simp only [List.append_assoc, List.cons_append, List.nil_append]
  rw [strstr_pass_key (by decide) (by decide) hname.isName.unbroken (hname.keyless ymd), strstr_here (dayKey_ne_nil ymd)]
  simp only [List.length_append, List.length_singleton]
  congr 2
  omega

end Rows

section Records

/-- A day as it was written last. -/
structure DayRecord where
  clock : SystemTime
  ymd : BitVec 32
  his : MeterHisData
  deriving DecidableEq, Repr

/-- The text of the day in the file of its month. -/
def DayRecord.text (r : DayRecord) : List Char := powerText r.clock r.ymd r.his

/-- The values have no more digits than the lines have room for. -/
structure DayRecord.Fits (r : DayRecord) : Prop where
  day : ∀ v ∈ r.his.meterDay.values, v.toNat ≤ 999999
  month : ∀ v ∈ r.his.meterMonth.values, v.toNat ≤ 99999999

instance (r : DayRecord) : Decidable r.Fits :=
  decidable_of_iff ((∀ v ∈ r.his.meterDay.values, v.toNat ≤ 999999) ∧ ∀ v ∈ r.his.meterMonth.values, v.toNat ≤ 99999999)
    ⟨fun ⟨h₁, h₂⟩ => ⟨h₁, h₂⟩, fun ⟨h₁, h₂⟩ => ⟨h₁, h₂⟩⟩

/-- A month's value of the day is printed as the key of another day. -/
def DayRecord.Shows (r : DayRecord) (ymd : BitVec 32) : Prop := ∃ v ∈ r.his.meterMonth.values, decimalPad 8 v.toNat = dayKey ymd
deriving Decidable

/-- The lines behind the key. -/
def DayRecord.lines (r : DayRecord) : List Char :=
  (powerRows "day" 6 r.his.meterDay ++ powerRows "mon" 8 r.his.meterMonth).flatMap fun row => line row.1 row.2

theorem DayRecord.text_eq (r : DayRecord) : r.text = timeLine r.clock ++ (dayKey r.ymd ++ '\n' :: r.lines) := by
  simp [DayRecord.text, powerText, DayRecord.lines, powerLines_eq]

theorem isPowerName_of_mem_rows {r : DayRecord} :
    ∀ row ∈ powerRows "day" 6 r.his.meterDay ++ powerRows "mon" 8 r.his.meterMonth, IsPowerName row.1 := by
  intro row hrow
  rcases List.mem_append.mp hrow with hday | hmonth
  · exact isPowerName_day _ (mem_powerRows hday).1
  · exact isPowerName_mon _ (mem_powerRows hmonth).1

theorem length_powerLines (hnames : ∀ name ∈ powerNames period, IsPowerName name) (hw : 0 < w)
    (hp : ∀ v ∈ p.values, v.toNat < 10 ^ w) :
    ((powerRows period w p).flatMap fun row => line row.1 row.2).length = 5 * (w + 13) := by
  have hrow : ∀ row ∈ powerRows period w p, (line row.1 row.2).length = w + 13 := by
    intro row hrow
    obtain ⟨hname, v, hv, hvalue⟩ := mem_powerRows hrow
    rw [length_line, (hnames _ hname).length_eq, hvalue, length_decimalPad hw (hp v hv)]
    omega
  rw [List.length_flatMap, List.map_congr_left hrow]
  simp [powerRows, powerNames, MeterPower.values]
  omega

theorem DayRecord.Fits.length {r : DayRecord} (h : r.Fits) : r.text.length = 232 := by
  have hday := length_powerLines isPowerName_day (w := 6) (by decide) (p := r.his.meterDay)
    fun v hv => Nat.lt_succ_of_le (h.day v hv)
  have hmonth := length_powerLines isPowerName_mon (w := 8) (by decide) (p := r.his.meterMonth)
    fun v hv => Nat.lt_succ_of_le (h.month v hv)
  rw [DayRecord.text_eq, List.length_append, length_timeLine, List.length_append, length_dayKey, List.length_cons,
    DayRecord.lines, List.flatMap_append, List.length_append, hday, hmonth]

theorem DayRecord.Fits.not_infix_day {r : DayRecord} (h : r.Fits) (ymd : BitVec 32) :
    ∀ row ∈ powerRows "day" 6 r.his.meterDay, ¬dayKey ymd <:+: row.2 := by
  intro row hrow
  obtain ⟨-, v, hv, hvalue⟩ := mem_powerRows hrow
  apply not_infix_of_length_lt
  rw [hvalue, length_decimalPad (by decide) (Nat.lt_succ_of_le (h.day v hv))]
  decide

/-- A month's value has a key in it only when it is the key. -/
theorem DayRecord.Fits.infix_month {r : DayRecord} (h : r.Fits) (hrow : row ∈ powerRows "mon" 8 r.his.meterMonth)
    (hin : dayKey ymd <:+: row.2) : row.2 = dayKey ymd := by
  obtain ⟨-, v, hv, hvalue⟩ := mem_powerRows hrow
  refine eq_of_infix_of_length ?_ hin
  rw [hvalue, length_decimalPad (by decide) (Nat.lt_succ_of_le (h.month v hv))]

theorem strstr_own (r : DayRecord) (memory : List Char) (i : Nat) :
    strstr (dayKey r.ymd) (r.text ++ memory) i = some (some (i + 23)) := by
  rw [DayRecord.text_eq, List.append_assoc, strstr_timeLine, List.append_assoc, strstr_here (dayKey_ne_nil r.ymd)]

/-- The search for another day goes to the lines of the values. -/
theorem strstr_lines {r : DayRecord} (hne : r.ymd ≠ ymd) (memory : List Char) (i : Nat) :
    strstr (dayKey ymd) (r.text ++ memory) i = strstr (dayKey ymd) (r.lines ++ memory) (i + 32) := by
  have hkey : ¬dayKey ymd <:+: dayKey r.ymd := fun hin => hne (dayKey_inj (eq_of_infix_of_length (length_dayKey r.ymd) hin))
  rw [DayRecord.text_eq, List.append_assoc, strstr_timeLine, List.append_assoc, List.cons_append,
    strstr_pass_key (by decide) (by decide) (unbroken_dayKey r.ymd) hkey, length_dayKey]

theorem strstr_other {r : DayRecord} (hfits : r.Fits) (hne : r.ymd ≠ ymd) (hshows : ¬r.Shows ymd) (memory : List Char) (i : Nat) :
    strstr (dayKey ymd) (r.text ++ memory) i = strstr (dayKey ymd) memory (i + r.text.length) := by
  have hnot : ∀ row ∈ powerRows "day" 6 r.his.meterDay ++ powerRows "mon" 8 r.his.meterMonth, ¬dayKey ymd <:+: row.2 := by
    intro row hrow
    rcases List.mem_append.mp hrow with hday | hmonth
    · exact hfits.not_infix_day ymd row hday
    · intro hin
      obtain ⟨-, v, hv, hvalue⟩ := mem_powerRows hmonth
      exact hshows ⟨v, hv, hvalue.symm.trans (hfits.infix_month hmonth hin)⟩
  have hhex : ∀ row ∈ powerRows "day" 6 r.his.meterDay ++ powerRows "mon" 8 r.his.meterMonth, ∀ c ∈ row.2, IsHex c := by
    intro row hrow
    rcases List.mem_append.mp hrow with hday | hmonth
    · exact isHex_of_mem_powerRows row hday
    · exact isHex_of_mem_powerRows row hmonth
  have hlen : r.text.length = 32 + r.lines.length := by
    rw [DayRecord.text_eq, List.length_append, length_timeLine, List.length_append, length_dayKey, List.length_cons]
    omega
  rw [strstr_lines hne, DayRecord.lines, strstr_rows isPowerName_of_mem_rows hhex hnot, ← DayRecord.lines, hlen, Nat.add_assoc]

/-- It stops at the first value of a month that is the key, and has lines of the same day behind it. -/
theorem strstr_shown {r : DayRecord} (hfits : r.Fits) (hne : r.ymd ≠ ymd) (hshows : r.Shows ymd) :
    ∃ (front : List Char) (rows : List (List Char × List Char)),
      r.text = front ++ dayKey ymd ++ '\n' :: (rows.flatMap fun row => line row.1 row.2) ∧
      (∀ row ∈ rows, row.1 ∈ powerNames "mon") ∧
      ∀ memory i, strstr (dayKey ymd) (r.text ++ memory) i = some (some (i + front.length)) := by
  -- The lines before the first value that is the key.
  obtain ⟨pre, row, post, hrows, hrow, hpre⟩ : ∃ pre row post, powerRows "mon" 8 r.his.meterMonth = pre ++ row :: post ∧
      row.2 = dayKey ymd ∧ ∀ x ∈ pre, x.2 ≠ dayKey ymd := by
    obtain ⟨v, hv, hkey⟩ := hshows
    have hmem : dayKey ymd ∈ (powerRows "mon" 8 r.his.meterMonth).map Prod.snd := by
      rw [← hkey, powerRows, List.map_snd_zip (by simp [powerNames, MeterPower.values])]
      exact List.mem_map_of_mem hv
    obtain ⟨row, hrow, hsnd⟩ := List.mem_map.mp hmem
    have hsome : ((powerRows "mon" 8 r.his.meterMonth).find? fun row => row.2 = dayKey ymd).isSome := by
      rw [List.find?_isSome]
      exact ⟨row, hrow, by simpa using hsnd⟩
    obtain ⟨first, hfirst⟩ := Option.isSome_iff_exists.mp hsome
    obtain ⟨hfound, pre, post, hsplit, hbefore⟩ := List.find?_eq_some_iff_append.mp hfirst
    exact ⟨pre, first, post, hsplit, by simpa using hfound, by simpa using hbefore⟩
  have hall : powerRows "day" 6 r.his.meterDay ++ powerRows "mon" 8 r.his.meterMonth =
      (powerRows "day" 6 r.his.meterDay ++ pre) ++ (row.1, dayKey ymd) :: post := by
    rw [hrows, ← hrow, List.append_assoc]
  have hnames : ∀ x ∈ (powerRows "day" 6 r.his.meterDay ++ pre) ++ (row.1, dayKey ymd) :: post, IsPowerName x.1 := by
    rw [← hall]
    exact isPowerName_of_mem_rows
  have hhex : ∀ x ∈ powerRows "day" 6 r.his.meterDay ++ pre, ∀ c ∈ x.2, IsHex c := by
    intro x hx
    rcases List.mem_append.mp hx with hday | hmonth
    · exact isHex_of_mem_powerRows x hday
    · exact isHex_of_mem_powerRows x (hrows ▸ List.mem_append_left _ hmonth)
  have hnot : ∀ x ∈ powerRows "day" 6 r.his.meterDay ++ pre, ¬dayKey ymd <:+: x.2 := by
    intro x hx
    rcases List.mem_append.mp hx with hday | hmonth
    · exact hfits.not_infix_day ymd x hday
    · exact fun hin => hpre x hmonth (hfits.infix_month (hrows ▸ List.mem_append_left _ hmonth) hin)
  have hlines : r.lines = ((powerRows "day" 6 r.his.meterDay ++ pre) ++ (row.1, dayKey ymd) :: post).flatMap
      fun row => line row.1 row.2 := by rw [DayRecord.lines, hall]
  refine ⟨timeLine r.clock ++ dayKey r.ymd ++ '\n' :: (((powerRows "day" 6 r.his.meterDay ++ pre).flatMap
    fun row => line row.1 row.2) ++ row.1 ++ ['=']), post, ?_, ?_, ?_⟩
  · rw [DayRecord.text_eq, hlines, List.flatMap_append, List.flatMap_cons, line]
    simp
  · intro x hx
    exact (mem_powerRows (hrows ▸ List.mem_append_right _ (List.mem_cons_of_mem _ hx))).1
  · intro memory i
    rw [strstr_lines hne, hlines, strstr_rows_found (fun x hx => hnames x (List.mem_append_left _ hx))
      (hnames _ (List.mem_append_right _ List.mem_cons_self)) hhex hnot]
    simp only [List.length_append, List.length_cons, length_timeLine, length_dayKey]
    congr 2
    omega

end Records

section Reading

/-- The lines of the values with what reading them does. -/
def powerEntries (period : String) (w : Nat) (put : (MeterPower → MeterPower) → MeterHisData → MeterHisData) (p : MeterPower) :
    List (Entry MeterHisData) :=
  [wordEntry (ascii "ulPowerT" ++ ascii period) w p.powerT fun v => put fun p => { p with powerT := v },
    wordEntry (ascii "ulPowerJ" ++ ascii period) w p.powerJ fun v => put fun p => { p with powerJ := v },
    wordEntry (ascii "ulPowerF" ++ ascii period) w p.powerF fun v => put fun p => { p with powerF := v },
    wordEntry (ascii "ulPowerP" ++ ascii period) w p.powerP fun v => put fun p => { p with powerP := v },
    wordEntry (ascii "ulPowerG" ++ ascii period) w p.powerG fun v => put fun p => { p with powerG := v }]

def hisDataEntries (his : MeterHisData) : List (Entry MeterHisData) :=
  powerEntries "day" 6 (fun f his => { his with meterDay := f his.meterDay }) his.meterDay ++
    powerEntries "mon" 8 (fun f his => { his with meterMonth := f his.meterMonth }) his.meterMonth

theorem powerEntries_sound (hnames : ∀ name ∈ powerNames period, IsPowerName name) (hw : w ≤ 10)
    (put : (MeterPower → MeterPower) → MeterHisData → MeterHisData) (p : MeterPower) :
    ∀ e ∈ powerEntries period w put p, e.Sound := by
  simp only [powerNames, List.forall_mem_cons] at hnames
  obtain ⟨hT, hJ, hF, hP, hG, -⟩ := hnames
  simp only [powerEntries, List.forall_mem_cons]
  exact ⟨wordEntry_sound hT.isName hw _ _, wordEntry_sound hJ.isName hw _ _, wordEntry_sound hF.isName hw _ _,
    wordEntry_sound hP.isName hw _ _, wordEntry_sound hG.isName hw _ _, by simp⟩

theorem hisDataEntries_sound (his : MeterHisData) : ∀ e ∈ hisDataEntries his, e.Sound := by
  intro e he
  rcases List.mem_append.mp he with hday | hmonth
  · exact powerEntries_sound isPowerName_day (by decide) _ _ e hday
  · exact powerEntries_sound isPowerName_mon (by decide) _ _ e hmonth

theorem DayRecord.lines_eq (r : DayRecord) : r.lines = (hisDataEntries r.his).flatMap Entry.line := by
  rw [DayRecord.lines, List.flatMap_append, ← powerLines_eq, ← powerLines_eq]
  simp [powerLines, hisDataEntries, powerEntries, Entry.line, wordEntry, Field.name]

theorem foldl_hisDataEntries (his dest : MeterHisData) : (hisDataEntries his).foldl (fun s e => e.effect s) dest = his := by
  obtain ⟨⟨_, _, _, _, _⟩, ⟨_, _, _, _, _⟩⟩ := his
  rfl

theorem readFields_record (r : DayRecord) (rest : List Char) (dest : MeterHisData) :
    ∃ fpoint, readFields hisDataFields (dayKey r.ymd ++ '\n' :: r.lines ++ rest) dest = some (fpoint, r.his) := by
  have hahead : Ahead ((hisDataEntries r.his).flatMap Entry.line ++ rest) (dayKey r.ymd ++ '\n' :: r.lines ++ rest) :=
    ⟨dayKey r.ymd, fun c hc => isLineEnd_of_isHex (isHex_of_mem_dayKey hc), by rw [r.lines_eq]; simp⟩
  obtain ⟨fpoint, hread, -⟩ := readFields_entries (hisDataEntries_sound r.his) hahead dest
  rw [foldl_hisDataEntries] at hread
  exact ⟨fpoint, hread⟩

end Reading

end EnergyRouter
