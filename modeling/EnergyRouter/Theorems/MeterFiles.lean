import EnergyRouter.MeterFiles
import EnergyRouter.Lemmas.Scan
import EnergyRouter.Lib.Runs

/-!
# What the meter's files return

The half-hours and the price model come back from their files, whatever an earlier and longer file left behind the text. For the
price model this needs the order of the names: what a store damages behind its field is put right by the stores that follow it.
-/

namespace EnergyRouter

open Numeral CString Memory

variable {k : Nat} {file file' : File} {m m' : PriceModle}

section HalfPower

/-- The line of a half-hour. -/
def halfEntry (half : Vector (BitVec 32) 48) (i : Nat) : Entry (Vector (BitVec 32) 48) :=
  wordEntry (halfName i) 0 (half.getD i 0) fun v half => half.setIfInBounds i v

theorem isName_halfName : ∀ i < 48, IsName (halfName i) := by decide +kernel

theorem halfEntry_sound (half : Vector (BitVec 32) 48) : ∀ e ∈ (List.range 48).map (halfEntry half), e.Sound := by
  intro e he
  obtain ⟨i, hi, rfl⟩ := List.mem_map.mp he
  exact wordEntry_sound (isName_halfName i (List.mem_range.mp hi)) (by decide) _ _

theorem halfPowerText_eq (clock : SystemTime) (half : Vector (BitVec 32) 48) :
    halfPowerText clock half = timeLine clock ++ ((List.range 48).map (halfEntry half)).flatMap Entry.line := by
  rw [halfPowerText, List.flatMap_map]
  rfl

theorem halfPowerFields_eq (half : Vector (BitVec 32) 48) :
    halfPowerFields = ((List.range 48).map (halfEntry half)).map Entry.field := by
  rw [halfPowerFields, List.map_map]
  rfl

theorem length_halfPowerText (clock : SystemTime) (half : Vector (BitVec 32) 48) :
    (halfPowerText clock half).length < maxMallocNum := by
  have hlines : ((List.range 48).flatMap fun i => line (halfName i) (decimalPad 0 (half.getD i 0).toNat)).length ≤
      ((List.range 48).map fun i => (halfName i).length + 12).sum := by
    apply length_flatMap_le
    intro i _
    have hvalue := length_decimalPad_word (half.getD i 0)
    rw [length_line]
    omega
  have hsum : ((List.range 48).map fun i => (halfName i).length + 12).sum = 1334 := by decide +kernel
  rw [halfPowerText, List.length_append, length_timeLine, maxMallocNum]
  omega

theorem foldl_setIfInBounds (half dest : Vector (BitVec 32) 48) (hk : k ≤ 48) (j : Nat) :
    ((List.range k).foldl (fun dest i => dest.setIfInBounds i (half.getD i 0)) dest)[j]? = if j < k then half[j]? else dest[j]? := by
  induction k with
  | zero => simp
  | succ k ih =>
    have hcell : some (half.getD k 0) = half[k]? := by
      rw [Vector.getD, Array.getD_eq_getD_getElem?, Vector.getElem?_toArray, Vector.getElem?_eq_getElem (by omega), Option.getD_some]
    rw [List.range_succ, List.foldl_append, List.foldl_cons, List.foldl_nil, Vector.getElem?_setIfInBounds, ih (by omega)]
    split_ifs with heq hlt
    · rw [hcell, heq]
    all_goals first | rfl | omega

theorem foldl_halfEntry (half dest : Vector (BitVec 32) 48) :
    ((List.range 48).map (halfEntry half)).foldl (fun s e => e.effect s) dest = half := by
  rw [List.foldl_map]
  apply Vector.ext
  intro j hj
  have hcell := foldl_setIfInBounds half dest (Nat.le_refl 48) j
  rw [if_pos hj, Vector.getElem?_eq_getElem hj, Vector.getElem?_eq_getElem hj] at hcell
  exact Option.some.inj hcell

theorem meterHalfPowerWrite_read (hold : (file.getD []).length < maxMallocNum) (clock : SystemTime) (half : Vector (BitVec 32) 48) :
    ∃ content, meterHalfPowerWrite clock half file = some (0, some content) ∧ content.length < maxMallocNum ∧
      ∀ dest, meterHalfPowerRead dest (some content) = some (0, half) := by
  have hfit := length_halfPowerText clock half
  have hlines : Unbroken (((List.range 48).map (halfEntry half)).flatMap Entry.line) :=
    unbroken_flatMap fun e he => (halfEntry_sound half e he).unbroken_line
  rw [halfPowerText_eq] at hfit
  obtain ⟨content, buff, rest, hsave, hlen, hbuff, hahead⟩ := save_ahead hold clock hlines hfit
  refine ⟨content, ?_, hlen, ?_⟩
  · rw [meterHalfPowerWrite, halfPowerText_eq, hsave]
  · intro dest
    obtain ⟨fpoint, hread, -⟩ := readFields_entries (halfEntry_sound half) hahead dest
    rw [← halfPowerFields_eq, foldl_halfEntry] at hread
    rw [meterHalfPowerRead, hbuff]
    simp [hread]

/-- A write of the half-hours, as a step of the file. -/
def halfPowerStep (file : File) (w : SystemTime × Vector (BitVec 32) 48) : Option File :=
  (meterHalfPowerWrite w.1 w.2 file).map Prod.snd

theorem run_halfPowerStep (hold : (file.getD []).length < maxMallocNum) (earlier : List (SystemTime × Vector (BitVec 32) 48)) :
    ∃ file', Runs.run halfPowerStep file earlier = some file' ∧ (file'.getD []).length < maxMallocNum := by
  induction earlier generalizing file with
  | nil => exact ⟨file, rfl, hold⟩
  | cons w earlier ih =>
    obtain ⟨content, hwrite, hlen, -⟩ := meterHalfPowerWrite_read hold w.1 w.2
    obtain ⟨file', hrun, hlen'⟩ : ∃ file', Runs.run halfPowerStep (some content) earlier = some file' ∧ _ := ih hlen
    refine ⟨file', ?_, hlen'⟩
    rw [Runs.run, halfPowerStep, hwrite]
    exact hrun

/-- Whatever arrays were written to the file before, the one written last is read back: its 48 values, into any array. -/
theorem half_power_round_trip (earlier : List (SystemTime × Vector (BitVec 32) 48)) (clock : SystemTime)
    (half dest : Vector (BitVec 32) 48) :
    ∃ file file', Runs.run halfPowerStep none earlier = some file ∧ meterHalfPowerWrite clock half file = some (0, file') ∧
      meterHalfPowerRead dest file' = some (0, half) := by
  obtain ⟨file, hrun, hlen⟩ : ∃ file, Runs.run halfPowerStep none earlier = some file ∧ _ := run_halfPowerStep (by decide) earlier
  obtain ⟨content, hwrite, -, hread⟩ := meterHalfPowerWrite_read hlen clock half
  exact ⟨file, some content, hrun, hwrite, hread dest⟩

end HalfPower

section PriceModel

/-- A byte is printed as the word it is read as. -/
def byteEntry (name : List Char) (m : PriceModle) (off : Nat) : Entry PriceModle :=
  wordEntry name 0 ((byteAt m off).setWidth 32) (storeWord off)

/-- The lines before the tariff numbers. -/
def headEntries (m : PriceModle) : List (Entry PriceModle) :=
  [bytesEntry (ascii "uiJFmodID") m.uiJFmodID (storeBytes 0), bytesEntry (ascii "EffectiveTime") (timeBytes m 8) (storeBytes 8),
    bytesEntry (ascii "unEffectiveTime") (timeBytes m 15) (storeBytes 15), byteEntry (ascii "state") m 22,
    byteEntry (ascii "style") m 23]

/-- The lines before the prices. -/
def modeEntries (m : PriceModle) : List (Entry PriceModle) :=
  headEntries m ++ ((List.range 48).map fun i => byteEntry (timeNoName i) m (24 + i)) ++ [byteEntry (ascii "count") m 72]

/-- The lines of the prices. -/
def priceEntries (m : PriceModle) : List (Entry PriceModle) :=
  (List.range m.count.toNat).map fun i => wordEntry (priceNoName i) 0 (m.priceNo i) (storeWord (76 + 4 * i))

theorem byteEntry_line (name : List Char) (m : PriceModle) (off : Nat) :
    (byteEntry name m off).line = line name (decimalPad 0 (byteAt m off).toNat) := by
  have hwide : ((byteAt m off).setWidth 32).toNat = (byteAt m off).toNat :=
    BitVec.toNat_setWidth_of_le (by decide)
  rw [Entry.line, byteEntry, wordEntry, hwide]
  rfl

theorem gjfModeText_eq (clock : SystemTime) (m : PriceModle) :
    gjfModeText clock m = timeLine clock ++ ((modeEntries m).flatMap Entry.line ++ (priceEntries m).flatMap Entry.line) := by
  have htariffs : ((List.range 48).map fun i => byteEntry (timeNoName i) m (24 + i)).flatMap Entry.line =
      (List.range 48).flatMap fun i => line (timeNoName i) (decimalPad 0 (m.timeNo i).toNat) := by
    rw [List.flatMap_map]
    simp only [byteEntry_line]
    rfl
  have hprices : (priceEntries m).flatMap Entry.line =
      (List.range m.count.toNat).flatMap fun i => line (priceNoName i) (decimalPad 0 (m.priceNo i).toNat) := by
    rw [priceEntries, List.flatMap_map]
    rfl
  rw [modeEntries, List.flatMap_append, List.flatMap_append, htariffs, hprices]
  simp only [headEntries, List.flatMap_cons, List.flatMap_nil, byteEntry_line, List.append_assoc, List.append_nil]
  simp only [gjfModeText, List.append_assoc]
  rfl

theorem gjfModeFields_eq (m : PriceModle) : gjfModeFields = (modeEntries m).map Entry.field := by
  simp only [gjfModeFields, modeEntries, headEntries, bytesEntry, byteEntry, wordEntry, PriceModle.uiJFmodID, List.map_append,
    List.map_cons, List.map_nil, List.map_map, length_bytesAt, length_timeBytes]
  rfl

theorem priceFields_eq (hcount : m.count.toNat ≤ 48) :
    priceFields m.count.toNat = (priceEntries m).map Entry.field := by
  rw [priceFields, priceEntries, List.map_map]
  apply List.map_congr_left
  intro i hi
  have hi := List.mem_range.mp hi
  exact if_pos (by omega)

theorem modeEntries_sound (m : PriceModle) : ∀ e ∈ modeEntries m, e.Sound := by
  have hnames : IsName (ascii "uiJFmodID") ∧ IsName (ascii "EffectiveTime") ∧ IsName (ascii "unEffectiveTime") ∧
      IsName (ascii "state") ∧ IsName (ascii "style") ∧ IsName (ascii "count") := by
    simp only [ascii]
    decide
  have htariffs : ∀ i < 48, IsName (timeNoName i) := by decide +kernel
  obtain ⟨hid, heffective, huneffective, hstate, hstyle, hcount⟩ := hnames
  intro e he
  simp only [modeEntries, headEntries, List.mem_append, List.mem_cons, List.not_mem_nil, or_false, List.mem_map,
    List.mem_range] at he
  rcases he with ((rfl | rfl | rfl | rfl | rfl) | ⟨i, hi, rfl⟩) | rfl
  · exact bytesEntry_sound hid (List.ne_nil_of_length_pos (by simp [PriceModle.uiJFmodID])) (by simp [PriceModle.uiJFmodID]) _
  · exact bytesEntry_sound heffective (List.ne_nil_of_length_pos (by simp)) (by simp) _
  · exact bytesEntry_sound huneffective (List.ne_nil_of_length_pos (by simp)) (by simp) _
  · exact wordEntry_sound hstate (by decide) _ _
  · exact wordEntry_sound hstyle (by decide) _ _
  · exact wordEntry_sound (htariffs i hi) (by decide) _ _
  · exact wordEntry_sound hcount (by decide) _ _

theorem priceEntries_sound (hcount : m.count.toNat ≤ 48) : ∀ e ∈ priceEntries m, e.Sound := by
  have hnames : ∀ i < 48, IsName (priceNoName i) := by decide +kernel
  intro e he
  obtain ⟨i, hi, rfl⟩ := List.mem_map.mp he
  have hi := List.mem_range.mp hi
  exact wordEntry_sound (hnames i (by omega)) (by decide) _ _

theorem length_modeNames :
    (ascii "uiJFmodID").length = 9 ∧ (ascii "EffectiveTime").length = 13 ∧ (ascii "unEffectiveTime").length = 15 ∧
      (ascii "state").length = 5 ∧ (ascii "style").length = 5 ∧ (ascii "count").length = 5 := by simp [ascii]

/-- Tariff numbers of one digit and 48 prices leave room in the buffer. -/
theorem length_gjfModeText (clock : SystemTime) (htariff : ∀ i < 48, (m.timeNo i).toNat < 10) (hcount : m.count.toNat ≤ 48) :
    (gjfModeText clock m).length < maxMallocNum := by
  have htariffs : ((List.range 48).flatMap fun i => line (timeNoName i) (decimalPad 0 (m.timeNo i).toNat)).length ≤
      ((List.range 48).map fun i => (timeNoName i).length + 3).sum := by
    apply length_flatMap_le
    intro i hi
    have hvalue := length_decimalPad_le (w := 0) (k := 1) (by decide) (by decide) (htariff i (List.mem_range.mp hi))
    rw [length_line]
    omega
  have hprices : ((List.range m.count.toNat).flatMap fun i => line (priceNoName i) (decimalPad 0 (m.priceNo i).toNat)).length ≤
      ((List.range m.count.toNat).map fun i => (priceNoName i).length + 12).sum := by
    apply length_flatMap_le
    intro i _
    have hvalue := length_decimalPad_word (m.priceNo i)
    rw [length_line]
    omega
  have htariffSum : ((List.range 48).map fun i => (timeNoName i).length + 3).sum = 710 := by decide +kernel
  have hpriceSum : ∀ count ≤ 48, ((List.range count).map fun i => (priceNoName i).length + 12).sum ≤ 1190 := by decide +kernel
  have hpriceSum := hpriceSum m.count.toNat hcount
  have hnames := length_modeNames
  have hstate := length_decimalPad_byte m.state
  have hstyle := length_decimalPad_byte m.style
  have hdigits := length_decimalPad_byte m.count
  simp only [gjfModeText, List.length_append, length_timeLine, length_line, length_flatMap_hexByte, length_timeBytes,
    PriceModle.uiJFmodID, length_bytesAt, maxMallocNum]
  omega

/-- Behind the head of the file the record has the model's ID, state and style. -/
theorem headEntries_same (m dest : PriceModle) :
    SameOn (fun q => q < 8 ∨ (22 ≤ q ∧ q < 24)) m ((headEntries m).foldl (fun s e => e.effect s) dest) := by
  have hid : SameOn (fun q => q < 8) m (storeBytes 0 m.uiJFmodID dest) :=
    SameOn.storeBytes (p := fun _ => False) (by simp [SameOn]) (by decide) (by omega)
  have heffective : SameOn (fun q => q < 8) m (storeBytes 8 (timeBytes m 8) (storeBytes 0 m.uiJFmodID dest)) :=
    hid.storeBytes_of_disjoint (by omega)
  have huneffective : SameOn (fun q => q < 8) m
      (storeBytes 15 (timeBytes m 15) (storeBytes 8 (timeBytes m 8) (storeBytes 0 m.uiJFmodID dest))) :=
    heffective.storeBytes_of_disjoint (by omega)
  have hstate : SameOn (fun q => q < 8 ∨ q = 22) m (storeWord 22 ((byteAt m 22).setWidth 32)
      (storeBytes 15 (timeBytes m 15) (storeBytes 8 (timeBytes m 8) (storeBytes 0 m.uiJFmodID dest)))) :=
    huneffective.storeWord_byte (by decide) (by omega)
  exact hstate.storeWord_byte (by decide) (by omega)

/-- Each store of a tariff puts right what the one before damaged, and damages the next three. -/
theorem tariffEntries_same (h : SameOn (fun q => q < 8 ∨ (22 ≤ q ∧ q < 24)) m m') (hk : k ≤ 48) :
    SameOn (fun q => q < 8 ∨ (22 ≤ q ∧ q < 24 + k)) m
      (((List.range k).map fun i => byteEntry (timeNoName i) m (24 + i)).foldl (fun s e => e.effect s) m') := by
  induction k with
  | zero => exact h
  | succ k ih =>
    rw [List.range_succ, List.map_append, List.foldl_append]
    exact (ih (by omega)).storeWord_byte (by omega) (by omega)

theorem modeEntries_same (m dest : PriceModle) :
    SameOn (fun q => q < 8 ∨ (22 ≤ q ∧ q < 73)) m ((modeEntries m).foldl (fun s e => e.effect s) dest) := by
  rw [modeEntries, List.foldl_append, List.foldl_append]
  have htariffs := tariffEntries_same (headEntries_same m dest) (Nat.le_refl 48)
  exact htariffs.storeWord_byte (by decide) (by omega)

/-- The prices are words of their own. -/
theorem priceEntries_same (h : SameOn (fun q => q < 8 ∨ (22 ≤ q ∧ q < 73)) m m') (hk : k ≤ 48) :
    SameOn (fun q => q < 8 ∨ (22 ≤ q ∧ q < 73) ∨ (76 ≤ q ∧ q < 76 + 4 * k)) m
      (((List.range k).map fun i => wordEntry (priceNoName i) 0 (m.priceNo i) (storeWord (76 + 4 * i))).foldl
        (fun s e => e.effect s) m') := by
  induction k with
  | zero =>
    intro q hq
    exact h q (by omega)
  | succ k ih =>
    rw [List.range_succ, List.map_append, List.foldl_append]
    exact (ih (by omega)).storeWord_word (by omega) (by omega)

/-- A write of a price model, as a step of the file. -/
def gjfModeStep (file : File) (w : SystemTime × PriceModle) : Option File := (meterGJFModeWrite w.1 w.2 file).map Prod.snd

/-- No write leaves a file that does not fit the buffer. -/
theorem gjfModeStep_length {w : SystemTime × PriceModle} (hold : (file.getD []).length < maxMallocNum)
    (h : gjfModeStep file w = some file') : (file'.getD []).length < maxMallocNum := by
  obtain ⟨⟨code, file''⟩, hwrite, rfl⟩ := Option.map_eq_some_iff.mp h
  rw [meterGJFModeWrite, File.save] at hwrite
  split_ifs at hwrite with hcount hfit
  rw [← (Prod.mk.inj (Option.some.inj hwrite)).2]
  simp only [Option.getD_some, spliceAt, List.take_zero, List.nil_append, Nat.zero_add, List.length_append, List.length_drop]
  omega

theorem length_of_run_gjfModeStep {earlier : List (SystemTime × PriceModle)}
    (hearlier : Runs.run gjfModeStep none earlier = some file) : (file.getD []).length < maxMallocNum := by
  have hinv : ∀ (file : File) w file', (file.getD []).length < maxMallocNum → gjfModeStep file w = some file' →
      (file'.getD []).length < maxMallocNum := fun _ _ _ hold h => gjfModeStep_length hold h
  exact Runs.inv_of_run hinv (by decide) hearlier

/-- What `Meter_GJFMode_Storage` is to return: everything but the two times. -/
structure SameModel (m m' : PriceModle) : Prop where
  uiJFmodID : m'.uiJFmodID = m.uiJFmodID
  state : m'.state = m.state
  style : m'.style = m.style
  timeNo : ∀ i < 48, m'.timeNo i = m.timeNo i
  count : m'.count = m.count
  priceNo : ∀ i < m.count.toNat, m'.priceNo i = m.priceNo i

theorem sameModel_of_sameOn (h : SameOn (fun q => q < 8 ∨ (22 ≤ q ∧ q < 73) ∨ (76 ≤ q ∧ q < 76 + 4 * m.count.toNat)) m m') :
    SameModel m m' where
  uiJFmodID := by
    apply List.map_congr_left
    intro i hi
    have hi := List.mem_range.mp hi
    rw [Nat.zero_add]
    exact h i (by omega)
  state := h 22 (by omega)
  style := h 23 (by omega)
  timeNo := fun i hi => h (24 + i) (by omega)
  count := h 72 (by omega)
  priceNo := fun i hi => h.wordAt_eq (by omega)

/-- What was written is read entry by entry, into any record. -/
theorem meterGJFModeRead_written (hold : (file.getD []).length < maxMallocNum) {clock : SystemTime}
    (hwrite : meterGJFModeWrite clock m file = some (0, file')) (dest : PriceModle) :
    meterGJFModeRead dest file' = some (0, (priceEntries m).foldl (fun s e => e.effect s)
      ((modeEntries m).foldl (fun s e => e.effect s) dest)) := by
  obtain ⟨hcount, hsaved⟩ : m.count.toNat ≤ 48 ∧ file.save (gjfModeText clock m) = some (0, file') := by
    rw [meterGJFModeWrite] at hwrite
    split_ifs at hwrite with hcount
    exact ⟨hcount, hwrite⟩
  have hfit : (gjfModeText clock m).length < maxMallocNum := by
    rw [File.save] at hsaved
    split_ifs at hsaved with hfit
    exact hfit
  have hunbroken : Unbroken ((modeEntries m).flatMap Entry.line ++ (priceEntries m).flatMap Entry.line) :=
    unbroken_append.mpr ⟨unbroken_flatMap fun e he => (modeEntries_sound m e he).unbroken_line,
      unbroken_flatMap fun e he => (priceEntries_sound hcount e he).unbroken_line⟩
  rw [gjfModeText_eq] at hfit hsaved
  obtain ⟨content, buff, rest, hsave, -, hbuff, hahead⟩ := save_ahead hold clock hunbroken hfit
  have hfile : file' = some content := (Prod.mk.inj (Option.some.inj (hsaved.symm.trans hsave))).2
  rw [List.append_assoc] at hahead
  -- The head of the file is read first; the count it leaves says how many prices follow.
  obtain ⟨fpoint, hmode, hahead⟩ := readFields_entries (modeEntries_sound m) hahead dest
  have hread : PriceModle.count ((modeEntries m).foldl (fun s e => e.effect s) dest) = m.count :=
    modeEntries_same m dest 72 (by omega)
  obtain ⟨fpoint', hprices, -⟩ := readFields_entries (priceEntries_sound hcount) hahead
    ((modeEntries m).foldl (fun s e => e.effect s) dest)
  rw [← gjfModeFields_eq] at hmode
  rw [← priceFields_eq hcount] at hprices
  rw [hfile, meterGJFModeRead, hbuff]
  simp only [Option.bind_eq_bind, Option.bind_some, hmode, hread, hprices]

/-- A price model with tariff numbers of one digit is read back from a file it was written to. -/
theorem meterGJFModeWrite_read (hold : (file.getD []).length < maxMallocNum) (clock : SystemTime) (m dest : PriceModle)
    (htariff : ∀ i < 48, (m.timeNo i).toNat < 10) (hcount : m.count.toNat ≤ 48) :
    ∃ file' m', meterGJFModeWrite clock m file = some (0, file') ∧ meterGJFModeRead dest file' = some (0, m') ∧ SameModel m m' := by
  have hwrite : meterGJFModeWrite clock m file = some (0, some (spliceAt (file.getD []) 0 (gjfModeText clock m))) := by
    rw [meterGJFModeWrite, if_pos hcount, File.save, if_pos (length_gjfModeText clock htariff hcount)]
  exact ⟨_, _, hwrite, meterGJFModeRead_written hold hwrite dest,
    sameModel_of_sameOn (priceEntries_same (modeEntries_same m dest) hcount)⟩

/-- A price model with tariff numbers of one digit is read back, whatever models were written to the file before and whatever the
record held that it is read into. -/
theorem price_model_round_trip (earlier : List (SystemTime × PriceModle)) (file : File)
    (hearlier : Runs.run gjfModeStep none earlier = some file) (clock : SystemTime) (m dest : PriceModle)
    (htariff : ∀ i < 48, (m.timeNo i).toNat < 10) (hcount : m.count.toNat ≤ 48) :
    ∃ file' m', meterGJFModeWrite clock m file = some (0, file') ∧ meterGJFModeRead dest file' = some (0, m') ∧ SameModel m m' :=
  meterGJFModeWrite_read (length_of_run_gjfModeStep hearlier) clock m dest htariff hcount

/-- A model with one price, all of whose bytes are one, is read back into a cleared record. -/
theorem price_model_round_trip_ones :
    ∃ file' m', meterGJFModeWrite ⟨0, 0, 0, 1, 1, 1, 0x19⟩ (Vector.replicate 268 1) none = some (0, file') ∧
      meterGJFModeRead (Vector.replicate 268 0) file' = some (0, m') ∧ SameModel (Vector.replicate 268 1) m' :=
  price_model_round_trip [] none rfl ⟨0, 0, 0, 1, 1, 1, 0x19⟩ (Vector.replicate 268 1) (Vector.replicate 268 0)
    (by decide +kernel) (by decide +kernel)

end PriceModel

end EnergyRouter
