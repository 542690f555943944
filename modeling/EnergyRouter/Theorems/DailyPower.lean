import EnergyRouter.Lemmas.DailyPower
import EnergyRouter.Lib.Keyed
import EnergyRouter.Lib.Runs

/-!
# The power of the days of a month

The file of a month is a book: the texts of the days, each day once, in the order they were first written. As long as no value of a
month is the key of a day that is not in the book before it, the file is a map from the days to what was written last; a value that
is one makes the lookup stop in the middle of another day.
-/

namespace EnergyRouter

open Numeral CString

variable {known : List (BitVec 32)} {pre post : List DayRecord} {rows : List (List Char × List Char)}

section Books

/-- The days of a file. -/
def bookText (book : List DayRecord) : List Char := book.flatMap DayRecord.text

/-- No month's value is printed as the key of a day of its month, unless that day stands before it. -/
def Clear : List (BitVec 32) → List DayRecord → Prop
  | _, [] => True
  | known, r :: book =>
    (∀ ymd : BitVec 32, ymd >>> 8 = r.ymd >>> 8 → r.Shows ymd → ymd ∈ known ∨ ymd = r.ymd) ∧ Clear (r.ymd :: known) book

theorem Clear.of_append (h : Clear known (pre ++ post)) :
    Clear known pre := by
  induction pre generalizing known with
  | nil => trivial
  | cons r pre ih => exact ⟨h.1, ih h.2⟩

variable {month ymd : BitVec 32}

theorem Clear.not_shows {book : List DayRecord} (h : Clear known book) (hmonth : ∀ r ∈ book, r.ymd >>> 8 = month)
    (hymd : ymd >>> 8 = month) (hknown : ymd ∉ known) (hne : ∀ r ∈ book, r.ymd ≠ ymd) :
    ∀ r ∈ book, ¬r.Shows ymd := by
  induction book generalizing known with
  | nil => simp
  | cons r book ih =>
    rw [List.forall_mem_cons] at hmonth hne ⊢
    have hout : ymd ∉ r.ymd :: known := by
      rw [List.mem_cons, not_or]
      exact ⟨hne.1.symm, hknown⟩
    refine ⟨?_, ih h.2 hmonth.2 hout hne.2⟩
    intro hshows
    rcases h.1 ymd (hymd.trans hmonth.1.symm) hshows with hin | heq
    · exact hknown hin
    · exact hne.1 heq.symm

/-- A book that is not clear has a first record that shows a day not in the book up to there. -/
theorem exists_shows_of_not_clear {book : List DayRecord} (h : ¬Clear known book) (hmonth : ∀ r ∈ book, r.ymd >>> 8 = month) :
    ∃ (ymd : BitVec 32) (pre : List DayRecord) (r : DayRecord) (post : List DayRecord), book = pre ++ r :: post ∧
      ymd >>> 8 = month ∧ ymd ∉ known ∧ r.ymd ≠ ymd ∧ r.Shows ymd ∧ ∀ e ∈ pre, e.ymd ≠ ymd ∧ ¬e.Shows ymd := by
  induction book generalizing known with
  | nil => exact absurd trivial h
  | cons r book ih =>
    rw [List.forall_mem_cons] at hmonth
    by_cases hhead : ∀ ymd : BitVec 32, ymd >>> 8 = r.ymd >>> 8 → r.Shows ymd → ymd ∈ known ∨ ymd = r.ymd
    · obtain ⟨ymd, pre, r', post, rfl, hymd, hout, hne, hshows, hpre⟩ := ih (fun hclear => h ⟨hhead, hclear⟩) hmonth.2
      rw [List.mem_cons, not_or] at hout
      refine ⟨ymd, r :: pre, r', post, rfl, hymd, hout.2, hne, hshows, List.forall_mem_cons.mpr ⟨⟨Ne.symm hout.1, ?_⟩, hpre⟩⟩
      intro hfirst
      rcases hhead ymd (hymd.trans hmonth.1.symm) hfirst with hin | heq
      · exact hout.2 hin
      · exact hout.1 heq
    · push Not at hhead
      obtain ⟨ymd, hymd, hshows, hout, hne⟩ := hhead
      exact ⟨ymd, [], r, book, rfl, hymd.trans hmonth.1, hout, hne.symm, hshows, by simp⟩

theorem unbroken_text (r : DayRecord) : Unbroken r.text := by
  rw [DayRecord.text_eq, r.lines_eq, unbroken_append, unbroken_append, unbroken_cons]
  exact ⟨unbroken_timeLine r.clock, unbroken_dayKey r.ymd, by decide,
    unbroken_flatMap fun e he => (hisDataEntries_sound r.his e he).unbroken_line⟩

theorem unbroken_bookText (book : List DayRecord) : Unbroken (bookText book) := unbroken_flatMap fun r _ => unbroken_text r

theorem bookText_split (pre : List DayRecord) (r : DayRecord) (post : List DayRecord) :
    bookText (pre ++ r :: post) = bookText pre ++ (r.text ++ bookText post) := by
  rw [bookText, List.flatMap_append, List.flatMap_cons]
  rfl

theorem length_bookText_ne_zero {book : List DayRecord} (hne : book ≠ []) (hfits : ∀ r ∈ book, r.Fits) :
    (bookText book).length ≠ 0 := by
  obtain ⟨r, book, rfl⟩ := List.exists_cons_of_ne_nil hne
  have hlen := (hfits r List.mem_cons_self).length
  rw [bookText, List.flatMap_cons, List.length_append]
  omega

/-- The search passes over a book that neither has nor shows the day. -/
theorem strstr_bookText {book : List DayRecord} (hfits : ∀ r ∈ book, r.Fits) (hother : ∀ r ∈ book, r.ymd ≠ ymd ∧ ¬r.Shows ymd)
    (memory : List Char) (i : Nat) :
    strstr (dayKey ymd) (bookText book ++ memory) i = strstr (dayKey ymd) memory (i + (bookText book).length) := by
  induction book generalizing i with
  | nil => rfl
  | cons r book ih =>
    rw [List.forall_mem_cons] at hfits hother
    rw [bookText, List.flatMap_cons, List.append_assoc, strstr_other hfits.1 hother.1.1 hother.1.2, ← bookText,
      ih hfits.2 hother.2, List.length_append, Nat.add_assoc]

/-- Behind the block of the file a terminator comes before any such key. -/
def KeyFree (ymd : BitVec 32) (behind : List Char) : Prop := strstr (dayKey ymd) behind 0 = some none
deriving Decidable

theorem KeyFree.ne_nil {behind : List Char} (h : KeyFree ymd behind) : behind ≠ [] := by
  rintro rfl
  cases h

theorem strstr_absent {book : List DayRecord} (hclear : Clear [] book) (hfits : ∀ r ∈ book, r.Fits)
    (hmonth : ∀ r ∈ book, r.ymd >>> 8 = month) (hymd : ymd >>> 8 = month) (hne : ∀ r ∈ book, r.ymd ≠ ymd) {behind : List Char}
    (hfree : KeyFree ymd behind) : strstr (dayKey ymd) (bookText book ++ behind) 0 = some none := by
  have hshows := hclear.not_shows hmonth hymd List.not_mem_nil hne
  rw [strstr_bookText hfits fun r hr => ⟨hne r hr, hshows r hr⟩]
  exact strstr_none_of_none hfree _

theorem strstr_present {r : DayRecord} (hclear : Clear [] (pre ++ r :: post)) (hfits : ∀ e ∈ pre ++ r :: post, e.Fits)
    (hmonth : ∀ e ∈ pre ++ r :: post, e.ymd >>> 8 = month) (hne : ∀ e ∈ pre, e.ymd ≠ r.ymd) (behind : List Char) :
    strstr (dayKey r.ymd) (bookText (pre ++ r :: post) ++ behind) 0 = some (some ((bookText pre).length + 23)) := by
  rw [List.forall_mem_append, List.forall_mem_cons] at hfits hmonth
  have hshows := hclear.of_append.not_shows hmonth.1 hmonth.2.1 List.not_mem_nil hne
  rw [bookText_split, List.append_assoc, strstr_bookText hfits.1 fun e he => ⟨hne e he, hshows e he⟩, List.append_assoc,
    strstr_own, Nat.zero_add]

end Books

section Reading

variable {ymd : BitVec 32} {behind : List Char} {files : Files} {content : List Char}

theorem meterPowerRead_absent (hfile : files (powerPath ymd) = some content) (hlen : content.length ≠ 0)
    (hsearch : strstr (dayKey ymd) (content ++ behind) 0 = some none) (dest : MeterHisData) :
    meterPowerRead dest ymd behind files = some (-4, dest) := by
  rw [meterPowerRead, hfile]
  simp [hlen, hsearch]

theorem meterPowerRead_present {front back : List Char} (hfile : files (powerPath ymd) = some (front ++ back))
    (hlen : (front ++ back).length ≠ 0) (hunbroken : Unbroken (front ++ back)) (hbehind : behind ≠ [])
    (hsearch : strstr (dayKey ymd) (front ++ back ++ behind) 0 = some (some front.length)) (dest : MeterHisData) :
    meterPowerRead dest ymd behind files = (readFields hisDataFields back dest).map fun p => (0, p.2) := by
  have hdrop : (front ++ back ++ '\x00' :: behind.drop 1).drop front.length = back ++ '\x00' :: behind.drop 1 := by
    rw [List.append_assoc, List.drop_left]
  have hmem : '\x00' ∈ (front ++ back ++ '\x00' :: behind.drop 1).drop front.length := by
    rw [hdrop]
    exact List.mem_append_right _ List.mem_cons_self
  rw [meterPowerRead, hfile]
  dsimp only
  rw [if_neg hlen, hsearch, Option.bind_eq_bind, Option.bind_some]
  dsimp only
  rw [if_pos ⟨hbehind, hmem⟩, hdrop, cString_terminated (unbroken_append.mp hunbroken).2, Option.map_eq_bind]
  rfl

theorem meterPowerWrite_absent (hsearch : strstr (dayKey ymd) ((files (powerPath ymd)).getD [] ++ behind) 0 = some none)
    (clock : SystemTime) (his : MeterHisData) :
    meterPowerWrite clock his ymd behind files = some (0, fun path => if path = powerPath ymd then
      some (spliceAt ((files (powerPath ymd)).getD []) ((files (powerPath ymd)).getD []).length (powerText clock ymd his))
      else files path) := by
  rw [meterPowerWrite]
  split_ifs with hlen <;> simp [hlen, hsearch]

theorem meterPowerWrite_present {pos : Nat}
    (hsearch : strstr (dayKey ymd) ((files (powerPath ymd)).getD [] ++ behind) 0 = some (some (pos + 23)))
    (hpos : pos < ((files (powerPath ymd)).getD []).length) (clock : SystemTime) (his : MeterHisData) :
    meterPowerWrite clock his ymd behind files = some (0, fun path => if path = powerPath ymd then
      some (spliceAt ((files (powerPath ymd)).getD []) pos (powerText clock ymd his)) else files path) := by
  rw [meterPowerWrite]
  dsimp only
  rw [if_neg (by omega)]
  simp [hsearch, Nat.le_of_lt hpos]

/-- Behind a key that is not the line of a day, the first name is not the one the reader begins with. -/
theorem getName_shown (hrows : ∀ row ∈ rows, row.1 ∈ powerNames "mon") (post : List DayRecord) :
    ∃ name fpoint, getName (dayKey ymd ++ '\n' :: ((rows.flatMap fun row => line row.1 row.2) ++ bookText post)) =
      some (name, fpoint) ∧ name ≠ ascii "ulPowerT" ++ ascii "day" := by
  have hmon : ∀ name ∈ powerNames "mon", name ≠ ascii "ulPowerT" ++ ascii "day" := by decide +kernel
  have hahead : Ahead ((rows.flatMap fun row => line row.1 row.2) ++ bookText post)
      (dayKey ymd ++ '\n' :: ((rows.flatMap fun row => line row.1 row.2) ++ bookText post)) :=
    ⟨dayKey ymd, fun c hc => isLineEnd_of_isHex (isHex_of_mem_dayKey hc), rfl⟩
  cases rows with
  | cons row rows =>
    -- Another value of the month.
    have hname := hrows row List.mem_cons_self
    have hline : ((row :: rows).flatMap fun row => line row.1 row.2) ++ bookText post =
        row.1 ++ '=' :: (row.2 ++ '\n' :: ((rows.flatMap fun row => line row.1 row.2) ++ bookText post)) := by simp [line]
    rw [hline] at hahead ⊢
    exact ⟨row.1, _, hahead.getName (isPowerName_mon _ hname).isName, hmon _ hname⟩
  | nil =>
    cases post with
    | cons r post =>
      -- The time of the next day.
      have htitle : ascii "Time=" = ascii "Time" ++ ['='] := by simp [ascii]
      have hname : IsName (ascii "Time") ∧ ascii "Time" ≠ ascii "ulPowerT" ++ ascii "day" := by
        simp only [ascii]
        decide
      have hline : ∃ tail, bookText (r :: post) = ascii "Time" ++ '=' :: tail := by
        rw [bookText, List.flatMap_cons, DayRecord.text_eq, timeLine, htitle]
        simp only [List.append_assoc, List.cons_append, List.nil_append]
        exact ⟨_, rfl⟩
      obtain ⟨tail, htail⟩ := hline
      rw [List.flatMap_nil, List.nil_append, htail] at hahead ⊢
      exact ⟨ascii "Time", _, hahead.getName hname.1, hname.2⟩
    | nil =>
      -- The end of the file.
      have hname : ([] : List Char) ≠ ascii "ulPowerT" ++ ascii "day" := by simp [ascii]
      exact ⟨[], [], hahead.getName_nil, hname⟩

/-- Reading from there does not return the total of the day. -/
theorem readFields_shown (hrows : ∀ row ∈ rows, row.1 ∈ powerNames "mon") (post : List DayRecord) {dest his : MeterHisData}
    {fpoint : List Char}
    (h : readFields hisDataFields (dayKey ymd ++ '\n' :: ((rows.flatMap fun row => line row.1 row.2) ++ bookText post)) dest =
      some (fpoint, his)) : his.meterDay.powerT = dest.meterDay.powerT := by
  obtain ⟨name, fpoint₁, hname, hne⟩ : ∃ name fpoint, getName (dayKey ymd ++ '\n' ::
    ((rows.flatMap fun row => line row.1 row.2) ++ bookText post)) = some (name, fpoint) ∧ _ := getName_shown hrows post
  have hleaves : ∀ f ∈ hisDataFields.tail, f.Leaves fun his : MeterHisData => his.meterDay.powerT := by
    simp [hisDataFields, powerFields, Field.Leaves]
  obtain ⟨f, hf, hfields⟩ : ∃ f : Field MeterHisData, f.name = ascii "ulPowerT" ++ ascii "day" ∧
      hisDataFields = f :: hisDataFields.tail := ⟨_, rfl, rfl⟩
  rw [← hf] at hne
  rw [hfields, readFields, readField_of_ne hname hne] at h
  exact readFields_leaves hleaves h

end Reading

section Store

/-- A write of a day, with what stands in memory behind the block the file is read to. -/
structure PowerWrite extends DayRecord where
  behind : List Char
  deriving DecidableEq, Repr

/-- The files, and what was written to them. -/
structure PowerStore where
  files : Files
  written : List PowerWrite

/-- A write, as a step of the store. -/
def PowerStore.write (s : PowerStore) (w : PowerWrite) : Option PowerStore :=
  (meterPowerWrite w.clock w.his w.ymd w.behind s.files).map fun r => ⟨r.2, s.written ++ [w]⟩

/-- The days written, each as it was written last. -/
def PowerStore.book (s : PowerStore) : List DayRecord := Keyed.putAll DayRecord.ymd (s.written.map PowerWrite.toDayRecord)

/-- The store is a map: a day reads as it was written last, and one that was not written reads as an error. The memory behind the
block has no such key before a terminator. -/
def PowerStore.ReadsBack (month : BitVec 32) (s : PowerStore) : Prop :=
  ∀ (ymd : BitVec 32) (behind : List Char), ymd >>> 8 = month → KeyFree ymd behind → ∀ dest,
    match s.written.reverse.find? fun w => w.ymd = ymd with
    | some w => meterPowerRead dest ymd behind s.files = some (0, w.his)
    | none => ∃ code < 0, meterPowerRead dest ymd behind s.files = some (code, dest)

/-- The file of the month is the book. -/
structure PowerStore.Filed (month : BitVec 32) (s : PowerStore) : Prop where
  file : ∀ ymd : BitVec 32, ymd >>> 8 = month → s.files (powerPath ymd) = if s.book = [] then none else some (bookText s.book)
  fits : ∀ r ∈ s.book, r.Fits
  month : ∀ r ∈ s.book, r.ymd >>> 8 = month

variable {month : BitVec 32} {s : PowerStore}

theorem PowerStore.book_write (s : PowerStore) (w : PowerWrite) (files : Files) :
    PowerStore.book ⟨files, s.written ++ [w]⟩ = Keyed.put DayRecord.ymd w.toDayRecord s.book := by
  rw [PowerStore.book, List.map_append, List.map_singleton, Keyed.putAll_append]
  rfl

/-- The last write of a day is the day's record in the book. -/
theorem PowerStore.get_book (s : PowerStore) (ymd : BitVec 32) :
    Keyed.get DayRecord.ymd s.book ymd = (s.written.reverse.find? fun w => w.ymd = ymd).map PowerWrite.toDayRecord := by
  rw [PowerStore.book, Keyed.get_putAll, ← List.map_reverse, List.find?_map]
  rfl

theorem powerPath_congr {ymd ymd' : BitVec 32} (h : ymd >>> 8 = ymd' >>> 8) : powerPath ymd = powerPath ymd' := by
  rw [powerPath, powerPath, h]

theorem PowerStore.Filed.content (h : s.Filed month) {ymd : BitVec 32} (hymd : ymd >>> 8 = month) :
    (s.files (powerPath ymd)).getD [] = bookText s.book := by
  rw [h.file ymd hymd]
  split_ifs with hbook
  · rw [hbook]
    rfl
  · rfl

theorem PowerStore.Filed.write (h : s.Filed month) (hclear : Clear [] s.book) {w : PowerWrite} (hymd : w.ymd >>> 8 = month)
    (hfits : w.Fits) (hfree : KeyFree w.ymd w.behind) :
    ∃ s', s.write w = some s' ∧ s'.book = Keyed.put DayRecord.ymd w.toDayRecord s.book ∧ s'.Filed month := by
  have hwrite : ∃ files', meterPowerWrite w.clock w.his w.ymd w.behind s.files = some (0, files') ∧
      files' (powerPath w.ymd) = some (bookText (Keyed.put DayRecord.ymd w.toDayRecord s.book)) := by
    rcases Keyed.put_cases DayRecord.ymd w.toDayRecord s.book with ⟨hnew, hput⟩ | ⟨pre, old, post, hbook, hpre, hold, hput⟩
    · -- A new day goes to the end of the file.
      have hsearch := strstr_absent hclear h.fits h.month hymd hnew hfree
      rw [← h.content hymd] at hsearch
      refine ⟨_, meterPowerWrite_absent hsearch w.clock w.his, ?_⟩
      rw [if_pos rfl, h.content hymd, hput, bookText_split, spliceAt, List.take_length, List.drop_eq_nil_of_le (by omega),
        List.append_nil, bookText, bookText, List.flatMap_nil, List.append_nil]
      rfl
    · -- A day that is there is overwritten by as many characters.
      have hfits' := h.fits
      have hmonth' := h.month
      rw [hbook] at hclear hfits' hmonth'
      have hsearch := strstr_present hclear hfits' hmonth' (by rwa [hold]) w.behind
      have hcontent := h.content hymd
      rw [hbook, bookText_split] at hcontent
      rw [hold, bookText_split, ← hcontent] at hsearch
      have hold' := (hfits' old (by simp)).length
      have hlen : (powerText w.clock w.ymd w.his).length = old.text.length := hfits.length.trans hold'.symm
      have hpos : (bookText pre).length < ((s.files (powerPath w.ymd)).getD []).length := by
        rw [hcontent, List.length_append, List.length_append]
        omega
      refine ⟨_, meterPowerWrite_present hsearch hpos w.clock w.his, ?_⟩
      rw [if_pos rfl, hcontent, hput, bookText_split, spliceAt, List.take_left, hlen, ← List.drop_drop, List.drop_left,
        List.drop_left, List.append_assoc]
      rfl
  obtain ⟨files', hwrite, hfile⟩ := hwrite
  have hbook := s.book_write w files'
  refine ⟨⟨files', s.written ++ [w]⟩, by rw [PowerStore.write, hwrite]; rfl, hbook, ?_, ?_, ?_⟩
  · intro ymd hymd'
    rw [hbook, if_neg (Keyed.put_ne_nil _ _ _), powerPath_congr (hymd'.trans hymd.symm)]
    exact hfile
  · rw [hbook]
    intro e he
    rcases Keyed.mem_put _ he with rfl | hold
    · exact hfits
    · exact h.fits e hold
  · rw [hbook]
    intro e he
    rcases Keyed.mem_put _ he with rfl | hold
    · exact hymd
    · exact h.month e hold

/-- A store with a clear book is a map. -/
theorem PowerStore.Filed.readsBack (h : s.Filed month) (hclear : Clear [] s.book) : s.ReadsBack month := by
  intro ymd behind hymd hfree dest
  have hget := s.get_book ymd
  have hfile := h.file ymd hymd
  rcases Keyed.get_cases DayRecord.ymd s.book ymd with ⟨hnone, hne⟩ | ⟨pre, r, post, hsome, hbook, hpre, rfl⟩
  · rw [hnone, eq_comm, Option.map_eq_none_iff] at hget
    rw [hget]
    by_cases hnil : s.book = []
    · rw [if_pos hnil] at hfile
      exact ⟨-2, by decide, by rw [meterPowerRead, hfile]⟩
    · rw [if_neg hnil] at hfile
      have hsearch := strstr_absent hclear h.fits h.month hymd hne hfree
      exact ⟨-4, by decide, meterPowerRead_absent hfile (length_bookText_ne_zero hnil h.fits) hsearch dest⟩
  · rw [hsome, eq_comm, Option.map_eq_some_iff] at hget
    obtain ⟨w, hfind, rfl⟩ := hget
    rw [hfind]
    have hlen := length_bookText_ne_zero (by simp [hbook]) h.fits
    have hunbroken := unbroken_bookText s.book
    have hfits := h.fits
    have hmonth := h.month
    rw [hbook] at hclear hfits hmonth
    have hsearch := strstr_present hclear hfits hmonth hpre behind
    -- The file up to the key, and from it on.
    have htext : bookText (pre ++ w.toDayRecord :: post) = (bookText pre ++ timeLine w.clock) ++
        (dayKey w.ymd ++ '\n' :: w.lines ++ bookText post) := by
      rw [bookText_split, DayRecord.text_eq]
      simp only [List.append_assoc, List.cons_append]
    rw [if_neg (by simp [hbook]), hbook, htext] at hfile
    rw [hbook, htext] at hlen hunbroken
    rw [htext, ← length_timeLine w.clock, ← List.length_append] at hsearch
    obtain ⟨fpoint, hread⟩ := readFields_record w.toDayRecord (bookText post) dest
    dsimp only
    rw [meterPowerRead_present hfile hlen hunbroken hfree.ne_nil hsearch, hread]
    rfl

/-- A store with a book that is not clear is no map: some lookup stops in the values of another day. -/
theorem PowerStore.Filed.not_readsBack (h : s.Filed month) (hclear : ¬Clear [] s.book) : ¬s.ReadsBack month := by
  intro hreads
  obtain ⟨ymd, pre, r, post, hbook, hymd, -, hne, hshows, hpre⟩ := exists_shows_of_not_clear hclear h.month
  have hfile := h.file ymd hymd
  have hlen := length_bookText_ne_zero (by simp [hbook]) h.fits
  have hunbroken := unbroken_bookText s.book
  have hfits := h.fits
  rw [hbook, List.forall_mem_append, List.forall_mem_cons] at hfits
  obtain ⟨front, rows, htext, hrows, hfound⟩ := strstr_shown hfits.2.1 hne hshows
  have hfree : KeyFree ymd ['\x00'] := by
    have hkey : ¬(dayKey ymd).isPrefixOf ['\x00'] = true := by
      rw [List.isPrefixOf_iff_prefix]
      intro hprefix
      exact not_infix_of_length_lt (by decide) hprefix.isInfix
    rw [KeyFree, strstr, if_neg hkey, if_pos rfl]
  have hsplit : bookText s.book = (bookText pre ++ front) ++
      (dayKey ymd ++ '\n' :: ((rows.flatMap fun row => line row.1 row.2) ++ bookText post)) := by
    rw [hbook, bookText_split, htext]
    simp only [List.append_assoc, List.cons_append]
  have hsearch : strstr (dayKey ymd) (bookText s.book ++ ['\x00']) 0 = some (some (bookText pre ++ front).length) := by
    rw [hbook, bookText_split, List.append_assoc, strstr_bookText hfits.1 hpre, List.append_assoc, hfound, Nat.zero_add,
      List.length_append]
  rw [if_neg (by simp [hbook]), hsplit] at hfile
  rw [hsplit] at hlen hunbroken hsearch
  have hread (dest : MeterHisData) := meterPowerRead_present hfile hlen hunbroken hfree.ne_nil hsearch dest
  -- What a read returns keeps the total of the record it is read into, and has no error code.
  have hkeeps : ∀ dest code his, meterPowerRead dest ymd ['\x00'] s.files = some (code, his) →
      code = 0 ∧ his.meterDay.powerT = dest.meterDay.powerT := by
    intro dest code his hresult
    rw [hread dest] at hresult
    obtain ⟨⟨fpoint, his'⟩, hfields, heq⟩ := Option.map_eq_some_iff.mp hresult
    obtain ⟨rfl, rfl⟩ := Prod.mk.inj heq
    exact ⟨rfl, readFields_shown hrows post hfields⟩
  cases hfind : s.written.reverse.find? fun w => w.ymd = ymd with
  | none =>
    have hnone := hreads ymd ['\x00'] hymd hfree r.his
    rw [hfind] at hnone
    obtain ⟨code, hneg, hresult⟩ := hnone
    have hzero := (hkeeps _ _ _ hresult).1
    omega
  | some w =>
    have hsome := hreads ymd ['\x00'] hymd hfree
      { w.his with meterDay := { w.his.meterDay with powerT := w.his.meterDay.powerT + 1 } }
    rw [hfind] at hsome
    have htotal := (hkeeps _ _ _ hsome).2
    dsimp only at htotal
    bv_omega

theorem PowerStore.Filed.readsBack_iff (h : s.Filed month) : s.ReadsBack month ↔ Clear [] s.book := by
  constructor
  · intro hreads
    by_contra hnot
    exact h.not_readsBack hnot hreads
  · exact h.readsBack

/-- While nothing was written, every file of the month is missing. -/
theorem PowerStore.filed_empty {files : Files} (hnone : ∀ ymd : BitVec 32, ymd >>> 8 = month → files (powerPath ymd) = none) :
    PowerStore.Filed month ⟨files, []⟩ where
  file := hnone
  fits := by simp [PowerStore.book, Keyed.putAll]
  month := by simp [PowerStore.book, Keyed.putAll]

/-- `Meter_Power_Storage` keeps a map from the days of a month to what was written last, over every run of writes whose values fit
the width they are printed with, exactly when no write leaves a month's value printed as the key of a day of the month that is not
in the file before it. Behind the block the file is read to, memory has a terminator before any such key. -/
theorem daily_power_reads_back (month : BitVec 32) (files : Files)
    (hnone : ∀ ymd : BitVec 32, ymd >>> 8 = month → files (powerPath ymd) = none) (writes : List PowerWrite)
    (hwrites : ∀ w ∈ writes, w.ymd >>> 8 = month ∧ w.Fits) (hfree : ∀ w ∈ writes, KeyFree w.ymd w.behind) :
    Runs.Meets PowerStore.write (fun s w => Clear [] (Keyed.put DayRecord.ymd w.toDayRecord s.book)) ⟨files, []⟩ writes ↔
      Runs.Keeps PowerStore.write (fun _ s => s.ReadsBack month) ⟨files, []⟩ writes := by
  have hstep : ∀ (s : PowerStore) (w : PowerWrite), s.Filed month ∧ Clear [] s.book →
      (w.ymd >>> 8 = month ∧ w.Fits) ∧ KeyFree w.ymd w.behind →
      (Clear [] (Keyed.put DayRecord.ymd w.toDayRecord s.book) ↔ ∃ s', s.write w = some s' ∧ s'.ReadsBack month) := by
    rintro s w ⟨hfiled, hclear⟩ ⟨⟨hymd, hfits⟩, hq⟩
    obtain ⟨s', hs', hbook, hfiled'⟩ := hfiled.write hclear hymd hfits hq
    rw [← hbook, ← hfiled'.readsBack_iff]
    constructor
    · intro hreads
      exact ⟨s', hs', hreads⟩
    · rintro ⟨s'', hs'', hreads⟩
      cases hs'.symm.trans hs''
      exact hreads
  have hinv : ∀ (s : PowerStore) (w : PowerWrite) (s' : PowerStore), s.Filed month ∧ Clear [] s.book →
      (w.ymd >>> 8 = month ∧ w.Fits) ∧ KeyFree w.ymd w.behind → s.write w = some s' → s'.ReadsBack month →
      s'.Filed month ∧ Clear [] s'.book := by
    rintro s w s' ⟨hfiled, hclear⟩ ⟨⟨hymd, hfits⟩, hq⟩ hs' hreads
    obtain ⟨s'', hs'', -, hfiled'⟩ := hfiled.write hclear hymd hfits hq
    cases hs'.symm.trans hs''
    exact ⟨hfiled', hfiled'.readsBack_iff.mp hreads⟩
  have hdom : Runs.Meets PowerStore.write (fun _ w => (w.ymd >>> 8 = month ∧ w.Fits) ∧ KeyFree w.ymd w.behind) ⟨files, []⟩ writes :=
    Runs.meets_of_mem fun w hw => ⟨hwrites w hw, hfree w hw⟩
  exact Runs.meets_iff_keeps_within hstep hinv ⟨PowerStore.filed_empty hnone, trivial⟩ hdom

/-- A day of August 2019 with nothing metered but the total of the month. -/
def augustDay (ymd powerT : BitVec 32) : PowerWrite :=
  ⟨⟨⟨0, 0, 0, 1, 4, 8, 0x19⟩, ymd, ⟨⟨0, 0, 0, 0, 0⟩, ⟨powerT, 0, 0, 0, 0⟩⟩⟩, ['\x00']⟩

theorem fits_augustDay (ymd : BitVec 32) : (augustDay ymd 0).Fits := by
  constructor <;> simp [augustDay, MeterPower.values]

theorem clear_augustDay : Clear [] [(augustDay 0x20190801 0).toDayRecord] := by
  refine ⟨?_, trivial⟩
  rintro ymd hymd ⟨v, hv, hkey⟩
  have hzero : v = 0 := by simpa [augustDay, MeterPower.values] using hv
  have hday : dayKey 0 = dayKey ymd := by
    rw [← hkey, hzero]
    decide
  rw [← dayKey_inj hday] at hymd
  exact absurd hymd (by decide)

theorem daily_power_reads_back_once :
    Runs.Keeps PowerStore.write (fun _ s => s.ReadsBack 0x201908) ⟨fun _ => none, []⟩ [augustDay 0x20190801 0] :=
  (daily_power_reads_back 0x201908 (fun _ => none) (fun _ _ => rfl) [augustDay 0x20190801 0]
    (List.forall_mem_singleton.mpr ⟨by decide, fits_augustDay 0x20190801⟩) (by decide)).mp
    ⟨clear_augustDay, fun _ _ => trivial⟩

/-- When the total of the month is 20190802 on the first of August, reading the second, which was never written, returns 0 and the
caller's record as it was. -/
theorem daily_power_shows_other_day :
    ∃ s, PowerStore.write ⟨fun _ => none, []⟩ (augustDay 0x20190801 20190802) = some s ∧ (∀ w ∈ s.written, w.ymd ≠ 0x20190802) ∧
      meterPowerRead ⟨⟨7, 7, 7, 7, 7⟩, ⟨7, 7, 7, 7, 7⟩⟩ 0x20190802 ['\x00'] s.files =
        some (0, ⟨⟨7, 7, 7, 7, 7⟩, ⟨7, 7, 7, 7, 7⟩⟩) := by
  have hsearch : strstr (dayKey 0x20190801) ([] ++ ['\x00']) 0 = some none := by decide
  refine ⟨_, by rw [PowerStore.write, meterPowerWrite_absent hsearch]; rfl, by decide, ?_⟩
  decide +kernel

end Store

end EnergyRouter
