import EnergyRouter.Theorems.MeterFiles
import EnergyRouter.Theorems.EventRecords

/-!
# The times in the stored files

The writers print the six values of a time without the weekday; `get_pvalue` stores the six bytes from the second on, so that the
month comes to the weekday, the year to the month, and the year stays what the caller had there. Two of the times of a charge record
are printed and never read.
-/

namespace EnergyRouter

open Memory

section Times

variable {n : Nat}

/-- A time at an offset is returned: its six values are those that were written, and the weekday of the caller is left alone. -/
structure TimeReturned (m dest m' : Vector Byte n) (off : Nat) : Prop where
  values : timeBytes m' off = timeBytes m off
  week : byteAt m' (off + 4) = byteAt dest (off + 4)

/-- The year that is written is the month, and the caller's record has it as the weekday and as the year already. -/
structure YearIsMonth (m dest : Vector Byte n) (off : Nat) : Prop where
  month : byteAt m (off + 5) = byteAt m (off + 6)
  week : byteAt dest (off + 4) = byteAt m (off + 6)
  year : byteAt dest (off + 6) = byteAt m (off + 6)

/-- What a reader leaves of a time: the six values from the second on, and the caller's last byte. -/
structure Shifted (m dest m' : Vector Byte n) (off : Nat) : Prop where
  values : bytesAt m' off 6 = timeBytes m off
  year : byteAt m' (off + 6) = byteAt dest (off + 6)

/-- The bytes of a time are left as the caller had them. -/
def TimeLeft (dest m' : Vector Byte n) (off : Nat) : Prop := ∀ i < 7, byteAt m' (off + i) = byteAt dest (off + i)

theorem timeBytes_eq (m : Vector Byte n) (off : Nat) :
    timeBytes m off =
      [byteAt m off, byteAt m (off + 1), byteAt m (off + 2), byteAt m (off + 3), byteAt m (off + 5), byteAt m (off + 6)] := rfl

theorem bytesAt_six (m : Vector Byte n) (off : Nat) :
    bytesAt m off 6 =
      [byteAt m off, byteAt m (off + 1), byteAt m (off + 2), byteAt m (off + 3), byteAt m (off + 4), byteAt m (off + 5)] := rfl

variable {m dest m' : Vector Byte n} {off : Nat}

/-- A time that is read from the second on is returned only by coincidence. -/
theorem Shifted.returned_iff (h : Shifted m dest m' off) : TimeReturned m dest m' off ↔ YearIsMonth m dest off := by
  obtain ⟨hvalues, hyear⟩ := h
  rw [bytesAt_six, timeBytes_eq] at hvalues
  simp only [List.cons.injEq, and_true] at hvalues
  obtain ⟨hsecond, hminute, hhour, hday, hweek, hmonth⟩ := hvalues
  constructor
  · rintro ⟨hsame, hkept⟩
    rw [timeBytes_eq, timeBytes_eq] at hsame
    simp only [List.cons.injEq, and_true] at hsame
    obtain ⟨-, -, -, -, hmonth', hyear'⟩ := hsame
    have hequal : byteAt m (off + 5) = byteAt m (off + 6) := by rw [← hmonth', hmonth]
    exact ⟨hequal, by rw [← hkept, hweek, hequal], by rw [← hyear, hyear']⟩
  · rintro ⟨hequal, hweek', hyear'⟩
    refine ⟨?_, by rw [hweek, hweek', hequal]⟩
    rw [timeBytes_eq, timeBytes_eq, hsecond, hminute, hhour, hday, hmonth, hyear, hyear', hequal]

theorem Shifted.bytes (h : Shifted m dest m' off) : bytesAt m' off 7 = timeBytes m off ++ [byteAt dest (off + 6)] := by
  rw [← h.values, ← h.year]
  rfl

/-- A time that is not read is returned when the caller has it already. -/
theorem TimeLeft.returned_iff (h : TimeLeft dest m' off) : TimeReturned m dest m' off ↔ timeBytes dest off = timeBytes m off := by
  have hsecond : byteAt m' off = byteAt dest off := h 0 (by decide)
  have hsame : timeBytes m' off = timeBytes dest off := by
    rw [timeBytes_eq, timeBytes_eq, hsecond, h 1 (by decide), h 2 (by decide), h 3 (by decide), h 5 (by decide), h 6 (by decide)]
  constructor
  · rintro ⟨hvalues, -⟩
    rw [← hsame, hvalues]
  · intro hvalues
    exact ⟨hsame.trans hvalues, h 4 (by decide)⟩

/-- Entries that leave a byte leave it one after the other. -/
theorem byteAt_foldl_effect {es : List (Entry (Vector Byte n))} {q : Nat}
    (hes : ∀ e ∈ es, ∀ s, byteAt (e.effect s) q = byteAt s q) (s : Vector Byte n) :
    byteAt (es.foldl (fun s e => e.effect s) s) q = byteAt s q := by
  induction es generalizing s with
  | nil => rfl
  | cons e es ih =>
    rw [List.forall_mem_cons] at hes
    rw [List.foldl_cons, ih hes.2, hes.1]

theorem bytesAt_storeBytes_timeBytes (h : off + 6 ≤ n) (s : Vector Byte n) :
    bytesAt (storeBytes off (timeBytes m off) s) off 6 = timeBytes m off := by
  have hbyte : ∀ i < 6, byteAt (storeBytes off (timeBytes m off) s) (off + i) = (timeBytes m off).getD i 0 := by
    intro i hi
    exact byteAt_storeBytes (by rw [length_timeBytes]; exact hi) (by rw [length_timeBytes]; exact h)
  have hzero := hbyte 0 (by decide)
  rw [Nat.add_zero] at hzero
  rw [bytesAt_six, hzero, hbyte 1 (by decide), hbyte 2 (by decide), hbyte 3 (by decide), hbyte 4 (by decide), hbyte 5 (by decide)]
  rfl

/-- A store of a time between stores that leave it. -/
theorem shifted_of_store (before : Vector Byte n) {after : Vector Byte n} (hn : off + 6 ≤ n)
    (hafter : ∀ q, off ≤ q → q < off + 7 → byteAt after q = byteAt (storeBytes off (timeBytes m off) before) q)
    (hbefore : byteAt before (off + 6) = byteAt dest (off + 6)) : Shifted m dest after off := by
  refine ⟨?_, ?_⟩
  · rw [← bytesAt_storeBytes_timeBytes (m := m) hn before]
    apply List.map_congr_left
    intro i hi
    have hi := List.mem_range.mp hi
    exact hafter (off + i) (by omega) (by omega)
  · rw [hafter (off + 6) (by omega) (by omega), byteAt_storeBytes_of_disjoint (by rw [length_timeBytes]; omega), hbefore]

end Times

section PriceModel

/-- The lines behind the two times are stored behind them. -/
theorem byteAt_modeEntries {m dest : PriceModle} {q : Nat} (hq : q < 22) :
    byteAt ((priceEntries m).foldl (fun s e => e.effect s) ((modeEntries m).foldl (fun s e => e.effect s) dest)) q =
      byteAt (storeBytes 15 (timeBytes m 15) (storeBytes 8 (timeBytes m 8) (storeBytes 0 m.uiJFmodID dest))) q := by
  have hprices : ∀ e ∈ priceEntries m, ∀ s, byteAt (e.effect s) q = byteAt s q := by
    intro e he s
    obtain ⟨i, -, rfl⟩ := List.mem_map.mp he
    exact byteAt_storeWord_of_disjoint (by omega)
  have htariffs : ∀ e ∈ (List.range 48).map fun i => byteEntry (timeNoName i) m (24 + i), ∀ s,
      byteAt (e.effect s) q = byteAt s q := by
    intro e he s
    obtain ⟨i, -, rfl⟩ := List.mem_map.mp he
    exact byteAt_storeWord_of_disjoint (by omega)
  rw [byteAt_foldl_effect hprices, modeEntries, List.foldl_append, List.foldl_append, List.foldl_cons, List.foldl_nil]
  have hcount (s : PriceModle) : byteAt ((byteEntry (ascii "count") m 72).effect s) q = byteAt s q :=
    byteAt_storeWord_of_disjoint (by omega)
  have hstate (s : PriceModle) : byteAt ((byteEntry (ascii "state") m 22).effect s) q = byteAt s q :=
    byteAt_storeWord_of_disjoint (by omega)
  have hstyle (s : PriceModle) : byteAt ((byteEntry (ascii "style") m 23).effect s) q = byteAt s q :=
    byteAt_storeWord_of_disjoint (by omega)
  rw [hcount, byteAt_foldl_effect htariffs, headEntries, List.foldl_cons, List.foldl_cons, List.foldl_cons, List.foldl_cons,
    List.foldl_cons, List.foldl_nil, hstyle, hstate]
  rfl

theorem priceModel_shifted {m dest : PriceModle} {off : Nat} (hoff : off = 8 ∨ off = 15) :
    Shifted m dest ((priceEntries m).foldl (fun s e => e.effect s) ((modeEntries m).foldl (fun s e => e.effect s) dest)) off := by
  rcases hoff with rfl | rfl
  · refine shifted_of_store (storeBytes 0 m.uiJFmodID dest) (by decide) ?_ ?_
    · intro q hle hlt
      rw [byteAt_modeEntries (by omega), byteAt_storeBytes_of_disjoint (by omega)]
    · exact byteAt_storeBytes_of_disjoint (by simp [PriceModle.uiJFmodID])
  · refine shifted_of_store (storeBytes 8 (timeBytes m 8) (storeBytes 0 m.uiJFmodID dest)) (by decide) ?_ ?_
    · intro q hle hlt
      exact byteAt_modeEntries (by omega)
    · rw [byteAt_storeBytes_of_disjoint (by simp), byteAt_storeBytes_of_disjoint (by simp [PriceModle.uiJFmodID])]

end PriceModel

section ChargeRecord

variable {m : Vector Byte 180}

/-- What the entries of a charge record store, one after the other. -/
theorem foldl_chargeEntries (dest : Vector Byte 180) :
    (chargeEntries m).foldl (fun s e => e.effect s) dest =
      storeWord 19 ((byteAt m 19).setWidth 32) (storeWord 18 ((byteAt m 18).setWidth 32)
        (storeBytes 11 (timeBytes m 11) (storeBytes 4 (timeBytes m 4) (storeWord 0 (orderNum m) dest)))) := rfl

/-- The times of the event are read from the second on. -/
theorem chargeRecord_shifted (dest : Vector Byte 180) {off : Nat} (hoff : off = 4 ∨ off = 11) :
    Shifted m dest ((chargeEntries m).foldl (fun s e => e.effect s) dest) off := by
  rw [foldl_chargeEntries]
  rcases hoff with rfl | rfl
  · refine shifted_of_store (storeWord 0 (orderNum m) dest) (by decide) ?_ ?_
    · intro q hle hlt
      rw [byteAt_storeWord_of_disjoint (by omega), byteAt_storeWord_of_disjoint (by omega),
        byteAt_storeBytes_of_disjoint (by omega)]
    · exact byteAt_storeWord_of_disjoint (by decide)
  · refine shifted_of_store (storeBytes 4 (timeBytes m 4) (storeWord 0 (orderNum m) dest)) (by decide) ?_ ?_
    · intro q hle hlt
      rw [byteAt_storeWord_of_disjoint (by omega), byteAt_storeWord_of_disjoint (by omega)]
    · rw [byteAt_storeBytes_of_disjoint (by simp), byteAt_storeWord_of_disjoint (by decide)]

theorem chargeRecord_timeLeft (dest : Vector Byte 180) {off : Nat} (hoff : off = 132 ∨ off = 139) :
    TimeLeft dest ((chargeEntries m).foldl (fun s e => e.effect s) dest) off := by
  intro i hi
  rw [foldl_chargeEntries, byteAt_storeWord_of_disjoint (by omega), byteAt_storeWord_of_disjoint (by omega),
    byteAt_storeBytes_of_disjoint (by simp; omega), byteAt_storeBytes_of_disjoint (by simp; omega),
    byteAt_storeWord_of_disjoint (by omega)]

/-- A record that was written as a new file is read when its file is found. -/
theorem chargeRecordStorage_read_written {room : Room} {place number : Nat} {clock : SystemTime} {dir dir₁ : Dir} {found : Found}
    (hwrite : chargeRecordStorage.write room chargeRecordPath place clock m dir = some (0, dir₁))
    (hnew : recordName m ∉ dir.map Prod.fst) (hfound : findPathFile chargeRecordPath number dir₁ = some found)
    (hname : found.pathfile = inPath chargeRecordPath (recordName m)) (dest : Vector Byte 180) :
    chargeRecordStorage.read chargeRecordPath number dest dir₁ =
      some (0, (chargeEntries m).foldl (fun s e => e.effect s) dest, found.dir) := by
  have hdir := EventStore.write_new hwrite hnew
  have hcontent : ∀ e ∈ dir₁, e.1 = recordName m → e.2 = chargeRecordStorage.text clock m := by
    intro e he hsame
    rw [hdir, List.mem_append, List.mem_cons] at he
    rcases he with htake | rfl | hdrop
    · exact absurd (hsame ▸ List.mem_map_of_mem (List.mem_of_mem_take htake)) hnew
    · rfl
    · exact absurd (hsame ▸ List.mem_map_of_mem (List.mem_of_mem_drop hdrop)) hnew
  exact chargeRecordStorage_read hfound (openFile_found hfound hname (by simp [recordName]) hcontent)

end ChargeRecord

section StoredTimes

/-- A time of a price model, or the start or the finish of a charge record, is returned when its year is its month and the caller
has that value as weekday and year; the times of the request of a charge record are returned when the caller has them already. -/
theorem stored_times_returned_iff (clock : SystemTime) :
    (∀ (earlier : List (SystemTime × PriceModle)) (file file' : File) (m dest : PriceModle) (off : Nat),
      Runs.run gjfModeStep none earlier = some file → meterGJFModeWrite clock m file = some (0, file') → off = 8 ∨ off = 15 →
        ((∃ m', meterGJFModeRead dest file' = some (0, m') ∧ TimeReturned m dest m' off) ↔ YearIsMonth m dest off)) ∧
      ∀ (room : Room) (place number : Nat) (dir dir₁ : Dir) (found : Found) (m dest : Vector Byte 180),
        chargeRecordStorage.write room chargeRecordPath place clock m dir = some (0, dir₁) → recordName m ∉ dir.map Prod.fst →
        findPathFile chargeRecordPath number dir₁ = some found → found.pathfile = inPath chargeRecordPath (recordName m) →
          (∀ off, off = 4 ∨ off = 11 →
            ((∃ m' dir₂, chargeRecordStorage.read chargeRecordPath number dest dir₁ = some (0, m', dir₂) ∧
              TimeReturned m dest m' off) ↔ YearIsMonth m dest off)) ∧
          ∀ off, off = 132 ∨ off = 139 →
            ((∃ m' dir₂, chargeRecordStorage.read chargeRecordPath number dest dir₁ = some (0, m', dir₂) ∧
              TimeReturned m dest m' off) ↔ timeBytes dest off = timeBytes m off) := by
  refine ⟨?_, ?_⟩
  · intro earlier file file' m dest off hearlier hwrite hoff
    rw [meterGJFModeRead_written (length_of_run_gjfModeStep hearlier) hwrite dest, ← (priceModel_shifted hoff).returned_iff]
    simp
  · intro room place number dir dir₁ found m dest hwrite hnew hfound hname
    have hread := chargeRecordStorage_read_written hwrite hnew hfound hname dest
    rw [hread]
    refine ⟨?_, ?_⟩
    · intro off hoff
      rw [← (chargeRecord_shifted dest hoff).returned_iff]
      simp
    · intro off hoff
      rw [← (chargeRecord_timeLeft (m := m) dest hoff).returned_iff]
      simp

theorem length_noFile : ((none : File).getD []).length < maxMallocNum := by decide

/-- A price model all of whose bytes are one, and the charge record with number 7, read into records like them. -/
theorem stored_times_returned_ones :
    (∃ file' m', meterGJFModeWrite ⟨0, 0, 0, 1, 4, 8, 0x19⟩ (Vector.replicate 268 1) none = some (0, file') ∧
        meterGJFModeRead (Vector.replicate 268 1) file' = some (0, m') ∧
        TimeReturned (Vector.replicate 268 1) (Vector.replicate 268 1) m' 8) ∧
      ∃ dir m' dir', chargeRecordStorage.write ⟨64, 256⟩ chargeRecordPath 0 ⟨0, 0, 0, 1, 4, 8, 0x19⟩ recordSeven [] = some (0, dir) ∧
        chargeRecordStorage.read chargeRecordPath 0 recordSeven dir = some (0, m', dir') ∧ TimeReturned recordSeven recordSeven m' 4 := by
  obtain ⟨hprice, hcharge⟩ := stored_times_returned_iff ⟨0, 0, 0, 1, 4, 8, 0x19⟩
  refine ⟨?_, ?_⟩
  · obtain ⟨file', m', hwrite, -, -⟩ := meterGJFModeWrite_read length_noFile ⟨0, 0, 0, 1, 4, 8, 0x19⟩
      (Vector.replicate 268 1) (Vector.replicate 268 1) (by decide +kernel) (by decide +kernel)
    obtain ⟨m', hread, hreturned⟩ := (hprice [] none file' _ (Vector.replicate 268 1) 8 rfl hwrite (.inl rfl)).mpr
      ⟨by decide +kernel, by decide +kernel, by decide +kernel⟩
    exact ⟨file', m', hwrite, hread, hreturned⟩
  · obtain ⟨dir, found, hwrite, hfound, hname, -⟩ := recordSeven_found ⟨0, 0, 0, 1, 4, 8, 0x19⟩
    obtain ⟨hevent, -⟩ := hcharge ⟨64, 256⟩ 0 0 [] dir found recordSeven recordSeven hwrite (by simp) hfound hname
    obtain ⟨m', dir', hread, hreturned⟩ := (hevent 4 (.inl rfl)).mpr ⟨by decide +kernel, by decide +kernel, by decide +kernel⟩
    exact ⟨dir, m', dir', hwrite, hread, hreturned⟩

/-- A price model that takes effect on the first of August 2019. -/
def augustModel : PriceModle := storeBytes 8 [0, 0, 0, 1, 4, 8, 0x19] (Vector.replicate 268 1)

/-- Read into a cleared record it takes effect in the nineteenth month of the year 2000, on weekday eight. -/
theorem effective_time_not_returned :
    ∃ file' m', meterGJFModeWrite ⟨0, 0, 0, 1, 4, 8, 0x19⟩ augustModel none = some (0, file') ∧
      meterGJFModeRead (Vector.replicate 268 0) file' = some (0, m') ∧ bytesAt augustModel 8 7 = [0, 0, 0, 1, 4, 8, 0x19] ∧
      bytesAt m' 8 7 = [0, 0, 0, 1, 8, 0x19, 0] ∧ ¬TimeReturned augustModel (Vector.replicate 268 0) m' 8 := by
  obtain ⟨file', m', hwrite, -, -⟩ := meterGJFModeWrite_read length_noFile ⟨0, 0, 0, 1, 4, 8, 0x19⟩ augustModel
    (Vector.replicate 268 0) (by decide +kernel) (by decide +kernel)
  have hread := meterGJFModeRead_written length_noFile hwrite (Vector.replicate 268 0)
  have hshifted : Shifted augustModel (Vector.replicate 268 0) _ 8 := priceModel_shifted (.inl rfl)
  refine ⟨file', _, hwrite, hread, by decide +kernel, ?_, ?_⟩
  · rw [hshifted.bytes]
    decide +kernel
  · rw [hshifted.returned_iff]
    intro hmonth
    exact absurd hmonth.month (by decide +kernel)

end StoredTimes

end EnergyRouter
