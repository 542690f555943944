import EnergyRouter.Records
import EnergyRouter.Lemmas.Scan
import EnergyRouter.Lib.BubbleSort

/-!
# Finding a record by how recent it is

What matters of a directory is the list of its files with the greatest name first. `Catalogue_Del_Oldest` takes the last one away,
`Find_path_file` cuts the list down to ten. The names are in the order of the numbers up to four digits.
-/

namespace EnergyRouter

open Numeral CString Memory

variable {least path content name : List Char} {names rows rows' : List (List Char)} {dir dir' : Dir}
    {files : List (List Char × List Char)} {number off q : Nat} {e : List Char × List Char} {found : Found} {room : Room}
    {clock : SystemTime} {result : Int} {m : Vector Byte 180}

section Pruning

/-- The name that is taken for the greatest. -/
def lastName : List Char := ascii "9999-991231080808.TXT"

/-- The files with the greatest name first. -/
def Newest (files : List (List Char × List Char)) : Prop := files.Pairwise fun e e' => e'.1 < e.1

theorem oldestFile_least (hle : ∀ name ∈ names, least ≤ name) :
    oldestFile least names = some least := by
  induction names with
  | nil => rfl
  | cons name names ih =>
    rw [List.forall_mem_cons] at hle
    rw [oldestFile, if_neg (fun hpos => absurd (strcmp_pos.mp hpos) (not_lt.mpr hle.1)), ih hle.2]

theorem oldestFile_eq {oldest : List Char} (hlen : ∀ name ∈ names, name.length < 22) (hmem : least ∈ names)
    (hle : ∀ name ∈ names, least ≤ name) (hlt : least < oldest) : oldestFile oldest names = some least := by
  induction names generalizing oldest with
  | nil => cases hmem
  | cons name names ih =>
    rw [List.forall_mem_cons] at hlen hle
    rw [oldestFile, if_pos hlen.1]
    rcases eq_or_ne least name with rfl | hne
    · rw [if_pos (strcmp_pos.mpr hlt), oldestFile_least hle.2]
    · have hmem : least ∈ names := (List.mem_cons.mp hmem).resolve_left hne
      split_ifs
      · exact ih hlen.2 hmem hle.2 (lt_of_le_of_ne hle.1 hne)
      · exact ih hlen.2 hmem hle.2 hlt

theorem catalogueDelOldest_eq {last : List Char × List Char} (hperm : dir.Perm (files ++ [last]))
    (hnewest : Newest (files ++ [last])) (hlen : ∀ e ∈ files ++ [last], e.1.length < 22) (hlast : last.1 < lastName)
    (hpath : path.length ≤ 26) :
    ∃ dir', catalogueDelOldest path dir = some dir' ∧ dir'.Perm files := by
  have hafter : ∀ e ∈ files, last.1 < e.1 := by
    intro e he
    exact (List.pairwise_append.mp hnewest).2.2 e he last (List.mem_singleton.mpr rfl)
  have hnames : ∀ name ∈ dir.map Prod.fst, ∃ e ∈ files ++ [last], e.1 = name := by
    intro name hname
    obtain ⟨e, he, hfst⟩ := List.mem_map.mp hname
    exact ⟨e, hperm.mem_iff.mp he, hfst⟩
  have holdest : oldestFile (ascii "9999-991231080808.TXT") (dir.map Prod.fst) = some last.1 := by
    refine oldestFile_eq ?_ (List.mem_map_of_mem (hperm.mem_iff.mpr (by simp))) ?_ hlast
    · intro name hname
      obtain ⟨e, he, rfl⟩ := hnames name hname
      exact hlen e he
    · intro name hname
      obtain ⟨e, he, rfl⟩ := hnames name hname
      rcases List.mem_append.mp he with hfiles | hsingle
      · exact (hafter e hfiles).le
      · rw [List.mem_singleton.mp hsingle]
  have hroom : (inPath path last.1).length < 49 := by
    have hname := hlen last (by simp)
    rw [inPath, List.length_append, List.length_cons]
    omega
  have hkeep : (files ++ [last]).filter (fun e => e.1 ≠ last.1) = files := by
    have hall : files.filter (fun e => e.1 ≠ last.1) = files :=
      List.filter_eq_self.mpr fun e he => by simpa using (hafter e he).ne'
    rw [List.filter_append, hall, List.filter_singleton]
    simp
  refine ⟨dir.filter fun e => e.1 ≠ last.1, ?_, ?_⟩
  · rw [catalogueDelOldest, holdest, Option.bind_eq_bind, Option.bind_some, if_pos hroom]
  · have hfilter := hperm.filter fun e => decide (e.1 ≠ last.1)
    rwa [hkeep] at hfilter

/-- As many files as are asked for are deleted from the end of the list. -/
theorem delOldest_eq {extra : List (List Char × List Char)} (hperm : dir.Perm (files ++ extra))
    (hnewest : Newest (files ++ extra)) (hlen : ∀ e ∈ files ++ extra, e.1.length < 22) (hextra : ∀ e ∈ extra, e.1 < lastName)
    (hpath : path.length ≤ 26) : ∃ dir', delOldest path extra.length dir = some dir' ∧ dir'.Perm files := by
  induction extra using List.reverseRecOn generalizing dir with
  | nil => exact ⟨dir, rfl, by simpa using hperm⟩
  | append_singleton extra last ih =>
    rw [← List.append_assoc] at hperm hnewest hlen
    obtain ⟨dir₁, hdel, hperm₁⟩ := catalogueDelOldest_eq hperm hnewest hlen (hextra last (by simp)) hpath
    obtain ⟨dir', hrest, hperm'⟩ := ih hperm₁ (List.pairwise_append.mp hnewest).1
      (fun e he => hlen e (List.mem_append_left _ he)) (fun e he => hextra e (List.mem_append_left _ he))
    refine ⟨dir', ?_, hperm'⟩
    rw [List.length_append, List.length_singleton, delOldest, hdel]
    exact hrest

end Pruning

section Sorting

theorem sortPass_eq (hlen : ∀ name ∈ rows, name.length < 22) (j : Nat) :
    sortPass j rows = some (BubbleSort.pass j rows) := by
  induction j generalizing rows with
  | zero => rfl
  | succ j ih =>
    match rows, hlen with
    | [], _ => rfl
    | [a], _ => rfl
    | a :: b :: rows, hlen =>
      rw [List.forall_mem_cons, List.forall_mem_cons] at hlen
      rw [sortPass, BubbleSort.pass, if_pos hlen.2.1, ih (List.forall_mem_cons.mpr ⟨hlen.1, hlen.2.2⟩),
        ih (List.forall_mem_cons.mpr ⟨hlen.2.1, hlen.2.2⟩)]
      by_cases hlt : a < b
      · rw [if_pos (strcmp_neg.mpr hlt), if_pos hlt, Option.map_some]
      · rw [if_neg (fun h => hlt (strcmp_neg.mp h)), if_neg hlt, Option.map_some]

theorem sortHistory_eq (hlen : ∀ name ∈ rows, name.length < 22) :
    sortHistory rows = some (BubbleSort.sort rows) := by
  rw [sortHistory, BubbleSort.sort]
  generalize List.range (rows.length - 1) = passes
  induction passes generalizing rows with
  | nil => rfl
  | cons i passes ih =>
    rw [List.foldlM_cons, sortPass_eq hlen, List.foldl_cons]
    exact ih fun name hname => hlen name ((BubbleSort.pass_perm _ rows).mem_iff.mp hname)

end Sorting

section Finding

/-- `Find_path_file` leaves the ten files with the greatest names, and gives the path of the one asked for. -/
theorem findPathFile_eq (hperm : dir.Perm files) (hnewest : Newest files) (hlen : ∀ e ∈ files, e.1.length < 22)
    (hold : ∀ e ∈ files.drop 10, e.1 < lastName) (hpath : path.length ≤ 26) (hne : files ≠ []) (hnumber : number < 10) :
    ∃ dir', dir'.Perm (files.take 10) ∧ findPathFile path number dir =
      some ⟨0, inPath path (((files.take 10).map Prod.fst).getD number []), (files.take 10).length, dir'⟩ := by
  -- What is left when the files that are too many are deleted.
  obtain ⟨dir', hprune, hperm'⟩ : ∃ dir', pruneHistory path dir = some dir' ∧ dir'.Perm (files.take 10) := by
    rw [pruneHistory]
    have hsplit : files = files.take 10 ++ files.drop 10 := (List.take_append_drop 10 files).symm
    have hcount := hperm.length_eq
    split_ifs with hmany
    · have hextra : dir.length - maxHistoryNum10 = (files.drop 10).length := by rw [List.length_drop, hcount]; rfl
      rw [hsplit] at hperm hnewest hlen
      rw [hextra]
      exact delOldest_eq hperm hnewest hlen hold hpath
    · have hfew : files.length ≤ 10 := by
        rw [maxHistoryNum10] at hmany
        omega
      exact ⟨dir, rfl, by rwa [List.take_of_length_le hfew]⟩
  have hnames : (dir'.map Prod.fst).Perm ((files.take 10).map Prod.fst) := hperm'.map Prod.fst
  have hshort : ∀ name ∈ dir'.map Prod.fst, name.length < 22 := by
    intro name hname
    obtain ⟨e, he, rfl⟩ := List.mem_map.mp (hnames.mem_iff.mp hname)
    exact hlen e (List.mem_of_mem_take he)
  have hsorted : BubbleSort.sort (dir'.map Prod.fst) = (files.take 10).map Prod.fst := by
    refine BubbleSort.sort_eq hnames ?_
    rw [List.pairwise_map]
    exact hnewest.sublist (List.take_sublist 10 files)
  have hcount : (dir'.map Prod.fst).length = (files.take 10).length := by rw [hnames.length_eq, List.length_map]
  have hroom : (inPath path (((files.take 10).map Prod.fst).getD number [])).length < 64 := by
    have hname : (((files.take 10).map Prod.fst).getD number []).length < 22 := by
      rw [List.getD_eq_getElem?_getD]
      cases hget : ((files.take 10).map Prod.fst)[number]? with
      | none => decide
      | some name =>
        obtain ⟨e, he, rfl⟩ := List.mem_map.mp (List.mem_of_getElem? hget)
        exact hlen e (List.mem_of_mem_take he)
    rw [inPath, List.length_append, List.length_cons]
    omega
  have hcond : (∀ name ∈ (dir'.map Prod.fst).take maxHistoryNum10, name.length < 24) ∧
      (dir'.map Prod.fst).length ≤ maxHistoryNum10 ∧ dir'.map Prod.fst ≠ [] ∧ number < maxHistoryNum10 := by
    refine ⟨?_, ?_, ?_, hnumber⟩
    · intro name hname
      have hlt := hshort name (List.mem_of_mem_take hname)
      omega
    · rw [hcount, List.length_take]
      exact Nat.min_le_left _ _
    · apply List.ne_nil_of_length_pos
      have hpos := List.length_pos_iff.mpr hne
      rw [hcount, List.length_take]
      omega
  refine ⟨dir', hperm', ?_⟩
  rw [findPathFile, hprune, Option.bind_eq_bind, Option.bind_some]
  dsimp only
  rw [if_pos hcond, sortHistory_eq hshort, Option.bind_eq_bind, Option.bind_some, hsorted, if_pos hroom, hcount]

theorem openFile_of_mem (he : e ∈ dir) (hcontent : ∀ e' ∈ dir, e'.1 = e.1 → e'.2 = content) :
    dir.openFile path (inPath path e.1) = some content := by
  have hsome : (dir.find? fun e' => inPath path e'.1 = inPath path e.1).isSome := by
    rw [List.find?_isSome]
    exact ⟨e, he, by simp⟩
  obtain ⟨found, hfound⟩ := Option.isSome_iff_exists.mp hsome
  have hname : found.1 = e.1 := by simpa [inPath] using List.find?_some hfound
  rw [Dir.openFile, hfound, Option.map_some, hcontent found (List.mem_of_find?_eq_some hfound) hname]

theorem openFile_eq (hperm : dir.Perm files) (hnewest : Newest files) (he : e ∈ files) :
    dir.openFile path (inPath path e.1) = some e.2 := by
  -- Two files of a name are one.
  have hnodup : (files.map Prod.fst).Nodup := by
    rw [List.Nodup, List.pairwise_map]
    exact hnewest.imp fun hlt => hlt.ne'
  refine openFile_of_mem (hperm.mem_iff.mpr he) ?_
  intro e' he' hname
  rw [List.inj_on_of_nodup_map hnodup (hperm.mem_iff.mp he') he hname]

theorem openFile_of_new (hnew : name ∉ dir.map Prod.fst) :
    dir.openFile path (inPath path name) = none := by
  rw [Dir.openFile, Option.map_eq_none_iff, List.find?_eq_none]
  intro e he heq
  have hsame : e.1 = name := by simpa [inPath] using heq
  exact hnew (hsame ▸ List.mem_map_of_mem he)

theorem delOldest_subset {i : Nat} (h : delOldest path i dir = some dir') : dir' ⊆ dir := by
  induction i generalizing dir with
  | zero =>
    cases h
    exact List.Subset.refl _
  | succ i ih =>
    obtain ⟨dir₁, hdel, hrest⟩ := Option.bind_eq_some_iff.mp h
    obtain ⟨oldest, -, hkept⟩ := Option.bind_eq_some_iff.mp hdel
    split_ifs at hkept
    cases hkept
    exact List.Subset.trans (ih hrest) (List.filter_sublist).subset

theorem pruneHistory_subset (h : pruneHistory path dir = some dir') : dir' ⊆ dir := by
  rw [pruneHistory] at h
  split_ifs at h
  · exact delOldest_subset h
  · cases h
    exact List.Subset.refl _

theorem sortPass_perm {j : Nat} (h : sortPass j rows = some rows') : rows'.Perm rows := by
  induction j, rows using sortPass.induct generalizing rows' with
  | case1 j a b rows hlt hlen ih =>
    rw [sortPass, if_pos hlt, if_pos hlen] at h
    obtain ⟨rest, hrest, rfl⟩ := Option.map_eq_some_iff.mp h
    exact ((ih hrest).cons b).trans (List.Perm.swap a b rows)
  | case2 j a b rows hlt hlen =>
    rw [sortPass, if_pos hlt, if_neg hlen] at h
    cases h
  | case3 j a b rows hlt ih =>
    rw [sortPass, if_neg hlt] at h
    obtain ⟨rest, hrest, rfl⟩ := Option.map_eq_some_iff.mp h
    exact (ih hrest).cons a
  | case4 j rows hshort =>
    rw [sortPass] at h
    · cases h
      exact List.Perm.refl _
    · exact hshort

theorem sortHistory_perm (h : sortHistory rows = some rows') : rows'.Perm rows := by
  rw [sortHistory] at h
  generalize List.range (rows.length - 1) = passes at h
  induction passes generalizing rows with
  | nil =>
    cases h
    exact List.Perm.refl _
  | cons i passes ih =>
    rw [List.foldlM_cons, Option.bind_eq_bind] at h
    obtain ⟨rows₁, hpass, hrest⟩ := Option.bind_eq_some_iff.mp h
    exact (ih hrest).trans (sortPass_perm hpass)

theorem openFile_found (hfound : findPathFile path number dir = some found) (hname : found.pathfile = inPath path name)
    (hne : name ≠ []) (hcontent : ∀ e ∈ dir, e.1 = name → e.2 = content) :
    found.dir.openFile path found.pathfile = some content := by
  obtain ⟨dir', hprune, h⟩ := Option.bind_eq_some_iff.mp hfound
  dsimp only at h
  split_ifs at h
  obtain ⟨rows, hsort, h⟩ := Option.bind_eq_some_iff.mp h
  split_ifs at h
  cases h
  -- The name is not empty, so it is one of the names that were sorted.
  have hrow : rows.getD number [] = name := by simpa [inPath] using hname
  have hmem : name ∈ dir'.map Prod.fst := by
    rw [List.getD_eq_getElem?_getD] at hrow
    cases hget : rows[number]? with
    | none =>
      rw [hget] at hrow
      exact absurd hrow.symm hne
    | some row =>
      rw [hget, Option.getD_some] at hrow
      exact (sortHistory_perm hsort).mem_iff.mp (hrow ▸ List.mem_of_getElem? hget)
  obtain ⟨e, he, rfl⟩ := List.mem_map.mp hmem
  rw [hname]
  exact openFile_of_mem he fun e' he' => hcontent e' (pruneHistory_subset hprune he')

end Finding

section Names

variable {n : Nat}

theorem length_recordName {m : Vector Byte n} (h : (orderNum m).toNat ≤ 9999) : (recordName m).length = 21 := by
  have hnumber : (decimalPad 4 (orderNum m).toNat).length = 4 := length_decimalPad (by decide) (Nat.lt_succ_of_le h)
  have hend : (ascii ".txt").length = 4 := by simp [ascii]
  simp only [recordName, List.length_append, List.length_cons, length_flatMap_hexByte, length_timeBytes, hnumber, hend]

theorem recordName_lt {m m' : Vector Byte n} (hlt : orderNum m < orderNum m') (h : (orderNum m').toNat ≤ 9999) :
    recordName m < recordName m' := by
  have hpad := decimalPad_lt (w := 4) (by decide) (Nat.lt_succ_of_le h) (BitVec.lt_def.mp hlt)
  have hlen : (decimalPad 4 (orderNum m).toNat).length = (decimalPad 4 (orderNum m').toNat).length := by
    have hm := (BitVec.lt_def.mp hlt).trans (Nat.lt_succ_of_le h)
    rw [length_decimalPad (by decide) hm, length_decimalPad (by decide) (Nat.lt_succ_of_le h)]
  rw [recordName, recordName, List.append_assoc, List.append_assoc]
  exact append_lt_append hlen hpad _ _

/-- A number below the greatest gives a name below the one that is taken for the greatest. -/
theorem recordName_lt_lastName {m : Vector Byte n} (h : (orderNum m).toNat < 9999) : recordName m < lastName := by
  have hlast : lastName = decimalPad 4 9999 ++ ascii "-991231080808.TXT" := by decide +kernel
  have hpad := decimalPad_lt (w := 4) (by decide) (by decide) h
  have hlen : (decimalPad 4 (orderNum m).toNat).length = (decimalPad 4 9999).length := by
    rw [length_decimalPad (by decide) (h.trans (by decide)), length_decimalPad (by decide) (by decide)]
  rw [recordName, hlast, List.append_assoc]
  exact append_lt_append hlen hpad _ _

end Names

section Writing

variable {n : Nat}

theorem EventStore.write_new {st : EventStore n} {place : Nat} {m : Vector Byte n}
    (hwrite : st.write room path place clock m dir = some (result, dir')) (hnew : recordName m ∉ dir.map Prod.fst) :
    dir' = dir.take place ++ (recordName m, st.text clock m) :: dir.drop place := by
  rw [EventStore.write] at hwrite
  split_ifs at hwrite
  rw [openFile_of_new hnew, File.save] at hwrite
  split_ifs at hwrite
  · simp only [Option.bind_eq_bind, Option.bind_some, Dir.put, if_neg hnew] at hwrite
    cases hwrite
    simp [spliceAt]
  · cases hwrite

end Writing

section Fields

variable {n : Nat}

theorem wordField_leaves (name : String) (h : q < off ∨ off + 4 ≤ q) :
    (wordField name off : Field (Vector Byte n)).Leaves (byteAt · q) := fun _ _ => byteAt_storeWord_of_disjoint h

theorem bytesField_leaves (name : String) {cnt : Nat} (h : q < off ∨ off + cnt ≤ q) :
    (bytesField name cnt off : Field (Vector Byte n)).Leaves (byteAt · q) :=
  fun _ _ hlen => byteAt_storeBytes_of_disjoint (by rwa [hlen])

theorem EventStore.read_leaves {st : EventStore n} (hleaves : ∀ f ∈ st.fields, f.Leaves (byteAt · q)) {dest m : Vector Byte n}
    (h : st.read path number dest dir = some (result, m, dir')) : byteAt m q = byteAt dest q := by
  obtain ⟨found, -, h⟩ := Option.bind_eq_some_iff.mp h
  dsimp only at h
  split at h
  · cases h
    rfl
  · split_ifs at h
    · cases h
      rfl
    · obtain ⟨buff, -, h⟩ := Option.bind_eq_some_iff.mp h
      obtain ⟨⟨fpoint, m'⟩, hfields, h⟩ := Option.bind_eq_some_iff.mp h
      cases h
      exact readFields_leaves hleaves hfields

end Fields

section ChargeRecord

/-- The lines a charge record begins with, with what reading them does. -/
def chargeEntries (m : Vector Byte 180) : List (Entry (Vector Byte 180)) :=
  [wordEntry (ascii "OrderNum") 4 (orderNum m) (storeWord 0), bytesEntry (ascii "StartTimestamp") (timeBytes m 4) (storeBytes 4),
    bytesEntry (ascii "FinishTimestamp") (timeBytes m 11) (storeBytes 11),
    wordEntry (ascii "Reason") 3 ((byteAt m 18).setWidth 32) (storeWord 18),
    wordEntry (ascii "ChannelState") 3 ((byteAt m 19).setWidth 32) (storeWord 19)]

/-- The other lines in the file. -/
def chargeRows (m : Vector Byte 180) : List (List Char × List Char) :=
  [(ascii "ChargeReqEle", decimalPad 8 (wordAt m 128).toNat), (ascii "RequestTimeStamp", (timeBytes m 132).flatMap hexByte),
    (ascii "PlanUnChg_TimeStamp", (timeBytes m 139).flatMap hexByte), (ascii "ChargeMode", decimalPad 8 (byteAt m 146).toNat),
    (ascii "StartMeterValue", decimalPad 8 (wordAt m 148).toNat), (ascii "StopMeterValue", decimalPad 8 (wordAt m 152).toNat),
    (ascii "ucChargeEle", decimalPad 8 (wordAt m 172).toNat), (ascii "ucChargeTime", decimalPad 8 (wordAt m 176).toNat)]

theorem chargeText_eq (clock : SystemTime) (m : Vector Byte 180) :
    chargeRecordStorage.text clock m = timeLine clock ++
      ((chargeEntries m).flatMap Entry.line ++ (chargeRows m).flatMap fun row => line row.1 row.2) := by
  have hwide (off : Nat) : ((byteAt m off).setWidth 32).toNat = (byteAt m off).toNat := BitVec.toNat_setWidth_of_le (by decide)
  simp only [chargeEntries, chargeRows, wordEntry, hwide, bytesEntry, List.flatMap_cons, List.flatMap_nil, Entry.line, Field.name,
    List.append_nil, List.append_assoc]
  simp only [EventStore.text, chargeRecordStorage, appended, discarded, List.filter_cons_of_pos, List.filter_nil, Bool.false_eq_true,
    not_false_eq_true, List.filter_cons_of_neg, List.flatMap_cons, List.flatMap_nil, List.append_nil]
  rfl

theorem chargeFields_eq (m : Vector Byte 180) :
    chargeRecordStorage.fields = (chargeEntries m).map Entry.field ++ chargeRecordStorage.fields.drop 5 := by
  simp only [chargeEntries, bytesEntry, length_timeBytes]
  rfl

theorem chargeEntries_sound (m : Vector Byte 180) : ∀ e ∈ chargeEntries m, e.Sound := by
  have hnames : IsName (ascii "OrderNum") ∧ IsName (ascii "StartTimestamp") ∧ IsName (ascii "FinishTimestamp") ∧
      IsName (ascii "Reason") ∧ IsName (ascii "ChannelState") := by
    simp only [ascii]
    decide
  obtain ⟨hnum, hstart, hfinish, hreason, hstate⟩ := hnames
  have htime (off : Nat) : timeBytes m off ≠ [] ∧ (timeBytes m off).length < 24 := by
    have hlen := length_timeBytes m off
    exact ⟨List.ne_nil_of_length_pos (by omega), by omega⟩
  simp only [chargeEntries, List.forall_mem_cons]
  exact ⟨wordEntry_sound hnum (by decide) _ _, bytesEntry_sound hstart (htime 4).1 (htime 4).2 _,
    bytesEntry_sound hfinish (htime 11).1 (htime 11).2 _, wordEntry_sound hreason (by decide) _ _,
    wordEntry_sound hstate (by decide) _ _, by simp⟩

theorem chargeRows_isName (m : Vector Byte 180) : ∀ row ∈ chargeRows m, IsName row.1 := by
  have hnames : ∀ name ∈ [ascii "ChargeReqEle", ascii "RequestTimeStamp", ascii "PlanUnChg_TimeStamp", ascii "ChargeMode",
      ascii "StartMeterValue", ascii "StopMeterValue", ascii "ucChargeEle", ascii "ucChargeTime"], IsName name := by
    simp only [ascii]
    decide
  intro row hrow
  exact hnames row.1 (List.mem_map_of_mem (f := Prod.fst) hrow)

theorem chargeRows_isHex (m : Vector Byte 180) : ∀ row ∈ chargeRows m, ∀ c ∈ row.2, IsHex c := by
  have htime (off : Nat) : ∀ c ∈ (timeBytes m off).flatMap hexByte, IsHex c := by
    intro c hc
    obtain ⟨b, -, hb⟩ := List.mem_flatMap.mp hc
    exact isHex_of_mem_hexPad hb
  have hdigits (k : Nat) : ∀ c ∈ decimalPad 8 k, IsHex c := fun _ hc => .inl (isDigit_of_mem_decimalPad hc)
  simp only [chargeRows, List.forall_mem_cons]
  exact ⟨hdigits _, htime _, htime _, hdigits _, hdigits _, hdigits _, hdigits _, hdigits _, by simp⟩

/-- Behind the state of the channel the reader looks for the request's number, which is not in the file: nothing more is read. -/
theorem readFields_chargeRecord (clock : SystemTime) (m dest : Vector Byte 180) :
    ∃ fpoint, readFields chargeRecordStorage.fields (chargeRecordStorage.text clock m) dest =
      some (fpoint, (chargeEntries m).foldl (fun s e => e.effect s) dest) := by
  have hmissed : ∀ p ∈ (chargeRows m).zip (chargeRecordStorage.fields.drop 5), p.1.1 ≠ p.2.name := by
    have hnames : ∀ p ∈ [ascii "ChargeReqEle", ascii "RequestTimeStamp", ascii "PlanUnChg_TimeStamp", ascii "ChargeMode",
        ascii "StartMeterValue", ascii "StopMeterValue", ascii "ucChargeEle", ascii "ucChargeTime"].zip
        ((chargeRecordStorage.fields.drop 5).map Field.name), p.1 ≠ p.2 := by decide +kernel
    intro p hp
    refine hnames (p.1.1, p.2.name) ?_
    have hmap := List.mem_map_of_mem (f := Prod.map Prod.fst Field.name) hp
    rwa [← List.zip_map] at hmap
  have hfields : ∀ f ∈ chargeRecordStorage.fields.drop 5, f.name ≠ [] := by
    have hnames : ∀ name ∈ (chargeRecordStorage.fields.drop 5).map Field.name, name ≠ [] := by decide +kernel
    intro f hf
    exact hnames f.name (List.mem_map_of_mem hf)
  rw [chargeText_eq]
  obtain ⟨fpoint, hread, hahead⟩ := readFields_entries (chargeEntries_sound m) (ahead_timeLine clock _) dest
  obtain ⟨fpoint', hrest⟩ := readFields_missed hfields (chargeRows_isName m)
    (fun row hrow c hc => isLineEnd_of_isHex (chargeRows_isHex m row hrow c hc)) hmissed hahead
    ((chargeEntries m).foldl (fun s e => e.effect s) dest)
  refine ⟨fpoint', ?_⟩
  rw [chargeFields_eq m, readFields_append, hread, Option.bind_some]
  exact hrest

/-- No line takes more than 139 characters; the longest is the one with the user. -/
theorem length_chargeLines (clock : SystemTime) (m : Vector Byte 180) :
    ∀ l ∈ chargeRecordStorage.lines clock m, l.1.length ≤ 139 := by
  have hword (name : String) {w : Nat} (hw : w ≤ 10) (off : Nat) (hname : (ascii name).length ≤ 19) :
      (wordLine name w m off).length ≤ 139 := by
    have hvalue : (decimalPad w (wordAt m off).toNat).length ≤ 10 :=
      length_decimalPad_le (by decide) hw (Nat.lt_of_lt_of_le (wordAt m off).isLt (by decide))
    rw [wordLine, length_line]
    omega
  have hbyte (name : String) {w : Nat} (hw : w ≤ 10) (off : Nat) (hname : (ascii name).length ≤ 19) :
      (byteLine name w m off).length ≤ 139 := by
    have hvalue : (decimalPad w (byteAt m off).toNat).length ≤ 10 :=
      length_decimalPad_le (by decide) hw (Nat.lt_of_lt_of_le (byteAt m off).isLt (by decide))
    rw [byteLine, length_line]
    omega
  have htime (name : String) (off : Nat) (hname : (ascii name).length ≤ 19) : (timestampLine name m off).length ≤ 139 := by
    rw [timestampLine, length_line, length_flatMap_hexByte, length_timeBytes]
    omega
  have harray (name : String) (off len : Nat) (hname : (ascii name).length + len * 2 ≤ 137) :
      (arrayLine name m off len).length ≤ 139 := by
    rw [arrayLine, length_line, length_flatMap_hexByte, length_bytesAt]
    omega
  have hnames : ∀ name ∈ ["OrderNum", "StartTimestamp", "FinishTimestamp", "Reason", "ChannelState", "ChargeReqEle",
      "RequestTimeStamp", "PlanUnChg_TimeStamp", "ChargeMode", "StartMeterValue", "StopMeterValue", "ChgStartTime", "ChgStopTime",
      "ucChargeEle", "ucChargeTime"], (ascii name).length ≤ 19 := by simp [ascii]
  have harrays : (ascii "RequestNO").length + 17 * 2 ≤ 137 ∧ (ascii "cUserID").length + 65 * 2 ≤ 137 ∧
      (ascii "AssetNO").length + 23 * 2 ≤ 137 := by simp [ascii]
  simp only [List.forall_mem_cons] at hnames
  simp only [chargeRecordStorage, appended, discarded, List.forall_mem_cons]
  simp [hnames, harrays, hword, hbyte, htime, harray]

theorem length_chargeText (clock : SystemTime) (m : Vector Byte 180) : (chargeRecordStorage.text clock m).length < maxMallocNum := by
  have hcount : ((chargeRecordStorage.lines clock m).filter Prod.snd).length = 14 := rfl
  have hlines : ∀ l ∈ (chargeRecordStorage.lines clock m).filter Prod.snd, l.1.length ≤ 139 :=
    fun l hl => length_chargeLines clock m l (List.mem_of_mem_filter hl)
  have htext : (chargeRecordStorage.text clock m).length ≤
      (((chargeRecordStorage.lines clock m).filter Prod.snd).map fun _ => 139).sum :=
    length_flatMap_le hlines
  rw [List.map_const', List.sum_replicate, hcount] at htext
  exact Nat.lt_of_le_of_lt htext (by decide)

theorem unbroken_chargeText (clock : SystemTime) (m : Vector Byte 180) : Unbroken (chargeRecordStorage.text clock m) := by
  have hrow : ∀ row ∈ chargeRows m, Unbroken (line row.1 row.2) := by
    intro row hrow
    simp [line, unbroken_append, unbroken_cons, unbroken_nil, (chargeRows_isName m row hrow).unbroken,
      unbroken_of_isHex (chargeRows_isHex m row hrow)]
  rw [chargeText_eq, unbroken_append, unbroken_append]
  exact ⟨unbroken_timeLine clock, unbroken_flatMap fun e he => (chargeEntries_sound m e he).unbroken_line, unbroken_flatMap hrow⟩

theorem chargeRecordStorage_write (hbuffer : 140 ≤ room.buffer) (hpath : (recordName m).length + 1 < room.path)
    (hname : (recordName m).length < 50) (hnew : recordName m ∉ dir.map Prod.fst) (place : Nat) (clock : SystemTime) :
    chargeRecordStorage.write room chargeRecordPath place clock m dir =
      some (0, dir.take place ++ (recordName m, chargeRecordStorage.text clock m) :: dir.drop place) := by
  have hroot : chargeRecordPath.length = 13 := by decide +kernel
  have hcond : (recordName m).length + 1 < room.path ∧ (inPath chargeRecordPath (recordName m)).length < 64 ∧
      ∀ l ∈ chargeRecordStorage.lines clock m, l.1.length < room.buffer := by
    refine ⟨hpath, ?_, ?_⟩
    · rw [inPath, List.length_append, List.length_cons, hroot]
      omega
    · intro l hl
      have hline := length_chargeLines clock m l hl
      omega
  have hsave : File.save none (chargeRecordStorage.text clock m) = some (0, some (chargeRecordStorage.text clock m)) := by
    rw [File.save, if_pos (length_chargeText clock m)]
    simp [spliceAt]
  rw [EventStore.write, if_pos hcond, openFile_of_new hnew, hsave, Option.bind_eq_bind, Option.bind_some]
  simp [Dir.put, hnew]

theorem chargeRecordStorage_read {dest : Vector Byte 180} (hfound : findPathFile chargeRecordPath number dir = some found)
    (hopen : found.dir.openFile chargeRecordPath found.pathfile = some (chargeRecordStorage.text clock m)) :
    chargeRecordStorage.read chargeRecordPath number dest dir =
      some (0, (chargeEntries m).foldl (fun s e => e.effect s) dest, found.dir) := by
  have hlen := length_chargeText clock m
  have hbuff : readBuff (chargeRecordStorage.text clock m) = some (chargeRecordStorage.text clock m) := by
    have hstring := cString_append (unbroken_chargeText clock m) []
    rw [List.append_nil] at hstring
    rw [readBuff, List.take_of_length_le (Nat.le_of_lt hlen), if_pos hlen, hstring]
    simp [cString]
  have hne : (chargeRecordStorage.text clock m).length ≠ 0 := by
    rw [chargeText_eq, List.length_append, length_timeLine]
    omega
  obtain ⟨fpoint, hread⟩ := readFields_chargeRecord clock m dest
  rw [EventStore.read, hfound, Option.bind_eq_bind, Option.bind_some]
  dsimp only
  rw [hopen]
  dsimp only
  rw [if_neg hne, hbuff, Option.bind_eq_bind, Option.bind_some, hread]
  rfl

end ChargeRecord

end EnergyRouter
