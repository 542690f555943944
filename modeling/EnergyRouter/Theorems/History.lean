import EnergyRouter.Lemmas.Records
import EnergyRouter.Lib.Runs

/-!
# The history of the charge records

Over every run of writes and reads the directory holds the files of the newest records, at least ten of them or all there are, and a
read finds the record it asks for. This rests on the names being in the order of the numbers, as long as the texts of the writer
have room.
-/

namespace EnergyRouter

open Memory Numeral

variable {room : Room} {clock : SystemTime} {m : Vector Byte 180} {place : Nat}

section History

/-- A write of a record, to which the directory gives some place, or a read of the record with a number. -/
inductive RecordCall where
  | write (clock : SystemTime) (m : Vector Byte 180) (place : Nat)
  | read (number : Nat) (dest : Vector Byte 180)

/-- The directory, and what was written, the newest first. -/
structure History where
  dir : Dir
  written : List (SystemTime × Vector Byte 180)

/-- A call of `Charge_Record_Storage`. -/
def History.step (room : Room) (s : History) : RecordCall → Option History
  | .write clock m place =>
    (chargeRecordStorage.write room chargeRecordPath place clock m s.dir).map fun r => ⟨r.2, (clock, m) :: s.written⟩
  | .read number dest => (chargeRecordStorage.read chargeRecordPath number dest s.dir).map fun r => ⟨r.2.2, s.written⟩

/-- The file of a record. -/
def recordFile (w : SystemTime × Vector Byte 180) : List Char × List Char := (recordName w.2, chargeRecordStorage.text w.1 w.2)

/-- A read of one of the ten newest records opens the file it was written to, and what it deletes are files of older ones. -/
def History.OpensRecent (s : History) : Prop :=
  ∀ k < 10, ∀ w, s.written[k]? = some w → ∃ found, findPathFile chargeRecordPath k s.dir = some found ∧
    found.pathfile = inPath chargeRecordPath (recordName w.2) ∧
    found.dir.openFile chargeRecordPath found.pathfile = some (chargeRecordStorage.text w.1 w.2) ∧
    ∀ e ∈ s.dir, e ∈ found.dir ∨ ∃ old ∈ s.written.drop 10, e = recordFile old

/-- A record has a number of four digits above those before it, and a read asks for one of the ten newest records of a history that
is not empty. -/
def History.Allowed (s : History) : RecordCall → Prop
  | .write _ m _ => (orderNum m).toNat ≤ 9999 ∧ ∀ w ∈ s.written, orderNum w.2 < orderNum m
  | .read number _ => number < 10 ∧ s.written ≠ []

/-- The directory holds the newest records, ten or all there are, whose numbers are in order. -/
structure History.Inv (s : History) : Prop where
  number : ∀ w ∈ s.written, (orderNum w.2).toNat ≤ 9999
  order : s.written.Pairwise fun w w' => orderNum w'.2 < orderNum w.2
  holds : ∃ j, min 10 s.written.length ≤ j ∧ s.dir.Perm ((s.written.take j).map recordFile)

variable {s : History}

/-- The files of the newest records are the ones with the greatest names. -/
theorem History.Inv.newest (h : s.Inv) (j : Nat) : Newest ((s.written.take j).map recordFile) := by
  rw [Newest, List.pairwise_map]
  refine List.Pairwise.sublist (List.take_sublist j s.written) ?_
  refine h.order.imp_of_mem ?_
  intro w w' hw _ hlt
  exact recordName_lt hlt (h.number w hw)

theorem History.Inv.length_lt (h : s.Inv) (j : Nat) : ∀ e ∈ (s.written.take j).map recordFile, e.1.length < 22 := by
  intro e he
  obtain ⟨w, hw, rfl⟩ := List.mem_map.mp he
  have hlen := length_recordName (h.number w (List.mem_of_mem_take hw))
  rw [recordFile, hlen]
  decide

theorem History.Inv.old (h : s.Inv) (j : Nat) : ∀ e ∈ ((s.written.take j).map recordFile).drop 10, e.1 < lastName := by
  intro e he
  rw [← List.map_drop] at he
  obtain ⟨w, hw, rfl⟩ := List.mem_map.mp he
  rw [List.drop_take] at hw
  have hdrop := List.mem_of_mem_take hw
  cases hwritten : s.written with
  | nil =>
    rw [hwritten] at hdrop
    cases hdrop
  | cons first rest =>
    have hnumber := h.number first (by rw [hwritten]; exact List.mem_cons_self)
    have horder := h.order
    rw [hwritten] at hdrop horder
    have hlt := BitVec.lt_def.mp ((List.pairwise_cons.mp horder).1 w (List.mem_of_mem_drop (i := 9) hdrop))
    exact recordName_lt_lastName (by omega)

theorem length_chargeRecordPath : chargeRecordPath.length ≤ 26 := by decide +kernel

/-- What `Find_path_file` finds in the directory of a history. -/
theorem History.Inv.find (h : s.Inv) {k : Nat} (hk : k < 10) (hne : s.written ≠ []) :
    ∃ dir', dir'.Perm ((s.written.take 10).map recordFile) ∧ findPathFile chargeRecordPath k s.dir =
      some ⟨0, inPath chargeRecordPath (((s.written.take 10).map fun w => recordName w.2).getD k []),
        (s.written.take 10).length, dir'⟩ := by
  obtain ⟨j, hj, hperm⟩ := h.holds
  have hpos := List.length_pos_iff.mpr hne
  have hfiles : (s.written.take j).map recordFile ≠ [] := by
    rw [ne_eq, List.map_eq_nil_iff, List.take_eq_nil_iff]
    rintro (hzero | hnil)
    · omega
    · exact hne hnil
  have hten : ((s.written.take j).map recordFile).take 10 = (s.written.take 10).map recordFile := by
    rw [← List.map_take, List.take_take]
    congr 1
    rcases Nat.le_total 10 s.written.length with hlong | hshort
    · rw [Nat.min_eq_left (by omega)]
    · rw [List.take_of_length_le (i := 10) hshort, List.take_of_length_le (by omega)]
  obtain ⟨dir', hperm', hfound⟩ := findPathFile_eq hperm (h.newest j) (h.length_lt j) (h.old j) length_chargeRecordPath hfiles hk
  rw [hten] at hperm' hfound
  rw [List.map_map, List.length_map] at hfound
  exact ⟨dir', hperm', hfound⟩

theorem History.Inv.opensRecent (h : s.Inv) : s.OpensRecent := by
  intro k hk w hw
  have hne : s.written ≠ [] := by
    rintro hnil
    rw [hnil] at hw
    cases hw
  have hrecent : (s.written.take 10)[k]? = some w := by rw [List.getElem?_take_of_lt hk, hw]
  obtain ⟨dir', hperm, hfound⟩ := h.find hk hne
  have hname : ((s.written.take 10).map fun w => recordName w.2).getD k [] = recordName w.2 := by
    rw [List.getD_eq_getElem?_getD, List.getElem?_map, hrecent]
    rfl
  rw [hname] at hfound
  have hmem : recordFile w ∈ (s.written.take 10).map recordFile := List.mem_map_of_mem (List.mem_of_getElem? hrecent)
  refine ⟨_, hfound, rfl, openFile_eq hperm (h.newest 10) hmem, ?_⟩
  -- A file that is gone is one of a record behind the ten newest.
  intro e he
  obtain ⟨j, -, hdir⟩ := h.holds
  obtain ⟨old, hold, rfl⟩ := List.mem_map.mp (hdir.mem_iff.mp he)
  have hwritten := List.mem_of_mem_take hold
  rw [← List.take_append_drop 10 s.written, List.mem_append] at hwritten
  rcases hwritten with hnew | hdrop
  · exact .inl (hperm.mem_iff.mpr (List.mem_map_of_mem hnew))
  · exact .inr ⟨old, hdrop, rfl⟩

theorem History.Inv.write (hpath : 23 ≤ room.path) (hbuffer : 140 ≤ room.buffer) (h : s.Inv)
    (hallowed : s.Allowed (.write clock m place)) :
    ∃ s', s.step room (.write clock m place) = some s' ∧ s'.Inv := by
  obtain ⟨hnum, hlt⟩ := hallowed
  obtain ⟨j, hj, hperm⟩ := h.holds
  have hnew : recordName m ∉ s.dir.map Prod.fst := by
    intro hin
    obtain ⟨e, he, hname⟩ := List.mem_map.mp hin
    obtain ⟨w, hw, rfl⟩ := List.mem_map.mp (hperm.mem_iff.mp he)
    exact (recordName_lt (hlt w (List.mem_of_mem_take hw)) hnum).ne hname
  have hlen := length_recordName hnum
  have hwrite := chargeRecordStorage_write hbuffer (by omega) (by omega) hnew place clock
  refine ⟨⟨_, (clock, m) :: s.written⟩, by rw [History.step, hwrite]; rfl, ?_, ?_, ?_⟩
  · exact List.forall_mem_cons.mpr ⟨hnum, h.number⟩
  · exact List.pairwise_cons.mpr ⟨hlt, h.order⟩
  · refine ⟨j + 1, by rw [List.length_cons]; omega, ?_⟩
    have hmiddle : (s.dir.take place ++ recordFile (clock, m) :: s.dir.drop place).Perm
        (recordFile (clock, m) :: (s.dir.take place ++ s.dir.drop place)) := List.perm_middle
    rw [List.take_append_drop] at hmiddle
    rw [List.take_succ_cons, List.map_cons]
    exact hmiddle.trans (hperm.cons _)

theorem History.written_of_write {s' : History} (h : s.step room (.write clock m place) = some s') :
    s'.written = (clock, m) :: s.written := by
  obtain ⟨_, -, rfl⟩ := Option.map_eq_some_iff.mp h
  rfl

theorem History.Inv.read (h : s.Inv) {number : Nat} {dest : Vector Byte 180} (hallowed : s.Allowed (.read number dest)) :
    ∃ s', s.step room (.read number dest) = some s' ∧ s'.Inv := by
  obtain ⟨hnumber, hne⟩ := hallowed
  obtain ⟨dir', hperm, hfound⟩ := h.find hnumber hne
  have hinv : History.Inv ⟨dir', s.written⟩ := ⟨h.number, h.order, 10, Nat.min_le_left _ _, hperm⟩
  refine ⟨⟨dir', s.written⟩, ?_, hinv⟩
  cases hw : s.written[number]? with
  | some w =>
    obtain ⟨found, hfound', hpath, hopen, -⟩ := h.opensRecent number hnumber w hw
    cases hfound.symm.trans hfound'
    rw [History.step, chargeRecordStorage_read hfound hopen]
    rfl
  | none =>
    -- There are not so many records: the path is that of the directory, which is no file.
    have hname : ((s.written.take 10).map fun w => recordName w.2).getD number [] = [] := by
      rw [List.getD_eq_getElem?_getD, List.getElem?_map, List.getElem?_take_of_lt hnumber, hw]
      rfl
    rw [hname] at hfound
    have hnone : Dir.openFile dir' chargeRecordPath (inPath chargeRecordPath []) = none := by
      rw [Dir.openFile, Option.map_eq_none_iff, List.find?_eq_none]
      intro e he heq
      obtain ⟨w, hw, rfl⟩ := List.mem_map.mp (hperm.mem_iff.mp he)
      have hempty : recordName w.2 = [] := by simpa [inPath, recordFile] using heq
      have hlen := length_recordName (h.number w (List.mem_of_mem_take hw))
      rw [hempty] at hlen
      cases hlen
    rw [History.step, EventStore.read, hfound, Option.bind_eq_bind, Option.bind_some]
    dsimp only
    rw [hnone]
    rfl

/-- Over every run of writes and reads of charge records with numbers of four digits, each above those before it, every call
returns, and after each of them a read of one of the ten newest records opens it and deletes none of the ten. The file's name and
the line with the user need more room than `path[18]` and `buffer[48]` have. -/
theorem history_opens_recent (room : Room) (hpath : 23 ≤ room.path) (hbuffer : 140 ≤ room.buffer) (calls : List RecordCall)
    (hallowed : Runs.Meets (History.step room) History.Allowed ⟨[], []⟩ calls) :
    Runs.Keeps (History.step room) (fun _ s => s.OpensRecent) ⟨[], []⟩ calls := by
  have hinit : History.Inv ⟨[], []⟩ := ⟨by simp, List.Pairwise.nil, 0, by simp, List.Perm.refl _⟩
  have hstep : ∀ (s : History) (call : RecordCall), s.Inv → s.Allowed call → ∃ s', s.step room call = some s' ∧ s'.Inv := by
    intro s call hinv hcall
    cases call with
    | write clock m place => exact hinv.write hpath hbuffer hcall
    | read number dest => exact hinv.read hcall
  exact hallowed.keeps hstep (fun s hinv => hinv.opensRecent) hinit

/-- The first of August 2019. -/
def august : SystemTime := ⟨0, 0, 0, 1, 4, 8, 0x19⟩

/-- A record with a number and nothing else. -/
def numbered (k : BitVec 32) : Vector Byte 180 := storeWord 0 k (Vector.replicate 180 0)

theorem orderNum_numbered (k : BitVec 32) : orderNum (numbered k) = k := wordAt_storeWord (by decide)

/-- A record is written and read. -/
theorem history_opens_recent_once :
    Runs.Keeps (History.step ⟨64, 256⟩) (fun _ s => s.OpensRecent) ⟨[], []⟩
      [.write august (numbered 1) 0, .read 0 (numbered 0)] := by
  refine history_opens_recent ⟨64, 256⟩ (by decide) (by decide) _ ⟨⟨?_, by simp⟩, ?_⟩
  · rw [orderNum_numbered]
    decide
  · intro s' hs'
    refine ⟨⟨by decide, ?_⟩, fun _ _ => trivial⟩
    rw [History.written_of_write hs']
    exact List.cons_ne_nil _ _

/-- After records 9999 and 10000 the most recent one is taken to be 9999. -/
theorem history_misorders_five_digits :
    ∃ s found, Runs.run (History.step ⟨64, 256⟩) ⟨[], []⟩
        [.write august (numbered 9999) 0, .write august (numbered 10000) 0] = some s ∧
      s.written[0]? = some (august, numbered 10000) ∧
      recordName (numbered 10000) ≠ recordName (numbered 9999) ∧ findPathFile chargeRecordPath 0 s.dir = some found ∧
      found.pathfile = inPath chargeRecordPath (recordName (numbered 9999)) := by
  have hshort : (recordName (numbered 9999)).length = 21 := by decide +kernel
  have hlong : (recordName (numbered 10000)).length = 22 := by decide +kernel
  have hne : recordName (numbered 10000) ≠ recordName (numbered 9999) := by
    intro heq
    rw [heq, hshort] at hlong
    cases hlong
  have hfirst : History.step ⟨64, 256⟩ ⟨[], []⟩ (.write august (numbered 9999) 0) =
      some ⟨[recordFile (august, numbered 9999)], [(august, numbered 9999)]⟩ := by
    rw [History.step, chargeRecordStorage_write (by decide) (by rw [hshort]; decide) (by rw [hshort]; decide) (by simp)]
    rfl
  have hsecond : History.step ⟨64, 256⟩ ⟨[recordFile (august, numbered 9999)], [(august, numbered 9999)]⟩
      (.write august (numbered 10000) 0) = some ⟨[recordFile (august, numbered 10000), recordFile (august, numbered 9999)],
        [(august, numbered 10000), (august, numbered 9999)]⟩ := by
    rw [History.step, chargeRecordStorage_write (by decide) (by rw [hlong]; decide) (by rw [hlong]; decide)
      (by simpa [recordFile] using hne)]
    rfl
  -- Two files are sorted by their names, and the first of them is found.
  have hfind (e e' : List Char × List Char) (he : e.1.length < 24) (he' : e'.1.length < 24)
      (hsort : sortHistory [e.1, e'.1] = some [e'.1, e.1]) (hroom : (inPath chargeRecordPath e'.1).length < 64) :
      findPathFile chargeRecordPath 0 [e, e'] = some ⟨0, inPath chargeRecordPath e'.1, 2, [e, e']⟩ := by
    simp [findPathFile, pruneHistory, maxHistoryNum10, he, he', hsort, hroom]
  have hsort : sortHistory [recordName (numbered 10000), recordName (numbered 9999)] =
      some [recordName (numbered 9999), recordName (numbered 10000)] := by decide +kernel
  refine ⟨⟨[recordFile (august, numbered 10000), recordFile (august, numbered 9999)],
    [(august, numbered 10000), (august, numbered 9999)]⟩, ⟨0, inPath chargeRecordPath (recordName (numbered 9999)), 2,
    [recordFile (august, numbered 10000), recordFile (august, numbered 9999)]⟩, ?_, rfl, hne, ?_, rfl⟩
  · rw [Runs.run, hfirst, Option.bind_some, Runs.run, hsecond]
    rfl
  · exact hfind _ _ (by rw [recordFile, hlong]; decide) (by rw [recordFile, hshort]; decide) hsort (by decide +kernel)

end History

section Selection

variable {path : List Char} {dir : Dir} {files : List (List Char × List Char)}

/-- How many files of the directory have a greater name. -/
def Dir.newer (dir : Dir) (name : List Char) : Nat := dir.countP fun e => name < e.1

/-- `Find_path_file` is to leave the ten files with the greatest names, or all there are, count them, and give the path of the one
with as many before it as it was asked for. -/
structure Selects (path : List Char) (dir : Dir) (number : Nat) (found : Found) : Prop where
  result : found.result = 0
  left : found.dir.Perm (dir.filter fun e => dir.newer e.1 < 10)
  length_left : found.dir.length = min dir.length 10
  filenum : found.filenum = min dir.length 10
  pathfile : number < min dir.length 10 → ∃ e ∈ dir, dir.newer e.1 = number ∧ found.pathfile = inPath path e.1

/-- In the list with the greatest name first a file stands behind those with a greater one. -/
theorem newer_eq (hperm : dir.Perm files) (hnewest : Newest files) {i : Nat} {e : List Char × List Char} (he : files[i]? = some e) :
    dir.newer e.1 = i := by
  obtain ⟨hi, hget⟩ := List.getElem?_eq_some_iff.mp he
  have hsplit : files = files.take i ++ e :: files.drop (i + 1) := by
    rw [← hget, List.getElem_cons_drop, List.take_append_drop]
  rw [Newest, hsplit, List.pairwise_append, List.pairwise_cons] at hnewest
  obtain ⟨-, ⟨hback, -⟩, hfront⟩ := hnewest
  have hbefore : (files.take i).countP (fun e' => e.1 < e'.1) = i := by
    rw [List.countP_eq_length.mpr fun e' he' => decide_eq_true (hfront e' he' e List.mem_cons_self), List.length_take]
    omega
  have hbehind : (files.drop (i + 1)).countP (fun e' => e.1 < e'.1) = 0 := by
    rw [List.countP_eq_zero]
    intro e' he' hlt
    exact lt_asymm (hback e' he') (of_decide_eq_true hlt)
  rw [Dir.newer, hperm.countP_eq, hsplit, List.countP_append, List.countP_cons, hbefore, hbehind]
  simp

/-- The files with fewer than `k` before them are the first `k` of the list. -/
theorem filter_newer (hperm : dir.Perm files) (hnewest : Newest files) (k : Nat) :
    files.filter (fun e => dir.newer e.1 < k) = files.take k := by
  have hfront : (files.take k).filter (fun e => dir.newer e.1 < k) = files.take k := by
    rw [List.filter_eq_self]
    intro e he
    obtain ⟨i, hget⟩ := List.getElem?_of_mem he
    have hi : i < k := by
      have hlen := (List.getElem?_eq_some_iff.mp hget).1
      rw [List.length_take] at hlen
      omega
    rw [List.getElem?_take_of_lt hi] at hget
    rw [newer_eq hperm hnewest hget]
    exact decide_eq_true hi
  have hback : (files.drop k).filter (fun e => dir.newer e.1 < k) = [] := by
    rw [List.filter_eq_nil_iff]
    intro e he
    obtain ⟨i, hget⟩ := List.getElem?_of_mem he
    rw [List.getElem?_drop] at hget
    rw [newer_eq hperm hnewest hget]
    simp
  calc files.filter (fun e => dir.newer e.1 < k)
      = (files.take k ++ files.drop k).filter (fun e => dir.newer e.1 < k) := by rw [List.take_append_drop]
    _ = files.take k := by rw [List.filter_append, hfront, hback, List.append_nil]

/-- Files with different names can be put in order. -/
theorem exists_newest (hnodup : (dir.map Prod.fst).Nodup) : ∃ files, dir.Perm files ∧ Newest files := by
  refine ⟨dir.mergeSort fun e e' => e'.1 ≤ e.1, (List.mergeSort_perm _ _).symm, ?_⟩
  have horder : (dir.mergeSort fun e e' => e'.1 ≤ e.1).Pairwise fun e e' => e'.1 ≤ e.1 := by
    refine (List.pairwise_mergeSort ?_ ?_ dir).imp of_decide_eq_true
    · intro a b c hab hbc
      exact decide_eq_true ((of_decide_eq_true hbc).trans (of_decide_eq_true hab))
    · intro a b
      rw [Bool.or_eq_true, decide_eq_true_iff, decide_eq_true_iff]
      exact le_total b.1 a.1
  have hdistinct : (dir.mergeSort fun e e' => e'.1 ≤ e.1).Pairwise fun e e' => e.1 ≠ e'.1 := by
    rw [← List.pairwise_map]
    exact ((List.mergeSort_perm dir fun e e' => e'.1 ≤ e.1).map Prod.fst).nodup_iff.mpr hnodup
  exact (horder.and hdistinct).imp fun h => lt_of_le_of_ne h.1 h.2.symm

/-- From a directory of any number of files, with names of at most 21 characters below the one that is taken for the greatest,
`Find_path_file` selects. -/
theorem find_path_file_selects (path : List Char) (hpath : path.length ≤ 26) (dir : Dir) (hne : dir ≠ [])
    (hnodup : (dir.map Prod.fst).Nodup) (hlen : ∀ e ∈ dir, e.1.length ≤ 21) (hlast : ∀ e ∈ dir, e.1 < lastName) (number : Nat)
    (hnumber : number < 10) : ∃ found, findPathFile path number dir = some found ∧ Selects path dir number found := by
  obtain ⟨files, hperm, hnewest⟩ := exists_newest hnodup
  have hmem : ∀ e ∈ files, e ∈ dir := fun e he => hperm.mem_iff.mpr he
  have hcount := hperm.length_eq
  have hfiles : files ≠ [] := by
    rintro rfl
    exact hne (List.perm_nil.mp hperm)
  obtain ⟨dir', hleft, hfound⟩ := findPathFile_eq hperm hnewest (fun e he => Nat.lt_succ_of_le (hlen e (hmem e he)))
    (fun e he => hlast e (hmem e (List.mem_of_mem_drop he))) hpath hfiles hnumber
  have hten : (files.take 10).length = min dir.length 10 := by rw [List.length_take, hcount, Nat.min_comm]
  refine ⟨_, hfound, rfl, ?_, ?_, hten, ?_⟩
  · rw [← filter_newer hperm hnewest 10] at hleft
    exact hleft.trans (hperm.symm.filter _)
  · exact hleft.length_eq.trans hten
  · intro hbelow
    have hplace : number < files.length := by omega
    have hget : files[number]? = some files[number] := List.getElem?_eq_getElem hplace
    refine ⟨files[number], hmem _ (List.getElem_mem hplace), newer_eq hperm hnewest hget, ?_⟩
    rw [List.getD_eq_getElem?_getD, List.getElem?_map, List.getElem?_take_of_lt hnumber, hget]
    rfl

/-- Of twelve files the one with the third greatest name is found, and the two with the least names are deleted. -/
theorem find_path_file_selects_twelve :
    ∃ found, findPathFile chargeRecordPath 2 ((List.range 12).map fun i => (decimalPad 4 i, [])) = some found ∧
      Selects chargeRecordPath ((List.range 12).map fun i => (decimalPad 4 i, [])) 2 found :=
  find_path_file_selects chargeRecordPath length_chargeRecordPath _ (by decide) (by decide) (by decide) (by decide +kernel) 2
    (by decide)

end Selection

end EnergyRouter
