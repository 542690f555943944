import EnergyRouter.Theorems.NandPages

/-!
# Spare bytes in the flash

A whole page and both ways of reading agree on the column of a spare byte. A write of spare bytes alone begins in the column of the
code and sends the fifth byte first, so every byte comes to stand four columns too low.
-/

namespace EnergyRouter

open Hamming

variable {page i : Nat}

/-! ## Reading -/

/-- The byte address that is read off a difference is eleven bits long, whatever the difference. -/
theorem eccByteAddr_lt (eccP : BitVec 32) : (eccByteAddr eccP).toNat < pageDataSize := by
  have hterm : ∀ x mask : BitVec 32, mask.toNat < 2 ^ 11 → (x &&& mask).toNat < 2 ^ 11 := fun x mask h => by
    rw [BitVec.toNat_and]
    exact Nat.lt_of_le_of_lt Nat.and_le_right h
  show (eccByteAddr eccP).toNat < 2 ^ 11
  unfold eccByteAddr
  simp only [BitVec.toNat_or]
  repeat' apply Nat.or_lt_two_pow
  all_goals exact hterm _ _ (by decide)

/-- A whole page is always judged, so its spare bytes are always returned. -/
theorem nandDatacorrect_isSome (generatedEcc readEcc : BitVec 32) {data : List Byte} (hlen : data.length = pageDataSize) :
    ∃ out, nandDatacorrect generatedEcc readEcc data = some out := by
  unfold nandDatacorrect
  simp only []
  split_ifs with hsame hpaired hin
  · exact ⟨_, rfl⟩
  · exact ⟨_, rfl⟩
  · exact absurd (hlen ▸ eccByteAddr_lt _) hin
  · exact ⟨_, rfl⟩
  · exact ⟨_, rfl⟩

theorem getElem?_read (cells : NandCells) (row col : Nat) {n : Nat} (hi : i < n) :
    (cells.read row col n)[i]? = some (cells row (col + i)) := by
  rw [NandCells.read, List.getElem?_map, List.getElem?_range hi]
  rfl

/-- A page of the partition fits in two bytes, so the third one of a read makes no difference. -/
theorem nandPartition_row (hpage : nandPartition.InRange page) : (page + 0 * 64) % 2 ^ 24 = nandPartition.row page := by
  have hlast : ¬ (page + 0 * 64) / 64 > 1023 := hpage
  show _ = (page + 0 * 64) % 2 ^ 16
  omega

section Reading

variable (hpage : nandPartition.InRange page) (status : HalStatus) (cells : NandCells) {spareBuf : List Byte} (hi : eccSize ≤ i)
  (hlt : i < spareBuf.length)

include hpage hlt

theorem readpage_spare_alone :
    (nandMT29F4G08Readpage nandPartition status cells page [] spareBuf).bind (fun r => r.2.2[i]?) =
      some (cells (nandPartition.row page) (pageDataSize + i)) := by
  unfold nandMT29F4G08Readpage
  simp only []
  rw [if_neg hpage, if_neg (by decide), Option.bind_some, ← nandPartition_row hpage]
  exact getElem?_read _ _ _ hlt

include hi

/-- A read of a whole page takes the code first and the other spare bytes from behind it. -/
theorem readpage_spare_withPage (dataBuf : Vector Byte pageDataSize) :
    (nandMT29F4G08Readpage nandPartition status cells page dataBuf.toList spareBuf).bind (fun r => r.2.2[i]?) =
      some (cells (nandPartition.row page) (pageDataSize + i)) := by
  have hsize : eccSize = 4 := rfl
  have hbuf : dataBuf.toList.length = pageDataSize := Vector.length_toList
  have hrow : nandRow (page + nandPartition.blockStart * nandPartition.pagesPerBlock) = nandPartition.row page := rfl
  have hcode : (cells.read (nandPartition.row page) pageDataSize eccSize).length = 4 := by
    rw [NandCells.read, List.length_map, List.length_range]
    rfl
  have hcell : (cells.read (nandPartition.row page) pageDataSize eccSize ++
      cells.read (nandPartition.row page) (pageDataSize + eccSize) (spareBuf.length - eccSize))[i]? =
        some (cells (nandPartition.row page) (pageDataSize + i)) := by
    have hcol : pageDataSize + eccSize + (i - 4) = pageDataSize + i := by omega
    rw [List.getElem?_append_right (by omega), hcode, getElem?_read _ _ _ (by omega), hcol]
  unfold nandMT29F4G08Readpage
  simp only [hrow, hbuf]
  rw [if_neg hpage, if_pos trivial, if_neg (by omega), if_neg (by omega)]
  simp only [Option.bind_eq_bind, Option.bind_some]
  split_ifs
  · obtain ⟨out, hout⟩ := nandDatacorrect_isSome (assignedEcc status (cells.read (nandPartition.row page) 0 pageDataSize))
      ((cells.read (nandPartition.row page) pageDataSize eccSize).getD 3 0 ++
        (cells.read (nandPartition.row page) pageDataSize eccSize).getD 2 0 ++
        (cells.read (nandPartition.row page) pageDataSize eccSize).getD 1 0 ++
        (cells.read (nandPartition.row page) pageDataSize eccSize).getD 0 0)
      (show (cells.read (nandPartition.row page) 0 pageDataSize).length = pageDataSize by
        rw [NandCells.read, List.length_map, List.length_range])
    rw [hout]
    exact hcell
  · exact hcell

end Reading

/-! ## Writing -/

/-- How spare bytes are written. -/
inductive SpareWrite
  | withPage (data : Vector Byte pageDataSize)
  | alone

def SpareWrite.data : SpareWrite → List Byte
  | withPage data => data.toList
  | alone => []

/-- The flash after the write. -/
def SpareWrite.write (w : SpareWrite) (status : HalStatus) (cells : NandCells) (page : Nat) (spare : List Byte) : NandCells :=
  (nandMT29F4G08Writepage nandPartition status true cells page w.data spare).2

/-- Behind a whole page a spare byte stands in its own column. -/
theorem write_withPage (hpage : nandPartition.InRange page) (status : HalStatus) (cells : NandCells)
    (data : Vector Byte pageDataSize) {spare : List Byte} (hi : eccSize ≤ i) (hlt : i < spare.length) :
    some ((SpareWrite.withPage data).write status cells page spare (nandPartition.row page) (pageDataSize + i)) = spare[i]? := by
  have hsize : eccSize = 4 := rfl
  have hlen : data.toList.length = pageDataSize := Vector.length_toList
  have hne : data.toList.length ≠ 0 := by
    rw [hlen]
    decide
  have hfront : (data.toList ++ [status.code.setWidth 8, (status.code >>> 8).setWidth 8, (status.code >>> 16).setWidth 8,
      (status.code >>> 24).setWidth 8]).length = pageDataSize + 4 := by
    rw [List.length_append, hlen]
    rfl
  have hcell : (writtenBytes status data.toList spare)[pageDataSize + i]? = spare[i]? := by
    have hcol : eccSize + (pageDataSize + i - (pageDataSize + 4)) = i := by omega
    rw [writtenBytes, List.getElem?_append_right (by omega), hfront, List.getElem?_drop, hcol]
  have hin : pageDataSize + i < (writtenBytes status data.toList spare).length := by
    rw [writtenBytes, List.length_append, hfront, List.length_drop]
    omega
  have hprogram : (SpareWrite.withPage data).write status cells page spare =
      cells.program (nandPartition.row page) 0 (writtenBytes status data.toList spare) := by
    unfold SpareWrite.write nandMT29F4G08Writepage
    simp only [SpareWrite.data]
    rw [if_neg hpage, if_pos hne, if_pos hlen]
    rfl
  rw [hprogram, NandCells.program, if_pos ⟨rfl, Nat.zero_le _, by omega⟩, Nat.sub_zero, ← hcell, List.getD_eq_getElem?_getD,
    List.getElem?_eq_getElem hin]
  rfl

/-- Written alone, the spare bytes from the fifth on go to the columns from the first of the code on. -/
theorem write_alone (hpage : nandPartition.InRange page) (status : HalStatus) (cells : NandCells) (spare : List Byte) (i : Nat) :
    SpareWrite.alone.write status cells page spare (nandPartition.row page) (pageDataSize + i) =
      if i + eccSize < spare.length then spare.getD (i + eccSize) 0 else cells (nandPartition.row page) (pageDataSize + i) := by
  have hsize : eccSize = 4 := rfl
  have hdrop : (spare.drop eccSize).length = spare.length - 4 := List.length_drop
  unfold SpareWrite.write nandMT29F4G08Writepage
  simp only [SpareWrite.data]
  rw [if_neg hpage, if_neg (by decide)]
  by_cases hin : i + eccSize < spare.length
  · rw [if_pos (by omega), if_pos hin]
    show NandCells.program _ _ _ _ _ _ = _
    rw [NandCells.program, if_pos ⟨rfl, by omega, by omega⟩, Nat.add_sub_cancel_left, List.getD_eq_getElem?_getD, List.getElem?_drop,
      Nat.add_comm eccSize, List.getD_eq_getElem?_getD]
  · rw [if_neg hin]
    by_cases hempty : spare.length = 0
    · rw [if_neg (by omega)]
    · rw [if_pos hempty]
      show NandCells.program _ _ _ _ _ _ = _
      rw [NandCells.program, if_neg (by omega)]

/-! ## Written and read back -/

/-- Spare bytes that are written behind a page, or alone to an erased page, are read back with their own indices both ways. -/
def SpareReturned (page : Nat) (writeStatus readStatus : HalStatus) (w : SpareWrite) (spare : List Byte) : Prop :=
  ∀ cells, (w = .alone → ∀ c, cells (nandPartition.row page) c = 0xff) →
    ∀ (dataBuf : Vector Byte pageDataSize) (spareBuf : List Byte), spareBuf.length = spare.length →
      ∀ i, eccSize ≤ i → i < spare.length →
        (nandMT29F4G08Readpage nandPartition readStatus (w.write writeStatus cells page spare) page dataBuf.toList spareBuf).bind
            (fun r => r.2.2[i]?) = spare[i]? ∧
          (nandMT29F4G08Readpage nandPartition readStatus (w.write writeStatus cells page spare) page [] spareBuf).bind
            (fun r => r.2.2[i]?) = spare[i]?

/-- Spare bytes written alone leave the code of any page as it is. A cell keeps the ones it has and is sent. -/
def EccKept (page : Nat) (status : HalStatus) (spare : List Byte) : Prop :=
  ∀ (cells : NandCells) (i : Nat), i < eccSize →
    cells (nandPartition.row page) (pageDataSize + i) &&&
      SpareWrite.alone.write status cells page spare (nandPartition.row page) (pageDataSize + i) =
        cells (nandPartition.row page) (pageDataSize + i)

def SpareConsistent (page : Nat) (writeStatus readStatus : HalStatus) (w : SpareWrite) (spare : List Byte) : Prop :=
  SpareReturned page writeStatus readStatus w spare ∧ (w = .alone → EccKept page writeStatus spare)

/-- Spare bytes without effect: a write of them alone sends erased bytes only. -/
def SpareErased (spare : List Byte) : Prop := ∀ b ∈ spare.drop eccSize, b = 0xff

section Alone

variable (hpage : nandPartition.InRange page) {writeStatus readStatus : HalStatus} {spare : List Byte}

include hpage

theorem write_alone_erased (h : SpareErased spare) (cells : NandCells) (i : Nat) :
    SpareWrite.alone.write writeStatus cells page spare (nandPartition.row page) (pageDataSize + i) =
      if i + eccSize < spare.length then 0xff else cells (nandPartition.row page) (pageDataSize + i) := by
  rw [write_alone hpage]
  split_ifs with hin
  · refine h _ (List.mem_iff_getElem?.mpr ⟨i, ?_⟩)
    rw [List.getElem?_drop, Nat.add_comm eccSize, List.getD_eq_getElem?_getD, List.getElem?_eq_getElem hin, Option.getD_some]
  · rfl

/-- A byte that is returned equals the one four places on, and the last four equal erased bytes. -/
theorem SpareReturned.erased (h : SpareReturned page writeStatus readStatus .alone spare) : SpareErased spare := by
  have hcells : ∀ i, eccSize ≤ i → i < spare.length →
      some (SpareWrite.alone.write writeStatus erasedCells page spare (nandPartition.row page) (pageDataSize + i)) = spare[i]? :=
    fun i hi hlt => by
      rw [← (h erasedCells (fun _ _ => rfl) blankPage spare rfl i hi hlt).2, readpage_spare_alone hpage _ _ hlt]
  have hsize : eccSize = 4 := rfl
  -- from the end down
  have hdown : ∀ n i, i + n = spare.length → eccSize ≤ i → i < spare.length → spare[i]? = some 0xff := by
    intro n
    induction n using Nat.strong_induction_on with
    | h n ih =>
      intro i hn hi hlt
      have hcell := hcells i hi hlt
      rw [write_alone hpage] at hcell
      by_cases hin : i + eccSize < spare.length
      · have hnext := ih (n - 4) (by omega) (i + eccSize) (by omega) (by omega) hin
        rw [if_pos hin, List.getD_eq_getElem?_getD, hnext] at hcell
        exact hcell.symm
      · rw [if_neg hin] at hcell
        exact hcell.symm
  intro b hb
  obtain ⟨i, hi⟩ := List.mem_iff_getElem?.mp hb
  rw [List.getElem?_drop] at hi
  have hlt := (List.getElem?_eq_some_iff.mp hi).1
  rw [hdown (spare.length - (eccSize + i)) (eccSize + i) (by omega) (by omega) hlt] at hi
  exact (Option.some.inj hi).symm

end Alone

/-- Spare bytes are returned where they were written, and the code is kept, exactly when they go with a page or there is nothing to
write. -/
theorem spare_consistent_iff (hpage : nandPartition.InRange page) (writeStatus readStatus : HalStatus) (w : SpareWrite)
    (spare : List Byte) :
    SpareConsistent page writeStatus readStatus w spare ↔ (w = .alone → SpareErased spare) := by
  cases w with
  | withPage data =>
    refine ⟨fun _ h => (by cases h), fun _ => ⟨?_, fun h => (by cases h)⟩⟩
    intro cells _ dataBuf spareBuf hbuf i hi hlt
    rw [readpage_spare_withPage hpage _ _ hi (hbuf ▸ hlt), readpage_spare_alone hpage _ _ (hbuf ▸ hlt),
      write_withPage hpage _ _ _ hi hlt]
    exact ⟨rfl, rfl⟩
  | alone =>
    refine ⟨fun h _ => h.1.erased hpage, fun h => ⟨?_, fun _ => ?_⟩⟩
    · intro cells herased dataBuf spareBuf hbuf i hi hlt
      have hbyte : spare[i]? = some 0xff := by
        have hmem : spare[i]? = (spare.drop eccSize)[i - eccSize]? := by
          rw [List.getElem?_drop]
          congr 1
          omega
        obtain ⟨b, hb⟩ : ∃ b, spare[i]? = some b := ⟨_, List.getElem?_eq_getElem hlt⟩
        rw [hb, h rfl b (List.mem_iff_getElem?.mpr ⟨_, hmem.symm.trans hb⟩)]
      rw [readpage_spare_withPage hpage _ _ hi (hbuf ▸ hlt), readpage_spare_alone hpage _ _ (hbuf ▸ hlt),
        write_alone_erased hpage (h rfl), herased rfl, ite_self, hbyte]
      exact ⟨rfl, rfl⟩
    · intro cells i hi
      rw [write_alone_erased hpage (h rfl)]
      split_ifs
      · exact BitVec.and_allOnes
      · exact BitVec.and_self

/-- The first page, written with spare bytes that are all zero. -/
theorem spare_consistent_first :
    nandPartition.InRange 0 ∧ SpareConsistent 0 .ok .ok (.withPage blankPage) blankSpare.toList := by
  refine ⟨nandPartition_first, ?_⟩
  rw [spare_consistent_iff nandPartition_first]
  intro h
  cases h

/-- The same spare bytes written alone. -/
theorem spare_alone_misplaced : ¬ SpareConsistent 0 .ok .ok .alone blankSpare.toList := by
  intro h
  have herased := h.1.erased nandPartition_first 0 (by decide)
  cases herased

end EnergyRouter
