import Mathlib.Tactic.IntervalCases
import EnergyRouter.Nand

/-!
# Flipped bits in the flash

Given the codes of the data before and after a flip, the correction restores the data. The routines never give it those codes, since
each assigns the status of the call over the code the call has stored.
-/

namespace EnergyRouter

open Hamming

/-! ## The correction -/

theorem getLsbD_parityMask (i : Nat) : (0x05555555#32).getLsbD i = (decide (i < 28) && decide (i % 2 = 0)) := by
  rcases Nat.lt_or_ge i 32 with hi | hi
  · have hall : ∀ i : Fin 32, (0x05555555#32).getLsbD i = (decide (i.val < 28) && decide (i.val % 2 = 0)) := by decide
    exact hall ⟨i, hi⟩
  · have hout : ¬ i < 28 := by omega
    rw [BitVec.getLsbD_of_ge _ _ hi]
    simp [hout]

theorem getLsbD_and_parityMask {x : BitVec 32} {i : Nat} {b : Bool} (hplace : i < 28 → i % 2 = 0 → x.getLsbD i = b) :
    (x &&& 0x05555555#32).getLsbD i = (decide (i < 28) && decide (i % 2 = 0) && b) := by
  rw [BitVec.getLsbD_and, getLsbD_parityMask]
  by_cases hi : i < 28 ∧ i % 2 = 0
  · rw [hplace hi.1 hi.2]
    simp [hi.1, hi.2]
  · have hmask : (decide (i < 28) && decide (i % 2 = 0)) = false := by
      rw [← Bool.decide_and]
      exact decide_eq_false hi
    rw [hmask, Bool.and_false, Bool.false_and]

/-- The even parities of a flip are the bits of its address. -/
theorem evenParities_pattern (a i : Nat) :
    ((pattern 32 14 a >>> 1) &&& 0x05555555#32).getLsbD i = (decide (i < 28) && decide (i % 2 = 0) && a.testBit (i / 2)) := by
  refine getLsbD_and_parityMask fun hi heven => ?_
  rw [BitVec.getLsbD_ushiftRight, getLsbD_pattern (by decide)]
  have hnext : 1 + i < 2 * 14 := by omega
  have hmod : (1 + i) % 2 = 1 := by omega
  have hdiv : (1 + i) / 2 = i / 2 := by omega
  simp [hnext, hmod, hdiv]

theorem oddParities_pattern (a i : Nat) :
    (pattern 32 14 a &&& 0x05555555#32).getLsbD i = (decide (i < 28) && decide (i % 2 = 0) && !a.testBit (i / 2)) := by
  refine getLsbD_and_parityMask fun hi heven => ?_
  rw [getLsbD_pattern (by decide)]
  have hin : i < 2 * 14 := hi
  simp [heven, hin]

/-- Together they fill the mask, which is how the routine knows a single flip. -/
theorem parities_pattern (a : Nat) :
    (pattern 32 14 a &&& 0x05555555#32) ^^^ ((pattern 32 14 a >>> 1) &&& 0x05555555#32) = 0x05555555#32 := by
  refine BitVec.eq_of_getLsbD_eq fun i _ => ?_
  rw [BitVec.getLsbD_xor, oddParities_pattern, evenParities_pattern, getLsbD_parityMask]
  cases a.testBit (i / 2) <;> simp

theorem getLsbD_mask {i : Nat} (hi : i < 32) : (0x0fffffff#32).getLsbD i = decide (i < 28) := by
  have hall : ∀ i : Fin 32, (0x0fffffff#32).getLsbD i = decide (i.val < 28) := by decide
  exact hall ⟨i, hi⟩

theorem pattern_and_mask (a : Nat) : pattern 32 14 a &&& 0x0fffffff#32 = pattern 32 14 a := by
  refine BitVec.eq_of_getLsbD_eq fun i hi => ?_
  rw [BitVec.getLsbD_and, getLsbD_pattern (by decide), getLsbD_mask hi]
  by_cases hlt : i < 28 <;> simp [hlt]

theorem pattern_ne_zero (a : Nat) : pattern 32 14 a ≠ 0#32 := by
  intro hzero
  have hfill := parities_pattern a
  rw [hzero] at hfill
  exact absurd hfill (by decide)

theorem getLsbD_moved (e : BitVec 32) (s : Nat) {mask : BitVec 32} {k : Nat} (hmask : mask = BitVec.twoPow 32 k) (hk : k < 32)
    (i : Nat) : ((e >>> s) &&& mask).getLsbD i = (decide (k = i) && e.getLsbD (s + k)) := by
  rw [hmask, BitVec.getLsbD_and, BitVec.getLsbD_ushiftRight, BitVec.getLsbD_twoPow]
  by_cases h : k = i
  · subst h
    simp [hk]
  · simp [h]

section Address

/- `eccP` are the even parities of a flip at address `a`. -/
variable {eccP : BitVec 32} {a : Nat}
  (heven : ∀ n, eccP.getLsbD n = (decide (n < 28) && decide (n % 2 = 0) && a.testBit (n / 2)))

include heven

theorem eccBitNum_eq : (eccBitNum eccP).toNat = a % 8 := by
  refine Nat.eq_of_testBit_eq fun n => ?_
  have h0 : (eccP &&& 0x01#32).getLsbD n = (decide (0 = n) && eccP.getLsbD 0) := by
    have hmoved := getLsbD_moved eccP 0 (by decide : 0x01#32 = BitVec.twoPow 32 0) (by decide) n
    rwa [BitVec.ushiftRight_zero] at hmoved
  have h1 := getLsbD_moved eccP 1 (by decide : 0x02#32 = BitVec.twoPow 32 1) (by decide) n
  have h2 := getLsbD_moved eccP 2 (by decide : 0x04#32 = BitVec.twoPow 32 2) (by decide) n
  have hmod : (a % 8).testBit n = (decide (n < 3) && a.testBit n) := Nat.testBit_mod_two_pow a 3 n
  rw [BitVec.testBit_toNat, eccBitNum, BitVec.getLsbD_or, BitVec.getLsbD_or, h0, h1, h2, hmod, heven, heven, heven]
  rcases Nat.lt_or_ge n 3 with hn | hn
  · interval_cases n <;> simp
  · have hout : ¬ 0 = n ∧ ¬ 1 = n ∧ ¬ 2 = n ∧ ¬ n < 3 := by omega
    simp [hout]

theorem eccByteAddr_eq (ha : a < 2 ^ 14) : (eccByteAddr eccP).toNat = a / 8 := by
  refine Nat.eq_of_testBit_eq fun n => ?_
  have hpow : (a / 2 ^ 3).testBit n = a.testBit (n + 3) := Nat.testBit_div_two_pow a n
  have hdiv : (a / 8).testBit n = a.testBit (n + 3) := hpow
  rw [BitVec.testBit_toNat, hdiv, eccByteAddr]
  simp only [BitVec.getLsbD_or]
  rw [getLsbD_moved eccP 6 (by decide : 0x001#32 = BitVec.twoPow 32 0) (by decide),
    getLsbD_moved eccP 7 (by decide : 0x002#32 = BitVec.twoPow 32 1) (by decide),
    getLsbD_moved eccP 8 (by decide : 0x004#32 = BitVec.twoPow 32 2) (by decide),
    getLsbD_moved eccP 9 (by decide : 0x008#32 = BitVec.twoPow 32 3) (by decide),
    getLsbD_moved eccP 10 (by decide : 0x010#32 = BitVec.twoPow 32 4) (by decide),
    getLsbD_moved eccP 11 (by decide : 0x020#32 = BitVec.twoPow 32 5) (by decide),
    getLsbD_moved eccP 12 (by decide : 0x040#32 = BitVec.twoPow 32 6) (by decide),
    getLsbD_moved eccP 13 (by decide : 0x080#32 = BitVec.twoPow 32 7) (by decide),
    getLsbD_moved eccP 14 (by decide : 0x100#32 = BitVec.twoPow 32 8) (by decide),
    getLsbD_moved eccP 15 (by decide : 0x200#32 = BitVec.twoPow 32 9) (by decide),
    getLsbD_moved eccP 16 (by decide : 0x400#32 = BitVec.twoPow 32 10) (by decide)]
  simp only [heven]
  rcases Nat.lt_or_ge n 11 with hn | hn
  · interval_cases n <;> simp
  · -- an address has fourteen bits
    have htop : a.testBit (n + 3) = false :=
      Nat.testBit_lt_two_pow (Nat.lt_of_lt_of_le ha (Nat.pow_le_pow_right Nat.two_pos (by omega)))
    have hne : ∀ k < 11, decide (k = n) = false := fun k hk => decide_eq_false (by omega)
    simp [htop, hne]

end Address

/-- Given both codes, the routine restores every page in which one bit has flipped. -/
theorem nandDatacorrect_flipBit {data : List Byte} (hlen : data.length = pageDataSize) {i j : Nat} (hi : i < pageDataSize)
    (hj : j < 8) :
    nandDatacorrect (code 32 14 (flipBit data i j)) (code 32 14 data) (flipBit data i j) = some (0, data) := by
  have hi' : i < 2048 := hi
  have hcode : code 32 14 (flipBit data i j) ^^^ code 32 14 data = pattern 32 14 (8 * i + j) := by
    rw [code_flipBit 32 14 (by rw [hlen]; exact hi) hj]
    calc _ = pattern 32 14 (8 * i + j) ^^^ (code 32 14 data ^^^ code 32 14 data) := by ac_rfl
      _ = _ := by rw [BitVec.xor_self, BitVec.xor_zero]
  have hbit : (eccBitNum ((pattern 32 14 (8 * i + j) >>> 1) &&& 0x05555555#32)).toNat = j := by
    rw [eccBitNum_eq (evenParities_pattern _)]
    omega
  have hbyte : (eccByteAddr ((pattern 32 14 (8 * i + j) >>> 1) &&& 0x05555555#32)).toNat = i := by
    rw [eccByteAddr_eq (evenParities_pattern _) (by omega)]
    omega
  have hin : i < (flipBit data i j).length := by
    rw [flipBit_length, hlen]
    exact hi
  unfold nandDatacorrect
  simp only [hcode, pattern_and_mask, hbit, hbyte, flipBit_flipBit]
  rw [if_neg (pattern_ne_zero _), if_pos (parities_pattern _), if_pos hin]

/-! ## What the routines compare -/

/-- The result of comparing two statuses, which is what is compared. It never finds a bit to correct. -/
def compared (writeStatus readStatus : HalStatus) : Int :=
  if readStatus = .ok ∨ readStatus = writeStatus then 0
  else if (List.range 24).countP (fun i => (readStatus.code ^^^ writeStatus.code).getLsbD i) = 1 then 1
  else -1

theorem compared_eq_zero_iff (writeStatus readStatus : HalStatus) :
    compared writeStatus readStatus = 0 ↔ readStatus = .ok ∨ readStatus = writeStatus := by
  cases writeStatus <;> cases readStatus <;> decide

theorem nandDatacorrect_status {writeStatus readStatus : HalStatus} (hread : readStatus ≠ .ok) (data : List Byte) :
    nandDatacorrect readStatus.code writeStatus.code data = some (compared writeStatus readStatus, data) := by
  cases readStatus with
  | ok => exact absurd rfl hread
  | error => cases writeStatus <;> rfl
  | busy => cases writeStatus <;> rfl
  | timeout => cases writeStatus <;> rfl

/-! ## A page in the flash -/

def NandDevice.row (device : NandDevice) (page : Nat) : Nat := nandRow (page + device.blockStart * device.pagesPerBlock)

/-- The page belongs to the device. -/
def NandDevice.InRange (device : NandDevice) (page : Nat) : Prop :=
  ¬ (page + device.blockStart * device.pagesPerBlock) / device.pagesPerBlock > device.blockEnd
deriving Decidable

/-- A data bit of a page, by byte and place. -/
abbrev DataBit := Fin pageDataSize × Fin 8

/-- At most one bit of a row flips. -/
def NandCells.disturb (cells : NandCells) (row : Nat) : Option DataBit → NandCells
  | none => cells
  | some (i, j) => fun r c => if r = row ∧ c = i then cells r c ^^^ (1#8 <<< j.val) else cells r c

/-- The data with that bit flipped. -/
def disturbed (data : List Byte) : Option DataBit → List Byte
  | none => data
  | some (i, j) => flipBit data i j

theorem read_program (cells : NandCells) (row : Nat) {bytes : List Byte} {k n : Nat} (h : k + n ≤ bytes.length) :
    (cells.program row 0 bytes).read row k n = (bytes.drop k).take n := by
  refine List.ext_getElem? fun i => ?_
  rw [NandCells.read, List.getElem?_map]
  rcases Nat.lt_or_ge i n with hi | hi
  · have hin : k + i < bytes.length := by omega
    rw [List.getElem?_range hi, List.getElem?_take_of_lt hi, List.getElem?_drop, List.getElem?_eq_getElem hin]
    simp [NandCells.program, hin]
  · rw [List.getElem?_eq_none (by simpa using hi), List.getElem?_eq_none (by simpa using Or.inl hi)]
    rfl

theorem read_disturb_data (cells : NandCells) (row : Nat) (flip : Option DataBit) :
    (cells.disturb row flip).read row 0 pageDataSize = disturbed (cells.read row 0 pageDataSize) flip := by
  cases flip with
  | none => rfl
  | some bit =>
    obtain ⟨i, j⟩ := bit
    refine List.ext_getElem? fun k => ?_
    rw [disturbed, flipBit, List.getElem?_modify, NandCells.read, NandCells.read, List.getElem?_map, List.getElem?_map]
    rcases Nat.lt_or_ge k pageDataSize with hk | hk
    · rw [List.getElem?_range hk]
      by_cases heq : i.val = k
      · simp [NandCells.disturb, heq]
      · have hne : ¬ k = i.val := fun h => heq h.symm
        simp [NandCells.disturb, heq, hne]
    · rw [List.getElem?_eq_none (by simpa using hk)]
      rfl

theorem read_disturb_spare (cells : NandCells) (row : Nat) (flip : Option DataBit) {col : Nat} (hcol : pageDataSize ≤ col)
    (n : Nat) : (cells.disturb row flip).read row col n = cells.read row col n := by
  cases flip with
  | none => rfl
  | some bit =>
    refine List.map_congr_left fun k _ => ?_
    have hne : ¬ col + k = bit.1.val := by
      have := bit.1.isLt
      omega
    exact if_neg fun h => hne h.2

theorem code_of_bytes (status : HalStatus) :
    (status.code >>> 24).setWidth 8 ++ (status.code >>> 16).setWidth 8 ++ (status.code >>> 8).setWidth 8 ++ status.code.setWidth 8 =
      status.code := by
  cases status <;> decide

section ReadBack

variable {device : NandDevice} {page : Nat} (hpage : device.InRange page) (writeStatus readStatus : HalStatus) (cells : NandCells)
  (data dataBuf : Vector Byte pageDataSize) (spare spareBuf : Vector Byte 64) (flip : Option DataBit)

/-- The bytes of a page in the flash. -/
def writtenBytes (status : HalStatus) (data spare : List Byte) : List Byte :=
  data ++ [status.code.setWidth 8, (status.code >>> 8).setWidth 8, (status.code >>> 16).setWidth 8,
    (status.code >>> 24).setWidth 8] ++ spare.drop eccSize

include hpage

theorem writepage_eq :
    nandMT29F4G08Writepage device writeStatus true cells page data.toList spare.toList =
      (0, cells.program (device.row page) 0 (writtenBytes writeStatus data.toList spare.toList)) := by
  have hlen : data.toList.length = pageDataSize := Vector.length_toList
  have hne : data.toList.length ≠ 0 := by
    rw [hlen]
    decide
  unfold nandMT29F4G08Writepage
  simp only []
  rw [if_neg hpage, if_pos hne, if_pos hlen]
  rfl

/-- The page is read as it stands in the flash, and only the statuses are compared. -/
theorem readpage_written :
    ∃ spare', nandMT29F4G08Readpage device readStatus
        ((cells.program (device.row page) 0 (writtenBytes writeStatus data.toList spare.toList)).disturb (device.row page) flip)
        page dataBuf.toList spareBuf.toList =
      some (compared writeStatus readStatus, disturbed data.toList flip, spare') := by
  have hbuf : dataBuf.toList.length = pageDataSize := Vector.length_toList
  have hspare : spareBuf.toList.length = 64 := Vector.length_toList
  have hlen : data.toList.length = pageDataSize := Vector.length_toList
  have htotal : (writtenBytes writeStatus data.toList spare.toList).length = 2112 := by
    rw [writtenBytes, List.length_append, List.length_append, hlen, List.length_drop, Vector.length_toList]
    rfl
  generalize hcells : cells.program (device.row page) 0 (writtenBytes writeStatus data.toList spare.toList) = written
  have hdata : (written.disturb (device.row page) flip).read (device.row page) 0 pageDataSize = disturbed data.toList flip := by
    rw [read_disturb_data, ← hcells, read_program _ _ (by rw [htotal]; decide), List.drop_zero, writtenBytes, List.append_assoc,
      List.take_left' hlen]
  have htmp : (written.disturb (device.row page) flip).read (device.row page) pageDataSize eccSize =
      [writeStatus.code.setWidth 8, (writeStatus.code >>> 8).setWidth 8, (writeStatus.code >>> 16).setWidth 8,
        (writeStatus.code >>> 24).setWidth 8] := by
    rw [read_disturb_spare _ _ _ (Nat.le_refl _), ← hcells, read_program _ _ (by rw [htotal]; decide), writtenBytes,
      List.append_assoc, List.drop_left' hlen]
    rfl
  have hrow : nandRow (page + device.blockStart * device.pagesPerBlock) = device.row page := rfl
  unfold nandMT29F4G08Readpage
  simp only [hrow, hbuf, hdata, htmp, hspare]
  rw [if_neg hpage, if_pos trivial, if_neg (by decide), if_neg (by decide)]
  have hcode := code_of_bytes writeStatus
  simp only [List.getD_cons_succ, List.getD_cons_zero, hcode, assignedEcc, fsmcNandGetECC, Option.bind_eq_bind, Option.bind_some]
  by_cases hok : readStatus = .ok
  · subst hok
    rw [if_neg fun h => h.2 rfl]
    rw [(compared_eq_zero_iff writeStatus .ok).mpr (.inl rfl)]
    exact ⟨_, rfl⟩
  · have hne : writeStatus.code ≠ 0xffffffff#32 ∧ readStatus.code ≠ 0#32 := by
      refine ⟨by cases writeStatus <;> decide, ?_⟩
      cases readStatus with
      | ok => exact absurd rfl hok
      | error => decide
      | busy => decide
      | timeout => decide
    rw [if_pos hne, nandDatacorrect_status hok]
    exact ⟨_, rfl⟩

end ReadBack

/-! ## The page read back -/

/-- A page is written, at most one data bit flips, and the page is read back as it was written, both without an error. -/
def PageRestored (device : NandDevice) (page : Nat) (writeStatus readStatus : HalStatus) (cells : NandCells)
    (data dataBuf : Vector Byte pageDataSize) (spare spareBuf : Vector Byte 64) (flip : Option DataBit) : Prop :=
  let (written, cells) := nandMT29F4G08Writepage device writeStatus true cells page data.toList spare.toList
  written = 0 ∧ ∃ spare', nandMT29F4G08Readpage device readStatus (cells.disturb (device.row page) flip) page dataBuf.toList
    spareBuf.toList = some (0, data.toList, spare')

theorem disturbed_eq_iff (data : Vector Byte pageDataSize) (flip : Option DataBit) :
    disturbed data.toList flip = data.toList ↔ flip = none := by
  cases flip with
  | none => exact ⟨fun _ => rfl, fun _ => rfl⟩
  | some bit =>
    refine ⟨fun h => absurd h ?_, nofun⟩
    exact flipBit_ne (by rw [Vector.length_toList]; exact bit.1.isLt) bit.2.isLt

theorem pageRestored_eq {device : NandDevice} {page : Nat} (hpage : device.InRange page) (writeStatus readStatus : HalStatus)
    (cells : NandCells) (data dataBuf : Vector Byte pageDataSize) (spare spareBuf : Vector Byte 64) (flip : Option DataBit) :
    PageRestored device page writeStatus readStatus cells data dataBuf spare spareBuf flip ↔
      compared writeStatus readStatus = 0 ∧ disturbed data.toList flip = data.toList := by
  obtain ⟨spare', hread⟩ := readpage_written hpage writeStatus readStatus cells data dataBuf spare spareBuf flip
  rw [PageRestored, writepage_eq hpage]
  simp only [hread, Option.some.injEq, Prod.mk.injEq]
  constructor
  · rintro ⟨-, _, hresult, hdata, -⟩
    exact ⟨hresult, hdata⟩
  · rintro ⟨hresult, hdata⟩
    exact ⟨trivial, spare', hresult, hdata, rfl⟩

/-- A page is restored exactly when no bit has flipped and the second call of `FSMC_NAND_GetECC` returned `HAL_OK` or the status of
the first. -/
theorem page_restored_iff {device : NandDevice} {page : Nat} (hpage : device.InRange page) (writeStatus readStatus : HalStatus)
    (cells : NandCells) (data dataBuf : Vector Byte pageDataSize) (spare spareBuf : Vector Byte 64) (flip : Option DataBit) :
    PageRestored device page writeStatus readStatus cells data dataBuf spare spareBuf flip ↔
      flip = none ∧ (readStatus = .ok ∨ readStatus = writeStatus) := by
  rw [pageRestored_eq hpage, compared_eq_zero_iff, disturbed_eq_iff]
  exact and_comm

/-- An erased flash. -/
def erasedCells : NandCells := fun _ _ => 0xff

/-- Data and spare bytes that are all zero. -/
def blankPage : Vector Byte pageDataSize := Vector.replicate pageDataSize 0

def blankSpare : Vector Byte 64 := Vector.replicate 64 0

/-- The lowest bit of the first byte. -/
def firstBit : DataBit := (⟨0, by decide⟩, 0)

theorem nandPartition_first : nandPartition.InRange 0 := by decide

/-- The first page, without a flip. -/
theorem page_restored_first :
    nandPartition.InRange 0 ∧
      PageRestored nandPartition 0 .ok .ok erasedCells blankPage blankPage blankSpare blankSpare none := by
  refine ⟨nandPartition_first, ?_⟩
  rw [page_restored_iff nandPartition_first]
  exact ⟨rfl, .inl rfl⟩

/-- The first page with its first bit flipped: both calls succeed, and the page is not restored. -/
theorem first_bit_not_restored :
    ¬ PageRestored nandPartition 0 .ok .ok erasedCells blankPage blankPage blankSpare blankSpare (some firstBit) := by
  rw [pageRestored_eq nandPartition_first, disturbed_eq_iff]
  rintro ⟨-, hnone⟩
  cases hnone

end EnergyRouter
