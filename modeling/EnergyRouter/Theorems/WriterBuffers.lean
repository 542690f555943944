import EnergyRouter.Theorems.MeterFiles
import EnergyRouter.Theorems.EventRecords

/-!
# The buffers of the writers

`Meter_GJFMode_Storage` puts each line together in `buffadd[32]` and appends it to `Para_Buff`. Its lines always fit, but with large
tariff numbers and prices its text runs over the 2048 bytes. `Charge_Record_Storage` fits for no record: the name of the file takes
23 bytes and more where `path` has 18, and the line with the user 140 where `buffer` has 48.
-/

namespace EnergyRouter

open Numeral Memory

section PriceModel

/-- The decimal digits of a value. -/
def digits (n : Nat) : Nat := Nat.log 10 n + 1

theorem length_decimalPad_digits (n : Nat) : (decimalPad 0 n).length = digits n := length_decimalPad_zero n

/-- The lines of a price model, as `buffadd` holds them one after the other. -/
def gjfModeLines (clock : SystemTime) (m : PriceModle) : List (List Char) :=
  [timeLine clock, line (ascii "uiJFmodID") (m.uiJFmodID.flatMap hexByte),
    line (ascii "EffectiveTime") ((timeBytes m 8).flatMap hexByte), line (ascii "unEffectiveTime") ((timeBytes m 15).flatMap hexByte),
    line (ascii "state") (decimalPad 0 m.state.toNat), line (ascii "style") (decimalPad 0 m.style.toNat)] ++
    ((List.range 48).map fun i => line (timeNoName i) (decimalPad 0 (m.timeNo i).toNat)) ++
    line (ascii "count") (decimalPad 0 m.count.toNat) ::
    (List.range m.count.toNat).map fun i => line (priceNoName i) (decimalPad 0 (m.priceNo i).toNat)

/-- They make up the text. -/
theorem flatten_gjfModeLines (clock : SystemTime) (m : PriceModle) : (gjfModeLines clock m).flatten = gjfModeText clock m := by
  simp [gjfModeLines, gjfModeText, List.flatMap_def]

/-- Every line fits `buffadd`, and the text fits `Para_Buff`, with their terminators. -/
structure PriceModle.Fits (clock : SystemTime) (m : PriceModle) : Prop where
  buffadd : ∀ l ∈ gjfModeLines clock m, l.length < 32
  paraBuff : (gjfModeText clock m).length < maxMallocNum

/-- The characters of the values of a price model and of the names of its prices. -/
def PriceModle.digits (m : PriceModle) : Nat :=
  EnergyRouter.digits m.state.toNat + EnergyRouter.digits m.style.toNat + EnergyRouter.digits m.count.toNat +
    ((List.range 48).map fun i => EnergyRouter.digits (m.timeNo i).toNat).sum +
    ((List.range m.count.toNat).map fun i => 13 + EnergyRouter.digits i + EnergyRouter.digits (m.priceNo i).toNat).sum

theorem length_priceNoName (i : Nat) : (priceNoName i).length = 11 + digits i := by
  have hname : (ascii "ulPriceNo").length = 9 := by simp [ascii]
  simp only [priceNoName, indexed, List.length_append, List.length_cons, List.length_nil, length_decimalPad_digits, hname]
  omega

theorem length_gjfModeText_digits (clock : SystemTime) (m : PriceModle) : (gjfModeText clock m).length = 789 + m.digits := by
  have htariffs : ((List.range 48).flatMap fun i => line (timeNoName i) (decimalPad 0 (m.timeNo i).toNat)).length =
      662 + ((List.range 48).map fun i => digits (m.timeNo i).toNat).sum := by
    have hnames : ((List.range 48).map fun i => (timeNoName i).length + 2).sum = 662 := by decide +kernel
    rw [List.length_flatMap, ← hnames, ← List.sum_map_add]
    congr 1
    apply List.map_congr_left
    intro i _
    rw [length_line, length_decimalPad_digits]
    omega
  have hprices : ((List.range m.count.toNat).flatMap fun i => line (priceNoName i) (decimalPad 0 (m.priceNo i).toNat)).length =
      ((List.range m.count.toNat).map fun i => 13 + digits i + digits (m.priceNo i).toNat).sum := by
    rw [List.length_flatMap]
    congr 1
    apply List.map_congr_left
    intro i _
    rw [length_line, length_decimalPad_digits, length_priceNoName]
    omega
  have hnames := length_modeNames
  simp only [gjfModeText, List.length_append, length_timeLine, length_line, length_flatMap_hexByte, length_timeBytes,
    PriceModle.uiJFmodID, length_bytesAt, length_decimalPad_digits, htariffs, hprices, PriceModle.digits]
  omega

theorem length_gjfModeLines (clock : SystemTime) {m : PriceModle} (hcount : m.count.toNat ≤ 48) :
    ∀ l ∈ gjfModeLines clock m, l.length < 32 := by
  have hnames := length_modeNames
  have hbyte := length_decimalPad_byte
  have hindex : ∀ i < 48, (timeNoName i).length ≤ 12 ∧ (priceNoName i).length ≤ 13 := by decide +kernel
  intro l hl
  simp only [gjfModeLines, List.mem_append, List.mem_cons, List.not_mem_nil, or_false, List.mem_map, List.mem_range] at hl
  rcases hl with ((rfl | rfl | rfl | rfl | rfl | rfl) | ⟨i, hi, rfl⟩) | rfl | ⟨i, hi, rfl⟩
  · rw [length_timeLine]
    decide
  · rw [length_line, length_flatMap_hexByte, PriceModle.uiJFmodID, length_bytesAt]
    omega
  · rw [length_line, length_flatMap_hexByte, length_timeBytes]
    omega
  · rw [length_line, length_flatMap_hexByte, length_timeBytes]
    omega
  · have hdigits := hbyte m.state
    rw [length_line]
    omega
  · have hdigits := hbyte m.style
    rw [length_line]
    omega
  · have hdigits := hbyte (m.timeNo i)
    have hname := hindex i hi
    rw [length_line]
    omega
  · have hdigits := hbyte m.count
    rw [length_line]
    omega
  · have hdigits := length_decimalPad_word (m.priceNo i)
    have hname := hindex i (by omega)
    rw [length_line]
    omega

end PriceModel

section ChargeRecord

/-- The name of the file fits `path` and its path `path_file`, every line fits `buffer`, and the text fits `Para_Buff`. -/
structure ChargeRecordFits (clock : SystemTime) (m : Vector Byte 180) : Prop where
  path : ('/' :: recordName m).length < 18
  pathFile : (inPath chargeRecordPath (recordName m)).length < 64
  buffer : ∀ l ∈ chargeRecordStorage.lines clock m, l.1.length < 48
  paraBuff : (chargeRecordStorage.text clock m).length < maxMallocNum

theorem length_recordName_ge {n : Nat} (m : Vector Byte n) : 21 ≤ (recordName m).length := by
  have hnumber : 4 ≤ (decimalPad 4 (orderNum m).toNat).length := by
    rw [decimalPad, List.length_leftpad]
    exact Nat.le_max_left _ _
  have hend : (ascii ".txt").length = 4 := by simp [ascii]
  simp only [recordName, List.length_append, List.length_cons, length_flatMap_hexByte, length_timeBytes, hend]
  omega

theorem not_chargeRecordFits (clock : SystemTime) (m : Vector Byte 180) : ¬ChargeRecordFits clock m := by
  intro hfits
  have hpath := hfits.path
  have hname := length_recordName_ge m
  rw [List.length_cons] at hpath
  omega

end ChargeRecord

section Writers

/-- A price model fits when its values and the names of its prices take no more than 1258 characters; no charge record does. -/
theorem writers_fit_iff (clock : SystemTime) :
    (∀ m : PriceModle, m.count.toNat ≤ 48 → (m.Fits clock ↔ m.digits ≤ 1258)) ∧ ∀ m, ¬ChargeRecordFits clock m := by
  refine ⟨?_, not_chargeRecordFits clock⟩
  intro m hcount
  have hlen := length_gjfModeText_digits clock m
  constructor
  · rintro ⟨-, htext⟩
    rw [hlen, maxMallocNum] at htext
    omega
  · intro hdigits
    refine ⟨length_gjfModeLines clock hcount, ?_⟩
    rw [hlen, maxMallocNum]
    omega

/-- A price model with 48 prices, all of whose values are as large as they can be. -/
def largestModel : PriceModle := storeBytes 72 [48] (Vector.replicate 268 0xFF)

/-- Its text takes 2131 characters. The file name of charge record 7 does not fit `path`, nor the line with its user `buffer`. -/
theorem writers_overflow :
    PriceModle.count largestModel = 48 ∧ (gjfModeText ⟨0, 0, 0, 1, 4, 8, 0x19⟩ largestModel).length = 2131 ∧
      ¬PriceModle.Fits ⟨0, 0, 0, 1, 4, 8, 0x19⟩ largestModel ∧ ('/' :: recordName recordSeven).length = 22 ∧
      (arrayLine "cUserID" recordSeven 37 65).length = 139 ∧ ¬ChargeRecordFits ⟨0, 0, 0, 1, 4, 8, 0x19⟩ recordSeven := by
  have hdigits : largestModel.digits = 1342 := by decide +kernel
  have hlen : (gjfModeText ⟨0, 0, 0, 1, 4, 8, 0x19⟩ largestModel).length = 2131 := by
    rw [length_gjfModeText_digits, hdigits]
  refine ⟨by decide +kernel, hlen, ?_, by decide +kernel, by decide +kernel, not_chargeRecordFits _ _⟩
  intro hfits
  have htext := hfits.paraBuff
  rw [hlen, maxMallocNum] at htext
  omega

/-- A price model with one price, all of whose bytes are one, fits. -/
theorem writers_fit_ones :
    PriceModle.digits (Vector.replicate 268 1) ≤ 1258 ∧ PriceModle.Fits ⟨0, 0, 0, 1, 4, 8, 0x19⟩ (Vector.replicate 268 1) := by
  have hdigits : PriceModle.digits (Vector.replicate 268 1) ≤ 1258 := by decide +kernel
  exact ⟨hdigits, ((writers_fit_iff ⟨0, 0, 0, 1, 4, 8, 0x19⟩).1 (Vector.replicate 268 1) (by decide +kernel)).mpr hdigits⟩

end Writers

end EnergyRouter
