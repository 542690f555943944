import Mathlib.Algebra.BigOperators.Fin
import EnergyRouter.Lemmas.Meter
import EnergyRouter.Theorems.MeterFiles

/-!
# The tariffs of a day

With tariff numbers below four the four sums are a partition of the buckets, at every time of a day. But the numbers are taken from
a file as they are, and the check of the time lets the hour 24 pass: then a bucket or a sum behind its array is written.
-/

namespace EnergyRouter

open Memory

variable {clock : SystemTime} {s : Meter} {sums sums' : Vector (BitVec 32) 4}

/-! ## The indices -/

theorem timeNo_of_setBucket {meterTotal : BitVec 32} {s₁ : Meter}
    (h : setBucket clock meterTotal (startMonth clock (startDay clock s)) = some s₁) : s₁.timeNo = s.timeNo := by
  obtain ⟨-, -, hmonth, -⟩ := startMonth_frame clock (startDay clock s)
  rw [setBucket_timeNo h, hmonth, startDay_timeNo]

/-- At a legal time a call stays inside the arrays exactly when the hour is one of a day, or no bucket is set, and the tariffs are
below four. -/
theorem cmMeterElectricityCalc_isSome (hlegal : TimeLegal clock) (meterTotal : BitVec 32) (s : Meter) :
    (cmMeterElectricityCalc clock meterTotal s).isSome ↔
      ((bcdToInt clock.hour).toNat < 24 ∨ AtBoundary clock) ∧ TariffsLegal s.timeNo := by
  have hbucket : AtBoundary clock ∨ bucketOf clock < 48 ↔ (bcdToInt clock.hour).toNat < 24 ∨ AtBoundary clock := by
    have hminute : (bcdToInt clock.minute).toNat ≤ 60 := by
      by_contra hlate
      have hlate : bcdToInt clock.minute > 60 := BitVec.lt_def.mpr (by simpa using hlate)
      exact hlegal (.inr (.inr (.inr (.inr (.inr hlate)))))
    unfold AtBoundary bucketOf
    omega
  rw [← hbucket, ← setBucket_isSome clock meterTotal (startMonth clock (startDay clock s)), cmMeterElectricityCalc, if_pos hlegal]
  cases hs₁ : setBucket clock meterTotal (startMonth clock (startDay clock s)) with
  | none => simp
  | some s₁ =>
    rw [← timeNo_of_setBucket hs₁, ← daySums_isSome]
    cases hsums : daySums s₁ <;> simp [hsums]

/-! ## The sums -/

/-- The consumption of the half-hours that have a tariff. -/
def tariffSum (timeNo : Vector Byte 48) (half : Vector (BitVec 32) 48) (no : Byte) : BitVec 32 :=
  ∑ i : Fin 48 with timeNo.get i = no, half.get i

theorem getD_addTariff {bucket : Byte × BitVec 32} (h : addTariff sums bucket = some sums') (k : Nat) :
    sums'.getD k 0 = sums.getD k 0 + if bucket.1.toNat = k then bucket.2 else 0 := by
  rw [addTariff] at h
  split_ifs at h with hno
  cases h
  simp only [Vector.getD, Array.getD_eq_getD_getElem?, Vector.getElem?_toArray]
  rw [Vector.getElem?_setIfInBounds]
  split_ifs with hk
  · subst hk
    rw [Option.getD_some]
  · rw [add_zero]

/-- One sum after buckets were added up: what it was, and the buckets of its tariff. -/
theorem getD_foldlM_addTariff {buckets : List (Byte × BitVec 32)} (h : buckets.foldlM addTariff sums = some sums') (k : Nat) :
    sums'.getD k 0 = sums.getD k 0 + (buckets.map fun bucket => if bucket.1.toNat = k then bucket.2 else 0).sum := by
  induction buckets generalizing sums with
  | nil =>
    cases h
    rw [List.map_nil, List.sum_nil, add_zero]
  | cons bucket buckets ih =>
    rw [List.foldlM_cons] at h
    obtain ⟨sums₁, hsums₁, h⟩ := Option.bind_eq_some_iff.mp h
    rw [ih h, getD_addTariff hsums₁, List.map_cons, List.sum_cons, add_assoc]

theorem zip_toList_eq_ofFn {α β : Type} {n : Nat} (v : Vector α n) (w : Vector β n) :
    v.toList.zip w.toList = List.ofFn fun i : Fin n => (v.get i, w.get i) := by
  apply List.ext_getElem
  · simp
  · intro i hi hi'
    simp [Vector.get]

theorem getD_daySums (h : daySums s = some sums) {no : Byte} (hno : no.toNat < 4) :
    sums.getD no.toNat 0 = tariffSum s.timeNo s.meterHalf no := by
  have hzero : (Vector.replicate 4 (0 : BitVec 32)).getD no.toNat 0 = 0 := by
    have hcells : ∀ k < 4, (Vector.replicate 4 (0 : BitVec 32)).getD k 0 = 0 := by decide
    exact hcells _ hno
  rw [getD_foldlM_addTariff h, hzero, zero_add, zip_toList_eq_ofFn, List.map_ofFn, List.sum_ofFn, tariffSum, Finset.sum_filter]
  refine Finset.sum_congr rfl ?_
  intro i _
  simp only [Function.comp_apply, BitVec.toNat_inj]

/-- Where every half-hour has one of the four tariffs, their sums are the sum of all half-hours. -/
theorem tariffSum_total {timeNo : Vector Byte 48} (htariffs : TariffsLegal timeNo) (half : Vector (BitVec 32) 48) :
    tariffSum timeNo half 0 + tariffSum timeNo half 1 + tariffSum timeNo half 2 + tariffSum timeNo half 3 =
      ∑ i : Fin 48, half.get i := by
  simp only [tariffSum, Finset.sum_filter, ← Finset.sum_add_distrib]
  refine Finset.sum_congr rfl ?_
  intro i _
  have hno : (timeNo.get i).toNat < 4 := htariffs _ (by simp [Vector.get])
  -- exactly one of the four conditions holds
  have hcases : timeNo.get i = 0 ∨ timeNo.get i = 1 ∨ timeNo.get i = 2 ∨ timeNo.get i = 3 := by
    simp only [← BitVec.toNat_inj]
    show (timeNo.get i).toNat = 0 ∨ (timeNo.get i).toNat = 1 ∨ (timeNo.get i).toNat = 2 ∨ (timeNo.get i).toNat = 3
    omega
  rcases hcases with h | h | h | h <;> simp [h]

/-- At every legal time of a day, with every array of half-hours and every table of tariffs below four, the call returns; the powers of
the day are then the sums of the half-hours by their tariffs, and of all of them. -/
theorem tariff_partition {clock : SystemTime} (hlegal : TimeLegal clock) (hhour : (bcdToInt clock.hour).toNat < 24)
    (meterTotal : BitVec 32) {s : Meter} (htariffs : TariffsLegal s.timeNo) :
    ∃ s', cmMeterElectricityCalc clock meterTotal s = some s' ∧ s'.timeNo = s.timeNo ∧
      s'.hisData.meterDay.powerJ = tariffSum s'.timeNo s'.meterHalf 0 ∧ s'.hisData.meterDay.powerF = tariffSum s'.timeNo s'.meterHalf 1 ∧
      s'.hisData.meterDay.powerP = tariffSum s'.timeNo s'.meterHalf 2 ∧ s'.hisData.meterDay.powerG = tariffSum s'.timeNo s'.meterHalf 3 ∧
      s'.hisData.meterDay.powerT = ∑ i : Fin 48, s'.meterHalf.get i := by
  have hsafe := (cmMeterElectricityCalc_isSome hlegal meterTotal s).mpr ⟨.inl hhour, htariffs⟩
  obtain ⟨s', hs'⟩ := Option.isSome_iff_exists.mp hsafe
  obtain ⟨s₁, sums, hs₁, hsums, rfl⟩ := cmMeterElectricityCalc_parts hlegal hs'
  have htimeNo : s₁.timeNo = s.timeNo := timeNo_of_setBucket hs₁
  have hday : ∀ no : Byte, no.toNat < 4 → sums.getD no.toNat 0 = tariffSum s₁.timeNo s₁.meterHalf no := fun no => getD_daySums hsums
  have hj := hday 0 (by decide)
  have hf := hday 1 (by decide)
  have hp := hday 2 (by decide)
  have hg := hday 3 (by decide)
  refine ⟨_, hs', htimeNo, hj, hf, hp, hg, ?_⟩
  have hlegal₁ : TariffsLegal s₁.timeNo := by rwa [htimeNo]
  calc (setPowers sums s₁).hisData.meterDay.powerT
      = sums.getD 0 0 + sums.getD 1 0 + sums.getD 2 0 + sums.getD 3 0 := rfl
    _ = tariffSum s₁.timeNo s₁.meterHalf 0 + tariffSum s₁.timeNo s₁.meterHalf 1 + tariffSum s₁.timeNo s₁.meterHalf 2 +
        tariffSum s₁.timeNo s₁.meterHalf 3 := by rw [← hj, ← hf, ← hp, ← hg]; rfl
    _ = ∑ i : Fin 48, s₁.meterHalf.get i := tariffSum_total hlegal₁ s₁.meterHalf

/-- Ten past some hour of a day in May. -/
def mayTime (hour : Byte) : SystemTime := ⟨0x00, 0x10, hour, 0x17, 0x05, 0x05, 0x20⟩

theorem tariff_partition_may :
    ∃ s', cmMeterElectricityCalc (mayTime 0x10) 150 powerUpMeter = some s' ∧
      s'.hisData.meterDay.powerP = tariffSum s'.timeNo s'.meterHalf 2 ∧
      s'.hisData.meterDay.powerT = ∑ i : Fin 48, s'.meterHalf.get i := by
  have hlegal : TimeLegal (mayTime 0x10) := by decide
  have htariffs : TariffsLegal powerUpMeter.timeNo := cmMeterGJFModeInit_legal _
  obtain ⟨s', hs', -, -, -, hp, -, ht⟩ := tariff_partition hlegal (by decide) 150 htariffs
  exact ⟨s', hs', hp, ht⟩

/-! ## Loaded tables -/

/-- The tariff numbers of a price model. -/
def PriceModle.timeNos (m : PriceModle) : Vector Byte 48 := Vector.ofFn fun i : Fin 48 => m.timeNo i

theorem tariffsLegal_timeNos (m : PriceModle) : TariffsLegal m.timeNos ↔ ∀ i < 48, (m.timeNo i).toNat < 4 := by
  rw [TariffsLegal, PriceModle.timeNos, Vector.toList_ofFn, List.forall_mem_ofFn_iff]
  exact ⟨fun h i hi => h ⟨i, hi⟩, fun h i => h i i.isLt⟩

/-- A meter whose table was read from a file. -/
def Loaded (dest : PriceModle) (file : File) (s : Meter) : Prop :=
  ∃ m, meterGJFModeRead dest file = some (0, m) ∧ s.timeNo = m.timeNos

/-- At a legal time and with a table that was loaded, a call stays inside its arrays exactly when the hour is below 24, or the minute
one at which no bucket is set, and the file has only the four tariffs. -/
theorem tariff_indices_safe_iff {clock : SystemTime} (hlegal : TimeLegal clock) {dest : PriceModle} {file : File} {s : Meter}
    (hload : Loaded dest file s) (meterTotal : BitVec 32) :
    (cmMeterElectricityCalc clock meterTotal s).isSome ↔
      ((bcdToInt clock.hour).toNat < 24 ∨ AtBoundary clock) ∧
        ∀ m, meterGJFModeRead dest file = some (0, m) → ∀ i < 48, (m.timeNo i).toNat < 4 := by
  obtain ⟨m, hread, htimeNo⟩ := hload
  rw [cmMeterElectricityCalc_isSome hlegal, htimeNo, tariffsLegal_timeNos]
  refine and_congr_right fun _ => ⟨?_, fun h => h m hread⟩
  intro htariffs m' hread'
  cases hread.symm.trans hread'
  exact htariffs

/-- A price model all of whose bytes are one digit is loaded from the file it was written to. -/
theorem exists_loaded {b : Byte} (hb : b.toNat < 10) :
    ∃ file m, meterGJFModeRead (Vector.replicate 268 0) file = some (0, m) ∧ ∀ i < 48, m.timeNo i = b := by
  have hcell : ∀ off < 268, byteAt (Vector.replicate 268 b) off = b := by
    intro off hoff
    simp only [byteAt, Vector.getD, Array.getD_eq_getD_getElem?, Vector.getElem?_toArray]
    rw [Vector.getElem?_eq_getElem hoff, Vector.getElem_replicate, Option.getD_some]
  have htariff : ∀ i < 48, PriceModle.timeNo (Vector.replicate 268 b) i = b := fun i hi => hcell (24 + i) (by omega)
  have hcount : PriceModle.count (Vector.replicate 268 b) = b := hcell 72 (by omega)
  have hempty : ((none : File).getD []).length < maxMallocNum := by decide
  obtain ⟨file, m, -, hread, hsame⟩ := meterGJFModeWrite_read hempty (mayTime 0x10) (Vector.replicate 268 b)
    (Vector.replicate 268 0) (fun i hi => by rwa [htariff i hi]) (by rw [hcount]; omega)
  exact ⟨file, m, hread, fun i hi => (hsame.timeNo i hi).trans (htariff i hi)⟩

/-- With a file of ones the call at ten past ten stays inside. -/
theorem tariff_indices_safe_ones :
    ∃ file s, Loaded (Vector.replicate 268 0) file s ∧ (cmMeterElectricityCalc (mayTime 0x10) 150 s).isSome := by
  obtain ⟨file, m, hread, hones⟩ := exists_loaded (b := 1) (by decide)
  have hlegal : TimeLegal (mayTime 0x10) := by decide
  have hload : Loaded (Vector.replicate 268 0) file { powerUpMeter with timeNo := m.timeNos } := ⟨m, hread, rfl⟩
  refine ⟨file, _, hload, (tariff_indices_safe_iff hlegal hload 150).mpr ⟨.inl (by decide), ?_⟩⟩
  intro m' hread' i hi
  cases hread.symm.trans hread'
  rw [hones i hi]
  decide

/-- With the same file the call at ten past the hour 24, which passes the check of the time, sets bucket 48. With a file of fives the
call at ten past ten adds every half-hour to the sum 5. -/
theorem tariff_indices_outside :
    TimeLegal (mayTime 0x24) ∧ TimeLegal (mayTime 0x10) ∧
      (∃ file s, Loaded (Vector.replicate 268 0) file s ∧ TariffsLegal s.timeNo ∧ cmMeterElectricityCalc (mayTime 0x24) 150 s = none) ∧
      ∃ file s, Loaded (Vector.replicate 268 0) file s ∧ cmMeterElectricityCalc (mayTime 0x10) 150 s = none := by
  have hlate : TimeLegal (mayTime 0x24) := by decide
  have hlegal : TimeLegal (mayTime 0x10) := by decide
  refine ⟨hlate, hlegal, ?_, ?_⟩
  · obtain ⟨file, m, hread, hones⟩ := exists_loaded (b := 1) (by decide)
    have htariffs : TariffsLegal m.timeNos := (tariffsLegal_timeNos m).mpr fun i hi => by rw [hones i hi]; decide
    refine ⟨file, { powerUpMeter with timeNo := m.timeNos }, ⟨m, hread, rfl⟩, htariffs, ?_⟩
    rw [← Option.not_isSome_iff_eq_none, cmMeterElectricityCalc_isSome hlate]
    rintro ⟨hhour | hboundary, -⟩
    · exact absurd hhour (by decide)
    · exact absurd hboundary (by decide)
  · obtain ⟨file, m, hread, hfives⟩ := exists_loaded (b := 5) (by decide)
    refine ⟨file, { powerUpMeter with timeNo := m.timeNos }, ⟨m, hread, rfl⟩, ?_⟩
    rw [← Option.not_isSome_iff_eq_none, cmMeterElectricityCalc_isSome hlegal]
    rintro ⟨-, htariffs⟩
    have hfirst := (tariffsLegal_timeNos m).mp htariffs 0 (by decide)
    rw [hfives 0 (by decide)] at hfirst
    exact absurd hfirst (by decide)

end EnergyRouter
