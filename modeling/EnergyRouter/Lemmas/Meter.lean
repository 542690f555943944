import EnergyRouter.Lib.Runs
import EnergyRouter.Meter

/-!
# Lemmas about the metering

What one call of `cmMeter_electricity_calc` does to the buckets, the registers around them and the powers.
-/

namespace EnergyRouter

open Runs

variable {clock : SystemTime} {meterTotal : BitVec 32} {s s' : Meter}

/-! ## Tariffs -/

/-- Every half-hour has one of the four tariffs. -/
def TariffsLegal (timeNo : Vector Byte 48) : Prop := ∀ no ∈ timeNo.toList, no.toNat < 4
deriving Decidable

theorem foldlM_addTariff_isSome (buckets : List (Byte × BitVec 32)) (sums : Vector (BitVec 32) 4) :
    (buckets.foldlM addTariff sums).isSome ↔ ∀ bucket ∈ buckets, bucket.1.toNat < 4 := by
  induction buckets generalizing sums with
  | nil => simp
  | cons bucket buckets ih =>
    rw [List.foldlM_cons, List.forall_mem_cons, addTariff]
    by_cases hno : bucket.1.toNat < 4
    · simp only [hno, if_true, Option.bind_eq_bind, Option.bind_some, ih, true_and]
    · simp [hno]

theorem daySums_isSome (s : Meter) : (daySums s).isSome ↔ TariffsLegal s.timeNo := by
  have htariffs : (s.timeNo.toList.zip s.meterHalf.toList).map Prod.fst = s.timeNo.toList :=
    List.map_fst_zip (by simp)
  rw [daySums, foldlM_addTariff_isSome, TariffsLegal]
  conv_rhs => rw [← htariffs, List.forall_mem_map]

/-- Half-hours that got a tariff, now or before, have one. -/
theorem fillTimeNo_legal {given : Nat → Prop} {timeNo : Vector Byte 48} (start count : Nat) (no : Byte) (hno : no.toNat < 4)
    (h : ∀ i (hi : i < 48), given i → timeNo[i].toNat < 4) (i : Nat) (hi : i < 48)
    (hgiven : start ≤ i ∧ i < start + count ∨ given i) : (fillTimeNo start count no timeNo)[i].toNat < 4 := by
  unfold fillTimeNo
  induction count with
  | zero =>
    rcases hgiven with hnow | hbefore
    · omega
    · exact h i hi hbefore
  | succ count ih =>
    rw [List.range_succ, List.foldl_append, List.foldl_cons, List.foldl_nil, Vector.getElem_setIfInBounds]
    split_ifs with hlast
    · exact hno
    · exact ih (hgiven.imp_left fun hnow => ⟨hnow.1, by omega⟩)

theorem cmMeterGJFModeInit_legal (timeNo : Vector Byte 48) : TariffsLegal (cmMeterGJFModeInit timeNo) := by
  intro no hno
  obtain ⟨i, hi, rfl⟩ := List.mem_iff_getElem.mp hno
  have hi : i < 48 := by simpa using hi
  rw [Vector.getElem_toList]
  have hfills := fillTimeNo_legal 47 1 0x03 (by decide) <| fillTimeNo_legal 46 1 0x03 (by decide) <|
    fillTimeNo_legal 0 14 0x03 (by decide) <| fillTimeNo_legal 42 4 0x02 (by decide) <|
    fillTimeNo_legal 23 9 0x02 (by decide) <| fillTimeNo_legal 14 3 0x02 (by decide) <|
    fillTimeNo_legal 32 6 0x02 (by decide) <| fillTimeNo_legal 17 4 0x02 (by decide) <|
    fillTimeNo_legal 38 4 0x02 (by decide) <| fillTimeNo_legal 21 2 0x02 (by decide)
      (fun _ _ hnone => absurd hnone not_false : ∀ i (hi : i < 48), False → timeNo[i].toNat < 4)
  refine hfills i hi ?_
  -- every half-hour is in one of the runs
  omega

/-! ## One call -/

/-- At a time that passes the check: the bucket is set in a meter that has entered the day and the month, then the powers are
summed. -/
theorem cmMeterElectricityCalc_parts (hlegal : TimeLegal clock) (h : cmMeterElectricityCalc clock meterTotal s = some s') :
    ∃ s₁ sums, setBucket clock meterTotal (startMonth clock (startDay clock s)) = some s₁ ∧ daySums s₁ = some sums ∧
      s' = setPowers sums s₁ := by
  rw [cmMeterElectricityCalc, if_pos hlegal] at h
  obtain ⟨s₁, hs₁, h⟩ := Option.bind_eq_some_iff.mp h
  obtain ⟨sums, hsums, h⟩ := Option.bind_eq_some_iff.mp h
  exact ⟨s₁, sums, hs₁, hsums, (Option.some.inj h).symm⟩

/-- A bucket is set inside the array exactly when none is set or its number is below 48. -/
theorem setBucket_isSome (clock : SystemTime) (meterTotal : BitVec 32) (s : Meter) :
    (setBucket clock meterTotal s).isSome ↔ AtBoundary clock ∨ bucketOf clock < 48 := by
  unfold setBucket
  by_cases hboundary : AtBoundary clock
  · rw [if_neg (not_not.mpr hboundary)]
    split_ifs <;> simp [hboundary]
  · rw [if_pos hboundary]
    split_ifs with hbucket <;> simp [hboundary, hbucket]

theorem setBucket_timeNo (h : setBucket clock meterTotal s = some s') :
    s'.timeNo = s.timeNo := by
  unfold setBucket at h
  split_ifs at h <;> (cases h; rfl)

/-! ## One sample -/

/-- A total read from the meter at a time of some day. -/
structure MeterSample where
  clock : SystemTime
  meterTotal : BitVec 32
  legal : TimeLegal clock
  hour_lt : (bcdToInt clock.hour).toNat < 24
  minute_lt : (bcdToInt clock.minute).toNat < 60
  deriving DecidableEq

/-- The half-hour of a sample. -/
def MeterSample.bucket (a : MeterSample) : Fin 48 :=
  ⟨bucketOf a.clock, by
    have := a.hour_lt
    have := a.minute_lt
    unfold bucketOf
    omega⟩

/-- The call a sample makes. -/
def MeterSample.calc (a : MeterSample) (s : Meter) : Option Meter := cmMeterElectricityCalc a.clock a.meterTotal s

/-- The buckets after a sample. -/
def MeterSample.halves (a : MeterSample) (s : Meter) : Vector (BitVec 32) 48 :=
  if AtBoundary a.clock then (startDay a.clock s).meterHalf
  else (startDay a.clock s).meterHalf.setIfInBounds a.bucket (a.meterTotal - s.evminStart)

@[simp] theorem startDay_evminStart (clock : SystemTime) (s : Meter) : (startDay clock s).evminStart = s.evminStart := by
  unfold startDay
  split_ifs <;> rfl

@[simp] theorem startDay_timeNo (clock : SystemTime) (s : Meter) : (startDay clock s).timeNo = s.timeNo := by
  unfold startDay
  split_ifs <;> rfl

@[simp] theorem startDay_totalStart (clock : SystemTime) (s : Meter) : (startDay clock s).totalStart = s.totalStart := by
  unfold startDay
  split_ifs <;> rfl

@[simp] theorem startMonth_totalStart (clock : SystemTime) (s : Meter) : (startMonth clock s).totalStart = s.totalStart := by
  unfold startMonth
  split_ifs <;> rfl

/-- In the first hour the flag of the cleared buckets ends up set. -/
theorem startDay_clearHalf (h : bcdToInt clock.hour = 0) (s : Meter) :
    (startDay clock s).clearHalf = true := by
  by_cases hstarts : StartsDay clock s
  · rw [startDay, if_pos hstarts]
  · rw [startDay, if_neg hstarts, if_neg (not_not.mpr h)]
    by_contra hclear
    exact hstarts ⟨h, Bool.eq_false_of_not_eq_true hclear⟩

theorem startDay_clearHalf_eq (clock : SystemTime) (s : Meter) :
    (startDay clock s).clearHalf = decide (bcdToInt clock.hour = 0) := by
  by_cases hhour : bcdToInt clock.hour = 0
  · rw [startDay_clearHalf hhour, decide_eq_true hhour]
  · rw [startDay, if_neg fun hstarts => hhour hstarts.1, if_pos hhour, decide_eq_false hhour]

theorem startDay_meterHalf_of_starts (h : StartsDay clock s) :
    (startDay clock s).meterHalf = Vector.replicate 48 0 := by
  rw [startDay, if_pos h]

theorem startDay_meterHalf_of_not (h : ¬ StartsDay clock s) :
    (startDay clock s).meterHalf = s.meterHalf := by
  rw [startDay, if_neg h]
  split_ifs <;> rfl

theorem startMonth_frame (clock : SystemTime) (s : Meter) :
    (startMonth clock s).meterHalf = s.meterHalf ∧ (startMonth clock s).evminStart = s.evminStart ∧
      (startMonth clock s).timeNo = s.timeNo ∧ (startMonth clock s).clearHalf = s.clearHalf := by
  unfold startMonth
  split_ifs <;> exact ⟨rfl, rfl, rfl, rfl⟩

theorem MeterSample.setBucket_spec (a : MeterSample) (s : Meter) :
    ∃ s', setBucket a.clock a.meterTotal s = some s' ∧ s'.timeNo = s.timeNo ∧ s'.clearHalf = s.clearHalf ∧
      s'.meterHalf = if AtBoundary a.clock then s.meterHalf
        else s.meterHalf.setIfInBounds a.bucket (a.meterTotal - s.evminStart) := by
  unfold setBucket
  by_cases hboundary : AtBoundary a.clock
  · rw [if_neg (not_not.mpr hboundary), if_pos hboundary]
    split_ifs <;> exact ⟨_, rfl, rfl, rfl, rfl⟩
  · have hbucket : bucketOf a.clock < 48 := a.bucket.isLt
    rw [if_pos hboundary, if_pos hbucket, if_neg hboundary]
    exact ⟨_, rfl, rfl, rfl, rfl⟩

/-- A sample is taken exactly when the tariffs exist, and leaves its buckets and, in the first hour, the flag. -/
theorem MeterSample.calc_outcome (a : MeterSample) (s : Meter) :
    Outcome (a.calc s) (TariffsLegal s.timeNo)
      fun s' => s'.meterHalf = a.halves s ∧ (bcdToInt a.clock.hour = 0 → s'.clearHalf = true) := by
  obtain ⟨hhalf, hstart, htimeNo, hclear⟩ := startMonth_frame a.clock (startDay a.clock s)
  obtain ⟨s₁, hs₁, htimeNo₁, hclear₁, hhalf₁⟩ := a.setBucket_spec (startMonth a.clock (startDay a.clock s))
  have hcalc : a.calc s = (daySums s₁).map fun sums => setPowers sums s₁ := by
    rw [MeterSample.calc, cmMeterElectricityCalc, if_pos a.legal, hs₁]
    exact (Option.map_eq_bind ..).symm
  have hsums := daySums_isSome s₁
  rw [htimeNo₁, htimeNo, startDay_timeNo] at hsums
  constructor
  · intro htariffs
    obtain ⟨sums, hsums⟩ := Option.isSome_iff_exists.mp (hsums.mpr htariffs)
    refine ⟨setPowers sums s₁, by rw [hcalc, hsums, Option.map_some], ?_, ?_⟩
    · rw [hhalf, hstart, startDay_evminStart] at hhalf₁
      exact hhalf₁
    · intro hhour
      exact (hclear₁.trans hclear).trans (startDay_clearHalf hhour s)
  · intro htariffs
    rw [hcalc, Option.not_isSome_iff_eq_none.mp (hsums.not.mpr htariffs), Option.map_none]

/-- The bucket is set in a meter that has entered the day and the month, then the powers are summed. -/
theorem MeterSample.calc_parts {a : MeterSample} (h : a.calc s = some s') :
    ∃ s₁ sums, setBucket a.clock a.meterTotal (startMonth a.clock (startDay a.clock s)) = some s₁ ∧ daySums s₁ = some sums ∧
      s' = setPowers sums s₁ := cmMeterElectricityCalc_parts a.legal h

theorem setBucket_powers (h : setBucket clock meterTotal s = some s') :
    s'.hisData = s.hisData ∧ s'.monthOld = s.monthOld := by
  unfold setBucket at h
  split_ifs at h <;> (cases h; exact ⟨rfl, rfl⟩)

theorem MeterSample.calc_registers {a : MeterSample} (h : a.calc s = some s') :
    s'.evminStart = (if AtBoundary a.clock ∧ s.totalStart = false then a.meterTotal else s.evminStart) ∧
      s'.totalStart = decide (AtBoundary a.clock) ∧ s'.timeNo = s.timeNo ∧ s'.clearHalf = decide (bcdToInt a.clock.hour = 0) := by
  obtain ⟨s₁, sums, hs₁, -, rfl⟩ := MeterSample.calc_parts h
  obtain ⟨-, hstart, htimeNo, hclear⟩ := startMonth_frame a.clock (startDay a.clock s)
  obtain ⟨s₂, hs₂, htimeNo₁, hclear₁, -⟩ := a.setBucket_spec (startMonth a.clock (startDay a.clock s))
  cases hs₁.symm.trans hs₂
  have hregisters : s₁.evminStart = (if AtBoundary a.clock ∧ s.totalStart = false then a.meterTotal else s.evminStart) ∧
      s₁.totalStart = decide (AtBoundary a.clock) := by
    rw [startDay_evminStart] at hstart
    have htotal : (startMonth a.clock (startDay a.clock s)).totalStart = s.totalStart := by
      rw [startMonth_totalStart, startDay_totalStart]
    unfold setBucket at hs₁
    split_ifs at hs₁ with hboundary hnoted hbucket
    · cases hs₁
      exact ⟨(if_pos ⟨hboundary, htotal.symm.trans hnoted⟩).symm, (decide_eq_true hboundary).symm⟩
    · cases hs₁
      rw [htotal] at hnoted
      refine ⟨by rw [if_neg fun hfirst => hnoted hfirst.2, hstart], ?_⟩
      rw [htotal, decide_eq_true hboundary, Bool.eq_true_of_not_eq_false hnoted]
    · cases hs₁
      exact ⟨by rw [if_neg fun hfirst => hboundary hfirst.1, hstart], (decide_eq_false hboundary).symm⟩
  refine ⟨hregisters.1, hregisters.2, ?_, ?_⟩
  · exact (htimeNo₁.trans htimeNo).trans (startDay_timeNo _ _)
  · exact (hclear₁.trans hclear).trans (startDay_clearHalf_eq _ _)

/-- The meter at power-up, with the default tariffs. -/
def powerUpMeter : Meter :=
  ⟨Vector.replicate 48 0, zeroPower, ⟨zeroPower, zeroPower⟩, cmMeterGJFModeInit (Vector.replicate 48 0), 0, false, false, false, []⟩

/-- A sample on a day in May. -/
def maySample (hour minute : Byte) (meterTotal : BitVec 32)
    (h : TimeLegal ⟨0x00, minute, hour, 0x17, 0x05, 0x05, 0x20⟩ ∧ (bcdToInt hour).toNat < 24 ∧ (bcdToInt minute).toNat < 60) :
    MeterSample :=
  ⟨⟨0x00, minute, hour, 0x17, 0x05, 0x05, 0x20⟩, meterTotal, h.1, h.2.1, h.2.2⟩

end EnergyRouter
