import EnergyRouter.Theorems.DayRecords

/-!
# Finished half-hours

A call of `cmMeter_electricity_calc` sets the bucket of its own half-hour and no other. All buckets are cleared by the first call of
every stretch in the first hour of a day, and the month is reset by the first call of every stretch on the first of a month.
-/

namespace EnergyRouter

open Runs

variable {clock : SystemTime} {meterTotal : BitVec 32} {s s' : Meter}

/-! ## Stretches of a list -/

section Stretches

variable {α : Type} (p : α → Bool)

/-- The number of maximal stretches of elements with a property, counted where they end. -/
def stretches : List α → Nat
  | [] => 0
  | [a] => if p a then 1 else 0
  | a :: b :: l => (if p a && !p b then 1 else 0) + stretches (b :: l)

/-- The element comes first in its stretch. -/
def BeginsStretch (last : Option α) (a : α) : Prop := p a = true ∧ last.any p = false
deriving Decidable

theorem stretches_append (l : List α) (a : α) :
    stretches p (l ++ [a]) = stretches p l + if BeginsStretch p l.getLast? a then 1 else 0 := by
  induction l with
  | nil => simp [stretches, BeginsStretch]
  | cons b l ih =>
    cases l with
    | nil =>
      by_cases ha : p a = true <;> by_cases hb : p b = true <;> simp [stretches, BeginsStretch, ha, hb]
    | cons c l =>
      rw [List.cons_append, List.cons_append, stretches, ← List.cons_append, ih, stretches, List.getLast?_cons_cons, Nat.add_assoc]

end Stretches

/-! ## One call -/

/-- A call at a time that passes the check, in one of the 24 hours. -/
structure ValidCall extends MeterCall where
  legal : TimeLegal clock
  hour_lt : (bcdToInt clock.hour).toNat < 24

def ValidCall.firstHour (a : ValidCall) : Bool := bcdToInt a.clock.hour = 0

def ValidCall.firstDay (a : ValidCall) : Bool := bcdToInt a.clock.day = 1

theorem startMonth_clearMonth (clock : SystemTime) (s : Meter) :
    (startMonth clock s).clearMonth = decide (bcdToInt clock.day = 1) := by
  unfold startMonth
  split_ifs with hstarts hday
  · exact (decide_eq_true hstarts.1).symm
  · exact (decide_eq_false hday).symm
  · have hday := not_not.mp hday
    rw [decide_eq_true hday]
    by_contra hclear
    exact hstarts ⟨hday, Bool.eq_false_of_not_eq_true hclear⟩

theorem startMonth_month (clock : SystemTime) (s : Meter) :
    (startMonth clock s).monthOld = (if StartsMonth clock s then zeroPower else s.monthOld) ∧
      (startMonth clock s).hisData.meterMonth = if StartsMonth clock s then zeroPower else s.hisData.meterMonth := by
  by_cases hstarts : bcdToInt clock.day = 1 ∧ s.clearMonth = false
  · rw [startMonth, if_pos hstarts, if_pos (show StartsMonth clock s from hstarts), if_pos (show StartsMonth clock s from hstarts)]
    exact ⟨rfl, rfl⟩
  · rw [startMonth, if_neg hstarts, if_neg (show ¬ StartsMonth clock s from hstarts), if_neg (show ¬ StartsMonth clock s from hstarts)]
    split_ifs <;> exact ⟨rfl, rfl⟩

theorem startDay_monthOld (clock : SystemTime) (s : Meter) :
    (startDay clock s).monthOld = if StartsDay clock s then s.hisData.meterMonth else s.monthOld := by
  unfold startDay
  split_ifs <;> rfl

/-- Setting the bucket leaves everything but itself and the total it is counted from. -/
theorem setBucket_eq (h : setBucket clock meterTotal s = some s') :
    s'.clearHalf = s.clearHalf ∧ s'.clearMonth = s.clearMonth ∧
      s'.meterHalf = if AtBoundary clock then s.meterHalf
        else s.meterHalf.setIfInBounds (bucketOf clock) (meterTotal - s.evminStart) := by
  unfold setBucket at h
  split_ifs at h with hboundary
  · cases h
    exact ⟨rfl, rfl, (if_pos hboundary).symm⟩
  · cases h
    exact ⟨rfl, rfl, (if_pos hboundary).symm⟩
  · cases h
    exact ⟨rfl, rfl, (if_neg hboundary).symm⟩

/-- The totals of the month that a call does not add up anew. -/
def Meter.monthTotals (s : Meter) : BitVec 32 × BitVec 32 × BitVec 32 :=
  (s.hisData.meterMonth.powerF, s.hisData.meterMonth.powerP, s.hisData.meterMonth.powerG)

/-- What a call leaves, by whether it finds a new day and a new month. -/
structure AfterCall (clock : SystemTime) (meterTotal : BitVec 32) (newDay newMonth : Prop) [Decidable newDay] [Decidable newMonth]
    (s s' : Meter) : Prop where
  halves : s'.meterHalf =
    let cleared := if newDay then Vector.replicate 48 0 else s.meterHalf
    if AtBoundary clock then cleared else cleared.setIfInBounds (bucketOf clock) (meterTotal - s.evminStart)
  month : s'.monthOld = if newMonth then zeroPower else if newDay then s.hisData.meterMonth else s.monthOld
  totals : s'.monthTotals = if newMonth then (0, 0, 0) else s.monthTotals

/-- A call goes by the flags, and leaves them saying where it fell. -/
theorem cmMeterElectricityCalc_called (hlegal : TimeLegal clock) (h : cmMeterElectricityCalc clock meterTotal s = some s') :
    AfterCall clock meterTotal (StartsDay clock s) (StartsMonth clock s) s s' ∧ s'.timeNo = s.timeNo ∧
      s'.clearHalf = decide (bcdToInt clock.hour = 0) ∧ s'.clearMonth = decide (bcdToInt clock.day = 1) := by
  obtain ⟨s₁, sums, hs₁, -, rfl⟩ := cmMeterElectricityCalc_parts hlegal h
  obtain ⟨hhalf, hstart, -, hclear⟩ := startMonth_frame clock (startDay clock s)
  obtain ⟨hclearHalf, hclearMonth, hhalves⟩ := setBucket_eq hs₁
  have hcleared : (startDay clock s).meterHalf = if StartsDay clock s then Vector.replicate 48 0 else s.meterHalf := by
    split_ifs with hstarts
    · exact startDay_meterHalf_of_starts hstarts
    · exact startDay_meterHalf_of_not hstarts
  have hmonth : StartsMonth clock (startDay clock s) ↔ StartsMonth clock s := by
    rw [StartsMonth, StartsMonth, (startDay_frame clock s).2]
  obtain ⟨hmonthOld, htotals⟩ := startMonth_month clock (startDay clock s)
  obtain ⟨hhis, hold⟩ := setBucket_powers hs₁
  refine ⟨⟨?_, ?_, ?_⟩, show s₁.timeNo = s.timeNo from timeNo_of_setBucket hs₁, ?_, ?_⟩
  · rw [hhalf, hstart, startDay_evminStart, hcleared] at hhalves
    exact hhalves
  · refine (hold.trans hmonthOld).trans ?_
    rw [startDay_monthOld]
    simp only [hmonth]
  · show s₁.monthTotals = _
    rw [Meter.monthTotals, hhis, htotals, (startDay_frame clock s).1]
    simp only [hmonth]
    split_ifs <;> rfl
  · exact (hclearHalf.trans hclear).trans (startDay_clearHalf_eq clock s)
  · exact hclearMonth.trans (startMonth_clearMonth clock _)

/-! ## Runs -/

/-- The meter, with the number of times its buckets were cleared and its month was reset. -/
structure Counted where
  meter : Meter
  clears : Nat
  resets : Nat

def Counted.step (t : Counted) (a : ValidCall) : Option Counted :=
  (cmMeterElectricityCalc a.clock a.meterTotal t.meter).map fun meter =>
    ⟨meter, t.clears + (if StartsDay a.clock t.meter then 1 else 0), t.resets + if StartsMonth a.clock t.meter then 1 else 0⟩

/-- After some calls, the flags say where the last one fell, and the stretches have been counted. -/
structure Counted.After (t : Counted) (calls : List ValidCall) (timeNo : Vector Byte 48) : Prop where
  timeNo : t.meter.timeNo = timeNo
  clearHalf : t.meter.clearHalf = calls.getLast?.any ValidCall.firstHour
  clearMonth : t.meter.clearMonth = calls.getLast?.any ValidCall.firstDay
  clears : t.clears = stretches ValidCall.firstHour calls
  resets : t.resets = stretches ValidCall.firstDay calls

section After

variable {t t' : Counted} {calls : List ValidCall} {timeNo : Vector Byte 48} (h : t.After calls timeNo) (a : ValidCall)

include h

theorem Counted.After.startsDay_iff : StartsDay a.clock t.meter ↔ BeginsStretch ValidCall.firstHour calls.getLast? a := by
  rw [StartsDay, BeginsStretch, h.clearHalf, ValidCall.firstHour, decide_eq_true_iff]

theorem Counted.After.startsMonth_iff : StartsMonth a.clock t.meter ↔ BeginsStretch ValidCall.firstDay calls.getLast? a := by
  rw [StartsMonth, BeginsStretch, h.clearMonth, ValidCall.firstDay, decide_eq_true_iff]

theorem Counted.After.step (hstep : t.step a = some t') : t'.After (calls ++ [a]) timeNo := by
  obtain ⟨meter, hmeter, rfl⟩ := Option.map_eq_some_iff.mp hstep
  obtain ⟨-, htimeNo, hclearHalf, hclearMonth⟩ := cmMeterElectricityCalc_called a.legal hmeter
  refine ⟨htimeNo.trans h.timeNo, ?_, ?_, ?_, ?_⟩
  · rw [List.getLast?_concat]
    exact hclearHalf
  · rw [List.getLast?_concat]
    exact hclearMonth
  · rw [stretches_append, ← h.clears]
    simp only [h.startsDay_iff a]
  · rw [stretches_append, ← h.resets]
    simp only [h.startsMonth_iff a]

theorem Counted.After.step_isSome : (t.step a).isSome ↔ TariffsLegal timeNo := by
  rw [Counted.step, Option.isSome_map, cmMeterElectricityCalc_isSome a.legal, h.timeNo]
  exact and_iff_right (.inl a.hour_lt)

end After

theorem run_after {timeNo : Vector Byte 48} {t₀ : Counted} (h₀ : t₀.After [] timeNo) (calls : List ValidCall) :
    ((run Counted.step t₀ calls).isSome ↔ calls = [] ∨ TariffsLegal timeNo) ∧
      ∀ t, run Counted.step t₀ calls = some t → t.After calls timeNo := by
  induction calls using List.reverseRecOn with
  | nil => exact ⟨by simp [run], fun t ht => Option.some.inj ht ▸ h₀⟩
  | append_singleton calls a ih =>
    have hone : ∀ t, run Counted.step t [a] = t.step a := fun t => by simp [run]
    rw [run_append]
    cases hrun : run Counted.step t₀ calls with
    | none =>
      have hnone := ih.1.not.mp (by simp [hrun])
      simp [not_or.mp hnone]
    | some t =>
      have ht := ih.2 t hrun
      simp only [Option.bind_some, hone, ht.step_isSome a]
      exact ⟨by simp, fun t' => ht.step a⟩

/-- From any meter whose flags are clear, over every list of calls: they return exactly when the tariffs exist; the buckets are cleared
once for each stretch of calls in the first hour, and the month is reset once for each stretch on the first of a month; and a
further call changes its own bucket and nothing else, except that the first of such a stretch clears, or resets, before. -/
theorem half_hours_kept (s : Meter) (hhalf : s.clearHalf = false) (hmonth : s.clearMonth = false) (calls : List ValidCall) :
    ((run Counted.step ⟨s, 0, 0⟩ calls).isSome ↔ calls = [] ∨ TariffsLegal s.timeNo) ∧
      ∀ t, run Counted.step ⟨s, 0, 0⟩ calls = some t →
        t.clears = stretches ValidCall.firstHour calls ∧ t.resets = stretches ValidCall.firstDay calls ∧
          ∀ a t', t.step a = some t' → AfterCall a.clock a.meterTotal (BeginsStretch ValidCall.firstHour calls.getLast? a)
            (BeginsStretch ValidCall.firstDay calls.getLast? a) t.meter t'.meter := by
  obtain ⟨hreturns, hafter⟩ := run_after (⟨rfl, hhalf, hmonth, rfl, rfl⟩ : Counted.After ⟨s, 0, 0⟩ [] s.timeNo) calls
  refine ⟨hreturns, fun t ht => ⟨(hafter t ht).clears, (hafter t ht).resets, fun a t' hstep => ?_⟩⟩
  obtain ⟨meter, hmeter, rfl⟩ := Option.map_eq_some_iff.mp hstep
  obtain ⟨hhalves, hmonthOld, htotals⟩ := (cmMeterElectricityCalc_called a.legal hmeter).1
  refine ⟨?_, ?_, ?_⟩
  · simpa only [(hafter t ht).startsDay_iff a] using hhalves
  · simpa only [(hafter t ht).startsDay_iff a, (hafter t ht).startsMonth_iff a] using hmonthOld
  · simpa only [(hafter t ht).startsMonth_iff a] using htotals

/-- A quarter past midnight on the first of May, twice, and half an hour later. -/
def mayFirst : List ValidCall :=
  [⟨⟨⟨0x00, 0x15, 0x00, 0x01, 0x05, 0x05, 0x20⟩, 100⟩, by decide, by decide⟩,
    ⟨⟨⟨0x00, 0x16, 0x00, 0x01, 0x05, 0x05, 0x20⟩, 110⟩, by decide, by decide⟩,
    ⟨⟨⟨0x00, 0x45, 0x00, 0x01, 0x05, 0x05, 0x20⟩, 120⟩, by decide, by decide⟩]

/-- They clear the buckets once and reset the month once. -/
theorem half_hours_kept_may :
    (run Counted.step ⟨powerUpMeter, 0, 0⟩ mayFirst).isSome ∧
      ∀ t, run Counted.step ⟨powerUpMeter, 0, 0⟩ mayFirst = some t → t.clears = 1 ∧ t.resets = 1 := by
  obtain ⟨hreturns, hkept⟩ := half_hours_kept powerUpMeter rfl rfl mayFirst
  refine ⟨hreturns.mpr (.inr (cmMeterGJFModeInit_legal _)), fun t ht => ?_⟩
  obtain ⟨hclears, hresets, -⟩ := hkept t ht
  exact ⟨hclears.trans (by decide), hresets.trans (by decide)⟩

end EnergyRouter
