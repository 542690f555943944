import EnergyRouter.Lemmas.Meter

/-!
# Powers of a month

The powers of the month should be those of its finished days and of the day that runs, tariff by tariff. All four are written to the
first tariff.
-/

namespace EnergyRouter

open Runs

variable {s : Meter} {a : MeterSample}

/-! ## The books of a month -/

/-- Two powers, tariff by tariff. -/
def MeterPower.add (p q : MeterPower) : MeterPower :=
  ⟨p.powerT + q.powerT, p.powerJ + q.powerJ, p.powerF + q.powerF, p.powerP + q.powerP, p.powerG + q.powerG⟩

@[simp] theorem MeterPower.add_zeroPower (p : MeterPower) : p.add zeroPower = p := by
  simp [MeterPower.add, zeroPower]

/-- The meter, the powers of the days that are over, and the last sample. -/
structure MonthBook where
  meter : Meter
  finished : MeterPower
  last : Option MeterSample

/-- The sample is of another day than the one before. -/
def MonthBook.NewDay (t : MonthBook) (a : MeterSample) : Prop := ∃ p ∈ t.last, p.clock.day ≠ a.clock.day
deriving Decidable

/-- One sample. The first one of a new day closes the day before, with the powers that day ended with. -/
def MonthBook.step (t : MonthBook) (a : MeterSample) : Option MonthBook :=
  (a.calc t.meter).map fun meter =>
    ⟨meter, if t.NewDay a then t.finished.add t.meter.hisData.meterDay else t.finished, some a⟩

/-- What is asked: each tariff of the month is what the finished days and the running one add up to, and the total is that of the
tariffs. -/
structure MonthBook.Accounted (t : MonthBook) : Prop where
  powerJ : t.meter.hisData.meterMonth.powerJ = t.finished.powerJ + t.meter.hisData.meterDay.powerJ
  powerF : t.meter.hisData.meterMonth.powerF = t.finished.powerF + t.meter.hisData.meterDay.powerF
  powerP : t.meter.hisData.meterMonth.powerP = t.finished.powerP + t.meter.hisData.meterDay.powerP
  powerG : t.meter.hisData.meterMonth.powerG = t.finished.powerG + t.meter.hisData.meterDay.powerG
  powerT : t.meter.hisData.meterMonth.powerT = t.meter.hisData.meterMonth.powerJ + t.meter.hisData.meterMonth.powerF +
    t.meter.hisData.meterMonth.powerP + t.meter.hisData.meterMonth.powerG

/-- Nothing was consumed on the running day. -/
def MonthBook.Unused (t : MonthBook) : Prop := t.meter.hisData.meterDay = zeroPower
deriving Decidable

/-- A run can begin with a sample: the month is empty, or the sample clears it. -/
def BeginsMonth (s : Meter) (a : MeterSample) : Prop :=
  (s.hisData.meterMonth = zeroPower ∧ s.monthOld = zeroPower) ∨ (bcdToInt a.clock.day = 1 ∧ s.clearMonth = false)

/-! ## One sample -/

/-- Nothing is in the last three tariffs of the month. -/
structure LastTariffsEmpty (s : Meter) : Prop where
  powerF : s.hisData.meterMonth.powerF = 0
  powerP : s.hisData.meterMonth.powerP = 0
  powerG : s.hisData.meterMonth.powerG = 0
  oldG : s.monthOld.powerG = 0

theorem LastTariffsEmpty.startDay (h : LastTariffsEmpty s) (clock : SystemTime) :
    LastTariffsEmpty (startDay clock s) := by
  unfold EnergyRouter.startDay
  split_ifs
  · exact ⟨h.powerF, h.powerP, h.powerG, h.powerG⟩
  · exact ⟨h.powerF, h.powerP, h.powerG, h.oldG⟩
  · exact h

theorem LastTariffsEmpty.startMonth (h : LastTariffsEmpty s) (clock : SystemTime) :
    LastTariffsEmpty (startMonth clock s) := by
  unfold EnergyRouter.startMonth
  split_ifs
  · exact ⟨rfl, rfl, rfl, rfl⟩
  · exact ⟨h.powerF, h.powerP, h.powerG, h.oldG⟩
  · exact h

@[simp] theorem startDay_clearMonth (clock : SystemTime) (s : Meter) : (startDay clock s).clearMonth = s.clearMonth := by
  unfold startDay
  split_ifs <;> rfl

theorem BeginsMonth.lastTariffsEmpty (h : BeginsMonth s a) :
    LastTariffsEmpty (startMonth a.clock (startDay a.clock s)) := by
  rcases h with ⟨hmonth, hold⟩ | hclears
  · have hs : LastTariffsEmpty s := by
      refine ⟨?_, ?_, ?_, ?_⟩
      · rw [hmonth, zeroPower]
      · rw [hmonth, zeroPower]
      · rw [hmonth, zeroPower]
      · rw [hold, zeroPower]
    exact (hs.startDay a.clock).startMonth a.clock
  · rw [startMonth, startDay_clearMonth, if_pos hclears]
    exact ⟨rfl, rfl, rfl, rfl⟩

/-- The powers a sample leaves: the first tariff of the month is the last one of the day, and the others stay empty. -/
structure ValleyOnly (s : Meter) : Prop where
  powerJ : s.hisData.meterMonth.powerJ = s.hisData.meterDay.powerG
  powerT : s.hisData.meterMonth.powerT = s.hisData.meterDay.powerG
  dayT : s.hisData.meterDay.powerT = s.hisData.meterDay.powerJ + s.hisData.meterDay.powerF + s.hisData.meterDay.powerP +
    s.hisData.meterDay.powerG
  empty : LastTariffsEmpty s

theorem MeterSample.calc_valleyOnly {s' : Meter} (h : a.calc s = some s')
    (hempty : LastTariffsEmpty (startMonth a.clock (startDay a.clock s))) : ValleyOnly s' := by
  obtain ⟨s₁, sums, hs₁, -, rfl⟩ := MeterSample.calc_parts h
  obtain ⟨hhis, hold⟩ := setBucket_powers hs₁
  have hempty₁ : LastTariffsEmpty s₁ := by
    refine ⟨?_, ?_, ?_, ?_⟩
    · rw [hhis, hempty.powerF]
    · rw [hhis, hempty.powerP]
    · rw [hhis, hempty.powerG]
    · rw [hold, hempty.oldG]
  have hJ : (setPowers sums s₁).hisData.meterMonth.powerJ = (setPowers sums s₁).hisData.meterDay.powerG := by
    show s₁.monthOld.powerG + sums.getD 3 0 = sums.getD 3 0
    rw [hempty₁.oldG, zero_add]
  have hempty₂ : LastTariffsEmpty (setPowers sums s₁) := ⟨hempty₁.powerF, hempty₁.powerP, hempty₁.powerG, hempty₁.oldG⟩
  refine ⟨hJ, ?_, rfl, hempty₂⟩
  calc (setPowers sums s₁).hisData.meterMonth.powerT
      = (setPowers sums s₁).hisData.meterMonth.powerJ + (setPowers sums s₁).hisData.meterMonth.powerF +
          (setPowers sums s₁).hisData.meterMonth.powerP + (setPowers sums s₁).hisData.meterMonth.powerG := rfl
    _ = (setPowers sums s₁).hisData.meterDay.powerG := by
      rw [hJ, hempty₂.powerF, hempty₂.powerP, hempty₂.powerG, add_zero, add_zero, add_zero]

/-- While no finished day consumed anything, the books are right exactly when the running day did not either. -/
theorem MonthBook.accounted_iff {t : MonthBook} (hvalley : ValleyOnly t.meter) (hfinished : t.finished = zeroPower) :
    t.Accounted ↔ t.Unused := by
  have hzero : ∀ x : BitVec 32, 0 + x = x := zero_add
  constructor
  · rintro ⟨hJ, hF, hP, hG, -⟩
    rw [hfinished] at hJ hF hP hG
    have hF : t.meter.hisData.meterDay.powerF = 0 := ((hvalley.empty.powerF.symm.trans hF).trans (hzero _)).symm
    have hP : t.meter.hisData.meterDay.powerP = 0 := ((hvalley.empty.powerP.symm.trans hP).trans (hzero _)).symm
    have hG : t.meter.hisData.meterDay.powerG = 0 := ((hvalley.empty.powerG.symm.trans hG).trans (hzero _)).symm
    have hJ : t.meter.hisData.meterDay.powerJ = 0 := (((hvalley.powerJ.symm.trans hJ).trans (hzero _)).symm).trans hG
    have hT : t.meter.hisData.meterDay.powerT = 0 := by
      rw [hvalley.dayT, hJ, hF, hP, hG]
      rfl
    exact MeterPower.ext hT hJ hF hP hG
  · intro hunused
    have hG : t.meter.hisData.meterDay.powerG = 0 := congrArg MeterPower.powerG hunused
    have hJ := hvalley.powerJ.trans hG
    have hT := hvalley.powerT.trans hG
    rw [MonthBook.Unused] at hunused
    refine ⟨?_, ?_, ?_, ?_, ?_⟩
    · rw [hfinished, hunused, hJ]
      rfl
    · rw [hfinished, hunused, hvalley.empty.powerF]
      rfl
    · rw [hfinished, hunused, hvalley.empty.powerP]
      rfl
    · rw [hfinished, hunused, hvalley.empty.powerG]
      rfl
    · rw [hT, hJ, hvalley.empty.powerF, hvalley.empty.powerP, hvalley.empty.powerG, add_zero, add_zero, add_zero]

/-! ## All samples of a month -/

/-- In the middle of a run: no day consumed anything so far. -/
structure MonthBook.Inv (t : MonthBook) : Prop where
  empty : LastTariffsEmpty t.meter
  finished : t.finished = zeroPower
  unused : t.Unused

/-- A day that is closed without consumption leaves the powers of the finished days alone. -/
theorem MonthBook.step_finished {t t' : MonthBook} (h : t.step a = some t') (hfinished : t.finished = zeroPower)
    (hunused : t.last = none ∨ t.Unused) : t'.finished = zeroPower := by
  obtain ⟨meter, -, rfl⟩ := Option.map_eq_some_iff.mp h
  show (if t.NewDay a then t.finished.add t.meter.hisData.meterDay else t.finished) = zeroPower
  split_ifs with hnew
  · rcases hunused with hnone | hunused
    · obtain ⟨p, hp, -⟩ := hnew
      rw [hnone] at hp
      cases hp
    · rw [MonthBook.Unused] at hunused
      rw [hfinished, hunused, MeterPower.add_zeroPower]
  · exact hfinished

theorem MonthBook.step_valleyOnly {t t' : MonthBook} (h : t.step a = some t')
    (hempty : LastTariffsEmpty (startMonth a.clock (startDay a.clock t.meter))) : ValleyOnly t'.meter := by
  obtain ⟨meter, hmeter, rfl⟩ := Option.map_eq_some_iff.mp h
  exact MeterSample.calc_valleyOnly hmeter hempty

/-- A sample at ten o'clock and one ten minutes later, fifty units on. -/
def mayMorning : List MeterSample := [maySample 0x10 0x00 100 (by decide), maySample 0x10 0x10 150 (by decide)]

end EnergyRouter
