import EnergyRouter.Theorems.Tariffs

/-!
# The records of the days

With the first reading of another day the powers of the day before are due to be stored once, under its own date.
`cmMeter_electricity_calc` stores under the date of the new day; it stores twice on the first of a month, once more at every
power-up in the first hour, and not at all when a day begins after that.
-/

namespace EnergyRouter

open Runs

/-- A call of `cmMeter_electricity_calc`: the time and the total it finds. -/
structure MeterCall where
  clock : SystemTime
  meterTotal : BitVec 32
  deriving DecidableEq, Repr

/-- The reading is the first one since the clock came to the first day of a month. -/
def StartsMonth (clock : SystemTime) (s : Meter) : Prop := bcdToInt clock.day = 1 ∧ s.clearMonth = false
deriving Decidable

/-! ## What a call stores -/

/-- What a call hands to `SetStorageData`, with the dates. -/
def storedBy (clock : SystemTime) (s : Meter) : List (MeterHisData × BitVec 32) :=
  (if StartsDay clock s then [(s.hisData, meterTime clock)] else []) ++
    if StartsMonth clock s then [(s.hisData, meterTime clock)] else []

theorem startDay_frame (clock : SystemTime) (s : Meter) :
    (startDay clock s).hisData = s.hisData ∧ (startDay clock s).clearMonth = s.clearMonth := by
  unfold startDay
  split_ifs <;> exact ⟨rfl, rfl⟩

theorem startDay_stored (clock : SystemTime) (s : Meter) :
    (startDay clock s).stored = s.stored ++ if StartsDay clock s then [(s.hisData, meterTime clock)] else [] := by
  unfold startDay
  split_ifs with hstarts
  · rfl
  · exact (List.append_nil _).symm
  · exact (List.append_nil _).symm

theorem startMonth_stored (clock : SystemTime) (s : Meter) :
    (startMonth clock s).stored = s.stored ++ if StartsMonth clock s then [(s.hisData, meterTime clock)] else [] := by
  by_cases hstarts : bcdToInt clock.day = 1 ∧ s.clearMonth = false
  · rw [startMonth, if_pos hstarts, if_pos (show StartsMonth clock s from hstarts)]
  · rw [startMonth, if_neg hstarts, if_neg (show ¬ StartsMonth clock s from hstarts), List.append_nil]
    split_ifs <;> rfl

theorem setBucket_stored {clock : SystemTime} {meterTotal : BitVec 32} {s s' : Meter} (h : setBucket clock meterTotal s = some s') :
    s'.stored = s.stored := by
  unfold setBucket at h
  split_ifs at h <;> (cases h; rfl)

theorem cmMeterElectricityCalc_stored {clock : SystemTime} (hlegal : TimeLegal clock) {meterTotal : BitVec 32} {s s' : Meter}
    (h : cmMeterElectricityCalc clock meterTotal s = some s') : s'.stored = s.stored ++ storedBy clock s := by
  obtain ⟨s₁, sums, hs₁, -, rfl⟩ := cmMeterElectricityCalc_parts hlegal h
  obtain ⟨hhis, hclear⟩ := startDay_frame clock s
  have hmonth : StartsMonth clock (startDay clock s) ↔ StartsMonth clock s := by
    rw [StartsMonth, StartsMonth, hclear]
  calc (setPowers sums s₁).stored = s₁.stored := rfl
    _ = (startMonth clock (startDay clock s)).stored := setBucket_stored hs₁
    _ = s.stored ++ storedBy clock s := by
      rw [startMonth_stored, startDay_stored, hhis, storedBy, List.append_assoc]
      simp only [hmonth]

/-! ## What is due -/

/-- A run of calls: the meter, the time of the last call that counted, and the records that were due so far. -/
structure Filing where
  meter : Meter
  last : Option SystemTime
  due : List (MeterHisData × BitVec 32)

/-- What a call makes due. When another day has come: the powers of the day that is finished and of its month. -/
def Filing.finished (t : Filing) (clock : SystemTime) : List (MeterHisData × BitVec 32) :=
  match t.last with
  | none => []
  | some last => if meterTime last = meterTime clock then [] else [(t.meter.hisData, meterTime last)]

/-- One call. At a time that fails the check it returns at once. -/
def Filing.step (t : Filing) (a : MeterCall) : Option Filing :=
  (cmMeterElectricityCalc a.clock a.meterTotal t.meter).map fun meter =>
    if TimeLegal a.clock then ⟨meter, some a.clock, t.due ++ t.finished a.clock⟩ else { t with meter := meter }

/-- Each finished day was stored once under its own date, with the powers of the day and of its month, and nothing else was stored. -/
def Filing.Filed (t : Filing) : Prop := t.meter.stored = t.due

/-- A call that finishes no day and stores nothing. -/
structure QuietCall (t : Filing) (clock : SystemTime) : Prop where
  sameDay : ∀ last, t.last = some last → meterTime last = meterTime clock
  notFirstHour : ¬ StartsDay clock t.meter
  notFirstDay : ¬ StartsMonth clock t.meter

/-- The call fails the check of the times, or it stays inside the arrays, finishes no day and stores nothing. -/
def CallAllowed (t : Filing) (a : MeterCall) : Prop :=
  TimeLegal a.clock →
    (((bcdToInt a.clock.hour).toNat < 24 ∨ AtBoundary a.clock) ∧ TariffsLegal t.meter.timeNo) ∧ QuietCall t a.clock

/-- What a call stores is what it makes due exactly when both are nothing: the dates differ. -/
theorem storedBy_eq_finished_iff (t : Filing) (clock : SystemTime) : storedBy clock t.meter = t.finished clock ↔ QuietCall t clock := by
  constructor
  · intro h
    have hsame : ∀ last, t.last = some last → meterTime last = meterTime clock := by
      intro last hlast
      by_contra hother
      have hdue : (t.meter.hisData, meterTime last) ∈ storedBy clock t.meter := by
        rw [h, Filing.finished, hlast]
        simp [hother]
      rw [storedBy, List.mem_append] at hdue
      rcases hdue with hday | hmonth
      · split_ifs at hday
        · exact hother (congrArg Prod.snd (List.mem_singleton.mp hday))
        · cases hday
      · split_ifs at hmonth
        · exact hother (congrArg Prod.snd (List.mem_singleton.mp hmonth))
        · cases hmonth
    have hnone : t.finished clock = [] := by
      rw [Filing.finished]
      cases hlast : t.last with
      | none => rfl
      | some last => exact if_pos (hsame last hlast)
    rw [hnone, storedBy, List.append_eq_nil_iff] at h
    exact ⟨hsame, by simpa using h.1, by simpa using h.2⟩
  · rintro ⟨hsame, hday, hmonth⟩
    rw [storedBy, if_neg hday, if_neg hmonth, Filing.finished]
    cases hlast : t.last with
    | none => rfl
    | some last => exact (if_pos (hsame last hlast)).symm

/-- A call leaves the records as they are due exactly when it is allowed. -/
theorem Filing.Filed.step_iff {t : Filing} (h : t.Filed) (a : MeterCall) : CallAllowed t a ↔ ∃ t', t.step a = some t' ∧ t'.Filed := by
  by_cases hlegal : TimeLegal a.clock
  · have hfiled : ∀ meter, cmMeterElectricityCalc a.clock a.meterTotal t.meter = some meter →
        (meter.stored = t.due ++ t.finished a.clock ↔ QuietCall t a.clock) := by
      intro meter hmeter
      rw [cmMeterElectricityCalc_stored hlegal hmeter, h, List.append_cancel_left_eq, storedBy_eq_finished_iff]
    simp only [CallAllowed, hlegal, true_imp_iff]
    rw [← cmMeterElectricityCalc_isSome hlegal a.meterTotal, Option.isSome_iff_exists]
    constructor
    · rintro ⟨⟨meter, hmeter⟩, hquiet⟩
      refine ⟨⟨meter, some a.clock, t.due ++ t.finished a.clock⟩, ?_, (hfiled meter hmeter).mpr hquiet⟩
      rw [Filing.step, hmeter, Option.map_some, if_pos hlegal]
    · rintro ⟨t', hstep, hgood⟩
      obtain ⟨meter, hmeter, rfl⟩ := Option.map_eq_some_iff.mp hstep
      rw [if_pos hlegal] at hgood
      exact ⟨⟨meter, hmeter⟩, (hfiled meter hmeter).mp hgood⟩
  · refine ⟨fun _ => ⟨t, ?_, h⟩, fun _ hlegal' => absurd hlegal' hlegal⟩
    rw [Filing.step, cmMeterElectricityCalc, if_neg hlegal, Option.map_some, if_neg hlegal]

/-- Over every list of calls, through any number of days, from every state of the meter: each of them returns and leaves what was stored
as it was due, exactly when each of them is allowed in the state it finds. -/
theorem days_filed_iff (s : Meter) (calls : List MeterCall) :
    Meets Filing.step CallAllowed ⟨s, none, s.stored⟩ calls ↔ Keeps Filing.step (fun _ t => t.Filed) ⟨s, none, s.stored⟩ calls := by
  have hstart : (⟨s, none, s.stored⟩ : Filing).Filed := rfl
  refine meets_iff_keeps ?_ ?_ hstart calls
  · exact fun t a h => h.step_iff a
  · exact fun t a t' _ _ hgood => hgood

/-- A call at a quarter to midnight of one day and one at ten past midnight of the next. -/
def overMidnight (day month day' month' : Byte) : List MeterCall :=
  [⟨⟨0x00, 0x45, 0x23, day, 0x05, month, 0x20⟩, 100⟩, ⟨⟨0x00, 0x10, 0x00, day', 0x05, month', 0x20⟩, 120⟩]

/-- The seventeenth of May is stored under the eighteenth; the last of May twice, under the first of June. -/
theorem day_filed_under_next :
    (run Filing.step ⟨powerUpMeter, none, []⟩ (overMidnight 0x17 0x05 0x18 0x05)).map
        (fun t => (t.meter.stored.map Prod.snd, t.due.map Prod.snd)) = some ([0x20200518], [0x20200517]) ∧
      (run Filing.step ⟨powerUpMeter, none, []⟩ (overMidnight 0x31 0x05 0x01 0x06)).map
        (fun t => (t.meter.stored.map Prod.snd, t.due.map Prod.snd)) = some ([0x20200601, 0x20200601], [0x20200531]) ∧
      ¬ Keeps Filing.step (fun _ t => t.Filed) ⟨powerUpMeter, none, []⟩ (overMidnight 0x17 0x05 0x18 0x05) := by
  have hrun : (run Filing.step ⟨powerUpMeter, none, []⟩ (overMidnight 0x17 0x05 0x18 0x05)).map
      (fun t => (t.meter.stored.map Prod.snd, t.due.map Prod.snd)) = some ([0x20200518], [0x20200517]) := by decide +kernel
  refine ⟨hrun, by decide +kernel, ?_⟩
  rintro ⟨t₁, h₁, -, t₂, h₂, hfiled, -⟩
  simp only [overMidnight, run, h₁, h₂, Option.bind_some, Option.map_some, Option.some.injEq, Prod.mk.injEq] at hrun
  rw [show t₂.meter.stored = t₂.due from hfiled] at hrun
  exact absurd (hrun.1.symm.trans hrun.2) (by decide)

end EnergyRouter
