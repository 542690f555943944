import Mathlib.Algebra.BigOperators.Intervals
import Mathlib.Algebra.Order.BigOperators.Group.Finset

/-!
# The Gregorian calendar

Days and seconds from the start of a year to an instant, by adding up the lengths of the years and months between. The numbers grow
with the instants, whatever the lengths of the months are; only their sum has to be the length of the year.
-/

namespace Calendar

def IsLeap (year : Nat) : Prop := year % 4 = 0 ∧ (year % 100 ≠ 0 ∨ year % 400 = 0)
deriving Decidable

/-- The days of a month, the first one being January. -/
def monthLength (year month : Nat) : Nat :=
  if month = 2 then if IsLeap year then 29 else 28
  else if month = 4 ∨ month = 6 ∨ month = 9 ∨ month = 11 then 30
  else 31

def yearLength (year : Nat) : Nat := if IsLeap year then 366 else 365

/-- A date and a time of day. -/
structure Instant where
  year : Nat
  month : Nat
  day : Nat
  hour : Nat
  minute : Nat
  second : Nat
  one_le_month : 1 ≤ month
  month_le : month ≤ 12
  one_le_day : 1 ≤ day
  day_le : day ≤ monthLength year month
  hour_lt : hour < 24
  minute_lt : minute < 60
  second_lt : second < 60
  deriving DecidableEq

/-- The parts of an instant, in the order that decides which of two is earlier. -/
def Instant.fields (t : Instant) : List Nat := [t.year, t.month, t.day, t.hour, t.minute, t.second]

/-- The days from the start of the year `epoch` to the start of another. -/
def daysToYear (epoch year : Nat) : Nat := ∑ y ∈ Finset.Ico epoch year, yearLength y

/-- The days from the start of a year to the start of a month. -/
def daysToMonth (year month : Nat) : Nat := ∑ m ∈ Finset.Ico 1 month, monthLength year m

/-- The days from the start of the year `epoch` to that of an instant. -/
def Instant.days (epoch : Nat) (t : Instant) : Nat := daysToYear epoch t.year + daysToMonth t.year t.month + (t.day - 1)

/-- The seconds from the start of the year `epoch` to an instant. -/
def Instant.seconds (epoch : Nat) (t : Instant) : Nat := ((t.days epoch * 24 + t.hour) * 60 + t.minute) * 60 + t.second

@[simp] theorem daysToMonth_one (year : Nat) : daysToMonth year 1 = 0 := by simp [daysToMonth]

theorem daysToYear_succ {epoch year : Nat} (h : epoch ≤ year) : daysToYear epoch (year + 1) = daysToYear epoch year + yearLength year :=
  Finset.sum_Ico_succ_top h _

theorem daysToMonth_succ (year : Nat) {month : Nat} (h : 1 ≤ month) :
    daysToMonth year (month + 1) = daysToMonth year month + monthLength year month := Finset.sum_Ico_succ_top h _

theorem daysToYear_mono (epoch : Nat) {year year' : Nat} (h : year ≤ year') : daysToYear epoch year ≤ daysToYear epoch year' :=
  Finset.sum_le_sum_of_subset (Finset.Ico_subset_Ico_right h)

theorem daysToMonth_mono (year : Nat) {month month' : Nat} (h : month ≤ month') : daysToMonth year month ≤ daysToMonth year month' :=
  Finset.sum_le_sum_of_subset (Finset.Ico_subset_Ico_right h)

theorem daysToMonth_thirteen (year : Nat) : daysToMonth year 13 = yearLength year := by
  have hmonths : daysToMonth year 13 = ([1, 2, 3, 4, 5, 6, 7, 8, 9, 10, 11, 12].map (monthLength year)).sum := rfl
  rw [hmonths]
  by_cases hleap : IsLeap year <;> simp [monthLength, yearLength, hleap]

namespace Instant

variable {epoch : Nat} {t t' : Instant}

/-- The days of the months before are less than those of the next month begun. -/
theorem daysToMonth_add_day_lt (t : Instant) : daysToMonth t.year t.month + (t.day - 1) < daysToMonth t.year (t.month + 1) := by
  have hday := t.day_le
  have hpos := t.one_le_day
  rw [daysToMonth_succ _ t.one_le_month]
  omega

theorem days_lt_daysToYear (hepoch : epoch ≤ t.year) {year : Nat} (h : t.year < year) : t.days epoch < daysToYear epoch year := by
  have hin : daysToMonth t.year t.month + (t.day - 1) < yearLength t.year := by
    rw [← daysToMonth_thirteen]
    have hmonth := t.month_le
    exact t.daysToMonth_add_day_lt.trans_le (daysToMonth_mono _ (by omega))
  calc t.days epoch = daysToYear epoch t.year + (daysToMonth t.year t.month + (t.day - 1)) := Nat.add_assoc ..
    _ < daysToYear epoch t.year + yearLength t.year := Nat.add_lt_add_left hin _
    _ = daysToYear epoch (t.year + 1) := (daysToYear_succ hepoch).symm
    _ ≤ daysToYear epoch year := daysToYear_mono _ h

theorem days_lt (hepoch : epoch ≤ t.year)
    (h : t.year < t'.year ∨ t.year = t'.year ∧ (t.month < t'.month ∨ t.month = t'.month ∧ t.day < t'.day)) :
    t.days epoch < t'.days epoch := by
  rcases h with hyear | ⟨hyear, hmonth | ⟨hmonth, hday⟩⟩
  · have hstart := days_lt_daysToYear hepoch hyear
    rw [days] at hstart
    simp only [days]
    omega
  · have hstart := t.daysToMonth_add_day_lt.trans_le (daysToMonth_mono t.year hmonth)
    simp only [days, ← hyear]
    omega
  · have hpos := t.one_le_day
    simp only [days, ← hyear, ← hmonth]
    omega

theorem seconds_lt (hepoch : epoch ≤ t.year) (h : t.fields < t'.fields) : t.seconds epoch < t'.seconds epoch := by
  have hhour := t.hour_lt
  have hminute := t.minute_lt
  have hsecond := t.second_lt
  simp only [fields, List.cons_lt_cons_iff] at h
  have hdate : t.days epoch < t'.days epoch ∨ t.days epoch = t'.days epoch ∧
      (t.hour < t'.hour ∨ t.hour = t'.hour ∧ (t.minute < t'.minute ∨ t.minute = t'.minute ∧ t.second < t'.second)) := by
    rcases h with hyear | ⟨hyear, hmonth | ⟨hmonth, hday | ⟨hday, htime⟩⟩⟩
    · exact .inl (days_lt hepoch (.inl hyear))
    · exact .inl (days_lt hepoch (.inr ⟨hyear, .inl hmonth⟩))
    · exact .inl (days_lt hepoch (.inr ⟨hyear, .inr ⟨hmonth, hday⟩⟩))
    · refine .inr ⟨by rw [days, days, hyear, hmonth, hday], ?_⟩
      simpa using htime
  simp only [seconds]
  omega

/-- The seconds up to the start of a year bound those of the instants before. -/
theorem seconds_lt_of_year_lt (hepoch : epoch ≤ t.year) {year : Nat} (h : t.year < year) :
    t.seconds epoch < daysToYear epoch year * 86400 := by
  have hdays := days_lt_daysToYear hepoch h
  have hhour := t.hour_lt
  have hminute := t.minute_lt
  have hsecond := t.second_lt
  simp only [seconds]
  omega

end Instant

end Calendar
