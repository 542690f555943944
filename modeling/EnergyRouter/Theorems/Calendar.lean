import EnergyRouter.Lib.Calendar
import EnergyRouter.TimeBin

/-!
# The number of a time

The tables of `timebin2long` are those of the calendar from 2000 to 2099, so the number is that of the seconds since the start of
2000, and it is less than 2 ^ 32.
-/

namespace EnergyRouter

open Calendar

variable {y n : Nat} {b : Byte}

/-! ## The tables -/

theorem isLeap_iff (hy : y < 100) : IsLeap (2000 + y) ↔ y % 4 = 0 := by
  unfold IsLeap
  omega

theorem timeEntry_year (hy : y < 100) :
    timeEntry gYearTable y = some (BitVec.ofNat 32 (daysToYear 2000 (2000 + y))) := by
  induction y with
  | zero => decide
  | succ y ih =>
    have hnext : ∀ y < 99, timeEntry gYearTable ((y + 1 : Nat) : Int) =
        (timeEntry gYearTable y).map (· + BitVec.ofNat 32 (yearLength (2000 + y))) := by decide
    rw [hnext y (by omega), ih (by omega), Option.map_some, ← BitVec.ofNat_add, ← daysToYear_succ (by omega), Nat.add_assoc]

theorem monthLength_eq (hy : y < 100) (month : Nat) :
    monthLength (2000 + y) month = if y % 4 = 0 then monthLength 2000 month else monthLength 2001 month := by
  have hleap : IsLeap 2000 := by decide
  have hcommon : ¬ IsLeap 2001 := by decide
  by_cases hfour : y % 4 = 0
  · simp only [monthLength, isLeap_iff hy, hfour, hleap, if_true]
  · simp only [monthLength, isLeap_iff hy, hfour, hcommon, if_false]

theorem timeEntry_month {month : Nat} (hy : y < 100) (hone : 1 ≤ month) (hmonth : month ≤ 12) :
    timeEntry (if y % 4 = 0 then gMonthTable2 else gMonthTable1) ((month : Int) - 1) =
      some (BitVec.ofNat 32 (daysToMonth (2000 + y) month)) := by
  induction month, hone using Nat.le_induction with
  | base =>
    rw [daysToMonth_one]
    split_ifs <;> rfl
  | succ month hone ih =>
    have hnext : ∀ month < 12, 1 ≤ month →
        timeEntry gMonthTable2 (((month + 1 : Nat) : Int) - 1) =
          (timeEntry gMonthTable2 ((month : Int) - 1)).map (· + BitVec.ofNat 32 (monthLength 2000 month)) ∧
        timeEntry gMonthTable1 (((month + 1 : Nat) : Int) - 1) =
          (timeEntry gMonthTable1 ((month : Int) - 1)).map (· + BitVec.ofNat 32 (monthLength 2001 month)) := by decide
    obtain ⟨hleap, hcommon⟩ := hnext month (by omega) hone
    have ih := ih (by omega)
    rw [daysToMonth_succ _ hone, monthLength_eq hy, BitVec.ofNat_add]
    split_ifs at ih ⊢
    · rw [hleap, ih, Option.map_some]
    · rw [hcommon, ih, Option.map_some]

/-! ## The number -/

/-- A byte that is a number of two digits. -/
def IsDigits (b : Byte) (n : Nat) : Prop := n < 100 ∧ b = BitVec.ofNat 8 (n / 10 * 16 + n % 10)
deriving Decidable

/-- A time of this century in BCD. -/
structure BcdTime (buf : Vector Byte 6) (t : Instant) : Prop where
  second : IsDigits (buf.getD 0 0) t.second
  minute : IsDigits (buf.getD 1 0) t.minute
  hour : IsDigits (buf.getD 2 0) t.hour
  day : IsDigits (buf.getD 3 0) t.day
  month : IsDigits (buf.getD 4 0) t.month
  year_ge : 2000 ≤ t.year
  year : IsDigits (buf.getD 5 0) (t.year - 2000)

theorem IsDigits.timeDigits (h : IsDigits b n) : timeDigits b = BitVec.ofNat 8 n := by
  have hall : ∀ n < 100, EnergyRouter.timeDigits (BitVec.ofNat 8 (n / 10 * 16 + n % 10)) = BitVec.ofNat 8 n := by decide
  rw [h.2, hall n h.1]

theorem IsDigits.toNat (h : IsDigits b n) : (EnergyRouter.timeDigits b).toNat = n := by
  have hlt := h.1
  rw [h.timeDigits, BitVec.toNat_ofNat, Nat.mod_eq_of_lt (by omega)]

theorem IsDigits.setWidth (h : IsDigits b n) : (EnergyRouter.timeDigits b).setWidth 32 = BitVec.ofNat 32 n := by
  apply BitVec.eq_of_toNat_eq
  have hlt := h.1
  rw [BitVec.toNat_setWidth, h.toNat, BitVec.toNat_ofNat]

theorem IsDigits.setWidth_sub_one (h : IsDigits b n) (hpos : 1 ≤ n) :
    (EnergyRouter.timeDigits b - 1).setWidth 32 = BitVec.ofNat 32 (n - 1) := by
  apply BitVec.eq_of_toNat_eq
  have hlt := h.1
  have hone : (1 : Byte).toNat = 1 := rfl
  rw [BitVec.toNat_setWidth, BitVec.toNat_sub, h.toNat, hone, BitVec.toNat_ofNat]
  omega

theorem IsDigits.mod_four (h : IsDigits b n) : EnergyRouter.timeDigits b % 4 = 0 ↔ n % 4 = 0 := by
  rw [← BitVec.toNat_inj, BitVec.toNat_umod, h.toNat]
  rfl

theorem BcdTime.timebin2long {buf : Vector Byte 6} {t : Instant} (h : BcdTime buf t) :
    timebin2long buf = some (BitVec.ofNat 32 (t.seconds 2000)) := by
  obtain ⟨y, hy⟩ : ∃ y, t.year = 2000 + y := ⟨t.year - 2000, by have := h.year_ge; omega⟩
  have hyear : IsDigits (buf.getD 5 0) y := by
    have hyear := h.year
    rwa [hy, Nat.add_sub_cancel_left] at hyear
  have hseconds : t.seconds 2000 = ((((daysToYear 2000 (2000 + y) + daysToMonth (2000 + y) t.month + (t.day - 1)) * 24 + t.hour) * 60 +
      t.minute) * 60 + t.second) := by
    rw [Instant.seconds, Instant.days, hy]
  simp only [EnergyRouter.timebin2long, hyear.toNat, timeEntry_year hyear.1, h.month.toNat, hyear.mod_four,
    timeEntry_month hyear.1 t.one_le_month t.month_le, h.day.setWidth_sub_one t.one_le_day, h.hour.setWidth, h.minute.setWidth,
    h.second.setWidth, Option.bind_eq_bind, Option.bind_some]
  rw [hseconds, BitVec.ofNat_add, BitVec.ofNat_mul, BitVec.ofNat_add, BitVec.ofNat_mul, BitVec.ofNat_add, BitVec.ofNat_mul,
    BitVec.ofNat_add, BitVec.ofNat_add]
  rfl

/-- For all times of this century: the number is that of the seconds since the start of 2000, without a carry out of 32 bits, and a
later time has a greater one. -/
theorem timebin2long_seconds {buf buf' : Vector Byte 6} {t t' : Instant} (h : BcdTime buf t) (h' : BcdTime buf' t') :
    ∃ v v', timebin2long buf = some v ∧ timebin2long buf' = some v' ∧ v.toNat = t.seconds 2000 ∧ v'.toNat = t'.seconds 2000 ∧
      (t.fields < t'.fields → v.toNat < v'.toNat) := by
  have hlt : ∀ {buf : Vector Byte 6} {t : Instant}, BcdTime buf t → (BitVec.ofNat 32 (t.seconds 2000)).toNat = t.seconds 2000 := by
    intro buf t h
    have hyear := h.year.1
    have hcentury : daysToYear 2000 2100 = 36525 := by decide +kernel
    have hbound := Instant.seconds_lt_of_year_lt h.year_ge (show t.year < 2100 by omega)
    rw [hcentury] at hbound
    rw [BitVec.toNat_ofNat, Nat.mod_eq_of_lt (by omega)]
  refine ⟨_, _, h.timebin2long, h'.timebin2long, hlt h, hlt h', ?_⟩
  intro hearlier
  rw [hlt h, hlt h']
  exact Instant.seconds_lt h.year_ge hearlier

/-- The first and the last second of the century. -/
theorem timebin2long_century :
    ∃ v v', timebin2long #v[0x00, 0x00, 0x00, 0x01, 0x01, 0x00] = some v ∧
      timebin2long #v[0x59, 0x59, 0x23, 0x31, 0x12, 0x99] = some v' ∧ v.toNat = 0 ∧ v'.toNat = 3155759999 := by
  have hfirst : BcdTime #v[0x00, 0x00, 0x00, 0x01, 0x01, 0x00]
      ⟨2000, 1, 1, 0, 0, 0, by decide, by decide, by decide, by decide, by decide, by decide, by decide⟩ := by
    constructor <;> decide
  have hlast : BcdTime #v[0x59, 0x59, 0x23, 0x31, 0x12, 0x99]
      ⟨2099, 12, 31, 23, 59, 59, by decide, by decide, by decide, by decide, by decide, by decide, by decide⟩ := by
    constructor <;> decide
  obtain ⟨v, v', hv, hv', hseconds, hseconds', -⟩ := timebin2long_seconds hfirst hlast
  exact ⟨v, v', hv, hv', hseconds.trans (by decide), hseconds'.trans (by decide +kernel)⟩

end EnergyRouter
