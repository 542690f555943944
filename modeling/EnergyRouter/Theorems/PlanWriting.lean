import EnergyRouter.Lemmas.Requests
import EnergyRouter.Objects

/-!
# Writing a charge plan, and times

The loop of `charge_strategy_package` over the time slots compares one variable and advances another. The times in a plan, and the
clock of the router, are converted by two routines of one text, which lose the century, the month's lower digit and the tens.
-/

namespace EnergyRouter

/-! ## Slots -/

/-- The buffer with the members of a plan in front of its slots. -/
def planHead (p : ChargeStrategy) (hplcData : CharPointDataManage) : CharPointDataManage :=
  let d := putBytes (putEach hplcData [2, 10, 9, 16]) (p.cRequestNO.toList.take 16)
  let d := putBytes (putEach d [10, 64]) (p.cUserID.toList.take 64)
  let d := putBytes (putEach d [22, p.ucDecMaker, 22, p.ucDecType, 28]) (strSystemTimeToDateTimeS p.strDecTime)
  let d := putBytes (putEach d [10, 22]) (p.cAssetNO.toList.take 22)
  let d := putEach (putEach d (6 :: bytesOf32 p.ulChargeReqEle)) (5 :: bytesOf32 p.ulChargeRatePow)
  putEach d [22, p.ucDecType, 1, p.ucTimeSlotNum]

/-- The plan is written to its end: behind its other members as many slots as it says, slot `j` in place `j`. -/
def WritesSlots (p : ChargeStrategy) (hplcData : CharPointDataManage) : Prop :=
  chargeStrategyPackage p hplcData = some (((List.range p.ucTimeSlotNum.toNat).map p.slot).foldl putSolt (planHead p hplcData))

/-- A plan is written to its end exactly when it has no slots. -/
theorem slots_written_iff (p : ChargeStrategy) (hplcData : CharPointDataManage) : WritesSlots p hplcData ↔ p.ucTimeSlotNum = 0 := by
  constructor
  · intro hwrites
    by_contra hslots
    rw [WritesSlots, chargeStrategyPackage_slots hslots] at hwrites
    cases hwrites
  · intro hslots
    have hnone : (List.range p.ucTimeSlotNum.toNat).map p.slot = [] := by
      rw [hslots]
      rfl
    rw [WritesSlots, hnone, List.foldl_nil]
    exact if_pos hslots

/-- With a single slot the loop goes on behind the last slot there is room for. -/
theorem single_slot_not_written : ¬ WritesSlots { zeroPlan with ucTimeSlotNum := 1 } { zeroBuffer with size := hplcDataMaxSize } := by
  rw [WritesSlots, chargeStrategyPackage_slots (by decide)]
  intro hwrites
  cases hwrites

/-! ## Times -/

/-- The number two decimal digits stand for. -/
def bcdValue (x : Byte) : Nat := (x >>> 4).toNat * 10 + (x &&& 0x0f).toNat

/-- Two decimal digits, the number of which is not greater than `most`. -/
def IsBcd (x : Byte) (most : Nat) : Prop := (x >>> 4).toNat ≤ 9 ∧ (x &&& 0x0f).toNat ≤ 9 ∧ bcdValue x ≤ most
deriving Decidable

/-- A time of this century in decimal digits. -/
structure ValidTime (t : SystemTime) : Prop where
  year : IsBcd t.year 99
  month : IsBcd t.month 12 ∧ 0 < bcdValue t.month
  day : IsBcd t.day 31 ∧ 0 < bcdValue t.day
  hour : IsBcd t.hour 23
  minute : IsBcd t.minute 59
  second : IsBcd t.second 59

/-- `date_time_s` of 698.45: the year in two bytes, then a byte for each of the other numbers. -/
def dateTimeS (t : SystemTime) : List Byte :=
  [BitVec.ofNat 8 ((2000 + bcdValue t.year) / 256), BitVec.ofNat 8 (2000 + bcdValue t.year), BitVec.ofNat 8 (bcdValue t.month),
    BitVec.ofNat 8 (bcdValue t.day), BitVec.ofNat 8 (bcdValue t.hour), BitVec.ofNat 8 (bcdValue t.minute),
    BitVec.ofNat 8 (bcdValue t.second)]

/-- The century's byte is 20, which is the high byte of no year of this century. -/
theorem dateTimeS_head_ne (t : SystemTime) : (dateTimeS t).head? ≠ some 20 := by
  have hdigits : ∀ x : Byte, bcdValue x ≤ 165 := by decide
  have hyear := hdigits t.year
  intro h
  have hhigh := congrArg BitVec.toNat (Option.some.inj h)
  rw [BitVec.toNat_ofNat] at hhigh
  change (2000 + bcdValue t.year) / 256 % 256 = 20 at hhigh
  omega

/-- The two conversions agree on every time, and neither of them gives its `date_time_s`, on any time. -/
theorem times_never_converted (t : SystemTime) :
    getDateTimeS t = strSystemTimeToDateTimeS t ∧ getDateTimeS t ≠ dateTimeS t ∧ strSystemTimeToDateTimeS t ≠ dateTimeS t := by
  have hne : strSystemTimeToDateTimeS t ≠ dateTimeS t := by
    intro h
    exact dateTimeS_head_ne t (congrArg List.head? h).symm
  exact ⟨rfl, hne, hne⟩

/-- Half past eight and 17 seconds in the morning of 21 June 2021. -/
def juneMorning : SystemTime := ⟨0x17, 0x30, 0x08, 0x21, 0x01, 0x06, 0x21⟩

/-- It is sent as minute 14 and second 1 of the fifth of January. -/
theorem juneMorning_converted :
    ValidTime juneMorning ∧ getDateTimeS juneMorning = [20, 5, 1, 5, 8, 14, 1] ∧ getDateTimeS juneMorning ≠ dateTimeS juneMorning := by
  refine ⟨⟨?_, ?_, ?_, ?_, ?_, ?_⟩, ?_, ?_⟩ <;> decide

end EnergyRouter
