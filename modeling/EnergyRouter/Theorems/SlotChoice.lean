import EnergyRouter.Lemmas.EnergyThread

/-!
# The slot whose power is set

Both searches for the present time slot take the first one none of whose fields of the start is before that of the time: for an
ordered plan the present slot only at the moment it begins, and when no slot begins late enough the first search does not end. What
is then sent to the pile is converted in two of the three places.
-/

namespace EnergyRouter

variable {slot : ChargeTimesolt} {now : SystemTime} {w : Router} {k fuel count i : Nat} {plan : ChargeStrategy}

/-! ## Times in order -/

/-- The fields of a time from the year down; times are compared as these lists are, lexicographically. -/
def SystemTime.fields (t : SystemTime) : List Nat :=
  [t.year.toNat, t.month.toNat, t.day.toNat, t.hour.toNat, t.minute.toNat, t.second.toNat]

/-- A list none of whose elements is below that of another is not below it. -/
theorem le_of_forall₂_le {α : Type} [LinearOrder α] {as bs : List α} (h : List.Forall₂ (· ≤ ·) as bs) : as ≤ bs := by
  induction h with
  | nil => exact le_rfl
  | cons hab _ ih =>
    rcases lt_or_eq_of_le hab with hlt | rfl
    · exact le_of_lt (List.Lex.rel hlt)
    · exact List.cons_le_cons _ ih

/-- A slot matches when no field of its start is below that of the time. -/
theorem slotMatches_iff (slot : ChargeTimesolt) (now : SystemTime) :
    slotMatches slot now = true ↔ List.Forall₂ (· ≤ ·) now.fields slot.strDecStartTime.fields := by
  simp only [slotMatches, SystemTime.fields, Bool.and_eq_true, decide_eq_true_eq, List.forall₂_cons, List.forall₂_nil_left_iff,
    BitVec.le_def, ge_iff_le, and_true, and_assoc]

theorem fields_le_of_slotMatches (h : slotMatches slot now = true) :
    now.fields ≤ slot.strDecStartTime.fields := le_of_forall₂_le ((slotMatches_iff slot now).mp h)

theorem slotMatches_of_fields_eq (h : slot.strDecStartTime.fields = now.fields) :
    slotMatches slot now = true := by
  rw [slotMatches_iff, h, List.forall₂_same]
  exact fun _ _ => le_rfl

/-! ## Ordered plans -/

/-- A plan whose slots are in order and do not overlap. -/
structure ChargeStrategy.Ordered (p : ChargeStrategy) : Prop where
  room : p.ucTimeSlotNum.toNat ≤ timeSoltMax
  proper : ∀ i, i < p.ucTimeSlotNum.toNat → (p.slot i).strDecStartTime.fields < (p.slot i).strDecStopTime.fields
  apart : ∀ i j, i < j → j < p.ucTimeSlotNum.toNat → (p.slot i).strDecStopTime.fields ≤ (p.slot j).strDecStartTime.fields

/-- The time lies in the slot: it has begun and is not over. -/
structure ChargeTimesolt.Contains (slot : ChargeTimesolt) (now : SystemTime) : Prop where
  begun : slot.strDecStartTime.fields ≤ now.fields
  lasts : now.fields < slot.strDecStopTime.fields

/-- Of an ordered plan, the slot that contains the time is found exactly when it begins now. -/
theorem findSlot_present_iff (hplan : w.chgStrategy.Ordered) (hk : k < w.chgStrategy.ucTimeSlotNum.toNat)
    (hnow : (w.chgStrategy.slot k).Contains w.systemTime) (first : Nat) :
    findSlot w first = some k ↔ (w.chgStrategy.slot k).strDecStartTime.fields = w.systemTime.fields ∧ first ≤ k := by
  rw [findSlot_eq_some_iff]
  constructor
  · rintro ⟨⟨hfirst, -⟩, hmatches, -⟩
    exact ⟨le_antisymm hnow.begun (fields_le_of_slotMatches hmatches), hfirst⟩
  · rintro ⟨hstart, hfirst⟩
    refine ⟨⟨hfirst, hk.trans_le hplan.room⟩, slotMatches_of_fields_eq hstart, ?_⟩
    intro j _ hj
    by_contra hnot
    rw [Bool.not_eq_false] at hnot
    -- an earlier slot is over when this one begins, so it has begun before
    have hearlier : (w.chgStrategy.slot j).strDecStartTime.fields < w.systemTime.fields :=
      calc (w.chgStrategy.slot j).strDecStartTime.fields
          < (w.chgStrategy.slot j).strDecStopTime.fields := hplan.proper j (hj.trans hk)
        _ ≤ (w.chgStrategy.slot k).strDecStartTime.fields := hplan.apart j k hj hk
        _ = w.systemTime.fields := hstart
    exact absurd (fields_le_of_slotMatches hnot) (not_le.mpr hearlier)

/-- The power of a slot is applied by `TimeSolt_PilePowerCtrl`, which stops at it. -/
def SearchApplies (w : Router) (k : Nat) : Prop :=
  ∃ w', timeSoltPilePowerCtrl w = some w' ∧ w'.count = k ∧ w'.paraSet.pwmDuty = pwmOf (w.chgStrategy.slot k).ulChargePow

/-- The power of a slot is applied by the loop of the thread. -/
def LoopApplies (w : Router) (k : Nat) : Prop :=
  findSlot w w.count = some k ∧ (slotLoop w).paraSet.pwmDuty = (w.chgStrategy.slot k).ulChargePow

theorem searchApplies_iff (w : Router) (k : Nat) : SearchApplies w k ↔ findSlot w 0 = some k := by
  constructor
  · rintro ⟨w', hcall, rfl, -⟩
    obtain ⟨i, hi, rfl⟩ := Option.map_eq_some_iff.mp hcall
    exact hi
  · intro hfound
    exact ⟨_, Option.map_eq_some_iff.mpr ⟨k, hfound, rfl⟩, rfl, rfl⟩

theorem slotLoop_pwmDuty (h : findSlot w w.count = some k) :
    (slotLoop w).paraSet.pwmDuty = (w.chgStrategy.slot k).ulChargePow := by
  rw [slotLoop, h]
  dsimp only
  split_ifs <;> rfl

theorem loopApplies_iff (w : Router) (k : Nat) : LoopApplies w k ↔ findSlot w w.count = some k :=
  ⟨And.left, fun h => ⟨h, slotLoop_pwmDuty h⟩⟩

/-- For an ordered plan and a time inside of one of its slots, both searches apply the power of that slot exactly at the moment it
begins, when the loop of the thread has not gone past it. -/
theorem present_slot_applied_iff {w : Router} (hplan : w.chgStrategy.Ordered) {k : Nat} (hk : k < w.chgStrategy.ucTimeSlotNum.toNat)
    (hnow : (w.chgStrategy.slot k).Contains w.systemTime) :
    SearchApplies w k ∧ LoopApplies w k ↔
      (w.chgStrategy.slot k).strDecStartTime.fields = w.systemTime.fields ∧ w.count ≤ k := by
  rw [searchApplies_iff, loopApplies_iff, findSlot_present_iff hplan hk hnow, findSlot_present_iff hplan hk hnow]
  constructor
  · rintro ⟨⟨hstart, -⟩, -, hcount⟩
    exact ⟨hstart, hcount⟩
  · rintro ⟨hstart, hcount⟩
    exact ⟨⟨hstart, Nat.zero_le k⟩, hstart, hcount⟩

/-- A cleared plan with some slots at its front. -/
def planOf (slots : List ChargeTimesolt) : ChargeStrategy :=
  { zeroPlan with
    ucTimeSlotNum := BitVec.ofNat 8 slots.length
    strChargeTimeSolts := Buffer.copyAt zeroPlan.strChargeTimeSolts 0 slots }

/-- The first of June 2021, at some hour. -/
def juneHour (hour : Byte) : SystemTime := ⟨0, 0, hour, 0x01, 0x02, 0x06, 0x21⟩

/-- Two slots of two hours each, from eight to twelve. -/
def morningPlan : ChargeStrategy := planOf [⟨juneHour 0x08, juneHour 0x10, 70000⟩, ⟨juneHour 0x10, juneHour 0x12, 35000⟩]

theorem morningPlan_ordered : morningPlan.Ordered where
  room := by decide
  proper := by decide
  apart := by
    intro i j hij hj
    have hnum : morningPlan.ucTimeSlotNum.toNat = 2 := rfl
    obtain rfl : j = 1 := by omega
    obtain rfl : i = 0 := by omega
    decide

/-- The router with this plan at some hour. -/
def morningRouter (hour : Byte) : Router := { powerUpRouter with chgStrategy := morningPlan, systemTime := juneHour hour }

theorem present_slot_applied_at_eight :
    (SearchApplies (morningRouter 0x08) 0 ∧ LoopApplies (morningRouter 0x08) 0 ↔
      (morningPlan.slot 0).strDecStartTime.fields = (juneHour 0x08).fields ∧ 0 ≤ 0) :=
  present_slot_applied_iff morningPlan_ordered (by decide) ⟨by decide, by decide⟩

/-- At nine the power of the slot that begins at ten is applied. -/
theorem later_slot_applied_at_nine :
    morningPlan.Ordered ∧ (morningPlan.slot 0).Contains (juneHour 0x09) ∧ SearchApplies (morningRouter 0x09) 1 ∧
      LoopApplies (morningRouter 0x09) 1 ∧ ¬ SearchApplies (morningRouter 0x09) 0 ∧ ¬ LoopApplies (morningRouter 0x09) 0 := by
  refine ⟨morningPlan_ordered, ⟨by decide, by decide⟩, ?_⟩
  simp only [searchApplies_iff, loopApplies_iff]
  decide

/-! ## Whether the search ends -/

theorem slotSearch_eq_some (h : slotSearch plan now fuel count = some i) :
    count ≤ i ∧ i < timeSoltMax ∧ slotMatches (plan.slot i) now = true ∧
      ∀ j, count ≤ j → j < i → slotMatches (plan.slot j) now = false := by
  induction fuel generalizing count with
  | zero => cases h
  | succ fuel ih =>
    obtain ⟨slot, hslot, h⟩ := Option.bind_eq_some_iff.mp h
    obtain ⟨hcount, hget⟩ := Vector.getElem?_eq_some_iff.mp hslot
    have hplan : plan.slot count = slot := by simp [ChargeStrategy.slot, Vector.getD, hcount, hget]
    split_ifs at h with hmatches
    · cases h
      refine ⟨Nat.le_refl _, hcount, by rw [hplan, hmatches], ?_⟩
      intro j hj hji
      omega
    · obtain ⟨hle, hi, hfound, hbefore⟩ := ih h
      refine ⟨by omega, hi, hfound, ?_⟩
      intro j hj hji
      rcases Nat.eq_or_lt_of_le hj with rfl | hlt
      · rw [hplan]
        simpa using hmatches
      · exact hbefore j hlt hji

/-- With a slot to come to, the search stops within the plan. -/
theorem slotSearch_isSome (hcount : count ≤ i) (hi : i < timeSoltMax) (hmatches : slotMatches (plan.slot i) now = true)
    (hfuel : i < count + fuel) : (slotSearch plan now fuel count).isSome := by
  induction fuel generalizing count with
  | zero => omega
  | succ fuel ih =>
    have hlt : count < timeSoltMax := by omega
    have hslot : plan.strChargeTimeSolts[count]? = some (plan.slot count) := by simp [ChargeStrategy.slot, Vector.getD, hlt]
    rw [slotSearch, hslot, Option.bind_eq_bind, Option.bind_some]
    split_ifs with hhere
    · rfl
    · have hne : count ≠ i := by
        rintro rfl
        exact hhere hmatches
      exact ih (by omega) (by omega)

theorem slotSearch_eq_findSlot (w : Router) (h : slotSearch w.chgStrategy w.systemTime fuel count = some i) :
    findSlot w count = some i := by
  obtain ⟨hle, hi, hmatches, hbefore⟩ := slotSearch_eq_some h
  exact findSlot_eq_some_iff.mpr ⟨⟨hle, hi⟩, hmatches, hbefore⟩

/-- `TimeSolt_PilePowerCtrl` ends inside of the plan, so that the loop behind it begins inside of its flags, exactly when one of the
slots begins late enough in every field. -/
theorem slot_search_ends_iff (w : Router) :
    (∃ fuel count w', slotSearch w.chgStrategy w.systemTime fuel 0 = some count ∧ count < timeSoltMax ∧
      timeSoltPilePowerCtrl w = some w' ∧ w'.count = count) ↔
      ∃ i, i < timeSoltMax ∧ slotMatches (w.chgStrategy.slot i) w.systemTime = true := by
  constructor
  · rintro ⟨fuel, count, w', hsearch, -⟩
    obtain ⟨-, hi, hmatches, -⟩ := slotSearch_eq_some hsearch
    exact ⟨count, hi, hmatches⟩
  · rintro ⟨i, hi, hmatches⟩
    obtain ⟨count, hsearch⟩ := Option.isSome_iff_exists.mp
      (slotSearch_isSome (Nat.zero_le i) hi hmatches (show i < 0 + timeSoltMax by omega))
    obtain ⟨w', hcall, hcount, -⟩ := (searchApplies_iff w count).mpr (slotSearch_eq_findSlot w hsearch)
    exact ⟨timeSoltMax, count, w', hsearch, (slotSearch_eq_some hsearch).2.1, hcall, hcount⟩

/-- A new plan, all of it in the past: at one in the afternoon the search leaves the plan, whatever the number of its turns. -/
theorem slot_search_of_past_plan : ¬ ∃ fuel count, slotSearch morningPlan (juneHour 0x13) fuel 0 = some count := by
  rintro ⟨fuel, count, hsearch⟩
  obtain ⟨-, hi, hmatches, -⟩ := slotSearch_eq_some hsearch
  have hnone : ∀ i, i < timeSoltMax → slotMatches (morningPlan.slot i) (juneHour 0x13) = false := by decide
  rw [hnone count hi] at hmatches
  cases hmatches

/-! ## The duty of a power -/

/-- What is asked of each of the three places for a power: its duty is `10 P / 132`, rounded down. -/
structure DutyRight (power : BitVec 32) : Prop where
  adjust : ∀ w : Router, (w.ctrl .powerAdj).setPower = power → (w.forward .powerAdj).paraSet.pwmDuty.toNat = 10 * power.toNat / 132
  search : ∀ w w' : Router, timeSoltPilePowerCtrl w = some w' → (w.chgStrategy.slot w'.count).ulChargePow = power →
    w'.paraSet.pwmDuty.toNat = 10 * power.toNat / 132
  loop : ∀ (w : Router) (i : Nat), findSlot w w.count = some i → (w.chgStrategy.slot i).ulChargePow = power →
    (slotLoop w).paraSet.pwmDuty.toNat = 10 * power.toNat / 132

/-- The router at power up, with one slot of this power. -/
def oneSlotRouter (power : BitVec 32) : Router := { powerUpRouter with chgStrategy := planOf [⟨zeroTime, zeroTime, power⟩] }

theorem findSlot_oneSlotRouter (power : BitVec 32) : findSlot (oneSlotRouter power) (oneSlotRouter power).count = some 0 := by
  refine findSlot_eq_some_iff.mpr ⟨⟨Nat.le_refl 0, by rw [timeSoltMax]; omega⟩, rfl, ?_⟩
  intro j _ hj
  omega

/-- All three places set the right duty for no power but zero: the loop of the thread sets the power itself. -/
theorem duty_right_iff (power : BitVec 32) : DutyRight power ↔ power = 0 := by
  constructor
  · intro h
    have hloop := h.loop (oneSlotRouter power) 0 (findSlot_oneSlotRouter power) rfl
    rw [slotLoop_pwmDuty (findSlot_oneSlotRouter power)] at hloop
    have hpower : power.toNat = 10 * power.toNat / 132 := hloop
    have hzero : power.toNat = 0 := by omega
    exact BitVec.eq_of_toNat_eq hzero
  · rintro rfl
    refine ⟨?_, ?_, ?_⟩
    · intro w hpower
      show (pwmOf (w.ctrl .powerAdj).setPower).toNat = _
      rw [hpower]
      rfl
    · intro w w' hcall hpower
      obtain ⟨i, -, rfl⟩ := Option.map_eq_some_iff.mp hcall
      show (pwmOf (w.chgStrategy.slot i).ulChargePow).toNat = _
      rw [show (w.chgStrategy.slot i).ulChargePow = 0 from hpower]
      rfl
    · intro w i hfound hpower
      rw [slotLoop_pwmDuty hfound, hpower]
      rfl

/-- Seven kilowatts in the plan: the loop sets 70000 as a duty in tenths of a percent, and not 5303. A power of 429496730 wraps around
where it is converted. -/
theorem duty_of_power_wrong : ¬ DutyRight 70000 ∧ (slotLoop (morningRouter 0x08)).paraSet.pwmDuty = 70000 ∧
    pwmOf 70000 = 5303 ∧ pwmOf 429496730 = 0 := by
  refine ⟨?_, by decide, by decide, by decide⟩
  intro h
  have hloop := h.loop (morningRouter 0x08) 0 (by decide) (by decide)
  rw [slotLoop_pwmDuty (show findSlot (morningRouter 0x08) (morningRouter 0x08).count = some 0 by decide)] at hloop
  revert hloop
  decide

end EnergyRouter
