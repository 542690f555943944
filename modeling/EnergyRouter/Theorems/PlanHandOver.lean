import EnergyRouter.Plan

/-!
# Plans between the threads

A plan goes to the energy control when it is issued or adjusted, and back with a record or the answer to a query.
`copy_charge_strategy` leaves out the number of the gun and all time slots but the first.
-/

namespace EnergyRouter

/-- The destination has the plan: every field and string, and the slots the plan says it has. -/
structure Agrees (src des : ChargeStrategy) : Prop where
  cRequestNO : des.cRequestNO = src.cRequestNO
  cAssetNO : des.cAssetNO = src.cAssetNO
  cUserID : des.cUserID = src.cUserID
  gunNum : des.gunNum = src.gunNum
  ucDecMaker : des.ucDecMaker = src.ucDecMaker
  ucDecType : des.ucDecType = src.ucDecType
  strDecTime : des.strDecTime = src.strDecTime
  ulChargeReqEle : des.ulChargeReqEle = src.ulChargeReqEle
  ulChargeRatePow : des.ulChargeRatePow = src.ulChargeRatePow
  ucChargeMode : des.ucChargeMode = src.ucChargeMode
  ucTimeSlotNum : des.ucTimeSlotNum = src.ucTimeSlotNum
  slots : ∀ j < src.ucTimeSlotNum.toNat, des.slot j = src.slot j

theorem Agrees.refl (p : ChargeStrategy) : Agrees p p :=
  ⟨rfl, rfl, rfl, rfl, rfl, rfl, rfl, rfl, rfl, rfl, rfl, fun _ _ => rfl⟩

/-- The record a plan is copied into has its gun and all its slots but the first already. -/
def HasRest (src des : ChargeStrategy) : Prop :=
  des.gunNum = src.gunNum ∧ ∀ j < src.ucTimeSlotNum.toNat, j ≠ 0 → des.slot j = src.slot j

theorem copyChargeStrategy_slot_zero (des src : ChargeStrategy) : (copyChargeStrategy des src).slot 0 = src.slot 0 := by
  have hset : (des.strChargeTimeSolts.setIfInBounds 0 (src.slot 0))[0]? = some (src.slot 0) :=
    Vector.getElem?_setIfInBounds_self_of_lt (by decide)
  show (des.strChargeTimeSolts.setIfInBounds 0 (src.slot 0)).getD 0 ⟨zeroTime, zeroTime, 0⟩ = src.slot 0
  rw [Vector.getD, Array.getD_eq_getD_getElem?, Vector.getElem?_toArray, hset, Option.getD_some]

theorem copyChargeStrategy_slot_of_ne {j : Nat} (hj : j ≠ 0) (des src : ChargeStrategy) :
    (copyChargeStrategy des src).slot j = des.slot j := by
  show (des.strChargeTimeSolts.setIfInBounds 0 (src.slot 0)).getD j ⟨zeroTime, zeroTime, 0⟩ = des.slot j
  simp only [ChargeStrategy.slot, Vector.getD, Array.getD_eq_getD_getElem?, Vector.getElem?_toArray]
  rw [Vector.getElem?_setIfInBounds_ne hj.symm]

/-- A plan is copied completely exactly when what is left out was there before. -/
theorem agrees_copyChargeStrategy_iff (des src : ChargeStrategy) : Agrees src (copyChargeStrategy des src) ↔ HasRest src des := by
  constructor
  · intro hagrees
    refine ⟨hagrees.gunNum, ?_⟩
    intro j hj hne
    rw [← hagrees.slots j hj, copyChargeStrategy_slot_of_ne hne]
  · rintro ⟨hgun, hrest⟩
    refine ⟨rfl, rfl, rfl, hgun, rfl, rfl, rfl, rfl, rfl, rfl, rfl, ?_⟩
    intro j hj
    by_cases hne : j = 0
    · rw [hne]
      exact copyChargeStrategy_slot_zero des src
    · rw [copyChargeStrategy_slot_of_ne hne]
      exact hrest j hj hne

/-- The plans a command hands over, where they come from. -/
def Plans.source (w : Plans) : CommCmd → List ChargeStrategy
  | .chgPlanIssue => [w.chargeStrategyChgPlanIssue]
  | .chgPlanAdjust => [w.chargeStrategyChgPlanAdjust]
  | .chgRecord => [w.setPara]
  | .chgPlanIssueGetAck => w.named
  | _ => []

/-- The plans a command hands over, where they go. -/
def Plans.destination (w : Plans) : CommCmd → List ChargeStrategy
  | .chgPlanIssue => [w.setPara]
  | .chgPlanAdjust => [w.setPara]
  | .chgRecord => [w.chargeStrategyChgRecord]
  | .chgPlanIssueGetAck => w.chargeStrategy698
  | _ => []

/-- When a call of `CtrlUnit_RecResp` returns, the plans of its command have arrived. -/
def HandsOver (cmd : CommCmd) (s : Hplc Plans) : Prop :=
  ∀ out, ctrlUnitRecResp Plans.copy cmd s = some out → List.Forall₂ Agrees (s.world.source cmd) (out.2.world.destination cmd)

/-- What the destination has to hold before a command whose plan goes through `copy_charge_strategy`. -/
def Plans.Prepared (w : Plans) : CommCmd → Prop
  | .chgPlanIssue => HasRest w.chargeStrategyChgPlanIssue w.setPara
  | .chgRecord => HasRest w.setPara w.chargeStrategyChgRecord
  | _ => True

theorem Plans.copy_agrees_iff (w : Plans) (cmd : CommCmd) :
    List.Forall₂ Agrees (w.source cmd) ((w.copy cmd).destination cmd) ↔ w.Prepared cmd := by
  cases cmd with
  | chgPlanIssue => exact (List.forall₂_cons.trans (and_iff_left .nil)).trans (agrees_copyChargeStrategy_iff _ _)
  | chgRecord => exact (List.forall₂_cons.trans (and_iff_left .nil)).trans (agrees_copyChargeStrategy_iff _ _)
  | chgPlanAdjust => exact iff_of_true (.cons (Agrees.refl _) .nil) trivial
  | chgPlanIssueGetAck => exact iff_of_true (List.forall₂_same.mpr fun p _ => Agrees.refl p) trivial
  | _ => exact iff_of_true .nil trivial

/-- A command that has no case hands no plan over. -/
theorem source_of_recCase_none {cmd : CommCmd} (h : recCase cmd = none) (w w' : Plans) :
    List.Forall₂ Agrees (w.source cmd) (w'.destination cmd) ∧ w.Prepared cmd := by
  cases cmd <;> first | exact ⟨.nil, trivial⟩ | cases h

/-- A plan handed over arrives exactly when it is not copied by `copy_charge_strategy`, or the destination held its gun and all its
slots but the first before. -/
theorem plan_handed_over_iff (cmd : CommCmd) (s : Hplc Plans) : HandsOver cmd s ↔ (s.Unlocked → s.world.Prepared cmd) := by
  unfold HandsOver ctrlUnitRecResp
  by_cases hfree : s.Unlocked
  · simp only [forall_const, hfree]
    cases hcase : recCase cmd with
    | none =>
      refine iff_of_true ?_ (source_of_recCase_none hcase s.world s.world).2
      rintro out hout
      cases hout
      exact (source_of_recCase_none hcase s.world s.world).1
    | some out =>
      rw [← s.world.copy_agrees_iff cmd]
      constructor
      · intro h
        exact h _ rfl
      · rintro h out' hout
        cases hout
        exact h
  · simp [hfree]

/-- A plan of two slots. -/
def twoSlotPlan : ChargeStrategy :=
  { zeroPlan with
    ucTimeSlotNum := 2
    strChargeTimeSolts := (zeroPlan.strChargeTimeSolts.set 0 ⟨zeroTime, zeroTime, 70000⟩).set 1 ⟨zeroTime, zeroTime, 35000⟩ }

/-- The port with that plan, when the energy control fetches it into a cleared record. -/
def twoSlotsIssued : Hplc Plans := ⟨false, false, 0, [], ⟨twoSlotPlan, zeroPlan, zeroPlan, [], zeroPlan, [], 1⟩⟩

/-- The second slot does not arrive. -/
theorem second_slot_lost : ¬ HandsOver .chgPlanIssue twoSlotsIssued := by
  intro h
  have hslots := (List.forall₂_cons.mp (h _ rfl)).1.slots 1 (by decide)
  revert hslots
  decide

end EnergyRouter
