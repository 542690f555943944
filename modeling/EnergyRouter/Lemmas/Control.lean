import EnergyRouter.EnergyControl

/-!
# The outcomes of `CtrlUnit_RecResp` and `CtrlData_RecProcess`

`CtrlUnit_RecResp` waits forever, has a case for the command and releases the flags, or has none and keeps them.
`CtrlData_RecProcess` runs the case of the event that is the whole mask.
-/

namespace EnergyRouter

variable {W : Type} (copy : CommCmd → W → W)

theorem ctrlUnitRecResp_locked {s : Hplc W} (hs : ¬ s.Unlocked) (cmd : CommCmd) : ctrlUnitRecResp copy cmd s = none := by
  rw [ctrlUnitRecResp, if_neg hs]

theorem ctrlUnitRecResp_of_case {s : Hplc W} (hs : s.Unlocked) {cmd : CommCmd} {result : Nat} {posts : Bool}
    (hcase : recCase cmd = some (result, posts)) :
    ctrlUnitRecResp copy cmd s = some (result, { s with
      lock1 := false
      lock2 := false
      hplcEvent := if posts then s.hplcEvent ||| cmd.event else s.hplcEvent
      world := copy cmd s.world }) := by
  rw [ctrlUnitRecResp, if_pos hs, hcase]

theorem ctrlUnitRecResp_default {s : Hplc W} (hs : s.Unlocked) {cmd : CommCmd} (hcase : recCase cmd = none) :
    ctrlUnitRecResp copy cmd s = some (1, { s with lock1 := true, lock2 := true }) := by
  rw [ctrlUnitRecResp, if_pos hs, hcase]

/-- What `CtrlData_RecProcess` does, by the value of the mask it takes. -/
theorem ctrlDataRecProcess_eq (a : CtrlActions W) (v : Finding) {s : EnergyControl W} (hfree : s.mask.Free) :
    ctrlDataRecProcess a v s =
      if s.mask.strategyEvent = CtrlEvent.startChg.event then
        ctrlCase a .startChg .startChgAck .startChg (!v.faultTotal && v.assetOk) v
          { s with mask := ⟨false, false, 0⟩, startchgFlag := true }
      else if s.mask.strategyEvent = CtrlEvent.stopChg.event then
        ctrlCase a .stopChg .stopChgAck .stopChg (!v.faultTotal && (v.assetOk || v.orderOk)) v
          { s with mask := ⟨false, false, 0⟩, stopchgFlag := true }
      else if s.mask.strategyEvent = CtrlEvent.powerAdj.event then
        ctrlCase a .powerAdj .powerAdjAck .powerAdj (!v.faultTotal && v.assetOk) v
          { s with mask := ⟨false, false, 0⟩, adjpowerFlag := true }
      else some { s with mask := ⟨false, false, 0⟩ } := by
  rw [ctrlDataRecProcess, strategyEventGet, if_pos hfree]
  rfl

end EnergyRouter
