import EnergyRouter.Lemmas.Control
import EnergyRouter.Lib.Runs

/-!
# Release of the port's flags

The two functions that guard `hplc_event` must leave both flags clear, or no later call of either returns.
-/

namespace EnergyRouter

variable {W : Type}

/-- A call of one of the two functions that take the flags. -/
inductive LockCall
  | ctrlUnitRecResp (cmd : CommCmd)
  | checkAfairFromBotom
  deriving DecidableEq, Repr

/-- A call, run to completion. -/
def LockCall.run (copy : CommCmd → W → W) (r : Reporters W) (s : Hplc W) : LockCall → Option (Hplc W)
  | .ctrlUnitRecResp cmd => (EnergyRouter.ctrlUnitRecResp copy cmd s).map Prod.snd
  | .checkAfairFromBotom => (EnergyRouter.checkAfairFromBotom r s).map Prod.snd

/-- The commands `CtrlUnit_RecResp` has a case for. -/
def casedCmds : List CommCmd :=
  [.chgPlanIssue, .chgPlanIssueAck, .chgPlanAdjust, .chgPlanAdjustAck, .startChg, .startChgAck, .stopChg, .stopChgAck,
    .chgPlanExeState, .chgRecord, .deviceFault, .pileFault, .chgPlanIssueGetAck]

theorem recCase_eq_none_iff (cmd : CommCmd) : recCase cmd = none ↔ cmd ∉ casedCmds := by
  cases cmd <;> simp [recCase, casedCmds]

/-- The call has a command with a case, if it has a command. -/
def LockCall.Cased : LockCall → Prop
  | .ctrlUnitRecResp cmd => cmd ∈ casedCmds
  | .checkAfairFromBotom => True

instance : DecidablePred LockCall.Cased
  | .ctrlUnitRecResp cmd => inferInstanceAs (Decidable (cmd ∈ casedCmds))
  | .checkAfairFromBotom => inferInstanceAs (Decidable True)

/-- A call that finds the flags clear returns, and leaves them clear exactly when its command has a case. -/
theorem LockCall.run_unlocked (copy : CommCmd → W → W) (r : Reporters W) {s : Hplc W} (hs : s.Unlocked) (c : LockCall) :
    c.Cased ↔ ∃ s', c.run copy r s = some s' ∧ s'.Unlocked := by
  cases c with
  | ctrlUnitRecResp cmd =>
    cases hcase : recCase cmd with
    | none =>
      rw [LockCall.run, ctrlUnitRecResp_default copy hs hcase]
      rw [recCase_eq_none_iff] at hcase
      constructor
      · exact fun hcased => absurd hcased hcase
      · rintro ⟨s', hs', hfree, -⟩
        cases hs'
        cases hfree
    | some case =>
      have hcased : cmd ∈ casedCmds := by
        by_contra hnot
        rw [← recCase_eq_none_iff, hcase] at hnot
        cases hnot
      rw [LockCall.run, ctrlUnitRecResp_of_case copy hs hcase]
      exact ⟨fun _ => ⟨_, rfl, rfl, rfl⟩, fun _ => hcased⟩
  | checkAfairFromBotom =>
    simp only [LockCall.run, EnergyRouter.checkAfairFromBotom, if_pos hs]
    exact ⟨fun _ => ⟨_, rfl, rfl, rfl⟩, fun _ => trivial⟩

/-- Builders that build nothing. -/
def muteReporters : Reporters Unit where
  actionResponsePackage _ w := (-1, w)
  getResponsePackage w := (-1, w)
  securityGetPackage w := (-1, w)
  reportCmdChgPlanExeState w := (-1, w)
  reportNotificationPackage _ w := w
  hplcTxFrame w := w

end EnergyRouter
