import EnergyRouter.Lemmas.EnergyThread

/-!
# How often the loop of the thread sends a power

The loop over the slots sends the power of a slot and sets its flag, which `TimeSolt_PilePowerCtrl` alone clears. Since then it
sends at most one power for each slot from `count` on, whatever the clock and the plan do meanwhile.
-/

namespace EnergyRouter

open Runs

variable {w : Router} {s s' : Energycon} {op : EnergyOp}

/-! ## The slots a power was sent for -/

/-- The slot the loop sends the power of, if it sends one. -/
def loopSends (w : Router) : Option Nat := (findSlot w w.count).filter fun i => !w.setPowerFinishFlag.getD i false

/-- When the loop sends, it hands the power of the slot to the pile and sets the flag of the slot. -/
theorem slotLoop_of_sends {i : Nat} (h : loopSends w = some i) :
    slotLoop w = { w.sendPower (w.chgStrategy.slot i).ulChargePow with
      setPowerFinishFlag := w.setPowerFinishFlag.setIfInBounds i true } := by
  obtain ⟨hfound, hflag⟩ := Option.filter_eq_some_iff.mp h
  rw [Bool.not_eq_true'] at hflag
  rw [slotLoop, hfound]
  dsimp only
  rw [hflag, if_neg Bool.false_ne_true]

theorem slotLoop_of_not_sends (h : loopSends w = none) :
    (slotLoop w).pile = w.pile ∧ (slotLoop w).setPowerFinishFlag = w.setPowerFinishFlag := by
  rw [slotLoop]
  cases hfound : findSlot w w.count with
  | none => exact ⟨rfl, rfl⟩
  | some i =>
    rw [loopSends, hfound, Option.filter_eq_none_iff] at h
    have hflag : w.setPowerFinishFlag.getD i false = true := by simpa using h i rfl
    dsimp only
    rw [hflag, if_pos rfl]
    exact ⟨rfl, rfl⟩

theorem slotLoop_count (w : Router) : (slotLoop w).count = w.count := by
  rw [slotLoop]
  cases findSlot w w.count with
  | none => rfl
  | some i =>
    dsimp only
    split_ifs
    · rfl
    · rfl

/-- The thread with the slots its loop has sent a power for since the flags were cleared. -/
structure Sending where
  ctrl : Energycon
  sent : List Nat

/-- One step. In the rest of a turn the flags are cleared if the request is a new one, and then the loop runs. -/
def Sending.step (t : Sending) : EnergyOp → Option Sending
  | .slots =>
    if t.ctrl.world.cRequestNOOld = t.ctrl.world.cRequestNONew then
      some ⟨t.ctrl.setWorld (slotLoop t.ctrl.world), t.sent ++ (loopSends t.ctrl.world).toList⟩
    else (timeSoltPilePowerCtrl t.ctrl.world).map fun w => ⟨t.ctrl.setWorld (slotLoop w), (loopSends w).toList⟩
  | op => (Energycon.step t.ctrl op).map fun ctrl => ⟨ctrl, t.sent⟩

/-- The slots beside it do not change what the thread does. -/
theorem Sending.step_ctrl (t : Sending) (op : EnergyOp) : (t.step op).map Sending.ctrl = Energycon.step t.ctrl op := by
  by_cases hslots : op = .slots
  · subst hslots
    rw [Sending.step, Energycon.step, slotTurn]
    split_ifs
    · rfl
    · simp only [Option.map_map, Function.comp_def]
  · have hstep : t.step op = (Energycon.step t.ctrl op).map fun ctrl => ⟨ctrl, t.sent⟩ := by
      cases op
      case slots => exact absurd rfl hslots
      all_goals rfl
    rw [hstep, Option.map_map]
    exact Option.map_id'

/-! ## Steps that leave the flags alone -/

/-- What the loop needs to remember. -/
structure FlagFrame (w w' : Router) : Prop where
  count : w'.count = w.count
  flags : w'.setPowerFinishFlag = w.setPowerFinishFlag

theorem FlagFrame.trans {w₁ w₂ : Router} (h : FlagFrame w w₁) (h₁ : FlagFrame w₁ w₂) : FlagFrame w w₂ :=
  ⟨h₁.count.trans h.count, h₁.flags.trans h.flags⟩

theorem pilePart_flagFrame {c : ChargeCmd} (hcall : pilePart c s = some s') : FlagFrame s.world s'.world := by
  rcases pilePart_world hcall with ⟨-, hworld⟩ | ⟨answer, para, -, -, hworld | ⟨d, hworld⟩⟩
  all_goals
    rw [hworld]
    exact ⟨rfl, rfl⟩

theorem Router.taken_flagFrame (w : Router) (c : ChargeCmd) : FlagFrame w (w.taken c) := by
  rw [Router.taken]
  split_ifs
  · cases c <;> exact ⟨rfl, rfl⟩
  · cases c <;> exact ⟨rfl, rfl⟩

theorem ctrlDataTurn_flagFrame (hcall : ctrlDataTurn s = some s') : FlagFrame s.world s'.world := by
  cases htaken : takenCmd s.mask.strategyEvent with
  | none =>
    rw [ctrlDataTurn_of_none (ctrlDataTurn_free hcall) htaken] at hcall
    cases hcall
    exact ⟨rfl, rfl⟩
  | some c =>
    rw [(ctrlDataTurn_taken hcall htaken).world]
    exact Router.taken_flagFrame s.world c

/-- Only the slots of a turn touch the flags. -/
theorem Energycon.step_flagFrame (hop : op ≠ .slots) (hstep : Energycon.step s op = some s') :
    FlagFrame s.world s'.world := by
  cases op with
  | slots => exact absurd rfl hop
  | pileData =>
    obtain ⟨s₁, h₁, hcall⟩ := Option.bind_eq_some_iff.mp hstep
    obtain ⟨s₂, h₂, h₃⟩ := Option.bind_eq_some_iff.mp hcall
    exact ((pilePart_flagFrame h₁).trans (pilePart_flagFrame h₂)).trans (pilePart_flagFrame h₃)
  | ctrlData => exact ctrlDataTurn_flagFrame hstep
  | post e =>
    obtain ⟨mask, -, rfl⟩ := Option.map_eq_some_iff.mp hstep
    exact ⟨rfl, rfl⟩
  | receive msg =>
    obtain ⟨pile, -, rfl⟩ := Option.map_eq_some_iff.mp hstep
    exact ⟨rfl, rfl⟩
  | timeout c =>
    rw [Energycon.step] at hstep
    split_ifs at hstep
    · obtain ⟨w, hw, rfl⟩ := Option.map_eq_some_iff.mp hstep
      obtain ⟨out, -, rfl⟩ := Option.map_eq_some_iff.mp hw
      exact ⟨rfl, rfl⟩
    · cases hstep
      exact ⟨rfl, rfl⟩
  | turn | second | pileEvent | fault | clock | plan =>
    cases hstep
    exact ⟨rfl, rfl⟩

/-! ## Runs -/

/-- The slots a power was sent for are slots from `count` on, each of them once, and their flags are set. -/
structure SentOnce (t : Sending) : Prop where
  nodup : t.sent.Nodup
  within : ∀ i ∈ t.sent, t.ctrl.world.count ≤ i ∧ i < timeSoltMax
  flagged : ∀ i ∈ t.sent, t.ctrl.world.setPowerFinishFlag.getD i false = true

/-- A run of the loop, with some slots sent before it. -/
theorem sentOnce_loop (s : Energycon) {sent : List Nat} (h : SentOnce ⟨s.setWorld w, sent⟩) :
    SentOnce ⟨s.setWorld (slotLoop w), sent ++ (loopSends w).toList⟩ := by
  cases hsends : loopSends w with
  | none =>
    have hflags := (slotLoop_of_not_sends hsends).2
    rw [Option.toList_none, List.append_nil]
    refine ⟨h.nodup, ?_, ?_⟩
    · intro i hi
      change (slotLoop w).count ≤ i ∧ _
      rw [slotLoop_count]
      exact h.within i hi
    · intro i hi
      change (slotLoop w).setPowerFinishFlag.getD i false = true
      rw [hflags]
      exact h.flagged i hi
  | some k =>
    obtain ⟨hfound, hflag⟩ := Option.filter_eq_some_iff.mp hsends
    obtain ⟨hk, -, -⟩ := findSlot_eq_some_iff.mp hfound
    rw [Bool.not_eq_true'] at hflag
    rw [Option.toList_some, slotLoop_of_sends hsends]
    refine ⟨?_, ?_, ?_⟩
    · -- the slot is new, since its flag was clear
      refine List.nodup_append.mpr ⟨h.nodup, List.nodup_singleton k, ?_⟩
      intro i hi j hj heq
      rw [List.mem_singleton] at hj
      have hset := h.flagged i hi
      rw [heq, hj] at hset
      cases hflag.symm.trans hset
    · intro i hi
      rcases List.mem_append.mp hi with hi | hi
      · exact h.within i hi
      · rw [List.mem_singleton.mp hi]
        exact hk
    · intro i hi
      change (w.setPowerFinishFlag.setIfInBounds k true).getD i false = true
      rcases List.mem_append.mp hi with hi | hi
      · have hset : w.setPowerFinishFlag.getD i false = true := h.flagged i hi
        by_cases hik : k = i
        · simp [Vector.getD, hik, (h.within i hi).2]
        · simpa [Vector.getD, Vector.getElem_setIfInBounds, hik] using hset
      · rw [List.mem_singleton.mp hi]
        simp [Vector.getD, hk.2]

theorem SentOnce.step {t t' : Sending} (h : SentOnce t) (hstep : t.step op = some t') : SentOnce t' := by
  by_cases hslots : op = .slots
  · subst hslots
    rw [Sending.step] at hstep
    split_ifs at hstep
    · cases hstep
      exact sentOnce_loop t.ctrl h
    · obtain ⟨w, -, rfl⟩ := Option.map_eq_some_iff.mp hstep
      have hnone : SentOnce ⟨t.ctrl.setWorld w, []⟩ :=
        ⟨List.nodup_nil, fun i hi => absurd hi List.not_mem_nil, fun i hi => absurd hi List.not_mem_nil⟩
      exact sentOnce_loop t.ctrl hnone
  · have hctrl : (Energycon.step t.ctrl op).map (fun ctrl => (⟨ctrl, t.sent⟩ : Sending)) = some t' := by
      rw [← hstep]
      cases op
      case slots => exact absurd rfl hslots
      all_goals rfl
    obtain ⟨s', hs', rfl⟩ := Option.map_eq_some_iff.mp hctrl
    have hframe := Energycon.step_flagFrame hslots hs'
    refine ⟨h.nodup, ?_, ?_⟩
    · intro i hi
      rw [hframe.count]
      exact h.within i hi
    · intro i hi
      rw [hframe.flags]
      exact h.flagged i hi

end EnergyRouter
