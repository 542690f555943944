import EnergyRouter.Lemmas.EnergyThread

/-!
# The records of the three commands

Each command to the pile has a record of its own. Two assignments of `energycon.c` miss: the outcome of a power adjustment goes to
the record of a stop instead of the control record, and the failure of a stop to the record of a start.
-/

namespace EnergyRouter

open Runs

/-! ## What is asked of a call -/

/-- The records of the other commands are as they were. -/
def Apart (c : ChargeCmd) (w w' : Router) : Prop := ∀ d, d ≠ c → w'.ctrl d = w.ctrl d

/-- A command was handled: its record alone was changed, and the control record has its outcome. -/
structure HandledApart (c : ChargeCmd) (w w' : Router) : Prop where
  apart : Apart c w w'
  outcome : w'.ctrlChargeEvent.cSucIdle = (w'.ctrl c).cSucIdle

/-- The parts of `PileData_RecProcess` for the commands of a list, one after the other: each changes the record of its command alone. -/
def PartsApart : List ChargeCmd → Energycon → Prop
  | [], _ => True
  | c :: cs, s => ∀ s', pilePart c s = some s' → Apart c s.world s'.world ∧ PartsApart cs s'

/-- What is asked of a step. -/
def Isolates (s : Energycon) : EnergyOp → Prop
  | .ctrlData => ∀ c s', takenCmd s.mask.strategyEvent = some c → ctrlDataTurn s = some s' → HandledApart c s.world s'.world
  | .pileData => PartsApart [.start, .stop, .powerAdj] s
  | _ => True

/-! ## When it is met -/

/-- The pile's answer to a stop that is taken next is that it failed. -/
def StopFailed (s : Energycon) : Prop := s.flag .stop = true ∧ Energycon.found s .stop = some failed

/-- A power adjustment finds its outcome in the record of a stop and in the control record; the failure of a stop finds itself in
the record of a start, as the answer to a start has left it. -/
def IsolationAllowed (s : Energycon) : EnergyOp → Prop
  | .ctrlData => s.mask.Free → takenCmd s.mask.strategyEvent = some .powerAdj → s.hplc.Unlocked → s.world.accepts .powerAdj = true →
      (s.world.ctrl .stop).cSucIdle = (s.world.ctrl .powerAdj).cSucIdle ∧
        s.world.ctrlChargeEvent.cSucIdle = (s.world.ctrl .powerAdj).cSucIdle
  | .pileData => ∀ s', pilePart .start s = some s' → StopFailed s' → s'.hplc.Unlocked → (s'.world.ctrl .start).cSucIdle = failed
  | _ => True

/-! ## Commands -/

theorem Router.setSucIdle_ctrl_of_ne (w : Router) {c d : ChargeCmd} (h : d ≠ c) (sucIdle : Byte) :
    (w.setSucIdle c sucIdle).ctrl d = w.ctrl d := if_neg h

/-- Noting an outcome changes a record exactly when another one stood there. -/
theorem Router.setSucIdle_ctrl_eq_iff (w : Router) (c : ChargeCmd) (sucIdle : Byte) :
    (w.setSucIdle c sucIdle).ctrl c = w.ctrl c ↔ (w.ctrl c).cSucIdle = sucIdle := by
  have hself : (w.setSucIdle c sucIdle).ctrl c = { w.ctrl c with cSucIdle := sucIdle } := if_pos rfl
  rw [hself]
  constructor
  · intro h
    exact (congrArg CtlCharge.cSucIdle h).symm
  · rintro rfl
    rfl

/-- A start or a stop is handled in its own record, forwarded or refused. -/
theorem Router.taken_handledApart {c : ChargeCmd} (hc : c ≠ .powerAdj) (w : Router) : HandledApart c w (w.taken c) := by
  rw [Router.taken]
  cases c with
  | powerAdj => exact absurd rfl hc
  | start =>
    split_ifs
    · exact ⟨fun _ _ => rfl, rfl⟩
    · exact ⟨fun d hd => Router.setSucIdle_ctrl_of_ne (w.noteCommand .start) hd _, rfl⟩
  | stop =>
    split_ifs
    · exact ⟨fun _ _ => rfl, rfl⟩
    · exact ⟨fun d hd => Router.setSucIdle_ctrl_of_ne (w.noteCommand .stop) hd _, rfl⟩

theorem Router.forward_powerAdj_handledApart_iff (w : Router) : HandledApart .powerAdj w (w.forward .powerAdj) ↔
    (w.ctrl .stop).cSucIdle = (w.ctrl .powerAdj).cSucIdle ∧ w.ctrlChargeEvent.cSucIdle = (w.ctrl .powerAdj).cSucIdle := by
  have hstop : (w.forward .powerAdj).ctrl .stop = w.ctrl .stop ↔ (w.ctrl .stop).cSucIdle = (w.ctrl .powerAdj).cSucIdle :=
    Router.setSucIdle_ctrl_eq_iff w .stop (w.ctrl .powerAdj).cSucIdle
  constructor
  · intro h
    exact ⟨hstop.mp (h.apart .stop (by decide)), h.outcome⟩
  · rintro ⟨hidle, houtcome⟩
    refine ⟨?_, houtcome⟩
    intro d hd
    cases d with
    | start => rfl
    | stop => exact hstop.mpr hidle
    | powerAdj => exact absurd rfl hd

theorem isolates_ctrlData_iff (s : Energycon) : Isolates s .ctrlData ↔ IsolationAllowed s .ctrlData := by
  constructor
  · intro h hfree htaken hunlocked haccepts
    obtain ⟨s', hs', hpost⟩ := (ctrlDataTurn_powerAdj_outcome hfree htaken).returned ⟨hunlocked, haccepts⟩
    have happart := h .powerAdj s' htaken hs'
    rw [hpost.world, Router.taken, if_pos haccepts] at happart
    exact (Router.forward_powerAdj_handledApart_iff s.world).mp happart
  · intro h c s' htaken hs'
    have hfree := ctrlDataTurn_free hs'
    by_cases hc : c = .powerAdj
    · subst hc
      have houtcome := ctrlDataTurn_powerAdj_outcome hfree htaken
      by_cases hreturns : s.hplc.Unlocked ∧ s.world.accepts .powerAdj = true
      · rw [(ctrlDataTurn_taken hs' htaken).world, Router.taken, if_pos hreturns.2]
        exact (Router.forward_powerAdj_handledApart_iff s.world).mpr (h hfree htaken hreturns.1 hreturns.2)
      · rw [houtcome.stuck hreturns] at hs'
        cases hs'
    · rw [(ctrlDataTurn_taken hs' htaken).world]
      exact Router.taken_handledApart hc s.world

/-! ## Answers of the pile -/

/-- What becomes of the records when the answer to a command is looked for. -/
theorem pilePart_ctrl {c : ChargeCmd} {s s' : Energycon} (hcall : pilePart c s = some s') :
    (s.flag c = true → Energycon.found s c = none) ∧ s'.world.ctrl = s.world.ctrl ∨
      ∃ answer, s.flag c = true ∧ Energycon.found s c = some answer ∧
        s'.world.ctrl = (s.world.setSucIdle (c.noted answer) answer).ctrl := by
  rcases pilePart_world hcall with ⟨hnone, hworld⟩ | ⟨answer, para, hflag, hfound, hworld⟩
  · exact .inl ⟨hnone, by rw [hworld]⟩
  · refine .inr ⟨answer, hflag, hfound, ?_⟩
    rcases hworld with hworld | ⟨d, hworld⟩
    · rw [hworld]
      rfl
    · rw [hworld]
      rfl

/-- The answers to a start and to a power adjustment are noted where they belong. -/
theorem pilePart_apart {c : ChargeCmd} (hc : c ≠ .stop) {s s' : Energycon} (hcall : pilePart c s = some s') :
    Apart c s.world s'.world := by
  intro d hd
  rcases pilePart_ctrl hcall with ⟨-, hctrl⟩ | ⟨answer, -, -, hctrl⟩
  · rw [hctrl]
  · have hnoted : c.noted answer = c := by
      rw [ChargeCmd.noted]
      cases c with
      | stop => exact absurd rfl hc
      | start => exact ite_self _
      | powerAdj => exact ite_self _
    rw [hctrl, hnoted]
    exact Router.setSucIdle_ctrl_of_ne s.world hd answer

theorem pilePart_stop_apart_iff (s : Energycon) : (∀ s', pilePart .stop s = some s' → Apart .stop s.world s'.world) ↔
    (StopFailed s → s.hplc.Unlocked → (s.world.ctrl .start).cSucIdle = failed) := by
  constructor
  · rintro happart ⟨hflag, hfound⟩ hunlocked
    obtain ⟨s', hs', -⟩ := (pilePart_outcome (by decide) hflag hfound).returned hunlocked
    have hstart := happart s' hs' .start (by decide)
    rcases pilePart_ctrl hs' with ⟨hnone, -⟩ | ⟨answer, -, hanswer, hctrl⟩
    · rw [hnone hflag] at hfound
      cases hfound
    · cases hanswer.symm.trans hfound
      rw [hctrl] at hstart
      exact (Router.setSucIdle_ctrl_eq_iff s.world .start failed).mp hstart
  · intro hallowed s' hs' d hd
    rcases pilePart_ctrl hs' with ⟨-, hctrl⟩ | ⟨answer, hflag, hfound, hctrl⟩
    · rw [hctrl]
    · have hunlocked : s.hplc.Unlocked := by
        by_contra hnot
        rw [(pilePart_outcome (by decide) hflag hfound).stuck hnot] at hs'
        cases hs'
      rw [hctrl]
      by_cases hanswer : answer = successful
      · rw [ChargeCmd.noted, if_pos hanswer]
        exact Router.setSucIdle_ctrl_of_ne s.world hd answer
      · have hfailed : answer = failed := by
          rw [Energycon.found] at hfound
          split_ifs at hfound
          · exact absurd (Option.some.inj hfound).symm hanswer
          · exact (Option.some.inj hfound).symm
        subst hfailed
        have hstart : ChargeCmd.noted .stop failed = .start := rfl
        rw [hstart]
        by_cases hd' : d = .start
        · rw [hd']
          exact (Router.setSucIdle_ctrl_eq_iff s.world .start failed).mpr (hallowed ⟨hflag, hfound⟩ hunlocked)
        · exact Router.setSucIdle_ctrl_of_ne s.world hd' failed

theorem isolates_pileData_iff (s : Energycon) : Isolates s .pileData ↔ IsolationAllowed s .pileData := by
  constructor
  · intro h s₁ h₁
    exact (pilePart_stop_apart_iff s₁).mp fun s₂ h₂ => ((h s₁ h₁).2 s₂ h₂).1
  · intro h s₁ h₁
    refine ⟨pilePart_apart (by decide) h₁, ?_⟩
    intro s₂ h₂
    refine ⟨(pilePart_stop_apart_iff s₁).mpr (h s₁ h₁) s₂ h₂, ?_⟩
    intro s₃ h₃
    exact ⟨pilePart_apart (by decide) h₃, trivial⟩

/-! ## Runs -/

/-- Over every run: each command and each answer of the pile is handled in the record of its command alone, with the outcome of a
command in the control record, exactly when the misplaced outcomes find themselves there already. -/
theorem commands_isolated_iff (s : Energycon) (ops : List EnergyOp) :
    Meets Energycon.step Isolates s ops ↔ Meets Energycon.step IsolationAllowed s ops := by
  refine meets_congr (fun s op (_ : True) => ?_) (fun _ _ _ _ _ _ => trivial) trivial ops
  cases op
  case ctrlData => exact isolates_ctrlData_iff s
  case pileData => exact isolates_pileData_iff s
  all_goals exact Iff.rfl

/-- A stop that the pile did not carry out, after nothing else: the record of a start says that it failed. A power adjustment after a
start that was refused for a fault: the control record keeps the outcome of the start. -/
theorem commands_not_isolated :
    ¬ Meets Energycon.step Isolates powerUpEnergycon [.post .stopChg, .ctrlData, .pileEvent .chargeStopER, .pileData] ∧
    ¬ Meets Energycon.step Isolates powerUpEnergycon
      [.fault 1, .post .startChg, .ctrlData, .fault 0, .post .powerAdj, .ctrlData] := by
  constructor
  · have hrun : ((run Energycon.step powerUpEnergycon [.post .stopChg, .ctrlData, .pileEvent .chargeStopER]).bind fun s =>
        (pilePart .start s).bind fun s₁ => (pilePart .stop s₁).map fun s₂ =>
          ((s₁.world.ctrl .start).cSucIdle, (s₂.world.ctrl .start).cSucIdle)) = some (0, 1) := by
      decide
    intro hmeets
    obtain ⟨s, hs, hrun⟩ := Option.bind_eq_some_iff.mp hrun
    obtain ⟨s₁, h₁, hrun⟩ := Option.bind_eq_some_iff.mp hrun
    obtain ⟨s₂, h₂, hidle⟩ := Option.map_eq_some_iff.mp hrun
    have hisolates : Isolates s .pileData := Meets.demand_of_run [.post .stopChg, .ctrlData, .pileEvent .chargeStopER] hmeets hs
    have hsame := ((hisolates s₁ h₁).2 s₂ h₂).1 .start (by decide)
    rw [hsame] at hidle
    obtain ⟨hzero, hone⟩ := Prod.mk.inj hidle
    cases hzero.symm.trans hone
  · have hrun : ((run Energycon.step powerUpEnergycon [.fault 1, .post .startChg, .ctrlData, .fault 0, .post .powerAdj]).bind fun s =>
        (ctrlDataTurn s).map fun s' => (takenCmd s.mask.strategyEvent, s'.world.ctrlChargeEvent.cSucIdle,
          (s'.world.ctrl .powerAdj).cSucIdle)) = some (some .powerAdj, 1, 0) := by
      decide
    intro hmeets
    obtain ⟨s, hs, hrun⟩ := Option.bind_eq_some_iff.mp hrun
    obtain ⟨s', hs', hidle⟩ := Option.map_eq_some_iff.mp hrun
    obtain ⟨htaken, hevent, hrecord⟩ : _ ∧ _ ∧ _ := by simpa only [Prod.mk.injEq] using hidle
    have hisolates : Isolates s .ctrlData :=
      Meets.demand_of_run [.fault 1, .post .startChg, .ctrlData, .fault 0, .post .powerAdj] hmeets hs
    have houtcome := (hisolates .powerAdj s' htaken hs').outcome
    rw [hevent, hrecord] at houtcome
    cases houtcome

end EnergyRouter
