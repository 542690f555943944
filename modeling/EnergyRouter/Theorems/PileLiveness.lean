import EnergyRouter.EnergyThread
import EnergyRouter.Theorems.PileStates
import EnergyRouter.Theorems.Sessions

/-!
# What brings the pile to a halt

The state of a start that reports a failure is not passed on and makes the pile ignore every later one, so that it waits for a start
that cannot come. The command to update stops the timers of a pile in standby and leaves its state alone.
-/

namespace EnergyRouter

open Runs

variable {s s' : Pile} {op : PileStep} {msg : CanMsg} {steps : List PileStep}

/-- One step of the pile. -/
def Pile.step (s : Pile) : PileStep → Option Pile
  | .receive msg => canV110RecProtocal msg s
  | .start => (chargepileDataGetSet .chargeStart none s).map fun out => out.2.2
  | .stop => (chargepileDataGetSet .chargeStop none s).map fun out => out.2.2
  | .order => some (taskOrder s)
  | .switch => some (taskSwitch s)
  | .second => some (canHeartTxCallback s)

/-! ## Failed starts -/

/-- A local step, or the state of a start. -/
def PileStep.OfStart : PileStep → Prop
  | .receive msg => msg.frame = some .chargeStartStateFrame
  | _ => True

/-- A local step, or the state of a start that reports a failure. -/
def PileStep.OfFailure : PileStep → Prop
  | .receive msg => msg.frame = some .chargeStartStateFrame ∧ msg.byte 2 ≠ successful
  | _ => True

/-- What is asked after a failed start: the energy control is told. -/
def Reported (s s' : Pile) : Prop := .chargeStartER ∈ newEvents s s'

/-- And the pile can be brought to charge again by local commands, turns of the task and states of a start, which is posted. -/
def Restartable (s : Pile) : Prop :=
  ∃ later s', (∀ op ∈ later, PileStep.OfStart op) ∧ run Pile.step s later = some s' ∧ s'.chgState = .charging ∧
    .chargeStartOK ∈ newEvents s s'

/-- A start was commanded, and its state has not come. -/
def Pile.Awaits (s : Pile) : Prop := s.chgState = .chargStart ∨ s.chgState = .waitChargeStartFrameAsk

/-- The pile still waits, and has posted nothing. -/
structure StillAwaits (s s' : Pile) (muted : Bool) : Prop where
  awaits : s'.Awaits
  events : s'.events = s.events
  muted : s'.startMuted = muted

theorem Pile.Awaits.ne (h : s.Awaits) : s.chgState ≠ .standby ∧ s.chgState ≠ .charging := by
  rcases h with h | h
  · rw [h]
    exact ⟨by decide, by decide⟩
  · rw [h]
    exact ⟨by decide, by decide⟩

theorem chargeStart_of_awaits (h : s.Awaits) : chargeStart s = (failed, s) := by
  rw [chargeStart, if_neg h.ne.1]

theorem chargeStop_of_awaits (h : s.Awaits) : chargeStop s = (failed, s) := by
  rw [chargeStop, if_neg h.ne.2]

/-- Local commands are refused, and the task does no more than to send the frame to start. -/
theorem localStep_stillAwaits (h : s.Awaits) (hlocal : ∀ msg, op ≠ .receive msg) :
    ∃ s', s.step op = some s' ∧ StillAwaits s s' s.startMuted := by
  cases op with
  | receive msg => exact absurd rfl (hlocal msg)
  | start => exact ⟨_, rfl, by rw [chargeStart_of_awaits h]; exact ⟨h, rfl, rfl⟩⟩
  | stop => exact ⟨_, rfl, by rw [chargeStop_of_awaits h]; exact ⟨h, rfl, rfl⟩⟩
  | order =>
    refine ⟨_, rfl, ?_⟩
    rcases taskOrder_cases s with horder | horder | horder
    · rw [horder, chargeStart_of_awaits h]
      exact ⟨h, rfl, rfl⟩
    · rw [horder, chargeStop_of_awaits h]
      exact ⟨h, rfl, rfl⟩
    · rw [horder]
      exact ⟨h, rfl, rfl⟩
  | switch =>
    refine ⟨_, rfl, ?_⟩
    rcases h with h | h
    · have hswitch : taskSwitch s = { informCommunicateCan .chargeStartFrame false s with chgState := .waitChargeStartFrameAsk } := by
        rw [taskSwitch, h]
      rw [hswitch]
      exact ⟨.inr rfl, rfl, rfl⟩
    · have hswitch : taskSwitch s = s := by rw [taskSwitch, h]
      rw [hswitch]
      exact ⟨.inr h, rfl, rfl⟩
  | second =>
    refine ⟨_, rfl, ?_⟩
    unfold canHeartTxCallback
    split_ifs
    · exact ⟨h, rfl, rfl⟩
    · exact ⟨h, rfl, rfl⟩

/-- A state of a start that is ignored or a failure leaves the pile waiting and makes it ignore the next one. -/
theorem startState_stillAwaits (h : s.Awaits) (hframe : msg.frame = some .chargeStartStateFrame)
    (hfails : s.startMuted = true ∨ msg.byte 2 ≠ successful) :
    ∃ s', s.step (.receive msg) = some s' ∧ StillAwaits s s' true := by
  have hstep : s.step (.receive msg) = some (recChargeStartStateFrame msg s) := by
    rw [Pile.step, canV110RecProtocal, hframe]
  have hnot : ¬ (s.startMuted = false ∧ msg.byte 2 = successful) := by
    rintro ⟨hmuted, hok⟩
    rcases hfails with h | h
    · cases hmuted.symm.trans h
    · exact h hok
  have hleaves := recChargeStartStateFrame_leaves msg s
  have hposts := (recChargeStartStateFrame_posts msg s).1
  rw [if_neg hnot] at hleaves hposts
  refine ⟨_, hstep, ?_, ?_, hleaves.muted⟩
  · rw [Pile.Awaits, hleaves.state]
    exact h
  · rw [hposts, List.append_nil]

/-- Failures of a start, with anything local between them. -/
theorem run_ofFailure (h : s.Awaits) (hsteps : ∀ op ∈ steps, PileStep.OfFailure op) :
    ∃ s', run Pile.step s steps = some s' ∧ StillAwaits s s' s'.startMuted ∧
      (s.startMuted = true ∨ (∃ msg, .receive msg ∈ steps) → s'.startMuted = true) := by
  induction steps generalizing s with
  | nil =>
    refine ⟨s, rfl, ⟨h, rfl, rfl⟩, ?_⟩
    rintro (hmuted | ⟨msg, hmsg⟩)
    · exact hmuted
    · cases hmsg
  | cons op steps ih =>
    have hop := hsteps op List.mem_cons_self
    obtain ⟨s₁, hs₁, hawaits, hmuted⟩ : ∃ s₁, s.step op = some s₁ ∧ StillAwaits s s₁ s₁.startMuted ∧
        (s.startMuted = true ∨ (∃ msg, op = .receive msg) → s₁.startMuted = true) := by
      by_cases hlocal : ∀ msg, op ≠ .receive msg
      · obtain ⟨s₁, hs₁, h₁⟩ := localStep_stillAwaits h hlocal
        refine ⟨s₁, hs₁, ⟨h₁.awaits, h₁.events, rfl⟩, ?_⟩
        rintro (hmuted | ⟨msg, hmsg⟩)
        · rw [h₁.muted, hmuted]
        · exact absurd hmsg (hlocal msg)
      · obtain ⟨msg, rfl⟩ := not_forall_not.mp hlocal
        obtain ⟨s₁, hs₁, h₁⟩ := startState_stillAwaits h hop.1 (.inr hop.2)
        exact ⟨s₁, hs₁, ⟨h₁.awaits, h₁.events, rfl⟩, fun _ => h₁.muted⟩
    obtain ⟨s', hs', h', hmuted'⟩ := ih hawaits.awaits fun o ho => hsteps o (List.mem_cons_of_mem op ho)
    refine ⟨s', by rw [run, hs₁, Option.bind_some, hs'], ⟨h'.awaits, h'.events.trans hawaits.events, rfl⟩, ?_⟩
    rintro (hbefore | ⟨msg, hmsg⟩)
    · exact hmuted' (.inl (hmuted (.inl hbefore)))
    · rcases List.mem_cons.mp hmsg with heq | hmem
      · exact hmuted' (.inl (hmuted (.inr ⟨msg, heq.symm⟩)))
      · exact hmuted' (.inr ⟨msg, hmem⟩)

/-- A pile that ignores the state of a start waits on, whatever the state says. -/
theorem run_ofStart (h : s.Awaits) (hmuted : s.startMuted = true) (hsteps : ∀ op ∈ steps, PileStep.OfStart op)
    (hrun : run Pile.step s steps = some s') : StillAwaits s s' true := by
  induction steps generalizing s with
  | nil =>
    cases hrun
    exact ⟨h, rfl, hmuted⟩
  | cons op steps ih =>
    obtain ⟨s₁, hs₁, hrun⟩ := Option.bind_eq_some_iff.mp hrun
    have hop := hsteps op List.mem_cons_self
    have h₁ : StillAwaits s s₁ true := by
      by_cases hlocal : ∀ msg, op ≠ .receive msg
      · obtain ⟨s₂, hs₂, h₂⟩ := localStep_stillAwaits h hlocal
        cases hs₂.symm.trans hs₁
        exact ⟨h₂.awaits, h₂.events, h₂.muted.trans hmuted⟩
      · obtain ⟨msg, rfl⟩ := not_forall_not.mp hlocal
        obtain ⟨s₂, hs₂, h₂⟩ := startState_stillAwaits h hop (.inl hmuted)
        cases hs₂.symm.trans hs₁
        exact h₂
    have h' := ih h₁.awaits h₁.muted (fun o ho => hsteps o (List.mem_cons_of_mem op ho)) hrun
    exact ⟨h'.awaits, h'.events.trans h₁.events, h'.muted⟩

/-- A pile that has come to standby. -/
def standbyPile : Pile := { initPile with chgState := .standby }

/-- The messages that bring the pile to standby from its first state. -/
def toStandby : List PileStep := [.receive (message 0x08 0 0x10 0x01), .receive (message 0x0A 0 0 0)]

/-- The timers run, unless the pile updates. -/
def TimersAlive (s : Pile) : Prop := s.chgState ≠ .update → s.heartTx = true ∧ s.tx250ms = true

/-- No command to update comes in standby. -/
def TimersAllowed (s : Pile) : PileStep → Prop
  | .receive msg => ¬ (msg.frame = some .updateBeginFrame ∧ s.chgState = .standby)
  | _ => True

theorem Ticking.step (h : Ticking s) (hallowed : TimersAllowed s op) (hstep : s.step op = some s') :
    Ticking s' := by
  have hstart : Ticking (chargeStart s).2 := by
    unfold chargeStart
    split_ifs
    · exact h.of_eq rfl rfl rfl rfl
    · exact h
  have hstop : Ticking (chargeStop s).2 := by
    unfold chargeStop
    split_ifs
    · exact h.of_eq rfl rfl rfl rfl
    · exact h
  cases op with
  | receive msg => exact ((canV110RecProtocal_handled msg s).post_of_some hstep).ticking hallowed h
  | start =>
    cases hstep
    exact hstart
  | stop =>
    cases hstep
    exact hstop
  | order =>
    cases hstep
    rcases taskOrder_cases s with horder | horder | horder
    · rw [horder]
      exact hstart
    · rw [horder]
      exact hstop
    · rw [horder]
      exact h
  | switch =>
    cases hstep
    unfold taskSwitch
    split
    next => exact informCommunicateCan_ticking .vertionCheckFrame (by simp) false h
    next => exact informCommunicateCan_ticking .chargeParaInfoFrame (by simp) false h
    next => exact (informCommunicateCan_ticking .chargeStartFrame (by simp) false h).of_eq rfl rfl rfl rfl
    next => exact (informCommunicateCan_ticking .chargeStopFrame (by simp) false h).of_eq rfl rfl rfl rfl
    next => exact ⟨h.heart, h.tx, h.mark, rfl⟩
    next => exact h
  | second =>
    cases hstep
    exact (canHeartTxCallback_calm s).ticking h

/-- No step makes the pile update. -/
theorem Pile.step_ne_update (hstate : s.chgState ≠ .update) (hstep : s.step op = some s') :
    s'.chgState ≠ .update := by
  have hfollows : ∀ {newer}, MayFollow newer s.chgState → newer ≠ .update := by
    rintro newer (rfl | hlater | ⟨rfl, -⟩) hupdate
    · exact hstate hupdate
    · rw [hupdate] at hlater
      exact absurd hlater (by decide)
    · cases hupdate
  cases op with
  | receive msg =>
    rw [((canV110RecProtocal_outcome msg s).post_of_some hstep).state]
    by_cases hrestarts : msg.Restarts
    · rw [stateAfter, hrestarts.1]
      dsimp only
      rw [if_pos hrestarts.2]
      intro hupdate
      cases hupdate
    · exact hfollows (stateAfter_mayFollow msg s hrestarts)
  | start =>
    cases hstep
    exact hfollows (chargeStart_mayFollow s)
  | stop =>
    cases hstep
    exact hfollows (chargeStop_mayFollow s)
  | order =>
    cases hstep
    exact hfollows (taskOrder_mayFollow s)
  | switch =>
    cases hstep
    exact hfollows (taskSwitch_mayFollow s)
  | second =>
    cases hstep
    rw [(canHeartTxCallback_calm s).leaves.state]
    exact hstate

/-- A command to update that comes in standby stops both timers, and the pile stays in standby. -/
theorem updateBegin_stops (h : Ticking s) (hframe : msg.frame = some .updateBeginFrame) (hstandby : s.chgState = .standby) :
    s.step (.receive msg) = some { s.device (msg.byte 0) (msg.byte 1) with heartTx := false, tx250ms := false } := by
  rw [Pile.step, canV110RecProtocal, hframe]
  dsimp only
  rw [recUpdateBeginFrame, onceOnly_of_not_flag h.fresh, if_pos ⟨hstandby, h.mark⟩]

/-- The timers run, and the pile does not update. -/
structure Operating (s : Pile) : Prop where
  ticking : Ticking s
  state : s.chgState ≠ .update

/-- Over every sequence of messages, local commands, seconds and turns of the task: in every state the run gets to the timers run or
the pile updates, exactly when no command to update comes in standby. -/
theorem timers_alive_iff (steps : List PileStep) :
    Meets Pile.step (fun s op => ∀ s', s.step op = some s' → TimersAlive s') initPile steps ↔
      Meets Pile.step TimersAllowed initPile steps := by
  have hfirst : Operating initPile := ⟨⟨rfl, rfl, rfl, rfl⟩, by decide⟩
  refine meets_congr (fun s op hs => ?_) (fun s op s' hs hallowed hstep => ?_) hfirst steps
  · obtain ⟨hticking, hstate⟩ := hs
    constructor
    · intro halive
      cases op with
      | receive msg =>
        rintro ⟨hframe, hstandby⟩
        have hstopped := halive _ (updateBegin_stops hticking hframe hstandby) hstate
        cases hstopped.1
      | start | stop | order | switch | second => trivial
    · intro hallowed s' hstep _
      have hticking' := hticking.step hallowed hstep
      exact ⟨hticking'.heart, hticking'.tx⟩
  · obtain ⟨hticking, hstate⟩ := hs
    exact ⟨hticking.step hallowed hstep, Pile.step_ne_update hstate hstep⟩

/-- The command to update in standby: the run time stands still from then on. -/
theorem update_freezes_run_time :
    ¬ Meets Pile.step (fun s op => ∀ s', s.step op = some s' → TimersAlive s') initPile
      (toStandby ++ [.receive (message 0x70 0 0 0)]) ∧
    ((run Pile.step initPile (toStandby ++ [.second, .receive (message 0x70 0 0 0), .second, .second])).map fun s =>
      (s.chgState, s.heartTx, s.tx250ms, s.runTime)) = some (.standby, false, false, 1) := by
  refine ⟨?_, by decide⟩
  have hrun : ((run Pile.step initPile toStandby).bind fun s => (s.step (.receive (message 0x70 0 0 0))).map fun s' =>
      (s'.chgState, s'.heartTx)) = some (.standby, false) := by
    decide
  obtain ⟨s, hs, hrun⟩ := Option.bind_eq_some_iff.mp hrun
  obtain ⟨s', hs', hout⟩ := Option.map_eq_some_iff.mp hrun
  obtain ⟨hstate, hheart⟩ := Prod.mk.inj hout
  intro hmeets
  have halive : ∀ s', s.step (.receive (message 0x70 0 0 0)) = some s' → TimersAlive s' := Meets.demand_of_run toStandby hmeets hs
  have hstopped := (halive s' hs' (by rw [hstate]; decide)).1
  cases hheart.symm.trans hstopped

end EnergyRouter
