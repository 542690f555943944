import EnergyRouter.Lemmas.EnergyThread
import EnergyRouter.Theorems.Sessions

/-!
# Who starts and stops a charge

When every start and every stop of the pile goes back to a command the energy control took, accepted and forwarded.
-/

namespace EnergyRouter

open Runs

/-- The state of the pile. -/
def Energycon.pileState (s : Energycon) : PileState := s.world.pile.chgState

/-! ## Calls that leave the state of the pile alone -/

theorem pilePart_state {c : ChargeCmd} {s s' : Energycon} (hcall : pilePart c s = some s') :
    Energycon.pileState s' = Energycon.pileState s := by
  rcases pilePart_world hcall with ⟨-, hworld⟩ | ⟨answer, para, -, -, hworld | ⟨d, hworld⟩⟩
  · rw [Energycon.pileState, hworld, Energycon.pileState]
  · rw [Energycon.pileState, hworld]
    rfl
  · rw [Energycon.pileState, hworld]
    rfl

theorem pileDataRecProcess_state {s s' : Energycon} (hcall : pileDataRecProcess s = some s') :
    Energycon.pileState s' = Energycon.pileState s := by
  obtain ⟨s₁, h₁, hcall⟩ := Option.bind_eq_some_iff.mp hcall
  obtain ⟨s₂, h₂, h₃⟩ := Option.bind_eq_some_iff.mp hcall
  rw [pilePart_state h₃, pilePart_state h₂, pilePart_state h₁]

theorem respTimeout_state {c : ChargeCmd} {w w' : Router} (hcall : respTimeout c w = some w') :
    w'.pile.chgState = w.pile.chgState := by
  obtain ⟨⟨rst, para, pile⟩, hget, rfl⟩ := Option.map_eq_some_iff.mp hcall
  cases c with
  | start => cases hget
  | stop => cases hget
  | powerAdj =>
    cases hget
    rfl

/-! ## Moves and their causes -/

/-- A change of the pile's state, and the accepted command the energy control forwarded with it. -/
structure CommandedMove where
  src : PileState
  dst : PileState
  cause : Option ChargeCmd
  deriving DecidableEq, Repr

/-- What is asked of a move: a start from standby is made for an accepted start, a stop of a charge for an accepted stop. -/
def CommandedMove.Commanded (m : CommandedMove) : Prop :=
  (m.src = .standby → m.dst = .chargStart → m.cause = some .start) ∧ (m.src = .charging → m.dst = .toCheck → m.cause = some .stop)

/-- The command `CtrlData_RecProcess` will take and accept. -/
def Energycon.accepted (s : Energycon) : Option ChargeCmd := (takenCmd s.mask.strategyEvent).filter s.world.accepts

/-- The thread and the pile with the moves made so far. -/
structure Driven where
  ctrl : Energycon
  moves : List CommandedMove

/-- One step. A turn of the task makes two moves: the order it gives itself, and its switch. -/
def Driven.step (t : Driven) (op : EnergyOp) : Option Driven :=
  (Energycon.step t.ctrl op).map fun ctrl =>
    let state := Energycon.pileState t.ctrl
    let state' := Energycon.pileState ctrl
    ⟨ctrl, t.moves ++
      match op with
      | .ctrlData => [⟨state, state', Energycon.accepted t.ctrl⟩]
      | .turn => [⟨state, (taskOrder t.ctrl.world.pile).chgState, none⟩, ⟨(taskOrder t.ctrl.world.pile).chgState, state', none⟩]
      | _ => [⟨state, state', none⟩]⟩

/-- All moves so far were commanded. -/
def Driven.AllCommanded (t : Driven) : Prop := ∀ m ∈ t.moves, m.Commanded

/-- The task would give itself an order now. -/
def OrdersItself (s : Pile) : Prop := (s.chgState = .standby ∧ s.runTime % 5 = 0) ∨ (s.chgState = .charging ∧ s.runTime % 10 = 0)

/-- No turn of the task finds the pile in standby or charging at a time when it would give itself an order. -/
def TurnAllowed (t : Driven) (op : EnergyOp) : Prop := op = .turn → ¬ OrdersItself t.ctrl.world.pile

/-- A move that stays, or goes to neither the start nor the stop, is commanded. -/
theorem commanded_of_state {src dst : PileState} (h : dst = src ∨ (dst ≠ .chargStart ∧ dst ≠ .toCheck)) (cause : Option ChargeCmd) :
    CommandedMove.Commanded ⟨src, dst, cause⟩ := by
  rcases h with rfl | ⟨hstart, hstop⟩
  · constructor
    · intro hsrc hdst
      cases hsrc.symm.trans hdst
    · intro hsrc hdst
      cases hsrc.symm.trans hdst
  · exact ⟨fun _ hdst => absurd hdst hstart, fun _ hdst => absurd hdst hstop⟩

/-- No message makes the pile start or stop. -/
theorem stateAfter_cases (msg : CanMsg) (s : Pile) :
    stateAfter msg s = s.chgState ∨ (stateAfter msg s ≠ .chargStart ∧ stateAfter msg s ≠ .toCheck) := by
  unfold stateAfter
  split
  all_goals try split_ifs
  all_goals first
    | exact .inl rfl
    | exact .inr ⟨nofun, nofun⟩

theorem taskSwitch_state (s : Pile) :
    (taskSwitch s).chgState = s.chgState ∨ ((taskSwitch s).chgState ≠ .chargStart ∧ (taskSwitch s).chgState ≠ .toCheck) := by
  rcases taskSwitch_cases s with ⟨-, hleaves⟩ | ⟨-, hleaves⟩ | ⟨-, hleaves⟩ | hquiet
  · rw [hleaves.state]
    exact .inr ⟨nofun, nofun⟩
  · rw [hleaves.state]
    exact .inr ⟨nofun, nofun⟩
  · rw [hleaves.state]
    exact .inr ⟨nofun, nofun⟩
  · exact .inl hquiet.state

/-- The task moves on its own account exactly when it gives itself an order. -/
theorem taskOrder_commanded_iff (s : Pile) :
    CommandedMove.Commanded ⟨s.chgState, (taskOrder s).chgState, none⟩ ↔ ¬ OrdersItself s := by
  constructor
  · rintro ⟨hstart, hstop⟩ (⟨hstate, htime⟩ | ⟨hstate, htime⟩)
    · have horder : (taskOrder s).chgState = .chargStart := by
        rw [taskOrder, if_pos ⟨hstate, htime⟩, chargeStart, if_pos hstate]
      cases hstart hstate horder
    · have hnot : ¬ (s.chgState = .standby ∧ s.runTime % 5 = 0) := by
        rw [hstate]
        exact nofun
      have horder : (taskOrder s).chgState = .toCheck := by
        rw [taskOrder, if_neg hnot, if_pos ⟨hstate, htime⟩, chargeStop, if_pos hstate]
      cases hstop hstate horder
  · intro hnot
    have hkeep : taskOrder s = s := by
      rw [taskOrder, if_neg fun h => hnot (.inl h), if_neg fun h => hnot (.inr h)]
    rw [hkeep]
    exact commanded_of_state (.inl rfl) none

/-- The energy control moves the pile for an accepted command only. -/
theorem ctrlDataTurn_commanded {s s' : Energycon} (hcall : ctrlDataTurn s = some s') :
    CommandedMove.Commanded ⟨Energycon.pileState s, Energycon.pileState s', Energycon.accepted s⟩ := by
  cases htaken : takenCmd s.mask.strategyEvent with
  | none =>
    rw [ctrlDataTurn_of_none (ctrlDataTurn_free hcall) htaken] at hcall
    cases hcall
    exact commanded_of_state (.inl rfl) _
  | some c =>
    have hworld := (ctrlDataTurn_taken hcall htaken).world
    rw [Energycon.accepted, htaken]
    unfold Energycon.pileState
    rw [hworld, Router.taken]
    cases haccepts : s.world.accepts c with
    | false => exact commanded_of_state (.inl (congrArg Pile.chgState (s.world.refuse_pile c (s.world.refusal c)))) _
    | true =>
      rw [Option.filter_some, haccepts, if_pos rfl, if_pos rfl]
      cases c with
      | start =>
        change CommandedMove.Commanded ⟨_, (chargeStart s.world.pile).2.chgState, _⟩
        rcases chargeStart_cases s.world.pile with ⟨hstate, hleaves⟩ | hquiet
        · rw [hleaves.state]
          exact ⟨fun _ _ => rfl, fun _ hdst => (by cases hdst)⟩
        · exact commanded_of_state (.inl hquiet.state) _
      | stop =>
        change CommandedMove.Commanded ⟨_, (chargeStop s.world.pile).2.chgState, _⟩
        rcases chargeStop_cases s.world.pile with ⟨hstate, hleaves⟩ | hquiet
        · rw [hleaves.state]
          exact ⟨fun _ hdst => (by cases hdst), fun _ _ => rfl⟩
        · exact commanded_of_state (.inl hquiet.state) _
      | powerAdj => exact commanded_of_state (.inl rfl) _

/-! ## Runs -/

/-- A step is as asked exactly when it is allowed. -/
theorem Driven.allowed_iff {t : Driven} (h : t.AllCommanded) (op : EnergyOp) :
    TurnAllowed t op ↔ ∀ t', t.step op = some t' → t'.AllCommanded := by
  -- what a step other than a turn adds is always commanded
  have hother : op ≠ .turn → ∀ t', t.step op = some t' → t'.AllCommanded := by
    intro hturn t' hstep
    obtain ⟨ctrl, hctrl, rfl⟩ := Option.map_eq_some_iff.mp hstep
    have happend : ∀ m : CommandedMove, m.Commanded → ∀ m' ∈ t.moves ++ [m], m'.Commanded := by
      intro m hm
      rw [List.forall_mem_append, List.forall_mem_singleton]
      exact ⟨h, hm⟩
    cases op
    case turn => exact absurd rfl hturn
    case ctrlData => exact happend _ (ctrlDataTurn_commanded hctrl)
    case pileData => exact happend _ (commanded_of_state (.inl (pileDataRecProcess_state hctrl)) none)
    case slots =>
      obtain ⟨w, hw, rfl⟩ := Option.map_eq_some_iff.mp hctrl
      exact happend _ (commanded_of_state (.inl (slotTurn_frame hw).state) none)
    case receive msg =>
      obtain ⟨pile, hpile, rfl⟩ := Option.map_eq_some_iff.mp hctrl
      have hstate := ((canV110RecProtocal_outcome msg t.ctrl.world.pile).post_of_some hpile).state
      refine happend _ (commanded_of_state ?_ none)
      change pile.chgState = _ ∨ (pile.chgState ≠ _ ∧ pile.chgState ≠ _)
      rw [hstate]
      exact stateAfter_cases msg t.ctrl.world.pile
    case timeout c =>
      rw [Energycon.step] at hctrl
      split_ifs at hctrl
      · obtain ⟨w, hw, rfl⟩ := Option.map_eq_some_iff.mp hctrl
        exact happend _ (commanded_of_state (.inl (respTimeout_state hw)) none)
      · cases hctrl
        exact happend _ (commanded_of_state (.inl rfl) none)
    case post e =>
      obtain ⟨mask, -, rfl⟩ := Option.map_eq_some_iff.mp hctrl
      exact happend _ (commanded_of_state (.inl rfl) none)
    case second =>
      cases hctrl
      exact happend _ (commanded_of_state (.inl (canHeartTxCallback_calm _).leaves.state) none)
    all_goals
      cases hctrl
      exact happend _ (commanded_of_state (.inl rfl) none)
  by_cases hturn : op = .turn
  · subst hturn
    have hmoves : (∀ t', t.step .turn = some t' → t'.AllCommanded) ↔
        CommandedMove.Commanded ⟨Energycon.pileState t.ctrl, (taskOrder t.ctrl.world.pile).chgState, none⟩ := by
      constructor
      · intro hgood
        exact hgood _ rfl _ (List.mem_append_right _ List.mem_cons_self)
      · rintro horder t' ht' m hm
        cases ht'
        rcases List.mem_append.mp hm with hm | hm
        · exact h m hm
        · rcases List.mem_cons.mp hm with rfl | hm
          · exact horder
          · rw [List.mem_singleton] at hm
            rw [hm]
            exact commanded_of_state (taskSwitch_state (taskOrder t.ctrl.world.pile)) none
    rw [hmoves, Energycon.pileState, taskOrder_commanded_iff]
    exact ⟨fun hallowed => hallowed rfl, fun hnot _ => hnot⟩
  · exact ⟨fun _ => hother hturn, fun _ heq => absurd heq hturn⟩

/-- Over every run of the pile and the energy-control thread: every start from standby is made for an accepted start command the
energy control forwarded, and every stop of a charge for an accepted stop command, exactly when no turn of the task finds the pile
in standby or charging at a time when it gives itself an order. -/
theorem commanded_only_iff (s : Energycon) (ops : List EnergyOp) :
    Meets Driven.step TurnAllowed ⟨s, []⟩ ops ↔
      Meets Driven.step (fun t op => ∀ t', t.step op = some t' → t'.AllCommanded) ⟨s, []⟩ ops := by
  refine meets_congr (fun t op h => Driven.allowed_iff h op) (fun t op t' _ hgood hstep => hgood t' hstep) ?_ ops
  intro m hm
  cases hm

/-- The pile answers the version check and the parameters, and the task takes its next turn. -/
def setUpOps : List EnergyOp := [.turn, .receive (message 0x08 0 0x10 0x01), .turn, .receive (message 0x0A 0 0 0), .turn]

/-- That turn finds the pile in standby with no second counted, and starts a charge that nobody commanded. -/
theorem task_starts_uncommanded :
    (run Driven.step ⟨powerUpEnergycon, []⟩ setUpOps).map (fun t => t.moves.drop 5) =
        some [⟨.waitPilePara, .standby, none⟩, ⟨.standby, .chargStart, none⟩, ⟨.chargStart, .waitChargeStartFrameAsk, none⟩] ∧
    ¬ Meets Driven.step (fun t op => ∀ t', t.step op = some t' → t'.AllCommanded) ⟨powerUpEnergycon, []⟩ setUpOps := by
  have hmoves : (run Driven.step ⟨powerUpEnergycon, []⟩ setUpOps).map (fun t => t.moves.drop 5) =
      some [⟨.waitPilePara, .standby, none⟩, ⟨.standby, .chargStart, none⟩, ⟨.chargStart, .waitChargeStartFrameAsk, none⟩] := by
    decide
  refine ⟨hmoves, ?_⟩
  intro hmeets
  obtain ⟨t, ht, hdrop⟩ := Option.map_eq_some_iff.mp hmoves
  have hall : t.AllCommanded := hmeets.good_of_run (fun _ hmem => absurd hmem List.not_mem_nil) ht
  have hmem : (⟨.standby, .chargStart, none⟩ : CommandedMove) ∈ t.moves := by
    refine List.mem_of_mem_drop (i := 5) ?_
    rw [hdrop]
    decide
  cases (hall _ hmem).1 rfl rfl

end EnergyRouter
