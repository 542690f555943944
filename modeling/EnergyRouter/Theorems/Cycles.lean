import EnergyRouter.Theorems.Sessions

/-!
# Charge cycles

A complete charge cycle, as the protocol means it, is a run of a small machine, with copies of each frame and any time between. The
pile follows that machine through any number of cycles.
-/

namespace EnergyRouter

open Runs

variable {s : Pile} {msg : CanMsg}

/-! ## The protocol of a cycle -/

/-- Where a cycle stands. -/
inductive CyclePhase
  | ready | ordered | asked | charging | stopOrdered | stopAsked | stopping | ended
  deriving DecidableEq, Repr

/-- A cycle in progress, and the events it has led to. -/
structure CycleRun where
  phase : CyclePhase
  events : List PileEvent
  deriving DecidableEq, Repr

/-- A successful state of a start. -/
def CanMsg.StartSucceeds (msg : CanMsg) : Prop := msg.frame = some .chargeStartStateFrame ∧ msg.byte 2 = successful
deriving Decidable

/-- A successful state of a stop. -/
def CanMsg.StopSucceeds (msg : CanMsg) : Prop := msg.frame = some .chargeStopStateFrame ∧ msg.byte 2 = successful
deriving Decidable

/-- What a received message does to a cycle: the first copy of a frame moves it on, the copies after it do nothing. -/
def CycleRun.receive (c : CycleRun) (msg : CanMsg) : Option CycleRun :=
  match c.phase with
  | .asked => if msg.StartSucceeds then some ⟨.charging, c.events ++ [.chargeStartOK]⟩ else none
  | .charging => if msg.frame = some .chargeStartStateFrame then some c else none
  | .stopAsked => if msg.frame = some .chargeStopFrameAck then some { c with phase := .stopping } else none
  | .stopping =>
    if msg.frame = some .chargeStopFrameAck then some c
    else if msg.StopSucceeds then some ⟨.ended, c.events ++ [.chargeStopOK]⟩
    else none
  | .ended => if msg.frame = some .chargeStopStateFrame then some c else none
  | _ => none

/-- One step of a cycle; nothing else than its own steps and the passing of time belongs to it. -/
def CycleRun.next (c : CycleRun) (op : PileOp) : Option CycleRun :=
  match op, c.phase with
  | .second, _ => some c
  | .receive msg, _ => c.receive msg
  | .start, .ready => some { c with phase := .ordered }
  | .turn, .ordered => some { c with phase := .asked }
  | .stop, .charging => some { c with phase := .stopOrdered }
  | .turn, .stopOrdered => some { c with phase := .stopAsked }
  | .turn, .ended => some { c with phase := .ready }
  | _, _ => none

/-- A frame as it comes in: its first copy, and the copies received right after it. -/
structure Copies (frame : CanFrame) where
  first : CanMsg
  again : List CanMsg
  first_frame : first.frame = some frame
  again_frame : ∀ msg ∈ again, msg.frame = some frame

/-- All of them are received. -/
def Copies.ops {frame : CanFrame} (c : Copies frame) : List PileOp := .receive c.first :: c.again.map .receive

/-- A complete cycle: what the pile answers to a start and to a stop. -/
structure Cycle where
  startState : Copies .chargeStartStateFrame
  stopAck : Copies .chargeStopFrameAck
  stopState : Copies .chargeStopStateFrame
  started : startState.first.byte 2 = successful
  stopped : stopState.first.byte 2 = successful

/-- The steps of a complete cycle. -/
def Cycle.ops (c : Cycle) : List PileOp :=
  [.start, .turn] ++ c.startState.ops ++ [.stop, .turn] ++ c.stopAck.ops ++ c.stopState.ops ++ [.turn]

theorem run_copies (c : CycleRun) (msgs : List CanMsg) (hskip : ∀ msg ∈ msgs, c.receive msg = some c) :
    run CycleRun.next c (msgs.map .receive) = some c := by
  induction msgs with
  | nil => rfl
  | cons msg msgs ih =>
    obtain ⟨hmsg, hmsgs⟩ := List.forall_mem_cons.mp hskip
    rw [List.map_cons, run, CycleRun.next, hmsg, Option.bind_some, ih hmsgs]

/-- A frame whose first copy moves the cycle on and whose other copies are ignored then. -/
theorem run_ops {frame : CanFrame} (copies : Copies frame) {c c' : CycleRun} (hfirst : c.receive copies.first = some c')
    (hagain : ∀ msg, msg.frame = some frame → c'.receive msg = some c') : run CycleRun.next c copies.ops = some c' := by
  rw [Copies.ops, run, CycleRun.next, hfirst, Option.bind_some]
  exact run_copies c' copies.again fun msg hmsg => hagain msg (copies.again_frame msg hmsg)

/-- A complete cycle leads from ready to ready, with the two events. -/
theorem run_cycle (cycle : Cycle) (events : List PileEvent) :
    run CycleRun.next ⟨.ready, events⟩ cycle.ops = some ⟨.ready, events ++ [.chargeStartOK, .chargeStopOK]⟩ := by
  have hstart : run CycleRun.next ⟨.asked, events⟩ cycle.startState.ops = some ⟨.charging, events ++ [.chargeStartOK]⟩ :=
    run_ops cycle.startState (if_pos ⟨cycle.startState.first_frame, cycle.started⟩) fun _ hframe => if_pos hframe
  have hack : run CycleRun.next ⟨.stopAsked, events ++ [.chargeStartOK]⟩ cycle.stopAck.ops =
      some ⟨.stopping, events ++ [.chargeStartOK]⟩ :=
    run_ops cycle.stopAck (if_pos cycle.stopAck.first_frame) fun _ hframe => if_pos hframe
  have hstop : run CycleRun.next ⟨.stopping, events ++ [.chargeStartOK]⟩ cycle.stopState.ops =
      some ⟨.ended, events ++ [.chargeStartOK] ++ [.chargeStopOK]⟩ := by
    refine run_ops cycle.stopState ?_ fun _ hframe => if_pos hframe
    have hnot : ¬ cycle.stopState.first.frame = some .chargeStopFrameAck := by
      rw [cycle.stopState.first_frame]
      decide
    exact (if_neg hnot).trans (if_pos ⟨cycle.stopState.first_frame, cycle.stopped⟩)
  simp only [Cycle.ops, run_append, run, CycleRun.next, Option.bind_some, hstart, hack, hstop, List.append_assoc,
    List.cons_append, List.nil_append]

/-- The events of a number of cycles. -/
def cycleEvents (n : Nat) : List PileEvent := (List.replicate n [.chargeStartOK, .chargeStopOK]).flatten

theorem run_cycles (cycles : List Cycle) (events : List PileEvent) :
    run CycleRun.next ⟨.ready, events⟩ (cycles.flatMap Cycle.ops) = some ⟨.ready, events ++ cycleEvents cycles.length⟩ := by
  induction cycles generalizing events with
  | nil => simp [run, cycleEvents]
  | cons cycle cycles ih =>
    rw [List.flatMap_cons, run_append, run_cycle, Option.bind_some, ih]
    simp [cycleEvents, List.replicate_succ]

/-! ## The pile follows it -/

/-- The state of the pile in each phase. -/
def CyclePhase.state : CyclePhase → PileState
  | ready => .standby
  | ordered => .chargStart
  | asked => .waitChargeStartFrameAsk
  | charging => .charging
  | stopOrdered => .toCheck
  | stopAsked => .waitChargeStartFrameAsk
  | stopping => .waitStop
  | ended => .chargEnd

/-- The three flags against copies in each phase. -/
def CyclePhase.flags : CyclePhase → Bool × Bool × Bool
  | ready | ordered | asked => (false, false, false)
  | charging | stopOrdered | stopAsked => (true, false, false)
  | stopping => (true, true, false)
  | ended => (true, true, true)

/-- The three flags of a pile: the state of a start, the answer to a stop and the state of a stop are ignored. -/
def Pile.sessionFlags (s : Pile) : Bool × Bool × Bool :=
  (s.reSendFlag .chargeStartStateFrameAck, s.reSendFlag .chargeStopFrame, s.reSendFlag .chargeStopStateFrameAck)

/-- The pile is where the cycle is. -/
structure CycleRun.Shows (c : CycleRun) (s : Pile) : Prop where
  state : s.chgState = c.phase.state
  flags : s.sessionFlags = c.phase.flags
  events : s.events = c.events

theorem CycleRun.Shows.of_eq {c : CycleRun} {s' : Pile} (h : c.Shows s) (hstate : s'.chgState = s.chgState)
    (hflag : s'.reSendFlag = s.reSendFlag) (hevents : s'.events = s.events) : c.Shows s' := by
  refine ⟨hstate.trans h.state, ?_, hevents.trans h.events⟩
  rw [Pile.sessionFlags, hflag]
  exact h.flags

theorem chargeStart_of_standby (h : s.chgState = .standby) : (chargeStart s).2 = { s with chgState := .chargStart } := by
  rw [chargeStart, if_pos h]

theorem chargeStop_of_charging (h : s.chgState = .charging) : (chargeStop s).2 = { s with chgState := .toCheck } := by
  rw [chargeStop, if_pos h]

/-- The state of a start makes a waiting pile charge and posts the event. -/
theorem CycleRun.Shows.startSucceeds {c : CycleRun} (h : c.Shows s) (hphase : c.phase = .asked) (hmsg : msg.byte 2 = successful) :
    CycleRun.Shows ⟨.charging, c.events ++ [.chargeStartOK]⟩ (recChargeStartStateFrame msg s) := by
  obtain ⟨-, hflags, hevents⟩ := h
  rw [hphase, CyclePhase.flags, Pile.sessionFlags, Prod.mk.injEq, Prod.mk.injEq] at hflags
  rw [recChargeStartStateFrame, onceOnly_of_not_flag hflags.1, ← hevents]
  simp only [hmsg, if_true]
  refine ⟨rfl, ?_, ?_⟩
  · simp [Pile.sessionFlags, Pile.setFlag, Pile.post, CyclePhase.flags, hflags]
  · simp [Pile.setFlag, Pile.post]

theorem CycleRun.Shows.stopAnswered {c : CycleRun} (h : c.Shows s) (hphase : c.phase = .stopAsked) (msg : CanMsg) :
    CycleRun.Shows { c with phase := .stopping } (recChargeStopFrameAck msg s) := by
  obtain ⟨-, hflags, hevents⟩ := h
  rw [hphase, CyclePhase.flags, Pile.sessionFlags, Prod.mk.injEq, Prod.mk.injEq] at hflags
  rw [recChargeStopFrameAck, onceOnly_of_not_flag hflags.2.1]
  refine ⟨rfl, ?_, hevents⟩
  simp [Pile.sessionFlags, Pile.setFlag, Pile.ident, CyclePhase.flags, hflags]

theorem CycleRun.Shows.stopSucceeds {c : CycleRun} (h : c.Shows s) (hphase : c.phase = .stopping) (hmsg : msg.byte 2 = successful) :
    CycleRun.Shows ⟨.ended, c.events ++ [.chargeStopOK]⟩ (recChargeStopStateFrame msg s) := by
  obtain ⟨-, hflags, hevents⟩ := h
  rw [hphase, CyclePhase.flags, Pile.sessionFlags, Prod.mk.injEq, Prod.mk.injEq] at hflags
  rw [recChargeStopStateFrame, onceOnly_of_not_flag hflags.2.2, ← hevents]
  simp only [hmsg, if_true]
  refine ⟨rfl, ?_, ?_⟩
  · simp [Pile.sessionFlags, Pile.setFlag, Pile.post, CyclePhase.flags, hflags]
  · simp [Pile.setFlag, Pile.post]

theorem CycleRun.Shows.receive {c c' : CycleRun} (h : c.Shows s) (hnext : c.receive msg = some c') :
    ∃ s', canV110RecProtocal msg s = some s' ∧ c'.Shows s' := by
  have hflags := h.flags
  unfold CycleRun.receive at hnext
  -- a copy finds its flag set, so the pile stays as it is
  cases hphase : c.phase
  all_goals
    rw [hphase] at hnext hflags
    dsimp only at hnext
  case asked =>
    obtain ⟨⟨hframe, hmsg⟩, hc'⟩ := Option.ite_none_right_eq_some.mp hnext
    cases hc'
    refine ⟨recChargeStartStateFrame msg s, ?_, h.startSucceeds hphase hmsg⟩
    rw [canV110RecProtocal, hframe]
  case charging =>
    obtain ⟨hframe, hc'⟩ := Option.ite_none_right_eq_some.mp hnext
    cases hc'
    refine ⟨s, ?_, h⟩
    rw [canV110RecProtocal, hframe, recChargeStartStateFrame, onceOnly_of_flag (congrArg (·.1) hflags)]
  case stopAsked =>
    obtain ⟨hframe, hc'⟩ := Option.ite_none_right_eq_some.mp hnext
    cases hc'
    refine ⟨recChargeStopFrameAck msg s, ?_, h.stopAnswered hphase msg⟩
    rw [canV110RecProtocal, hframe]
  case stopping =>
    by_cases hack : msg.frame = some .chargeStopFrameAck
    · rw [if_pos hack] at hnext
      cases hnext
      refine ⟨s, ?_, h⟩
      rw [canV110RecProtocal, hack, recChargeStopFrameAck, onceOnly_of_flag (congrArg (·.2.1) hflags)]
    · rw [if_neg hack] at hnext
      obtain ⟨⟨hframe, hmsg⟩, hc'⟩ := Option.ite_none_right_eq_some.mp hnext
      cases hc'
      refine ⟨recChargeStopStateFrame msg s, ?_, h.stopSucceeds hphase hmsg⟩
      rw [canV110RecProtocal, hframe]
  case ended =>
    obtain ⟨hframe, hc'⟩ := Option.ite_none_right_eq_some.mp hnext
    cases hc'
    refine ⟨s, ?_, h⟩
    rw [canV110RecProtocal, hframe, recChargeStopStateFrame, onceOnly_of_flag (congrArg (·.2.2) hflags)]
  all_goals cases hnext

/-- A turn of the task in a phase that waits for one: it gives itself no order there. -/
theorem CycleRun.Shows.turn {c c' : CycleRun} (h : c.Shows s) (hnext : c.next .turn = some c') :
    c'.Shows (chargepileTurn s) := by
  obtain ⟨hstate, hflags, hevents⟩ := h
  unfold CycleRun.next at hnext
  cases hphase : c.phase
  all_goals
    rw [hphase] at hnext hstate hflags
    cases hnext
  all_goals
    have horder : taskOrder s = s := by
      rw [taskOrder, hstate, if_neg (by simp [CyclePhase.state]), if_neg (by simp [CyclePhase.state])]
    rw [chargepileTurn, horder, taskSwitch, hstate]
  case ordered => exact ⟨rfl, hflags, hevents⟩
  case stopOrdered => exact ⟨rfl, hflags, hevents⟩
  case ended => exact ⟨rfl, rfl, hevents⟩

theorem CycleRun.Shows.step {c c' : CycleRun} {t : Session} (h : c.Shows t.pile) {op : PileOp} (hnext : c.next op = some c') :
    ∃ t', t.step op = some t' ∧ c'.Shows t'.pile := by
  cases op with
  | receive msg =>
    obtain ⟨s', hs', hshows⟩ := h.receive hnext
    refine ⟨t.enter s', ?_, hshows⟩
    rw [Session.step, hs', Option.map_some]
  | start =>
    unfold CycleRun.next at hnext
    obtain ⟨hstate, hflags, hevents⟩ := h
    cases hphase : c.phase
    all_goals
      rw [hphase] at hnext hstate hflags
      cases hnext
    refine ⟨_, rfl, ?_⟩
    change CycleRun.Shows _ (chargeStart t.pile).2
    rw [chargeStart_of_standby hstate]
    exact ⟨rfl, hflags, hevents⟩
  | stop =>
    unfold CycleRun.next at hnext
    obtain ⟨hstate, hflags, hevents⟩ := h
    cases hphase : c.phase
    all_goals
      rw [hphase] at hnext hstate hflags
      cases hnext
    refine ⟨_, rfl, ?_⟩
    change CycleRun.Shows _ (chargeStop t.pile).2
    rw [chargeStop_of_charging hstate]
    exact ⟨rfl, hflags, hevents⟩
  | turn => exact ⟨_, rfl, h.turn hnext⟩
  | second =>
    cases hnext
    refine ⟨_, rfl, ?_⟩
    unfold canHeartTxCallback
    split_ifs
    · exact h.of_eq rfl rfl rfl
    · exact h

/-- In standby, with the three flags clear. -/
structure Pile.Ready (s : Pile) : Prop where
  standby : s.chgState = .standby
  flags : s.sessionFlags = (false, false, false)

/-- Only a cycle that is ready is in standby. -/
theorem CycleRun.Shows.flags_of_standby {c : CycleRun} (h : c.Shows s) (hstandby : s.chgState = .standby) :
    s.sessionFlags = (false, false, false) := by
  obtain ⟨hstate, hflags, -⟩ := h
  rw [hstandby] at hstate
  rw [hflags]
  cases hphase : c.phase
  case ready => rfl
  all_goals
    rw [hphase] at hstate
    cases hstate

/-- Complete charge cycles can be repeated: from standby with the three flags clear, any number of cycles, with any copies of the
frames and any time between the steps, post one event for each start and one for each stop, end in standby with the flags clear,
and the flags are clear whenever the pile is in standby. -/
theorem charge_cycles_repeatable (t : Session) (hready : t.pile.Ready) (cycles : List Cycle) (ops : List PileOp)
    (hops : ops.filter (· ≠ .second) = cycles.flatMap Cycle.ops) :
    (∃ t', run Session.step t ops = some t' ∧ t'.pile.Ready ∧ t'.pile.events = t.pile.events ++ cycleEvents cycles.length) ∧
      Keeps Session.step (fun _ t => t.pile.chgState = .standby → t.pile.sessionFlags = (false, false, false)) t ops := by
  have hshows : CycleRun.Shows ⟨.ready, t.pile.events⟩ t.pile := ⟨hready.standby, hready.flags, rfl⟩
  have hskip : ∀ (c : CycleRun) op, decide (op ≠ PileOp.second) = false → c.next op = some c := by
    intro c op hop
    rw [decide_eq_false_iff_not, not_not] at hop
    rw [hop, CycleRun.next]
  have habs : run CycleRun.next ⟨.ready, t.pile.events⟩ ops = some ⟨.ready, t.pile.events ++ cycleEvents cycles.length⟩ := by
    rw [← run_filter hskip, hops, run_cycles]
  obtain ⟨t', ht', hshows', hkeeps⟩ := run_of_simulation Session.step (fun (c : CycleRun) t => c.Shows t.pile)
    (fun c t op c' h hnext => h.step hnext) hshows habs
  refine ⟨⟨t', ht', ⟨hshows'.state, hshows'.flags⟩, hshows'.events⟩, hkeeps.imp ?_⟩
  rintro op t ⟨c, hc⟩
  exact hc.flags_of_standby

/-- A cycle in which every frame comes more than once. -/
def copiedCycle : Cycle where
  startState := ⟨message 0x11 0 1 0, [message 0x11 0 1 0], rfl, by decide⟩
  stopAck := ⟨message 0x04 0 1 0, [message 0x04 0 1 0, message 0x04 0 1 0], rfl, by decide⟩
  stopState := ⟨message 0x13 0 1 0, [message 0x13 0 1 0], rfl, by decide⟩
  started := rfl
  stopped := rfl

/-- Two of them, 5 s into the run, when a turn of the task in standby would start a charge of its own. -/
theorem charge_cycles_repeatable_twice :
    (∃ t', run Session.step ⟨{ initPile with chgState := .standby, runTime := 4 }, []⟩
        (.second :: (copiedCycle.ops ++ .second :: copiedCycle.ops)) = some t' ∧ t'.pile.Ready ∧
      t'.pile.events = [.chargeStartOK, .chargeStopOK, .chargeStartOK, .chargeStopOK]) ∧
    Keeps Session.step (fun _ t => t.pile.chgState = .standby → t.pile.sessionFlags = (false, false, false))
      ⟨{ initPile with chgState := .standby, runTime := 4 }, []⟩ (.second :: (copiedCycle.ops ++ .second :: copiedCycle.ops)) :=
  charge_cycles_repeatable _ ⟨rfl, rfl⟩ [copiedCycle, copiedCycle] _ (by decide)

end EnergyRouter
