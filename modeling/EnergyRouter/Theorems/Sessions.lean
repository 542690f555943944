import EnergyRouter.Lemmas.Pile

/-!
# Charging sessions

When the pile enters and leaves the charging state as the protocol asks.
-/

namespace EnergyRouter

open Runs

variable {dst : PileState} {c : Prop} {s s' : Pile}

/-! ## Moves -/

/-- A change of state, and whether a frame to start stood when it happened. -/
structure Move where
  src : PileState
  dst : PileState
  started : Bool
  deriving DecidableEq, Repr

/-- Charging is entered from the wait for a start only, after a frame to start, and it is left for the stop or the end only. -/
def Move.Proper (m : Move) : Prop :=
  (m.dst = .charging → m.src = .charging ∨ (m.src = .waitChargeStartFrameAsk ∧ m.started = true)) ∧
    (m.src = .charging → m.dst ∈ [.charging, .toCheck, .waitStop, .chargEnd])

theorem proper_self (state : PileState) (started : Bool) : Move.Proper ⟨state, state, started⟩ := by
  refine ⟨fun h => .inl h, ?_⟩
  rintro rfl
  exact List.mem_cons_self

theorem proper_of_ne {src : PileState} (hsrc : src ≠ .charging) (hdst : dst ≠ .charging) (started : Bool) :
    Move.Proper ⟨src, dst, started⟩ :=
  ⟨fun h => absurd h hdst, fun h => absurd h hsrc⟩

theorem proper_stop (src : PileState) (hdst : dst ∈ [.toCheck, .waitStop, .chargEnd]) (started : Bool) :
    Move.Proper ⟨src, dst, started⟩ := by
  refine ⟨?_, fun _ => List.mem_cons_of_mem _ hdst⟩
  rintro rfl
  exact absurd hdst (by decide)

/-- A move elsewhere is proper from elsewhere. -/
theorem proper_iff_of_notMem (src dst : PileState) (hdst : dst ∉ [.charging, .toCheck, .waitStop, .chargEnd])
    (started : Bool) : Move.Proper ⟨src, dst, started⟩ ↔ src ≠ .charging := by
  constructor
  · intro h hsrc
    exact hdst (h.2 hsrc)
  · intro hsrc
    refine proper_of_ne hsrc ?_ started
    rintro rfl
    exact hdst List.mem_cons_self

theorem proper_ite_iff [Decidable c] (src dst : PileState) (started : Bool) :
    Move.Proper ⟨src, if c then dst else src, started⟩ ↔ (c → Move.Proper ⟨src, dst, started⟩) := by
  by_cases hc : c
  · simp only [hc, if_true, true_imp_iff]
  · simp only [hc, if_false, false_imp_iff, iff_true]
    exact proper_self src started

/-! ## The flag against repeated frames -/

/-- While the pile charges, is about to stop, or waits after the frame to stop, the state of a start is ignored. -/
structure StartInv (s : Pile) : Prop where
  charging : s.chgState = .charging → s.startMuted = true
  toCheck : s.chgState = .toCheck → s.startMuted = true
  stopped : s.chgState = .waitChargeStartFrameAsk → s.startSent = false → s.startMuted = true

/-- States in which nothing is asked of the flag. -/
theorem StartInv.of_notMem (h : s.chgState ∉ [.charging, .toCheck, .waitChargeStartFrameAsk]) : StartInv s := by
  refine ⟨?_, ?_, ?_⟩
  all_goals
    intro hstate
    rw [hstate] at h
    exact absurd h (by decide)

theorem StartInv.of_muted (h : s.startMuted = true) : StartInv s := ⟨fun _ => h, fun _ => h, fun _ _ => h⟩

theorem StartInv.quiet (h : StartInv s) (hquiet : Quiet s s') : StartInv s' := by
  have hsent : s'.startSent = s.startSent := by rw [Pile.startSent, Pile.startSent, hquiet.orders]
  refine ⟨?_, ?_, ?_⟩
  · rw [hquiet.state, hquiet.muted]
    exact h.charging
  · rw [hquiet.state, hquiet.muted]
    exact h.toCheck
  · rw [hquiet.state, hquiet.muted, hsent]
    exact h.stopped

/-- A step that moves the pile elsewhere, under a condition, keeps the invariant. -/
theorem StartInv.leaves_ite (h : StartInv s) [Decidable c] (hdst : dst ∉ [.charging, .toCheck, .waitChargeStartFrameAsk])
    (hleaves : Leaves s' (if c then dst else s.chgState) s.startMuted s.orders) : StartInv s' := by
  by_cases hc : c
  · rw [if_pos hc] at hleaves
    exact .of_notMem (hleaves.state ▸ hdst)
  · rw [if_neg hc] at hleaves
    exact h.quiet hleaves

theorem StartInv.receive (h : StartInv s) {msg : CanMsg} (hleaves : Leaves s' (stateAfter msg s) (mutedAfter msg s) s.orders) :
    StartInv s' := by
  unfold stateAfter mutedAfter at hleaves
  cases hframe : msg.frame with
  | none =>
    rw [hframe] at hleaves
    exact h.quiet hleaves
  | some f =>
    rw [hframe] at hleaves
    cases f
    case chargeStopFrameAck =>
      rw [← ite_not] at hleaves
      exact h.leaves_ite (by decide) hleaves
    case vertionCheckFrameAck => exact h.leaves_ite (by decide) hleaves
    case chargeParaInfoFrameAck => exact h.leaves_ite (by decide) hleaves
    case chargeStartStateFrame => exact .of_muted hleaves.muted
    case chargeStopStateFrame => exact h.leaves_ite (by decide) hleaves
    case dataSendFrame => exact h.leaves_ite (by decide) hleaves
    case resetFrame =>
      by_cases hreset : msg.byte 2 = 0xAA
      · simp only [hreset, if_true] at hleaves
        exact .of_notMem (hleaves.state ▸ by decide)
      · simp only [hreset, if_false] at hleaves
        exact h.quiet hleaves
    all_goals exact h.quiet hleaves

theorem StartInv.chargeStart (h : StartInv s) : StartInv (chargeStart s).2 := by
  rcases chargeStart_cases s with ⟨-, hleaves⟩ | hquiet
  · exact .of_notMem (hleaves.state ▸ by decide)
  · exact h.quiet hquiet

theorem StartInv.chargeStop (h : StartInv s) : StartInv (chargeStop s).2 := by
  rcases chargeStop_cases s with ⟨hstate, hleaves⟩ | hquiet
  · exact .of_muted (hleaves.muted.trans (h.charging hstate))
  · exact h.quiet hquiet

theorem StartInv.taskOrder (h : StartInv s) : StartInv (taskOrder s) := by
  rcases taskOrder_cases s with heq | heq | heq
  · rw [heq]
    exact h.chargeStart
  · rw [heq]
    exact h.chargeStop
  · rw [heq]
    exact h

/-- After the frame to start, the wait is for a start; after that to stop, the flag is still set. -/
theorem StartInv.taskSwitch (h : StartInv s) : StartInv (taskSwitch s) := by
  rcases taskSwitch_cases s with ⟨-, hleaves⟩ | ⟨hstate, hleaves⟩ | ⟨-, hleaves⟩ | hquiet
  · have hsent : (EnergyRouter.taskSwitch s).startSent = true := by
      rw [Pile.startSent, hleaves.orders, List.getLast?_concat]
      rfl
    refine ⟨?_, ?_, ?_⟩
    · intro hstate
      rw [hleaves.state] at hstate
      cases hstate
    · intro hstate
      rw [hleaves.state] at hstate
      cases hstate
    · intro _ hnot
      rw [hsent] at hnot
      cases hnot
  · exact .of_muted (hleaves.muted.trans (h.toCheck hstate))
  · exact .of_notMem (hleaves.state ▸ by decide)
  · exact h.quiet hquiet

/-! ## Runs -/

/-- The pile with the moves it has made. -/
structure Session where
  pile : Pile
  moves : List Move

/-- The move to a next state of the pile is noted. -/
def Session.enter (t : Session) (pile : Pile) : Session :=
  ⟨pile, t.moves ++ [⟨t.pile.chgState, pile.chgState, t.pile.startSent⟩]⟩

/-- What happens to the pile: a message is received, a local start or stop is ordered, the task takes a turn, a second passes. -/
inductive PileOp
  | receive (msg : CanMsg)
  | start
  | stop
  | turn
  | second
  deriving DecidableEq, Repr

/-- One of them. A turn of the task makes two moves: the order it gives itself, and its switch. -/
def Session.step (t : Session) : PileOp → Option Session
  | .receive msg => (canV110RecProtocal msg t.pile).map t.enter
  | .start => (chargepileDataGetSet .chargeStart none t.pile).map fun out => t.enter out.2.2
  | .stop => (chargepileDataGetSet .chargeStop none t.pile).map fun out => t.enter out.2.2
  | .turn => some ((t.enter (taskOrder t.pile)).enter (chargepileTurn t.pile))
  | .second => some (t.enter (canHeartTxCallback t.pile))

/-- What is asked: all moves so far were proper. -/
def ProperSoFar (_ : PileOp) (t : Session) : Prop := ∀ m ∈ t.moves, m.Proper

/-- A successful state of a start that is not ignored comes in the wait for a start only; what would put a charging pile in standby
or start it again does not come while it charges; and update data stays in bounds. -/
def MsgAllowed (msg : CanMsg) (s : Pile) : Prop :=
  (msg.frame = some .chargeStartStateFrame →
    s.startMuted = true ∨ msg.byte 2 ≠ successful ∨ s.chgState = .waitChargeStartFrameAsk) ∧
  (msg.frame = some .chargeParaInfoFrameAck →
    s.reSendFlag .chargeParaInfoFrame = true ∨ msg.byte 1 ≠ 0x00 ∨ s.chgState ≠ .charging) ∧
  (msg.frame = some .dataSendFrame → DataInBounds msg s ∧ (¬ GivesUp msg s ∨ s.chgState ≠ .charging)) ∧
  (msg.frame = some .resetFrame → msg.byte 2 ≠ 0xAA ∨ s.chgState ≠ .charging)
deriving Decidable

/-- Messages are allowed as above, everything else always. -/
def OpAllowed (t : Session) : PileOp → Prop
  | .receive msg => MsgAllowed msg t.pile
  | _ => True

instance (t : Session) : ∀ op, Decidable (OpAllowed t op)
  | .receive msg => inferInstanceAs (Decidable (MsgAllowed msg t.pile))
  | .start | .stop | .turn | .second => isTrue trivial

/-- The state of a start moves properly exactly when it is ignored, no success, or comes in the wait for a start. -/
theorem StartInv.proper_start_iff (h : StartInv s) (ok : Prop) :
    (s.startMuted = false ∧ ok → Move.Proper ⟨s.chgState, .charging, s.startSent⟩) ↔
      s.startMuted = true ∨ ¬ ok ∨ s.chgState = .waitChargeStartFrameAsk := by
  constructor
  · intro hproper
    by_contra hnot
    obtain ⟨hmuted, hok, hwait⟩ : s.startMuted = false ∧ ok ∧ s.chgState ≠ .waitChargeStartFrameAsk := by
      simpa only [not_or, Bool.not_eq_true, not_not] using hnot
    rcases (hproper ⟨hmuted, hok⟩).1 rfl with hstate | ⟨hstate, -⟩
    · rw [h.charging hstate] at hmuted
      cases hmuted
    · exact hwait hstate
  · rintro hallowed ⟨hmuted, hok⟩
    rcases hallowed with hmuted' | hnot | hwait
    · rw [hmuted] at hmuted'
      cases hmuted'
    · exact absurd hok hnot
    · -- the flag is clear, so the frame the wait follows was one to start
      have hsent : s.startSent = true := by
        by_contra hnot
        rw [h.stopped hwait (Bool.eq_false_of_not_eq_true hnot)] at hmuted
        cases hmuted
      refine ⟨fun _ => .inr ⟨hwait, hsent⟩, ?_⟩
      intro hstate
      rw [hwait] at hstate
      cases hstate

/-- A move elsewhere under a condition is proper exactly when it is not made or the pile does not charge. -/
theorem proper_elsewhere_iff [Decidable c] (src dst : PileState) (hdst : dst ∉ [.charging, .toCheck, .waitStop, .chargEnd])
    (started : Bool) :
    Move.Proper ⟨src, if c then dst else src, started⟩ ↔ ¬ c ∨ src ≠ .charging := by
  rw [proper_ite_iff, proper_iff_of_notMem src dst hdst, imp_iff_not_or]

/-- A message returns with a proper move exactly when it is allowed. -/
theorem StartInv.msgAllowed_iff (h : StartInv s) (msg : CanMsg) :
    MsgAllowed msg s ↔ (msg.frame = some .dataSendFrame → DataInBounds msg s) ∧
      Move.Proper ⟨s.chgState, stateAfter msg s, s.startSent⟩ := by
  unfold MsgAllowed stateAfter
  cases hframe : msg.frame with
  | none => exact ⟨fun _ => ⟨nofun, proper_self _ _⟩, fun _ => ⟨nofun, nofun, nofun, nofun⟩⟩
  | some f =>
    cases f
    case chargeStartStateFrame =>
      have hiff := h.proper_start_iff (msg.byte 2 = successful)
      rw [← proper_ite_iff] at hiff
      exact ⟨fun hallowed => ⟨nofun, hiff.mpr (hallowed.1 rfl)⟩,
        fun ⟨_, hproper⟩ => ⟨fun _ => hiff.mp hproper, nofun, nofun, nofun⟩⟩
    case chargeParaInfoFrameAck =>
      have hiff := proper_elsewhere_iff (c := s.reSendFlag .chargeParaInfoFrame = false ∧ msg.byte 1 = 0x00) s.chgState .standby
        (by decide) s.startSent
      rw [not_and_or, Bool.not_eq_false, or_assoc] at hiff
      exact ⟨fun hallowed => ⟨nofun, hiff.mpr (hallowed.2.1 rfl)⟩,
        fun ⟨_, hproper⟩ => ⟨nofun, fun _ => hiff.mp hproper, nofun, nofun⟩⟩
    case dataSendFrame =>
      have hiff := proper_elsewhere_iff (c := GivesUp msg s) s.chgState .standby (by decide) s.startSent
      exact ⟨fun hallowed => ⟨fun _ => (hallowed.2.2.1 rfl).1, hiff.mpr (hallowed.2.2.1 rfl).2⟩,
        fun ⟨hin, hproper⟩ => ⟨nofun, nofun, fun _ => ⟨hin rfl, hiff.mp hproper⟩, nofun⟩⟩
    case resetFrame =>
      have hiff := proper_elsewhere_iff (c := msg.byte 2 = 0xAA) s.chgState .waitVertionCheck (by decide) s.startSent
      exact ⟨fun hallowed => ⟨nofun, hiff.mpr (hallowed.2.2.2 rfl)⟩,
        fun ⟨_, hproper⟩ => ⟨nofun, nofun, nofun, fun _ => hiff.mp hproper⟩⟩
    case chargeStopFrameAck =>
      refine ⟨fun _ => ⟨nofun, ?_⟩, fun _ => ⟨nofun, nofun, nofun, nofun⟩⟩
      rw [← ite_not]
      exact (proper_ite_iff ..).mpr fun _ => proper_stop _ (by decide) _
    case vertionCheckFrameAck =>
      refine ⟨fun _ => ⟨nofun, ?_⟩, fun _ => ⟨nofun, nofun, nofun, nofun⟩⟩
      refine (proper_ite_iff ..).mpr fun hcheck => proper_of_ne ?_ (by decide) _
      rw [hcheck.2.1]
      exact nofun
    case chargeStopStateFrame =>
      refine ⟨fun _ => ⟨nofun, ?_⟩, fun _ => ⟨nofun, nofun, nofun, nofun⟩⟩
      exact (proper_ite_iff ..).mpr fun _ => proper_stop _ (by decide) _
    all_goals exact ⟨fun _ => ⟨nofun, proper_self _ _⟩, fun _ => ⟨nofun, nofun, nofun, nofun⟩⟩

theorem chargeStart_proper (s : Pile) : Move.Proper ⟨s.chgState, (chargeStart s).2.chgState, s.startSent⟩ := by
  rcases chargeStart_cases s with ⟨hstate, hleaves⟩ | hquiet
  · rw [hstate, hleaves.state]
    exact proper_of_ne (by decide) (by decide) _
  · rw [hquiet.state]
    exact proper_self _ _

theorem chargeStop_proper (s : Pile) : Move.Proper ⟨s.chgState, (chargeStop s).2.chgState, s.startSent⟩ := by
  rcases chargeStop_cases s with ⟨-, hleaves⟩ | hquiet
  · rw [hleaves.state]
    exact proper_stop _ (by decide) _
  · rw [hquiet.state]
    exact proper_self _ _

theorem taskOrder_proper (s : Pile) : Move.Proper ⟨s.chgState, (taskOrder s).chgState, s.startSent⟩ := by
  rcases taskOrder_cases s with heq | heq | heq
  · rw [heq]
    exact chargeStart_proper s
  · rw [heq]
    exact chargeStop_proper s
  · rw [heq]
    exact proper_self _ _

/-- The switch of the task neither enters nor leaves charging. -/
theorem taskSwitch_proper (s : Pile) : Move.Proper ⟨s.chgState, (taskSwitch s).chgState, s.startSent⟩ := by
  rcases taskSwitch_cases s with ⟨hstate, hleaves⟩ | ⟨hstate, hleaves⟩ | ⟨hstate, hleaves⟩ | hquiet
  · rw [hstate, hleaves.state]
    exact proper_of_ne (by decide) (by decide) _
  · rw [hstate, hleaves.state]
    exact proper_of_ne (by decide) (by decide) _
  · rw [hstate, hleaves.state]
    exact proper_of_ne (by decide) (by decide) _
  · rw [hquiet.state]
    exact proper_self _ _

/-- The moves are all proper after one more exactly when they were and that one is. -/
theorem properSoFar_enter_iff (op : PileOp) (t : Session) (pile : Pile) :
    ProperSoFar op (t.enter pile) ↔
      ProperSoFar op t ∧ Move.Proper ⟨t.pile.chgState, pile.chgState, t.pile.startSent⟩ := by
  rw [ProperSoFar, ProperSoFar, Session.enter, List.forall_mem_append, List.forall_mem_singleton]

/-- The invariant of a run. -/
structure SessionInv (t : Session) : Prop where
  start : StartInv t.pile
  proper : ∀ m ∈ t.moves, m.Proper

theorem SessionInv.step_iff {t : Session} (h : SessionInv t) (op : PileOp) :
    OpAllowed t op ↔ ∃ t', t.step op = some t' ∧ ProperSoFar op t' := by
  have hproper : ProperSoFar op t := h.proper
  cases op with
  | receive msg =>
    refine (h.start.msgAllowed_iff msg).trans (((canV110RecProtocal_outcome msg t.pile).map t.enter).and_iff ?_)
    rintro t' ⟨s', hleaves, rfl⟩
    rw [properSoFar_enter_iff, hleaves.state]
    exact (and_iff_right hproper).symm
  | start =>
    refine ⟨fun _ => ⟨_, rfl, (properSoFar_enter_iff ..).mpr ⟨hproper, chargeStart_proper t.pile⟩⟩, fun _ => trivial⟩
  | stop =>
    refine ⟨fun _ => ⟨_, rfl, (properSoFar_enter_iff ..).mpr ⟨hproper, chargeStop_proper t.pile⟩⟩, fun _ => trivial⟩
  | turn =>
    have horder := (properSoFar_enter_iff .turn t _).mpr ⟨hproper, taskOrder_proper t.pile⟩
    exact ⟨fun _ => ⟨_, rfl, (properSoFar_enter_iff ..).mpr ⟨horder, taskSwitch_proper (taskOrder t.pile)⟩⟩, fun _ => trivial⟩
  | second =>
    refine ⟨fun _ => ⟨_, rfl, (properSoFar_enter_iff ..).mpr ⟨hproper, ?_⟩⟩, fun _ => trivial⟩
    rw [(canHeartTxCallback_calm t.pile).leaves.state]
    exact proper_self _ _

theorem SessionInv.step {t t' : Session} (h : SessionInv t) {op : PileOp} (hstep : t.step op = some t')
    (hgood : ProperSoFar op t') : SessionInv t' := by
  refine ⟨?_, hgood⟩
  cases op with
  | receive msg =>
    obtain ⟨s', hs', rfl⟩ := Option.map_eq_some_iff.mp hstep
    exact h.start.receive ((canV110RecProtocal_outcome msg t.pile).post_of_some hs')
  | start =>
    cases hstep
    exact h.start.chargeStart
  | stop =>
    cases hstep
    exact h.start.chargeStop
  | turn =>
    cases hstep
    exact h.start.taskOrder.taskSwitch
  | second =>
    cases hstep
    exact h.start.quiet (canHeartTxCallback_calm t.pile).leaves

/-- Over every run of the pile from its start: every message returns, charging is entered from the wait for a start only, after a
frame to start, and left for the stop or the end only, exactly when every message of the run is allowed in the state it finds. -/
theorem charging_session_iff (ops : List PileOp) :
    Meets Session.step OpAllowed ⟨initPile, []⟩ ops ↔ Keeps Session.step ProperSoFar ⟨initPile, []⟩ ops := by
  have hinv : SessionInv ⟨initPile, []⟩ := ⟨.of_notMem (by decide), fun _ hmem => absurd hmem List.not_mem_nil⟩
  exact meets_iff_keeps (fun t op h => h.step_iff op) (fun t op t' h hstep hgood => h.step hstep hgood) hinv ops

/-- A message with some of its data. -/
def message (frame : BitVec 29) (d₀ d₁ d₂ : Byte) : CanMsg := ⟨frame <<< 16, #v[d₀, d₁, d₂, 0, 0, 0, 0, 0]⟩

/-- Two sessions of a pile that answers as it is asked. -/
theorem charging_session_twice :
    Keeps Session.step ProperSoFar ⟨initPile, []⟩
      [.turn, .receive (message 0x08 0 0x10 0x01), .turn, .receive (message 0x0A 0 0 0), .second, .start, .turn,
        .receive (message 0x11 0 1 0), .receive (message 0x11 0 1 0), .stop, .turn, .receive (message 0x04 0 1 0),
        .receive (message 0x13 0 1 0), .turn, .start, .turn, .receive (message 0x11 0 1 0), .receive (message 0x13 0 2 0)] :=
  (charging_session_iff _).mp (by decide)

/-- A success of a start nobody ordered makes the pile charge before it has checked its version, and the answer to the parameters
puts it in standby while it charges. -/
theorem charging_unordered :
    ((Session.step ⟨initPile, []⟩ (.receive (message 0x11 0 1 0))).bind fun t => t.step (.receive (message 0x0A 0 0 0))).map
      (fun t => (t.moves, t.pile.sent)) =
        some ([⟨.waitVertionCheck, .charging, false⟩, ⟨.charging, .standby, false⟩], [.chargeStartStateFrameAck]) ∧
    ¬ Keeps Session.step ProperSoFar ⟨initPile, []⟩ [.receive (message 0x11 0 1 0), .receive (message 0x0A 0 0 0)] := by
  have hmoves : (Session.step ⟨initPile, []⟩ (.receive (message 0x11 0 1 0))).map Session.moves =
      some [⟨.waitVertionCheck, .charging, false⟩] := by decide +kernel
  refine ⟨by decide +kernel, ?_⟩
  rintro ⟨t, ht, hproper, -⟩
  rw [ht, Option.map_some, Option.some.injEq] at hmoves
  rw [ProperSoFar, hmoves, List.forall_mem_singleton] at hproper
  rcases hproper.1 rfl with hsrc | ⟨hsrc, -⟩
  · cases hsrc
  · cases hsrc

end EnergyRouter
