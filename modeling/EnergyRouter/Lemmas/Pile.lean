import EnergyRouter.Lib.Runs
import EnergyRouter.PileReceive

/-!
# What the pile's steps do to its state

The steps of the pile seen through three things: its state, the flag that makes it ignore the state of a start, and the frames to
start and to stop it has sent.
-/

namespace EnergyRouter

open Runs

variable {s s₁ s₂ s₃ s' a b : Pile} {state state' : PileState} {c : Prop} {flag : CanFrame} {run : Pile → Pile} {msg : CanMsg}

/-! ## Orders -/

/-- A frame to start or to stop. -/
def CanFrame.isOrder (f : CanFrame) : Bool := f = .chargeStartFrame ∨ f = .chargeStopFrame

/-- The frames to start and to stop sent so far. -/
def Pile.orders (s : Pile) : List CanFrame := s.sent.filter CanFrame.isOrder

/-- A frame to start was sent, and no frame to stop since. -/
def Pile.startSent (s : Pile) : Bool := s.orders.getLast? = some .chargeStartFrame

/-- The state of a start is ignored. -/
def Pile.startMuted (s : Pile) : Bool := s.reSendFlag .chargeStartStateFrameAck

/-- The pile after a step, as far as a session goes: its state, whether the state of a start is ignored, and the orders sent. -/
structure Leaves (s' : Pile) (state : PileState) (muted : Bool) (orders : List CanFrame) : Prop where
  state : s'.chgState = state
  muted : s'.startMuted = muted
  orders : s'.orders = orders

/-- A step that is nothing to the session. -/
def Quiet (s s' : Pile) : Prop := Leaves s' s.chgState s.startMuted s.orders

theorem Quiet.rfl : Quiet s s := ⟨Eq.refl _, Eq.refl _, Eq.refl _⟩

theorem setFlag_quiet {frame : CanFrame} (hframe : frame ≠ .chargeStartStateFrameAck) (flag : Bool) (s : Pile) :
    Quiet s (s.setFlag frame flag) :=
  ⟨rfl, if_neg hframe.symm, rfl⟩

@[simp] theorem informCommunicateCan_chgState (sendCmd : CanFrame) (resend : Bool) (s : Pile) :
    (informCommunicateCan sendCmd resend s).chgState = s.chgState := by
  unfold informCommunicateCan
  split_ifs <;> rfl

@[simp] theorem informCommunicateCan_reSendFlag (sendCmd : CanFrame) (s : Pile) :
    (informCommunicateCan sendCmd false s).reSendFlag = s.reSendFlag := by
  unfold informCommunicateCan
  split_ifs with hsendable hresend
  · exact hresend.1.elim
  · rfl
  · rfl

@[simp] theorem informCommunicateCan_events (sendCmd : CanFrame) (resend : Bool) (s : Pile) :
    (informCommunicateCan sendCmd resend s).events = s.events := by
  unfold informCommunicateCan
  split_ifs <;> rfl

@[simp] theorem informCommunicateCan_programUpdate (sendCmd : CanFrame) (resend : Bool) (s : Pile) :
    (informCommunicateCan sendCmd resend s).programUpdate = s.programUpdate := by
  unfold informCommunicateCan
  split_ifs <;> rfl

@[simp] theorem informCommunicateCan_orders {sendCmd : CanFrame} (horder : sendCmd.isOrder = false) (resend : Bool) (s : Pile) :
    (informCommunicateCan sendCmd resend s).sent.filter CanFrame.isOrder = s.sent.filter CanFrame.isOrder := by
  have hsent : (s.sent ++ [sendCmd]).filter CanFrame.isOrder = s.sent.filter CanFrame.isOrder := by
    rw [List.filter_append, List.filter_singleton, horder]
    exact List.append_nil _
  unfold informCommunicateCan
  split_ifs
  · exact hsent
  · exact hsent
  · rfl

/-- Sending a frame that is no order, nor the answer to the state of a start to be sent again. -/
theorem informCommunicateCan_quiet (sendCmd : CanFrame) (horder : sendCmd.isOrder = false)
    (hframe : sendCmd ≠ .chargeStartStateFrameAck) (resend : Bool) (s : Pile) :
    Quiet s (informCommunicateCan sendCmd resend s) := by
  refine ⟨informCommunicateCan_chgState .., ?_, informCommunicateCan_orders horder ..⟩
  unfold informCommunicateCan
  split_ifs
  · exact (setFlag_quiet hframe true _).muted
  · rfl
  · rfl

theorem onceOnly_of_flag (h : s.reSendFlag flag = true) :
    onceOnly flag run s = s :=
  if_pos h

theorem onceOnly_of_not_flag (h : s.reSendFlag flag = false) :
    onceOnly flag run s = run s := by
  rw [onceOnly, h]
  rfl

/-! ## Confirmations and timers -/

/-- The state of a stop is ignored. -/
def Pile.stopMuted (s : Pile) : Bool := s.reSendFlag .chargeStopStateFrameAck

/-- A step that posts nothing and leaves the flag of the state of a stop alone. -/
structure Silent (s s' : Pile) : Prop where
  events : s'.events = s.events
  stopMuted : s'.stopMuted = s.stopMuted

theorem Silent.rfl : Silent s s := ⟨Eq.refl _, Eq.refl _⟩

theorem Silent.trans (h : Silent s₁ s₂) (h' : Silent s₂ s₃) : Silent s₁ s₃ :=
  ⟨h'.events.trans h.events, h'.stopMuted.trans h.stopMuted⟩

theorem Silent.of_eq (hevents : s'.events = s.events) (hflag : s'.reSendFlag = s.reSendFlag) : Silent s s' :=
  ⟨hevents, by rw [Pile.stopMuted, Pile.stopMuted, hflag]⟩

theorem setFlag_silent {frame : CanFrame} (hframe : frame ≠ .chargeStopStateFrameAck) (flag : Bool) (s : Pile) :
    Silent s (s.setFlag frame flag) :=
  ⟨rfl, if_neg hframe.symm⟩

theorem informCommunicateCan_silent (sendCmd : CanFrame) (hframe : sendCmd ≠ .chargeStopStateFrameAck) (resend : Bool) (s : Pile) :
    Silent s (informCommunicateCan sendCmd resend s) := by
  refine ⟨informCommunicateCan_events .., ?_⟩
  unfold informCommunicateCan
  split_ifs
  · exact (setFlag_silent hframe true _).stopMuted
  · rfl
  · rfl

/-- The timers run, and nothing marks an update as begun. -/
structure Ticking (s : Pile) : Prop where
  heart : s.heartTx = true
  tx : s.tx250ms = true
  mark : s.programUpdate.appMark = 0
  fresh : s.reSendFlag .updateBeginFrameAck = false

theorem Ticking.of_eq (h : Ticking s) (hheart : s'.heartTx = s.heartTx) (htx : s'.tx250ms = s.tx250ms)
    (hmark : s'.programUpdate.appMark = s.programUpdate.appMark) (hflag : s'.reSendFlag = s.reSendFlag) : Ticking s' := by
  refine ⟨hheart.trans h.heart, htx.trans h.tx, hmark.trans h.mark, ?_⟩
  rw [hflag]
  exact h.fresh

theorem Ticking.ite [Decidable c] (ha : Ticking a) (hb : Ticking b) : Ticking (if c then a else b) := by
  split_ifs
  · exact ha
  · exact hb

theorem setFlag_ticking {frame : CanFrame} (hframe : frame ≠ .updateBeginFrameAck) (flag : Bool) (h : Ticking s) :
    Ticking (s.setFlag frame flag) :=
  ⟨h.heart, h.tx, h.mark, (if_neg hframe.symm).trans h.fresh⟩

theorem informCommunicateCan_ticking (sendCmd : CanFrame) (hframe : sendCmd ≠ .updateBeginFrameAck) (resend : Bool)
    (h : Ticking s) : Ticking (informCommunicateCan sendCmd resend s) := by
  have hsent : Ticking { s with sent := s.sent ++ [sendCmd] } := h.of_eq rfl rfl rfl rfl
  unfold informCommunicateCan
  exact .ite (.ite (setFlag_ticking hframe true hsent) hsent) h

/-! ## Steps that change little -/

/-- A step that leaves the pile in `state` and is otherwise nothing to the session, to the confirmations and to the timers. -/
structure Calm (state : PileState) (s s' : Pile) : Prop where
  leaves : Leaves s' state s.startMuted s.orders
  silent : Silent s s'
  ticking : Ticking s → Ticking s'

theorem Calm.rfl : Calm s.chgState s s := ⟨Quiet.rfl, Silent.rfl, id⟩

theorem Calm.trans (h : Calm state s₁ s₂) (h' : Calm state' s₂ s₃) : Calm state' s₁ s₃ :=
  ⟨⟨h'.leaves.state, h'.leaves.muted.trans h.leaves.muted, h'.leaves.orders.trans h.leaves.orders⟩, h.silent.trans h'.silent,
    fun hticking => h'.ticking (h.ticking hticking)⟩

theorem Calm.ite [Decidable c] (ha : Calm state s a) (hb : Calm state s b) : Calm state s (if c then a else b) := by
  split_ifs
  · exact ha
  · exact hb

/-- The flags, what was sent and posted, the timers and the mark of an update. -/
def Pile.watched (s : Pile) : (CanFrame → Bool) × List CanFrame × List PileEvent × Bool × Bool × BitVec 32 :=
  (s.reSendFlag, s.sent, s.events, s.heartTx, s.tx250ms, s.programUpdate.appMark)

theorem Calm.of_eq (hstate : s'.chgState = state) (hsame : s'.watched = s.watched) : Calm state s s' := by
  simp only [Pile.watched, Prod.mk.injEq] at hsame
  obtain ⟨hflag, hsent, hevents, hheart, htx, hmark⟩ := hsame
  refine ⟨⟨hstate, ?_, ?_⟩, .of_eq hevents hflag, fun h => h.of_eq hheart htx hmark hflag⟩
  · rw [Pile.startMuted, Pile.startMuted, hflag]
  · rw [Pile.orders, Pile.orders, hsent]

/-- The flags the session, the confirmations and the timers look at. -/
def watchedFlags : List CanFrame := [.chargeStartStateFrameAck, .chargeStopStateFrameAck, .updateBeginFrameAck]

theorem ne_of_notMem_watchedFlags {frame : CanFrame} (h : frame ∉ watchedFlags) :
    frame ≠ .chargeStartStateFrameAck ∧ frame ≠ .chargeStopStateFrameAck ∧ frame ≠ .updateBeginFrameAck := by
  simpa [watchedFlags] using h

theorem Calm.setFlag (h : Calm state s s') (frame : CanFrame) (hframe : frame ∉ watchedFlags) (flag : Bool) :
    Calm state s (s'.setFlag frame flag) := by
  obtain ⟨hstart, hstop, hbegin⟩ := ne_of_notMem_watchedFlags hframe
  rw [← h.leaves.state]
  exact h.trans ⟨setFlag_quiet hstart flag s', setFlag_silent hstop flag s', setFlag_ticking hbegin flag⟩

theorem Calm.inform (h : Calm state s s') (sendCmd : CanFrame) (horder : sendCmd.isOrder = false) (hframe : sendCmd ∉ watchedFlags)
    (resend : Bool) : Calm state s (informCommunicateCan sendCmd resend s') := by
  obtain ⟨hstart, hstop, hbegin⟩ := ne_of_notMem_watchedFlags hframe
  rw [← h.leaves.state]
  exact h.trans ⟨informCommunicateCan_quiet sendCmd horder hstart resend s', informCommunicateCan_silent sendCmd hstop resend s',
    informCommunicateCan_ticking sendCmd hbegin resend⟩

theorem onceOnly_calm (h : Calm s.chgState s (run s)) : Calm s.chgState s (onceOnly flag run s) := .ite .rfl h

/-! ## Update data -/

/-- The accesses a data frame makes lie inside of `STMFLASH_BUFF` and of the frame's seven bytes. -/
def DataInBounds (msg : CanMsg) (s : Pile) : Prop :=
  if msg.byte 0 = 1 then s.flashLenth.toNat + 2 ≤ flashBufLen
  else if msg.byte 0 = s.programUpdate.updateMessageNo then
    if s.chgUpdate.frameNum = s.programUpdate.updateMessageNo then
      lastDataLen s ≤ 7 ∧ s.flashLenth.toNat + lastDataLen s ≤ flashBufLen ∧ (packageLen s).toNat + 1 < flashBufLen
    else s.flashLenth.toNat + 7 ≤ flashBufLen
  else True
deriving Decidable

/-- The last frame of a package comes with a check that is not the sum of the package. -/
def CheckFails (msg : CanMsg) (s : Pile) : Prop :=
  let package := sumPackage (Buffer.copyAt s.flashBuff s.flashLenth.toNat ((msg.data.toList.drop 1).take (lastDataLen s))) s
  package.chgUpdate.additionUp ≠ package.chgUpdate.revCheckUp
deriving Decidable

/-- The frame is the last of a package, its check fails, and it fails the third time. -/
def GivesUp (msg : CanMsg) (s : Pile) : Prop :=
  msg.byte 0 ≠ 1 ∧ msg.byte 0 = s.programUpdate.updateMessageNo ∧ s.chgUpdate.frameNum = s.programUpdate.updateMessageNo ∧
    CheckFails msg s ∧ s.chgUpdate.errResendCount + 1 ≥ 3
deriving Decidable

/-- After the third failed check the pile is in standby, before that where it was; giving up starts the timers. -/
theorem dataError_calm (s : Pile) :
    Calm (if s.chgUpdate.errResendCount + 1 ≥ 3 then .standby else s.chgState) s (dataError s) := by
  unfold dataError
  by_cases hthird : s.chgUpdate.errResendCount + 1 ≥ 3
  · simp only [if_pos hthird]
    exact ⟨⟨rfl, by simp [Pile.startMuted], by simp [Pile.orders, CanFrame.isOrder]⟩, ⟨by simp, by simp [Pile.stopMuted]⟩,
      fun h => ⟨rfl, rfl, by simp, by simpa using h.fresh⟩⟩
  · simp only [if_neg hthird]
    exact (Calm.inform (.of_eq rfl rfl) .dataSendFrameAck rfl (by decide) false).trans (.of_eq (informCommunicateCan_chgState ..) rfl)

theorem recFirstData_outcome (msg : CanMsg) (s : Pile) :
    Outcome (recFirstData msg s) (s.flashLenth.toNat + 2 ≤ flashBufLen) (Calm s.chgState s) := by
  unfold recFirstData writeFlash
  constructor
  · intro hroom
    simp only [List.length_cons, List.length_nil, if_pos hroom, Option.bind_eq_bind, Option.bind_some]
    exact ⟨_, rfl, .of_eq rfl rfl⟩
  · intro hroom
    simp only [List.length_cons, List.length_nil, if_neg hroom, Option.bind_eq_bind, Option.bind_none]

theorem recNextData_outcome (msg : CanMsg) (s : Pile) :
    Outcome (recNextData msg s) (s.flashLenth.toNat + 7 ≤ flashBufLen) (Calm s.chgState s) := by
  have hlength : (msg.data.toList.drop 1).length = 7 := by simp
  unfold recNextData writeFlash
  rw [hlength]
  constructor
  · intro hroom
    rw [if_pos hroom]
    exact ⟨_, rfl, .of_eq rfl rfl⟩
  · intro hroom
    rw [if_neg hroom]
    rfl

/-- The last frame of a package: where it leaves the pile depends on the check. -/
theorem recLastData_outcome (msg : CanMsg) (s : Pile) :
    Outcome (recLastData msg s)
      (lastDataLen s ≤ 7 ∧ s.flashLenth.toNat + lastDataLen s ≤ flashBufLen ∧ (packageLen s).toNat + 1 < flashBufLen)
      (Calm (if CheckFails msg s ∧ s.chgUpdate.errResendCount + 1 ≥ 3 then .standby else s.chgState) s) := by
  have hlength : lastDataLen s ≤ 7 → ((msg.data.toList.drop 1).take (lastDataLen s)).length = lastDataLen s := by
    intro hlast
    simp [hlast]
  unfold recLastData
  constructor
  · rintro ⟨hlast, hroom, hpackage⟩
    rw [if_pos hlast, writeFlash, hlength hlast, if_pos hroom, Option.bind_eq_bind, Option.bind_some, if_pos hpackage]
    refine ⟨_, rfl, ?_⟩
    by_cases hcheck : CheckFails msg s
    · rw [if_neg hcheck]
      simp only [hcheck, true_and]
      have hsum : ∀ v, Calm s.chgState s (sumPackage v s) := fun _ => .of_eq rfl rfl
      exact (hsum _).trans (dataError_calm (sumPackage _ s))
    · rw [if_pos (not_not.mp hcheck), if_neg (fun h => hcheck h.1)]
      exact .of_eq rfl rfl
  · intro hout
    by_cases hlast : lastDataLen s ≤ 7
    · rw [if_pos hlast, writeFlash, hlength hlast]
      by_cases hroom : s.flashLenth.toNat + lastDataLen s ≤ flashBufLen
      · rw [if_pos hroom, Option.bind_eq_bind, Option.bind_some, if_neg fun hpackage => hout ⟨hlast, hroom, hpackage⟩]
      · rw [if_neg hroom]
        rfl
    · rw [if_neg hlast]

/-- What a last frame leaves: the package with its sums, which is given back when the check fails. -/
theorem recLastData_eq_some (h : recLastData msg s = some s') :
    ∃ flashBuff, writeFlash s ((msg.data.toList.drop 1).take (lastDataLen s)) = some flashBuff ∧
      s' = if (sumPackage flashBuff s).chgUpdate.additionUp = (sumPackage flashBuff s).chgUpdate.revCheckUp then
        sumPackage flashBuff s else dataError (sumPackage flashBuff s) := by
  unfold recLastData at h
  split_ifs at h
  · obtain ⟨flashBuff, hwrite, h⟩ := Option.bind_eq_some_iff.mp h
    exact ⟨flashBuff, hwrite, (Option.some.inj h).symm⟩
  · obtain ⟨flashBuff, -, h⟩ := Option.bind_eq_some_iff.mp h
    cases h

theorem recDataSendFrame_outcome (msg : CanMsg) (s : Pile) :
    Outcome (recDataSendFrame msg s) (DataInBounds msg s) (Calm (if GivesUp msg s then .standby else s.chgState) s) := by
  have hmessage : Calm s.chgState s (s.message (msg.byte 0)) := .of_eq rfl rfl
  unfold recDataSendFrame DataInBounds
  by_cases hfirst : msg.byte 0 = 1
  · rw [if_pos hfirst, if_pos hfirst, if_neg (fun h => h.1 hfirst)]
    exact (recFirstData_outcome msg (s.message _)).imp fun _ h => hmessage.trans h
  rw [if_neg hfirst, if_neg hfirst]
  by_cases hnum : msg.byte 0 = s.programUpdate.updateMessageNo
  · rw [if_pos hnum, if_pos hnum]
    by_cases hframe : s.chgUpdate.frameNum = s.programUpdate.updateMessageNo
    · rw [if_pos hframe, if_pos hframe]
      have hgivesUp : GivesUp msg s ↔ CheckFails msg s ∧ s.chgUpdate.errResendCount + 1 ≥ 3 :=
        ⟨fun h => h.2.2.2, fun h => ⟨hfirst, hnum, hframe, h⟩⟩
      simp only [hgivesUp]
      exact (recLastData_outcome msg (s.message _)).imp fun _ h => hmessage.trans h
    · rw [if_neg hframe, if_neg hframe, if_neg (fun h => hframe h.2.2.1)]
      exact (recNextData_outcome msg (s.message _)).imp fun _ h => hmessage.trans h
  · rw [if_neg hnum, if_neg hnum, if_neg (fun h => hnum h.2.1)]
    exact .of_some trivial hmessage

/-! ## The receiver -/

theorem recChargeStopFrameAck_calm (msg : CanMsg) (s : Pile) :
    Calm (if s.reSendFlag .chargeStopFrame then s.chgState else .waitStop) s (recChargeStopFrameAck msg s) := by
  unfold recChargeStopFrameAck onceOnly
  split_ifs
  · exact .rfl
  · exact (Calm.rfl.setFlag .chargeStopFrame (by decide) true).trans (.of_eq rfl rfl)

theorem recVertionCheckFrameAck_calm (msg : CanMsg) (s : Pile) :
    Calm (if s.reSendFlag .vertionCheckFrame = false ∧ s.chgState = .waitVertionCheck ∧ proVersion = msg.byte 2 ++ msg.byte 1
      then .waitPilePara else s.chgState) s (recVertionCheckFrameAck msg s) := by
  unfold recVertionCheckFrameAck onceOnly
  cases hflag : s.reSendFlag .vertionCheckFrame with
  | true => exact .rfl
  | false =>
    have hstate : (s.ident (msg.byte 0)).chgState = s.chgState := rfl
    by_cases hcheck : s.chgState = .waitVertionCheck ∧ proVersion = msg.byte 2 ++ msg.byte 1
    · simp only [hstate, Bool.false_eq_true, if_false, if_pos hcheck, true_and]
      refine Calm.setFlag ?_ .vertionCheckFrame (by decide) true
      exact .of_eq rfl rfl
    · simp only [hstate, Bool.false_eq_true, if_false, if_neg hcheck, true_and]
      exact .of_eq rfl rfl

theorem recChargeParaInfoFrameAck_calm (msg : CanMsg) (s : Pile) :
    Calm (if s.reSendFlag .chargeParaInfoFrame = false ∧ msg.byte 1 = 0x00 then .standby else s.chgState) s
      (recChargeParaInfoFrameAck msg s) := by
  unfold recChargeParaInfoFrameAck onceOnly
  cases hflag : s.reSendFlag .chargeParaInfoFrame with
  | true => exact .rfl
  | false =>
    by_cases hok : msg.byte 1 = 0x00
    · simp only [hok, Bool.false_eq_true, if_false, if_true, and_self]
      refine Calm.setFlag (.setFlag ?_ .vertionCheckFrameAck (by decide) false) .ycSendDataFrame (by decide) true
      exact .of_eq rfl rfl
    · simp only [hok, if_false, and_false]
      exact .of_eq rfl rfl

theorem recChargeStartStateFrame_leaves (msg : CanMsg) (s : Pile) :
    Leaves (recChargeStartStateFrame msg s)
      (if s.startMuted = false ∧ msg.byte 2 = successful then .charging else s.chgState) true s.orders := by
  unfold recChargeStartStateFrame onceOnly
  change Leaves (if s.startMuted then s else _) _ _ _
  cases hmuted : s.startMuted with
  | true => exact ⟨rfl, hmuted, rfl⟩
  | false =>
    by_cases hok : msg.byte 2 = successful
    · simp only [hok, if_true, and_self]
      exact ⟨rfl, rfl, informCommunicateCan_orders rfl false _⟩
    · simp only [hok, if_false, and_false]
      exact ⟨rfl, rfl, rfl⟩

theorem recChargeStopStateFrame_leaves (msg : CanMsg) (s : Pile) :
    Leaves (recChargeStopStateFrame msg s)
      (if s.reSendFlag .chargeStopStateFrameAck = false ∧ msg.byte 2 = successful then .chargEnd else s.chgState) s.startMuted
      s.orders := by
  unfold recChargeStopStateFrame onceOnly
  cases hflag : s.reSendFlag .chargeStopStateFrameAck with
  | true => exact Quiet.rfl
  | false =>
    by_cases hok : msg.byte 2 = successful
    · simp only [hok, if_true, and_self]
      exact ⟨rfl, rfl, informCommunicateCan_orders rfl false _⟩
    · simp only [hok, if_false, and_false]
      exact ⟨rfl, rfl, rfl⟩

theorem recResetFrame_leaves (msg : CanMsg) (s : Pile) :
    Leaves (recResetFrame msg s) (if msg.byte 2 = 0xAA then .waitVertionCheck else s.chgState)
      (if msg.byte 2 = 0xAA then false else s.startMuted) s.orders := by
  unfold recResetFrame
  by_cases hreset : msg.byte 2 = 0xAA
  · simp only [hreset, if_true]
    exact ⟨rfl, rfl, informCommunicateCan_orders rfl false _⟩
  · simp only [hreset, if_false]
    exact ⟨rfl, rfl, rfl⟩

/-- The state of the pile after a message. -/
def stateAfter (msg : CanMsg) (s : Pile) : PileState :=
  match msg.frame with
  | some .chargeStopFrameAck => if s.reSendFlag .chargeStopFrame then s.chgState else .waitStop
  | some .vertionCheckFrameAck =>
    if s.reSendFlag .vertionCheckFrame = false ∧ s.chgState = .waitVertionCheck ∧ proVersion = msg.byte 2 ++ msg.byte 1
    then .waitPilePara else s.chgState
  | some .chargeParaInfoFrameAck =>
    if s.reSendFlag .chargeParaInfoFrame = false ∧ msg.byte 1 = 0x00 then .standby else s.chgState
  | some .chargeStartStateFrame => if s.startMuted = false ∧ msg.byte 2 = successful then .charging else s.chgState
  | some .chargeStopStateFrame =>
    if s.reSendFlag .chargeStopStateFrameAck = false ∧ msg.byte 2 = successful then .chargEnd else s.chgState
  | some .dataSendFrame => if GivesUp msg s then .standby else s.chgState
  | some .resetFrame => if msg.byte 2 = 0xAA then .waitVertionCheck else s.chgState
  | _ => s.chgState

/-- Whether the state of a start is ignored after a message. -/
def mutedAfter (msg : CanMsg) (s : Pile) : Bool :=
  match msg.frame with
  | some .chargeStartStateFrame => true
  | some .resetFrame => if msg.byte 2 = 0xAA then false else s.startMuted
  | _ => s.startMuted

/-- The message starts the system again. -/
def CanMsg.Restarts (msg : CanMsg) : Prop := msg.frame = some .resetFrame ∧ msg.byte 2 = 0xAA
deriving Decidable

/-- What a message does: where it leaves the session; that only the states of a start and of a stop post events; and that only a
command to update in standby stops the timers. -/
@[mk_iff]
structure Handled (msg : CanMsg) (s s' : Pile) : Prop where
  leaves : Leaves s' (stateAfter msg s) (mutedAfter msg s) s.orders
  silent : msg.frame ≠ some .chargeStartStateFrame → msg.frame ≠ some .chargeStopStateFrame → ¬ msg.Restarts → Silent s s'
  ticking : ¬ (msg.frame = some .updateBeginFrame ∧ s.chgState = .standby) → Ticking s → Ticking s'

/-- The state of a start or of a stop leaves the timers running. -/
theorem stateFrame_ticking (frame : CanFrame) (hframe : frame ≠ .updateBeginFrameAck) {event : PileEvent} [Decidable c] {c' : Prop}
    [Decidable c'] (hsame : s₁.watched = s.watched) (h : Ticking s) :
    Ticking (if c then s else
      (if c' then { informCommunicateCan frame false s₁ with chgState := state }.post event else s₁).setFlag frame true) := by
  have h₁ : Ticking s₁ := (Calm.of_eq rfl hsame).ticking h
  refine .ite h (setFlag_ticking hframe true (.ite ?_ h₁))
  exact (informCommunicateCan_ticking frame hframe false h₁).of_eq rfl rfl rfl rfl

/-- A message returns unless it makes accesses out of bounds, and it never sends an order. -/
theorem canV110RecProtocal_handled (msg : CanMsg) (s : Pile) :
    Outcome (canV110RecProtocal msg s) (msg.frame = some .dataSendFrame → DataInBounds msg s) (Handled msg s) := by
  have hcalm {state : PileState} {s' : Pile} {p q r t : Prop} (h : Calm state s s') :
      Leaves s' state s.startMuted s.orders ∧ (p → q → r → Silent s s') ∧ (t → Ticking s → Ticking s') :=
    ⟨h.leaves, fun _ _ _ => h.silent, fun _ => h.ticking⟩
  refine Outcome.imp ?_ fun s' => (handled_iff msg s s').mpr
  unfold canV110RecProtocal stateAfter mutedAfter CanMsg.Restarts
  cases hframe : msg.frame with
  | none => exact .of_some nofun (hcalm .rfl)
  | some f =>
    cases f
    case dataSendFrame =>
      have hdata := recDataSendFrame_outcome msg s
      refine ⟨fun hin => ?_, fun hout => hdata.stuck fun hin => hout fun _ => hin⟩
      obtain ⟨s', hcall, h⟩ := hdata.returned (hin rfl)
      exact ⟨s', hcall, hcalm h⟩
    case chargeStartStateFrame =>
      refine .of_some nofun ⟨recChargeStartStateFrame_leaves msg s, fun h => absurd rfl h, fun _ h => ?_⟩
      exact stateFrame_ticking .chargeStartStateFrameAck (by decide) rfl h
    case chargeStopStateFrame =>
      refine .of_some nofun ⟨recChargeStopStateFrame_leaves msg s, fun _ h => absurd rfl h, fun _ h => ?_⟩
      exact stateFrame_ticking .chargeStopStateFrameAck (by decide) rfl h
    case resetFrame =>
      refine .of_some nofun ⟨recResetFrame_leaves msg s, fun _ _ hnot => ?_, fun _ h => .ite ⟨rfl, rfl, rfl, rfl⟩ ?_⟩
      · rw [recResetFrame, if_neg fun hreset => hnot ⟨rfl, hreset⟩]
        exact .of_eq rfl rfl
      · exact h.of_eq rfl rfl rfl rfl
    case updateBeginFrame =>
      simp only [recUpdateBeginFrame, onceOnly]
      refine .of_some nofun ⟨?_, fun _ _ _ => ?_, fun hnot h => .ite h ?_⟩
      · split_ifs <;> exact ⟨rfl, rfl, rfl⟩
      · split_ifs <;> exact ⟨rfl, rfl⟩
      · rw [if_neg fun hbegin : _ ∧ _ => hnot ⟨trivial, hbegin.1⟩]
        exact h
    case chargeStopFrameAck => exact .of_some nofun (hcalm (recChargeStopFrameAck_calm msg s))
    case vertionCheckFrameAck => exact .of_some nofun (hcalm (recVertionCheckFrameAck_calm msg s))
    case chargeParaInfoFrameAck => exact .of_some nofun (hcalm (recChargeParaInfoFrameAck_calm msg s))
    case timingFrame =>
      refine .of_some nofun (hcalm (onceOnly_calm (Calm.inform ?_ .timingFrameAck rfl (by decide) true)))
      exact .of_eq rfl rfl
    case chargeServeOnOffFrame =>
      exact .of_some nofun (hcalm (onceOnly_calm (Calm.rfl.inform .chargeServeOnOffFrameAck rfl (by decide) true)))
    case elecLockFrame =>
      refine .of_some nofun (hcalm (onceOnly_calm (Calm.inform ?_ .elecLockFrameAck rfl (by decide) true)))
      exact .ite (.of_eq rfl rfl) (.of_eq rfl rfl)
    case powerAdjustFrame =>
      refine .of_some nofun (hcalm (onceOnly_calm (Calm.inform ?_ .powerAdjustFrameAck rfl (by decide) false)))
      exact .of_eq rfl rfl
    case ycRecDataFrame =>
      refine .of_some nofun (hcalm (.ite (.of_eq rfl rfl) ?_))
      exact .ite (.of_eq rfl rfl) (.ite (.of_eq rfl rfl) (.ite (.of_eq rfl rfl) (.of_eq rfl rfl)))
    case pileParaInfoFrame =>
      exact .of_some nofun (hcalm (onceOnly_calm (Calm.rfl.inform .pileParaInfoFrameAck rfl (by decide) false)))
    case dataSendReqFrame => exact .of_some nofun (hcalm (.ite (.of_eq rfl rfl) .rfl))
    case updateCheckFrame =>
      refine .of_some nofun (hcalm (Calm.inform ?_ .updateCheckFrameAck rfl (by decide) false))
      exact .ite (.of_eq rfl rfl) (.of_eq rfl rfl)
    -- what is left has no case or sets data only
    all_goals exact .of_some nofun (hcalm (.of_eq rfl rfl))

theorem canV110RecProtocal_outcome (msg : CanMsg) (s : Pile) :
    Outcome (canV110RecProtocal msg s) (msg.frame = some .dataSendFrame → DataInBounds msg s)
      fun s' => Leaves s' (stateAfter msg s) (mutedAfter msg s) s.orders :=
  (canV110RecProtocal_handled msg s).imp fun _ h => h.leaves

theorem recChargeStartStateFrame_posts (msg : CanMsg) (s : Pile) :
    (recChargeStartStateFrame msg s).events =
        s.events ++ (if s.startMuted = false ∧ msg.byte 2 = successful then [.chargeStartOK] else []) ∧
      (recChargeStartStateFrame msg s).stopMuted = s.stopMuted := by
  unfold recChargeStartStateFrame
  cases hmuted : s.startMuted with
  | true =>
    rw [onceOnly_of_flag hmuted, if_neg (fun h => nomatch h.1), List.append_nil]
    exact ⟨rfl, rfl⟩
  | false =>
    rw [onceOnly_of_not_flag hmuted]
    by_cases hok : msg.byte 2 = successful
    · simp only [hok, if_true, and_self]
      exact ⟨by simp [Pile.post, Pile.setFlag], by simp [Pile.stopMuted, Pile.post, Pile.setFlag]⟩
    · simp only [hok, if_false, and_false, List.append_nil]
      exact ⟨rfl, rfl⟩

/-- The state of a stop posts its event when it is a success and is not ignored; the next one is ignored. -/
theorem recChargeStopStateFrame_posts (msg : CanMsg) (s : Pile) :
    (recChargeStopStateFrame msg s).events =
        s.events ++ (if s.stopMuted = false ∧ msg.byte 2 = successful then [.chargeStopOK] else []) ∧
      (recChargeStopStateFrame msg s).stopMuted = true := by
  unfold recChargeStopStateFrame
  cases hmuted : s.stopMuted with
  | true =>
    rw [onceOnly_of_flag hmuted, if_neg (fun h => nomatch h.1), List.append_nil]
    exact ⟨rfl, hmuted⟩
  | false =>
    rw [onceOnly_of_not_flag hmuted]
    by_cases hok : msg.byte 2 = successful
    · simp only [hok, if_true, and_self]
      exact ⟨by simp [Pile.post, Pile.setFlag], by simp [Pile.stopMuted, Pile.setFlag]⟩
    · simp only [hok, if_false, and_false, List.append_nil]
      exact ⟨rfl, by simp [Pile.stopMuted, Pile.setFlag]⟩

/-! ## The task and the local commands -/

theorem chargeStart_cases (s : Pile) :
    (s.chgState = .standby ∧ Leaves (chargeStart s).2 .chargStart s.startMuted s.orders) ∨ Quiet s (chargeStart s).2 := by
  unfold chargeStart
  split_ifs with hstate
  · exact .inl ⟨hstate, rfl, rfl, rfl⟩
  · exact .inr Quiet.rfl

theorem chargeStop_cases (s : Pile) :
    (s.chgState = .charging ∧ Leaves (chargeStop s).2 .toCheck s.startMuted s.orders) ∨ Quiet s (chargeStop s).2 := by
  unfold chargeStop
  split_ifs with hstate
  · exact .inl ⟨hstate, rfl, rfl, rfl⟩
  · exact .inr Quiet.rfl

theorem taskOrder_cases (s : Pile) : taskOrder s = (chargeStart s).2 ∨ taskOrder s = (chargeStop s).2 ∨ taskOrder s = s := by
  unfold taskOrder
  split_ifs
  · exact .inl rfl
  · exact .inr (.inl rfl)
  · exact .inr (.inr rfl)

/-- The switch of the task sends the frame to start or to stop, ends the charge, or leaves the session alone. -/
theorem taskSwitch_cases (s : Pile) :
    (s.chgState = .chargStart ∧
      Leaves (taskSwitch s) .waitChargeStartFrameAsk s.startMuted (s.orders ++ [.chargeStartFrame])) ∨
    (s.chgState = .toCheck ∧
      Leaves (taskSwitch s) .waitChargeStartFrameAsk s.startMuted (s.orders ++ [.chargeStopFrame])) ∨
    (s.chgState = .chargEnd ∧ Leaves (taskSwitch s) .standby false s.orders) ∨ Quiet s (taskSwitch s) := by
  unfold taskSwitch
  split
  next => exact .inr (.inr (.inr (informCommunicateCan_quiet .vertionCheckFrame rfl nofun false s)))
  next => exact .inr (.inr (.inr (informCommunicateCan_quiet .chargeParaInfoFrame rfl nofun false s)))
  next hstate => exact .inl ⟨hstate, rfl, rfl, List.filter_append ..⟩
  next hstate => exact .inr (.inl ⟨hstate, rfl, rfl, List.filter_append ..⟩)
  next hstate => exact .inr (.inr (.inl ⟨hstate, rfl, rfl, rfl⟩))
  next => exact .inr (.inr (.inr Quiet.rfl))

theorem canHeartTxCallback_calm (s : Pile) : Calm s.chgState s (canHeartTxCallback s) := .ite (.of_eq rfl rfl) .rfl

end EnergyRouter
