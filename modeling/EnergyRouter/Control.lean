import Mathlib.Data.BitVec

/-!
# Commands between the threads

The 698 thread posts commands as bits of `strategy_event`, which `CtrlData_RecProcess` takes. `CtrlUnit_RecResp` posts answers and
reports as bits of `hplc_event`, and `check_afair_from_botom` sends what is pending. Both sides of `hplc_event` guard it with
`lock1` and `lock2`; a call that waits for a flag nobody will clear has no outcome in the model. The data handed over and the frames
built are left to parameters over a world `W`.
-/

namespace EnergyRouter

/-- `COMM_CMD_C`: the commands, and the values behind the last of them. -/
inductive CommCmd
  | chgPlanIssue
  | chgPlanIssueAck
  | chgPlanAdjust
  | chgPlanAdjustAck
  | startChg
  | startChgAck
  | stopChg
  | stopChgAck
  | powerAdj
  | powerAdjAck
  | chgPlanExeState
  | chgPlanExeStateAck
  | chgRecord
  | deviceFault
  | pileFault
  | chgPlanIssueGetAck
  | other (n : Nat)
  deriving DecidableEq, Repr

/-- The number of a command. -/
def CommCmd.code : CommCmd → Nat
  | .chgPlanIssue => 0
  | .chgPlanIssueAck => 1
  | .chgPlanAdjust => 2
  | .chgPlanAdjustAck => 3
  | .startChg => 4
  | .startChgAck => 5
  | .stopChg => 6
  | .stopChgAck => 7
  | .powerAdj => 8
  | .powerAdjAck => 9
  | .chgPlanExeState => 10
  | .chgPlanExeStateAck => 11
  | .chgRecord => 12
  | .deviceFault => 13
  | .pileFault => 14
  | .chgPlanIssueGetAck => 15
  | .other n => 16 + n

/-- The side of the port that answers: the flags, the pending events, the commands whose block handed a frame to `hplc_tx_frame`,
oldest first, and everything else. -/
structure Hplc (W : Type) where
  lock1 : Bool
  lock2 : Bool
  hplcEvent : BitVec 32
  sent : List CommCmd
  world : W

/-- The port at power-up, in a world without anything else. -/
def idleHplc : Hplc Unit := ⟨false, false, 0, [], ()⟩

variable {W : Type}

/-- The bit of a command. -/
def CommCmd.event (cmd : CommCmd) : BitVec 32 := 1#32 <<< cmd.code

/-- The event of a command is pending. -/
def Hplc.Pending (s : Hplc W) (cmd : CommCmd) : Prop := s.hplcEvent &&& cmd.event ≠ 0
deriving Decidable

/-- Both flags are clear. -/
def Hplc.Unlocked (s : Hplc W) : Prop := s.lock1 = false ∧ s.lock2 = false
deriving Decidable

/-- The cases of `CtrlUnit_RecResp`: the result and whether the event is posted. A command without a case falls to the default. -/
def recCase : CommCmd → Option (Nat × Bool)
  | .chgPlanIssue => some (0, false)
  | .chgPlanAdjust => some (0, false)
  | .chgPlanIssueAck => some (0, true)
  | .chgPlanAdjustAck => some (0, true)
  | .startChg => some (0, false)
  | .startChgAck => some (0, true)
  | .stopChg => some (1, false)
  | .stopChgAck => some (0, true)
  | .chgRecord => some (0, true)
  | .chgPlanExeState => some (0, true)
  | .deviceFault => some (0, true)
  | .pileFault => some (0, true)
  | .chgPlanIssueGetAck => some (0, true)
  | _ => none

/-- `CtrlUnit_RecResp`. The default returns with both flags set. `copy` is the data a case copies. -/
def ctrlUnitRecResp (copy : CommCmd → W → W) (cmd : CommCmd) (s : Hplc W) : Option (Nat × Hplc W) :=
  if s.Unlocked then
    let s := { s with lock1 := true, lock2 := true }
    match recCase cmd with
    | none => some (1, s)
    | some (result, posts) =>
      some (result, { s with
        lock1 := false
        lock2 := false
        hplcEvent := if posts then s.hplcEvent ||| cmd.event else s.hplcEvent
        world := copy cmd s.world })
  else none

/-- The builders `check_afair_from_botom` calls, with their results; what a block sets right before a call is part of it. -/
structure Reporters (W : Type) where
  actionResponsePackage : CommCmd → W → Int × W
  getResponsePackage : W → Int × W
  securityGetPackage : W → Int × W
  reportCmdChgPlanExeState : W → Int × W
  reportNotificationPackage : CommCmd → W → W
  hplcTxFrame : W → W

/-- A frame handed to `hplc_tx_frame` by the block of a command. -/
def transmit (r : Reporters W) (cmd : CommCmd) (s : Hplc W) : Hplc W :=
  { s with world := r.hplcTxFrame s.world, sent := s.sent ++ [cmd] }

/-- A block that answers a kept request: build the answer, wrap it, send it, whether the wrapping succeeded or not. Only some of
these blocks clear their event. -/
def ackBlock (r : Reporters W) (build : W → Int × W) (cmd : CommCmd) (clears : Bool) : Int × Hplc W → Int × Hplc W
  | (result, s) =>
    if s.Pending cmd then
      let s := if clears then { s with hplcEvent := s.hplcEvent &&& ~~~cmd.event } else s
      let (result, w) := build s.world
      if result ≠ 0 then (result, { s with world := w })
      else
        let (result, w) := r.securityGetPackage w
        (result, transmit r cmd { s with world := w })
    else (result, s)

/-- The block of the plan's state. -/
def exeStateBlock (r : Reporters W) : Int × Hplc W → Int × Hplc W
  | (result, s) =>
    if s.Pending .chgPlanExeState then
      let (result, w) := r.reportCmdChgPlanExeState s.world
      if result ≠ 0 then (result, { s with world := w })
      else (result, transmit r .chgPlanExeState { s with world := w })
    else (result, s)

/-- A block that reports a record or a fault of the router. It drops the builder's result and looks at the result an earlier block
left. -/
def notifyBlock (r : Reporters W) (cmd : CommCmd) : Int × Hplc W → Int × Hplc W
  | (result, s) =>
    if s.Pending cmd then
      let s := { s with world := r.reportNotificationPackage cmd s.world }
      if result ≠ 0 then (result, s) else (result, transmit r cmd s)
    else (result, s)

/-- The block of a fault of the pile. It sends what the buffer holds and then builds a report of the router's fault. -/
def pileFaultBlock (r : Reporters W) : Int × Hplc W → Int × Hplc W
  | (result, s) =>
    if s.Pending .pileFault then
      if result ≠ 0 then (result, s)
      else
        let s := transmit r .pileFault s
        (result, { s with world := r.reportNotificationPackage .deviceFault s.world })
    else (result, s)

/-- The block of a command. -/
def afairBlock (r : Reporters W) : CommCmd → Int × Hplc W → Int × Hplc W
  | .chgPlanIssueAck => ackBlock r (r.actionResponsePackage .chgPlanIssueAck) .chgPlanIssueAck true
  | .chgPlanAdjustAck => ackBlock r (r.actionResponsePackage .chgPlanAdjustAck) .chgPlanAdjustAck false
  | .chgPlanIssueGetAck => ackBlock r r.getResponsePackage .chgPlanIssueGetAck false
  | .startChgAck => ackBlock r (r.actionResponsePackage .startChgAck) .startChgAck true
  | .stopChgAck => ackBlock r (r.actionResponsePackage .stopChgAck) .stopChgAck true
  | .chgPlanExeState => exeStateBlock r
  | .chgRecord => notifyBlock r .chgRecord
  | .deviceFault => notifyBlock r .deviceFault
  | .pileFault => pileFaultBlock r
  | _ => id

/-- The order of the blocks. -/
def blockOrder : List CommCmd :=
  [.chgPlanIssueAck, .chgPlanAdjustAck, .chgPlanIssueGetAck, .startChgAck, .stopChgAck, .chgPlanExeState, .chgRecord,
    .deviceFault, .pileFault]

/-- The body of `check_afair_from_botom`: one block after the other, and the result of each goes on to the next. -/
def afairBlocks (r : Reporters W) (s : Hplc W) : Int × Hplc W :=
  blockOrder.foldl (fun st cmd => afairBlock r cmd st) (-1, s)

/-- `check_afair_from_botom`. -/
def checkAfairFromBotom (r : Reporters W) (s : Hplc W) : Option (Int × Hplc W) :=
  if s.Unlocked then
    let (result, s) := afairBlocks r { s with lock1 := true, lock2 := true }
    some (result, { s with lock1 := false, lock2 := false })
  else none

end EnergyRouter
