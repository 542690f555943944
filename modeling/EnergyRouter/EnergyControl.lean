import EnergyRouter.Control

/-!
# The energy control takes its commands

`strategy_event_get` takes the whole mask and clears it. `CtrlData_RecProcess` looks for the mask among three values: a mask of two
commands is none of them.
-/

namespace EnergyRouter

/-- `CTRL_EVENT_TYPE`. -/
inductive CtrlEvent
  | chgPlanIssue
  | chgPlanIssueGet
  | chgPlanAdjust
  | startChg
  | stopChg
  | powerAdj
  | askState
  deriving DecidableEq, Repr

/-- The number of an event's bit. -/
def CtrlEvent.bit : CtrlEvent → Nat
  | .chgPlanIssue => 0
  | .chgPlanIssueGet => 1
  | .chgPlanAdjust => 2
  | .startChg => 3
  | .stopChg => 4
  | .powerAdj => 5
  | .askState => 6

/-- The value of an event. -/
def CtrlEvent.event (e : CtrlEvent) : BitVec 32 := 1#32 <<< e.bit

/-- `strategy_event` and the two flags of its own that guard it. -/
structure StrategyMask where
  hplcLock1 : Bool
  hplcLock2 : Bool
  strategyEvent : BitVec 32
  deriving DecidableEq, Repr

/-- The guarding flags are clear. -/
def StrategyMask.Free (m : StrategyMask) : Prop := m.hplcLock1 = false ∧ m.hplcLock2 = false
deriving Decidable

/-- `strategy_event_send`. -/
def strategyEventSend (e : CtrlEvent) (m : StrategyMask) : Option StrategyMask :=
  if m.Free then some ⟨false, false, m.strategyEvent ||| e.event⟩ else none

/-- `strategy_event_get`. -/
def strategyEventGet (m : StrategyMask) : Option (BitVec 32 × StrategyMask) :=
  if m.Free then some (m.strategyEvent, ⟨false, false, 0⟩) else none

/-- The mask, the port, the energy control's own flags and the commands whose case ran to its end, oldest first. -/
structure EnergyControl (W : Type) where
  mask : StrategyMask
  hplc : Hplc W
  startchgFlag : Bool
  stopchgFlag : Bool
  adjpowerFlag : Bool
  handled : List CtrlEvent

/-- What a case finds: a fault, and whether the asset and the order number are the router's. -/
structure Finding where
  faultTotal : Bool
  assetOk : Bool
  orderOk : Bool
  deriving DecidableEq, Repr

/-- What the cases do besides: the data copied, the command forwarded with its timer, and the refusal noted before it is answered.
-/
structure CtrlActions (W : Type) where
  copy : CommCmd → W → W
  forward : CtrlEvent → W → W
  refuse : CtrlEvent → Finding → W → W

variable {W : Type}

/-- A case of `CtrlData_RecProcess`: fetch the command, then forward it to the pile or answer that it is refused. -/
def ctrlCase (a : CtrlActions W) (fetch ack : CommCmd) (e : CtrlEvent) (accepted : Bool) (v : Finding)
    (s : EnergyControl W) : Option (EnergyControl W) := do
  let (_, hplc) ← ctrlUnitRecResp a.copy fetch s.hplc
  if accepted then
    some { s with hplc := { hplc with world := a.forward e hplc.world }, handled := s.handled ++ [e] }
  else
    let (_, hplc) ← ctrlUnitRecResp a.copy ack { hplc with world := a.refuse e v hplc.world }
    some { s with hplc := hplc, handled := s.handled ++ [e] }

/-- `CtrlData_RecProcess`. -/
def ctrlDataRecProcess (a : CtrlActions W) (v : Finding) (s : EnergyControl W) : Option (EnergyControl W) := do
  let (eventCmd, mask) ← strategyEventGet s.mask
  let s := { s with mask := mask }
  if eventCmd = CtrlEvent.startChg.event then
    ctrlCase a .startChg .startChgAck .startChg (!v.faultTotal && v.assetOk) v { s with startchgFlag := true }
  else if eventCmd = CtrlEvent.stopChg.event then
    ctrlCase a .stopChg .stopChgAck .stopChg (!v.faultTotal && (v.assetOk || v.orderOk)) v { s with stopchgFlag := true }
  else if eventCmd = CtrlEvent.powerAdj.event then
    ctrlCase a .powerAdj .powerAdjAck .powerAdj (!v.faultTotal && v.assetOk) v { s with adjpowerFlag := true }
  else some s

end EnergyRouter
