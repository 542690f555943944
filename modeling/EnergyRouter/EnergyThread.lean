import EnergyRouter.EnergyControl
import EnergyRouter.PileReceive
import EnergyRouter.Plan

/-!
# The energy-control thread and what it talks to

The rest of `energycon.c`: the records of the three commands, the answers of the pile, the response timers and the power of the time
slots, composed with the pile, the 698 thread that posts commands, and everything else that changes what the thread reads.
-/

namespace EnergyRouter

/-- The commands that are forwarded to the pile. -/
inductive ChargeCmd
  | start | stop | powerAdj
  deriving DecidableEq, Repr

instance (p : ChargeCmd → Prop) [DecidablePred p] : Decidable (∀ c, p c) :=
  decidable_of_iff (p .start ∧ p .stop ∧ p .powerAdj)
    ⟨fun ⟨hstart, hstop, hpower⟩ c => by cases c <;> assumption, fun h => ⟨h .start, h .stop, h .powerAdj⟩⟩

/-- The event that brings a command. -/
def ChargeCmd.event : ChargeCmd → CtrlEvent
  | start => .startChg
  | stop => .stopChg
  | powerAdj => .powerAdj

/-- The command that fetches its data. -/
def ChargeCmd.fetch : ChargeCmd → CommCmd
  | start => .startChg
  | stop => .stopChg
  | powerAdj => .powerAdj

/-- The command that acknowledges it. -/
def ChargeCmd.ack : ChargeCmd → CommCmd
  | start => .startChgAck
  | stop => .stopChgAck
  | powerAdj => .powerAdjAck

/-- The event the pile posts when it has done it. -/
def ChargeCmd.okEvent : ChargeCmd → PileEvent
  | start => .chargeStartOK
  | stop => .chargeStopOK
  | powerAdj => .setPowerOK

/-- The event the pile posts when it has not. -/
def ChargeCmd.erEvent : ChargeCmd → PileEvent
  | start => .chargeStartER
  | stop => .chargeStopER
  | powerAdj => .setPowerER

/-- Its number in a control record, `CTRL_TYPE`. -/
def ChargeCmd.ctrlType : ChargeCmd → Byte
  | start => 1
  | stop => 2
  | powerAdj => 3

/-- `ORTHERS`. -/
def orthers : Byte := 255

/-- The fields of `CTL_CHARGE` the energy control uses. -/
structure CtlCharge where
  orderSn : Vector Byte 17
  cAssetNO : Vector Byte 23
  gunNum : Byte
  setPower : BitVec 32
  cSucIdle : Byte
  deriving DecidableEq, Repr

/-- The fields of `CTL_CHARGE_EVENT` that are written. -/
structure CtlChargeEvent where
  orderSn : Vector Byte 17
  cAssetNO : Vector Byte 23
  gunNum : Byte
  ctrlType : Byte
  cSucIdle : Byte
  deriving DecidableEq, Repr

/-- What the thread works on: the records of the three commands and of the last one, the asset number and the faults of the router,
the pile, its event object and its parameters, the running timers, and the plan. `acks` and `forwarded` are the acknowledgements
made and the commands forwarded so far, oldest first. -/
structure Router where
  ctrl : ChargeCmd → CtlCharge
  ctrlChargeEvent : CtlChargeEvent
  assetNum : Vector Byte 23
  faultTotal : BitVec 32
  pile : Pile
  chargePileEvent : PileEvent → Bool
  paraSet : PilePara
  paraGet : PilePara
  respTimer : ChargeCmd → Bool
  chgStrategy : ChargeStrategy
  systemTime : SystemTime
  count : Nat
  setPowerFinishFlag : Vector Bool timeSoltMax
  cRequestNOOld : Vector Byte 17
  cRequestNONew : Vector Byte 17
  acks : List (ChargeCmd × Byte)
  forwarded : List ChargeCmd

/-- The state of the thread. -/
abbrev Energycon := EnergyControl Router

/-- What the thread works on at power-up: static variables are zero. -/
def powerUpRouter : Router where
  ctrl := fun _ => ⟨Vector.replicate 17 0, Vector.replicate 23 0, 0, 0, 0⟩
  ctrlChargeEvent := ⟨Vector.replicate 17 0, Vector.replicate 23 0, 0, 0, 0⟩
  assetNum := Vector.replicate 23 0
  faultTotal := 0
  pile := initPile
  chargePileEvent := fun _ => false
  paraSet := ⟨0, 0, 0⟩
  paraGet := ⟨0, 0, 0⟩
  respTimer := fun _ => false
  chgStrategy := zeroPlan
  systemTime := zeroTime
  count := 0
  setPowerFinishFlag := Vector.replicate timeSoltMax false
  cRequestNOOld := Vector.replicate 17 0
  cRequestNONew := Vector.replicate 17 0
  acks := []
  forwarded := []

/-- The thread at power-up. -/
def powerUpEnergycon : Energycon := ⟨⟨false, false, 0⟩, ⟨false, false, 0, [], powerUpRouter⟩, false, false, false, []⟩

/-- The flag of a command. -/
def EnergyControl.flag {W : Type} (s : EnergyControl W) : ChargeCmd → Bool
  | .start => s.startchgFlag
  | .stop => s.stopchgFlag
  | .powerAdj => s.adjpowerFlag

/-- Set or clear the flag of a command. -/
def EnergyControl.setFlag {W : Type} (s : EnergyControl W) (c : ChargeCmd) (on : Bool) : EnergyControl W :=
  match c with
  | .start => { s with startchgFlag := on }
  | .stop => { s with stopchgFlag := on }
  | .powerAdj => { s with adjpowerFlag := on }

/-- The outcome of a command is noted in its record. -/
def Router.setSucIdle (w : Router) (c : ChargeCmd) (sucIdle : Byte) : Router :=
  { w with ctrl := fun d => if d = c then { w.ctrl c with cSucIdle := sucIdle } else w.ctrl d }

/-- `rt_timer_start` and `rt_timer_stop`. -/
def Router.setTimer (w : Router) (c : ChargeCmd) (on : Bool) : Router :=
  { w with respTimer := fun d => if d = c then on else w.respTimer d }

/-- The power a duty is for, converted. -/
def pwmOf (power : BitVec 32) : BitVec 32 := power * 10 / 132

/-- `Cmd_SetPower` with a duty in `ChargePilePara_Set`. -/
def Router.sendPower (w : Router) (pwmDuty : BitVec 32) : Router :=
  { w with
    paraSet := { w.paraSet with pwmDuty := pwmDuty }
    pile := { w.pile with para := { w.pile.para with pwmDuty := pwmDuty } } }

/-! ## Commands from the 698 thread -/

/-- The command with the outcome in its record is acknowledged. -/
def Router.acknowledge (w : Router) (c : ChargeCmd) : Router := { w with acks := w.acks ++ [(c, (w.ctrl c).cSucIdle)] }

/-- A command that was fetched is copied to the control record. -/
def Router.noteCommand (w : Router) (c : ChargeCmd) : Router :=
  { w with ctrlChargeEvent := { w.ctrlChargeEvent with
      orderSn := (w.ctrl c).orderSn
      cAssetNO := (w.ctrl c).cAssetNO
      gunNum := (w.ctrl c).gunNum
      ctrlType := c.ctrlType } }

/-- The outcome in the record of a command, for the control record. That of a power adjustment goes to the record of a stop
instead. -/
def Router.noteOutcome (w : Router) (c : ChargeCmd) : Router :=
  match c with
  | .powerAdj => w.setSucIdle .stop (w.ctrl .powerAdj).cSucIdle
  | .start | .stop => { w with ctrlChargeEvent := { w.ctrlChargeEvent with cSucIdle := (w.ctrl c).cSucIdle } }

/-- A command is forwarded to the pile and its timer started. -/
def Router.forward (w : Router) (c : ChargeCmd) : Router :=
  let w := { w.noteCommand c with forwarded := w.forwarded ++ [c] }
  match c with
  | .start => ({ w with pile := (chargeStart w.pile).2 }.setTimer .start true).noteOutcome .start
  | .stop => ({ w with pile := (chargeStop w.pile).2 }.setTimer .stop true).noteOutcome .stop
  | .powerAdj => ((w.sendPower (pwmOf (w.ctrl .powerAdj).setPower)).setTimer .powerAdj true).noteOutcome .powerAdj

/-- A command is refused: its record gets the reason before it is acknowledged. -/
def Router.refuse (w : Router) (c : ChargeCmd) (sucIdle : Byte) : Router := ((w.noteCommand c).setSucIdle c sucIdle).noteOutcome c

/-- The command of an event of the mask, if it is one of the three. -/
def CtrlEvent.cmd : CtrlEvent → Option ChargeCmd
  | .startChg => some .start
  | .stopChg => some .stop
  | .powerAdj => some .powerAdj
  | _ => none

/-- What the cases of `CtrlData_RecProcess` do. With an acknowledgement `CtrlUnit_RecResp` is handed the command's record. -/
def ctrlActions : CtrlActions Router where
  copy cmd w :=
    match cmd with
    | .startChgAck => w.acknowledge .start
    | .stopChgAck => w.acknowledge .stop
    | _ => w
  forward e w := e.cmd.elim w w.forward
  refuse e v w := e.cmd.elim w fun c => w.refuse c (if v.faultTotal then failed else orthers)

/-- What a case finds about its command. It sees a fault only when the word of all the fault bits has the value `TRUE`. -/
def Router.finding (w : Router) (c : ChargeCmd) : Finding where
  faultTotal := w.faultTotal = 1
  assetOk := w.assetNum.toList.take 22 = (w.ctrl c).cAssetNO.toList.take 22
  orderOk := (w.ctrl .start).orderSn.toList.take 16 = (w.ctrl .stop).orderSn.toList.take 16

/-- The command whose event is the whole mask. -/
def takenCmd (mask : BitVec 32) : Option ChargeCmd :=
  if mask = CtrlEvent.startChg.event then some .start
  else if mask = CtrlEvent.stopChg.event then some .stop
  else if mask = CtrlEvent.powerAdj.event then some .powerAdj
  else none

/-- A command passes the checks of its case. -/
def Router.accepts (w : Router) (c : ChargeCmd) : Bool :=
  !(w.finding c).faultTotal && ((w.finding c).assetOk || (c = .stop && (w.finding c).orderOk))

/-- `CtrlData_RecProcess` with the records of the thread. -/
def ctrlDataTurn (s : Energycon) : Option Energycon :=
  ctrlDataRecProcess ctrlActions (s.hplc.world.finding ((takenCmd s.mask.strategyEvent).getD .start)) s

/-! ## Answers of the pile -/

/-- An event is received and cleared. -/
def Router.takeEvent (w : Router) (e : PileEvent) : Router :=
  { w with chargePileEvent := fun d => if d = e then false else w.chargePileEvent d }

/-- The record in which the failure of a command is noted: that of a stop is noted in the record of a start. -/
def ChargeCmd.failRecord : ChargeCmd → ChargeCmd
  | start => .start
  | stop => .start
  | powerAdj => .powerAdj

/-- The command that asks the pile for the reason: after a stop it asks for that of a start. -/
def ChargeCmd.reasonCmd : ChargeCmd → CommCmdP
  | start => .chargeStartResp
  | stop => .chargeStartResp
  | powerAdj => .setPowerResp

/-- The acknowledgement of a command is handed to the port. -/
def Energycon.respond (s : Energycon) (c : ChargeCmd) (w : Router) : Option (Nat × Energycon) :=
  (ctrlUnitRecResp ctrlActions.copy c.ack { s.hplc with world := w }).map fun out => (out.1, { s with hplc := out.2 })

/-- The pile has done what a command asked. The flag is cleared when the acknowledgement was taken. -/
def pileDone (c : ChargeCmd) (s : Energycon) : Option Energycon :=
  (Energycon.respond s c (((s.hplc.world.takeEvent c.okEvent).setTimer c false).setSucIdle c successful)).map fun out =>
    if out.1 = 0 then out.2.setFlag c false else out.2

/-- The pile has not done it. The flag is cleared when the pile gave a reason. -/
def pileFailed (c : ChargeCmd) (s : Energycon) : Option Energycon := do
  let w := ((s.hplc.world.takeEvent c.erEvent).setTimer c false).setSucIdle c.failRecord failed
  let (rst, para, pile) ← chargepileDataGetSet c.reasonCmd (some w.paraGet) w.pile
  let s := if rst = successful then s.setFlag c false else s
  (Energycon.respond s c { w with paraGet := para.getD w.paraGet, pile := pile }).map Prod.snd

/-- The part of `PileData_RecProcess` for a command. -/
def pilePart (c : ChargeCmd) (s : Energycon) : Option Energycon :=
  if s.flag c then
    if s.hplc.world.chargePileEvent c.okEvent then pileDone c s
    else if s.hplc.world.chargePileEvent c.erEvent then pileFailed c s
    else some s
  else some s

/-- `PileData_RecProcess`. -/
def pileDataRecProcess (s : Energycon) : Option Energycon := do
  let s ← pilePart .start s
  let s ← pilePart .stop s
  pilePart .powerAdj s

/-! ## Response timers -/

/-- What the callback of a timer asks the pile. -/
def ChargeCmd.timeoutCmd : ChargeCmd → CommCmdP
  | start => .chargeStartResp
  | stop => .chargeStopResp
  | powerAdj => .setPowerResp

/-- A one-shot timer runs out: its callback calls `ChargepileDataGetSet` with a null pointer. -/
def respTimeout (c : ChargeCmd) (w : Router) : Option Router :=
  (chargepileDataGetSet c.timeoutCmd none w.pile).map fun out => { w with pile := out.2.2 }.setTimer c false

/-- `StartChgResp_Timeout`. -/
def startChgRespTimeout : Router → Option Router := respTimeout .start

/-- `StopChgResp_Timeout`. -/
def stopChgRespTimeout : Router → Option Router := respTimeout .stop

/-- `PowAdjResp_Timeout`. -/
def powAdjRespTimeout : Router → Option Router := respTimeout .powerAdj

/-! ## Time slots -/

/-- A slot counts as the present one when none of the fields of its start is before that of the time. -/
def slotMatches (slot : ChargeTimesolt) (now : SystemTime) : Bool :=
  slot.strDecStartTime.year ≥ now.year && slot.strDecStartTime.month ≥ now.month && slot.strDecStartTime.day ≥ now.day &&
    slot.strDecStartTime.hour ≥ now.hour && slot.strDecStartTime.minute ≥ now.minute && slot.strDecStartTime.second ≥ now.second

/-- The first such slot from a number on. -/
def findSlot (w : Router) (first : Nat) : Option Nat :=
  (List.range' first (timeSoltMax - first)).find? fun i => slotMatches (w.chgStrategy.slot i) w.systemTime

/-- The search of `TimeSolt_PilePowerCtrl` from slot `count` on, for at most `fuel` turns. A slot outside of the plan has no
outcome. -/
def slotSearch (plan : ChargeStrategy) (now : SystemTime) : Nat → Nat → Option Nat
  | 0, _ => none
  | fuel + 1, count => do
    let slot ← plan.strChargeTimeSolts[count]?
    if slotMatches slot now then some count else slotSearch plan now fuel (count + 1)

/-- `TimeSolt_PilePowerCtrl`. Without a slot that matches it reads past the plan. -/
def timeSoltPilePowerCtrl (w : Router) : Option Router :=
  (findSlot w 0).map fun i =>
    { w.sendPower (pwmOf (w.chgStrategy.slot i).ulChargePow) with
      count := i
      setPowerFinishFlag := Vector.replicate timeSoltMax false
      cRequestNOOld := w.cRequestNONew }

/-- The loop over the slots: the power of the present slot is sent once, as it stands in the plan. -/
def slotLoop (w : Router) : Router :=
  match findSlot w w.count with
  | none => w
  | some i =>
    let pwmDuty := (w.chgStrategy.slot i).ulChargePow
    if w.setPowerFinishFlag.getD i false then { w with paraSet := { w.paraSet with pwmDuty := pwmDuty } }
    else { w.sendPower pwmDuty with setPowerFinishFlag := w.setPowerFinishFlag.setIfInBounds i true }

/-- The rest of a turn of `energycon_thread_entry`. -/
def slotTurn (w : Router) : Option Router :=
  (if w.cRequestNOOld = w.cRequestNONew then some w else timeSoltPilePowerCtrl w).map slotLoop

/-! ## The threads together -/

/-- What can happen next. A turn of the thread is `pileData`, `ctrlData` and `slots`, and anything can come between them. -/
inductive EnergyOp
  | post (e : CtrlEvent)
  | pileData
  | ctrlData
  | slots
  | receive (msg : CanMsg)
  | turn
  | second
  | pileEvent (e : PileEvent)
  | timeout (c : ChargeCmd)
  | fault (total : BitVec 32)
  | clock (now : SystemTime)
  | plan (p : ChargeStrategy)
  deriving DecidableEq, Repr

/-- The events a pile has posted on the way from one state to another. -/
def newEvents (before after : Pile) : List PileEvent := after.events.drop before.events.length

/-- The pile goes on; the events it posts are set in its event object. -/
def Router.setPile (w : Router) (pile : Pile) : Router :=
  { w with
    pile := pile
    chargePileEvent := fun e => w.chargePileEvent e || decide (e ∈ newEvents w.pile pile) }

/-- Change what the thread works on. -/
def EnergyControl.setWorld {W : Type} (s : EnergyControl W) (world : W) : EnergyControl W :=
  { s with hplc := { s.hplc with world := world } }

/-- The world the thread works on. -/
def EnergyControl.world {W : Type} (s : EnergyControl W) : W := s.hplc.world

/-- One step. -/
def Energycon.step (s : Energycon) : EnergyOp → Option Energycon
  | .post e => (strategyEventSend e s.mask).map fun mask => { s with mask := mask }
  | .pileData => pileDataRecProcess s
  | .ctrlData => ctrlDataTurn s
  | .slots => (slotTurn s.world).map s.setWorld
  | .receive msg => (canV110RecProtocal msg s.world.pile).map fun pile => s.setWorld (s.world.setPile pile)
  | .turn => some (s.setWorld (s.world.setPile (chargepileTurn s.world.pile)))
  | .second => some (s.setWorld (s.world.setPile (canHeartTxCallback s.world.pile)))
  | .pileEvent e => some (s.setWorld { s.world with chargePileEvent := fun d => s.world.chargePileEvent d || decide (d = e) })
  | .timeout c => if s.world.respTimer c then (respTimeout c s.world).map s.setWorld else some s
  | .fault total => some (s.setWorld { s.world with faultTotal := total })
  | .clock now => some (s.setWorld { s.world with systemTime := now })
  | .plan p => some (s.setWorld { s.world with chgStrategy := p })

end EnergyRouter
