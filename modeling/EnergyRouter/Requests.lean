import EnergyRouter.Dispatch
import EnergyRouter.EnergyThread
import EnergyRouter.PlanCodec

/-!
# Requests that are answered later

A request for a charge is kept, an event is posted to the energy control, and the answer is built by `check_afair_from_botom` when
the energy control has acknowledged. The same routines serve both passes; `need_package` tells them apart. In the first pass they
call `check_afair_from_botom` themselves, and a second call while its flags are set waits for itself.
-/

namespace EnergyRouter

open Buffer

/-- Why a call does not come back: it waits for `lock1` or `lock2`, or for the flags of the strategy mask, or it leaves an array. -/
inductive Stop
  | lock
  | strategyLock
  | outside
  deriving DecidableEq, Repr

/-- A step that may have no outcome, with the reason for it. -/
def orStop {α : Type} (stop : Stop) : Option α → Except Stop α
  | some a => .ok a
  | none => .error stop

/-! ## Requests -/

/-- The fields of `_698_FRAME` the routines use, of a received frame or of a kept one. The user data go to the end of the array they
are in. -/
structure Request where
  head : Byte
  usrData : List Byte
  usrDataLen : Int
  needPackage : Bool
  timeFlagPositon : Int
  deriving DecidableEq, Repr

/-- The frame received in a buffer. Its `need_package` is never set. -/
def CharPointDataManage.request (d : CharPointDataManage) : Request :=
  ⟨d.frame698.head, d.priveData.toList.drop d.frame698.usrData, d.frame698.usrDataLen, false, 0⟩

/-- A byte of the user data. -/
def Request.usr (req : Request) (i : Int) : Except Stop Byte :=
  if i < 0 then .error .outside else orStop .outside req.usrData[i.toNat]?

/-- `save_char_point_usrdata`, into an array as long as its `length`. -/
def saveCharPointUsrdata (data res : List Byte) (size : Int) : Option (List Byte) :=
  if size < 0 then some data
  else if (data.length : Int) > size then
    if size.toNat ≤ res.length then some (res.take size.toNat ++ data.drop size.toNat) else none
  else some data

/-- `copy_698_frame`. User data that do not fit are not copied, their length is. -/
def copy698Frame (des source : Request) : Option Request := do
  let usrData ← saveCharPointUsrdata des.usrData source.usrData source.usrDataLen
  some { des with head := source.head, usrData := usrData, usrDataLen := source.usrDataLen }

/-- `_698_oad`. -/
structure Oad698 where
  oi0 : Byte
  oi1 : Byte
  attributeId : Byte
  attributeIndex : Byte
  deriving DecidableEq, Repr

/-- `oad_package`. -/
def oadPackage (usrData : List Byte) (position : Nat) : Option Oad698 := do
  some ⟨← usrData[position]?, ← usrData[position + 1]?, ← usrData[position + 2]?, ← usrData[position + 3]?⟩

/-- The requests that are kept. -/
inductive Asked
  | chgPlanIssue | chgPlanIssueGet | chgPlanAdjust | startChg | stopChg
  deriving DecidableEq, Repr

/-- The event of a kept request. -/
def Asked.event : Asked → CtrlEvent
  | chgPlanIssue => .chgPlanIssue
  | chgPlanIssueGet => .chgPlanIssueGet
  | chgPlanAdjust => .chgPlanAdjust
  | startChg => .startChg
  | stopChg => .stopChg

/-- The size of the array a request is kept in. -/
def Asked.usrDataSize : Asked → Nat
  | chgPlanIssue => 1024
  | chgPlanIssueGet => 100
  | chgPlanAdjust => 1024
  | startChg => 50
  | stopChg => 50

/-- What `_698_ChgPlanIssue_data` is initialised with, in front of zeros: frames for a test. -/
def chgPlanIssueData : List Byte :=
  [0xfe, 0xfe, 0xfe, 0xfe, 0x68, 0x34, 0x00, 0xc3, 0x05, 0x02, 0x00, 0x04, 0x12, 0x18, 0x00, 0x00, 0xb7, 0x02, 0x85, 0x01,
    0x1d, 0x00, 0x10, 0x02, 0x00, 0x01, 0x01, 0x05, 0x06, 0x00, 0x00, 0x00, 0x66, 0x06, 0x00, 0x00, 0x00, 0x24, 0x06, 0x00,
    0x00, 0x00, 0x40, 0x06, 0x00, 0x00, 0x00, 0x00, 0x06, 0x00, 0x00, 0x00, 0x01, 0x00, 0x00, 0xf7, 0x08, 0x16, 0xfe, 0xfe,
    0xfe, 0xfe, 0xfe, 0xfe, 0xfe, 0xfe, 0xfe, 0x68, 0x17, 0x00, 0x43, 0x45, 0xaa, 0xaa, 0xaa, 0xaa, 0xaa, 0xaa, 0x00, 0x5b,
    0x4f, 0x05, 0x01, 0x00, 0x40, 0x01, 0x02, 0x00, 0x00, 0xed, 0x03, 0x16, 0xfe, 0xfe, 0xfe, 0xfe, 0xfe, 0x68, 0x1e, 0x00,
    0x81, 0x05, 0x07, 0x09, 0x19, 0x05, 0x16, 0x20, 0x00, 0x60, 0x30, 0x01, 0x00, 0x00, 0x00, 0xb4, 0x07, 0xe0, 0x05, 0x13,
    0x04, 0x08, 0x05, 0x00, 0x00, 0xa4, 0xfc, 0x83, 0x16]

/-- What the array of a request holds before anything is kept in it. -/
def Asked.initialData : Asked → List Byte
  | chgPlanIssue => chgPlanIssueData ++ List.replicate (1024 - chgPlanIssueData.length) 0
  | k => List.replicate k.usrDataSize 0

/-- `CHARGE_STRATEGY_RSP`. -/
structure ChargeStrategyRsp where
  cRequestNO : Vector Byte 17
  cAssetNO : Vector Byte 23
  cSucIdle : Byte
  deriving DecidableEq, Repr

/-- What the 698 thread works on besides the event mask and its flags. `answers` are the user data of the answers built so far,
oldest first, each with the service it answers. -/
structure Office where
  state : State698
  oadOmd : Oad698
  dataTx : CharPointDataManage
  mask : StrategyMask
  kept : Asked → Request
  chargeStrategyChgPlanIssue : ChargeStrategy
  chargeStrategyChgPlanAdjust : ChargeStrategy
  chgPlanIssueRsp : ChargeStrategyRsp
  chgPlanAdjustRsp : ChargeStrategyRsp
  chargeStrategy698 : List ChargeStrategy
  reportChargeExeState : ChargeExeState
  answers : List (Service698 × List Byte)

/-- Single bytes into the transmit buffer. -/
def Office.put (w : Office) (bytes : List Byte) : Office := { w with dataTx := putEach w.dataTx bytes }

/-- Replace a kept request. -/
def Office.setKept (w : Office) (k : Asked) (req : Request) : Office :=
  { w with kept := fun j => if j = k then req else w.kept j }

/-- Set or clear `need_package` of a kept request. -/
def Office.setNeed (w : Office) (k : Asked) (need : Bool) : Office := w.setKept k { w.kept k with needPackage := need }

/-- An answer stands in the transmit buffer and goes out. -/
def Office.answered (w : Office) (service : Service698) : Office :=
  { w with answers := w.answers ++ [(service, w.dataTx.apdu)] }

/-- The classes of objects whose values are somebody else's. -/
inductive ObjectClass
  | electrical | variable | parameter | esam | esamInfo
  deriving DecidableEq, Repr

/-- What the routines call and is not modelled here: the values of other objects, as results and runs of bytes, and the builders
that work on the transmit buffer alone. -/
structure Services where
  object : ObjectClass → State698 → Oad698 → Int × List (List Byte)
  securityGetPackage : State698 → CharPointDataManage → Int × CharPointDataManage
  reportNotificationPackage : CommCmd → State698 → CharPointDataManage → CharPointDataManage
  security_size : ∀ s d, (securityGetPackage s d).2.size = d.size
  report_size : ∀ cmd s d, (reportNotificationPackage cmd s d).size = d.size

/-! ## The two passes -/

/-- The answer to a plan: the result and the two numbers, each as long as its first byte says. -/
def putRsp (rsp : ChargeStrategyRsp) (w : Office) : Except Stop Office :=
  let lenRequest := rsp.cRequestNO.getD 0 0
  let lenAsset := rsp.cAssetNO.getD 0 0
  if lenRequest.toNat ≤ 16 ∧ lenAsset.toNat ≤ 22 then
    let d := putEach w.dataTx [rsp.cSucIdle, 2, 2, 9, lenRequest]
    let d := putBytes d ((rsp.cRequestNO.toList.drop 1).take lenRequest.toNat)
    let d := putEach d [10, lenAsset]
    let d := putBytes d ((rsp.cAssetNO.toList.drop 1).take lenAsset.toNat)
    .ok { w with dataTx := d }
  else .error .outside

/-- `oi_charge_strategy_package`: the plans handed over. Its result is 0 only when there is none. -/
def oiChargeStrategyPackage (w : Office) : Except Stop (Int × Office) :=
  let w := w.put [BitVec.ofNat 8 w.chargeStrategy698.length]
  if w.chargeStrategy698.length = 0 then .ok (0, w)
  else do
    let d ← orStop .outside (w.chargeStrategy698.foldlM (fun d p => chargeStrategyPackage p d) w.dataTx)
    .ok (1, { w with dataTx := d })

/-- The second pass: what is answered about a kept request. A start and a stop are answered with success whatever came of them. -/
def putOutcome : Asked → Office → Except Stop (Int × Office)
  | .chgPlanIssue, w => do .ok (0, ← putRsp w.chgPlanIssueRsp w)
  | .chgPlanAdjust, w => do .ok (0, ← putRsp w.chgPlanAdjustRsp w)
  | .startChg, w => .ok (0, w.put [0, 0])
  | .stopChg, w => .ok (0, w.put [0, 0])
  | .chgPlanIssueGet, w => oiChargeStrategyPackage (w.put [1, 1])

/-- The plan of a request, for the energy control to fetch. -/
def storePlan (k : Asked) (req : Request) (w : Office) : Except Stop Office :=
  match k with
  | .chgPlanIssue => do
    let p ← orStop .outside (actionResponseChargeStrategy w.chargeStrategyChgPlanIssue req.usrData req.timeFlagPositon.toNat)
    .ok { w with chargeStrategyChgPlanIssue := p }
  | .chgPlanAdjust => do
    let p ← orStop .outside (actionResponseChargeStrategy w.chargeStrategyChgPlanAdjust req.usrData req.timeFlagPositon.toNat)
    .ok { w with chargeStrategyChgPlanAdjust := p }
  | _ => .ok w

/-- A request is kept and its event posted. For a method the time tag is looked for behind the last byte. -/
def keepRequest (k : Asked) (req : Request) (w : Office) : Except Stop Office := do
  let kept ← orStop .outside (copy698Frame (w.kept k) req)
  let w := w.setKept k (if k = .chgPlanIssueGet then kept else { kept with timeFlagPositon := req.usrDataLen })
  let w ← storePlan k req w
  let mask ← orStop .strategyLock (strategyEventSend k.event w.mask)
  .ok { w with mask := mask }

/-- `my_strategy_event_get`. -/
def myStrategyEventGet (m : StrategyMask) : Option (BitVec 32) := if m.Free then some m.strategyEvent else none

section Routines

/- `H` is what the routines do not touch themselves, `afair` the call of `check_afair_from_botom` they make in the first pass. -/
variable {H : Type} (env : Services) (afair : H × Office → Except Stop (H × Office))

/-- A request for a charge: the second pass when its `need_package` is set, the first pass otherwise. -/
def askedCase (k : Asked) (req : Request) : H × Office → Except Stop (Int × H × Office)
  | (h, w) =>
    if (w.kept k).needPackage then do
      let (result, w) ← putOutcome k (w.setNeed k false)
      .ok (result, h, w)
    else do
      let _ ← orStop .strategyLock (myStrategyEventGet w.mask)
      let (h, w) ← afair (h, w)
      let w ← keepRequest k req w
      .ok (2, h, w)

/-- `oi_action_response_charge_oib`. -/
def oiActionResponseChargeOib (req : Request) : H × Office → Except Stop (Int × H × Office)
  | (h, w) =>
    if w.oadOmd.oi1 = 0x01 then
      if w.oadOmd.attributeId = 0x7f then askedCase afair .chgPlanIssue req (h, w)
      else if w.oadOmd.attributeId = 128 then askedCase afair .chgPlanAdjust req (h, w)
      else .ok (-1, h, w)
    else if w.oadOmd.oi1 = 0x04 then
      if w.oadOmd.attributeId = 127 then askedCase afair .startChg req (h, w)
      else if w.oadOmd.attributeId = 128 then askedCase afair .stopChg req (h, w)
      else .ok (-1, h, w)
    else .ok (-1, h, w)

/-- `action_response_charge_oia`. -/
def actionResponseChargeOia (req : Request) : H × Office → Except Stop (Int × H × Office)
  | (h, w) => if w.oadOmd.oi0 &&& 0x0f = 0 then oiActionResponseChargeOib afair req (h, w) else .ok (-1, h, w)

/-- The object the answer is about, as it is written. -/
def Office.putOad (w : Office) : Office :=
  w.put [w.oadOmd.oi0, w.oadOmd.oi1, w.oadOmd.attributeId, w.oadOmd.attributeIndex]

/-- `action_response_normal_omd`. -/
def actionResponseNormalOmd (req : Request) : H × Office → Except Stop (Int × H × Office)
  | (h, w) =>
    let w := w.putOad
    if (w.oadOmd.oi0 &&& 0xf0) >>> 4 = 9 then actionResponseChargeOia afair req (h, w) else .ok (-1, h, w)

/-- `action_response_package_normal`. The time tag is behind the method in the first pass and where it was kept in the second; with
one there is no answer. -/
def actionResponsePackageNormal (req : Request) : H × Office → Except Stop (Int × H × Office)
  | (h, w) => do
    let w := w.put [0x87, ← req.usr 1, ← req.usr 2]
    let req := if req.needPackage then req else { req with timeFlagPositon := 3 + 4 }
    let oad ← orStop .outside (oadPackage req.usrData 3)
    let (result, h, w) ← actionResponseNormalOmd afair req (h, { w with oadOmd := oad })
    if result = 0 then
      let w := w.put [0]
      if (← req.usr req.timeFlagPositon) = 0 then .ok (0, h, w.put [0]) else .ok (-1, h, w)
    else .ok (result, h, w)

/-- The frame of an answer around what `body` writes; it is closed only when `body` succeeds. -/
def inFrame (head : Byte) (body : H × Office → Except Stop (Int × H × Office)) : H × Office → Except Stop (Int × H × Office)
  | (h, w) => do
    let (d, lenPosition, hcsPosition) :=
      openResponse head w.dataTx (0xc0 ||| 0x03) (copiedAddr w.dataTx w.state.addr w.state.addr.ca)
    let (result, h, w) ← body (h, { w with dataTx := d })
    if result = 0 then
      let (result, d) ← orStop .outside (closeFrame w.dataTx lenPosition hcsPosition false)
      .ok (result, h, { w with dataTx := d })
    else .ok (result, h, w)

/-- `action_response_package`. Only requests for a single method are answered. -/
def actionResponsePackage (req : Request) : H × Office → Except Stop (Int × H × Office) :=
  inFrame req.head fun (h, w) => do
    if (← req.usr 1) = 1 then actionResponsePackageNormal afair req (h, w) else .ok (-1, h, w)

/-- The values of an object of another class. -/
def Office.putObject (w : Office) (cls : ObjectClass) : Int × Office :=
  let (result, runs) := env.object cls w.state w.oadOmd
  (result, { w with dataTx := runs.foldl putBytes w.dataTx })

/-- `oi_charge_oib`. -/
def oiChargeOib (req : Request) : H × Office → Except Stop (Int × H × Office)
  | (h, w) =>
    if w.oadOmd.oi1 = 0x01 then
      if w.oadOmd.attributeId = 2 then askedCase afair .chgPlanIssueGet req (h, w) else .ok (-1, h, w)
    else if w.oadOmd.oi1 = 0x08 then
      if w.oadOmd.attributeId = 2 then
        let (result, w) := (w.put [1, 1]).putObject env .esamInfo
        .ok (result, h, w)
      else .ok (-1, h, w)
    else .ok (-1, h, w)

/-- `get_response_charge_oia`. -/
def getResponseChargeOia (req : Request) : H × Office → Except Stop (Int × H × Office)
  | (h, w) => if w.oadOmd.oi0 &&& 0x0f = 0 then oiChargeOib env afair req (h, w) else .ok (-1, h, w)

/-- `get_response_normal_oad`. -/
def getResponseNormalOad (req : Request) : H × Office → Except Stop (Int × H × Office)
  | (h, w) =>
    let w := w.putOad
    let object (cls : ObjectClass) : Except Stop (Int × H × Office) :=
      let (result, w) := w.putObject env cls
      .ok (result, h, w)
    let cls := (w.oadOmd.oi0 &&& 0xf0) >>> 4
    if cls = 0 then object .electrical
    else if cls = 2 then object .variable
    else if cls = 4 then object .parameter
    else if cls = 9 then getResponseChargeOia env afair req (h, w)
    else if cls = 0xf then object .esam
    else .ok (-1, h, w)

/-- `get_response_package_normal`. Unlike for a method, a request with a time tag is answered all the same. -/
def getResponsePackageNormal (req : Request) : H × Office → Except Stop (Int × H × Office)
  | (h, w) => do
    let w := w.put [0x85, ← req.usr 1, ← req.usr 2]
    let oad ← orStop .outside (oadPackage req.usrData 3)
    let (result, h, w) ← getResponseNormalOad env afair req (h, { w with oadOmd := oad })
    if result = 0 then
      let w := w.put [0]
      if (← req.usr (3 + 4)) = 0 then .ok (0, h, w.put [0]) else .ok (0, h, w)
    else .ok (result, h, w)

/-- The loop of `get_response_package_normal_list`: `n` more objects, number `i` next. The result of the last one counts. -/
def oadLoop (req : Request) : Nat → Nat → Int × H × Office → Except Stop (Int × H × Office)
  | 0, _, st => .ok st
  | n + 1, i, (_, h, w) => do
    let oad ← orStop .outside (oadPackage req.usrData (4 + 4 * i))
    let st ← getResponseNormalOad env afair req (h, { w with oadOmd := oad })
    oadLoop req n (i + 1) st

/-- `get_response_package_normal_list`. -/
def getResponsePackageNormalList (req : Request) : H × Office → Except Stop (Int × H × Office)
  | (h, w) => do
    let count ← req.usr 3
    let w := w.put [0x85, ← req.usr 1, ← req.usr 2, count]
    let (result, h, w) ← oadLoop env afair req count.toNat 0 (1, h, w)
    if result = 0 then .ok (0, h, w.put [0, 0]) else .ok (result, h, w)

/-- `get_response_package`. -/
def getResponsePackage (req : Request) : H × Office → Except Stop (Int × H × Office) :=
  inFrame req.head fun (h, w) => do
    let kind ← req.usr 1
    if kind = 1 then getResponsePackageNormal env afair req (h, w)
    else if kind = 2 then getResponsePackageNormalList env afair req (h, w)
    else .ok (-1, h, w)

end Routines

/-! ## `check_afair_from_botom` -/

/-- A call of `check_afair_from_botom` while the flags are set: the thread waits for itself. -/
def waitForLock : Unit × Office → Except Stop (Unit × Office) := fun _ => .error .lock

/-- The second pass of a kept request, while the flags are set. Some of the blocks clear `need_package` again after the call. -/
def answerKept (service : Service698) (k : Asked) (clears : Bool)
    (package : Request → Unit × Office → Except Stop (Int × Unit × Office)) (w : Office) : Except Stop (Int × Office) := do
  let w := w.setNeed k true
  let (result, _, w) ← package (w.kept k) ((), w)
  let w := if clears then w.setNeed k false else w
  .ok (result, if result = 0 then w.answered service else w)

/-- A call that stopped stays stopped. -/
def strict (f : Office → Except Stop (Int × Office)) (w : Except Stop Office) : Int × Except Stop Office :=
  match w >>= f with
  | .ok (result, w) => (result, .ok w)
  | .error stop => (-1, .error stop)

/-- The builders `check_afair_from_botom` calls. -/
def Services.reporters (env : Services) : Reporters (Except Stop Office) where
  actionResponsePackage
    | .chgPlanIssueAck => strict (answerKept .action .chgPlanIssue false (actionResponsePackage waitForLock))
    | .chgPlanAdjustAck => strict (answerKept .action .chgPlanAdjust true (actionResponsePackage waitForLock))
    | .startChgAck => strict (answerKept .action .startChg false (actionResponsePackage waitForLock))
    | .stopChgAck => strict (answerKept .action .stopChg true (actionResponsePackage waitForLock))
    | _ => fun w => (1, w)
  getResponsePackage := strict (answerKept .get .chgPlanIssueGet false (getResponsePackage env waitForLock))
  securityGetPackage := strict fun w =>
    let dataSize := 9 + (w.dataTx.priveData.getD (w.dataTx.frame698.usrData + 4) 0).toNat
    let (result, d) := env.securityGetPackage w.state { w.dataTx with dataSize := dataSize }
    .ok (result, { w with dataTx := d })
  reportCmdChgPlanExeState := strict fun w => do
    let (result, d) ← orStop .outside (EnergyRouter.reportCmdChgPlanExeState w.reportChargeExeState w.dataTx w.state)
    .ok (result, { w with dataTx := d })
  reportNotificationPackage cmd w := w.map fun w => { w with dataTx := env.reportNotificationPackage cmd w.state w.dataTx }
  hplcTxFrame := id

/-- The same port with another world. -/
def Hplc.withWorld {W V : Type} (s : Hplc W) (v : V) : Hplc V := ⟨s.lock1, s.lock2, s.hplcEvent, s.sent, v⟩

/-- The 698 thread: the port and what it works on. -/
abbrev Desk := Hplc Unit × Office

/-- `check_afair_from_botom` on the desk. -/
def Services.checkAfair (env : Services) : Desk → Except Stop (Int × Desk)
  | (h, w) =>
    match checkAfairFromBotom env.reporters (h.withWorld (.ok w)) with
    | none => .error .lock
    | some (result, s) => s.world.map fun w => (result, s.withWorld (), w)

/-- The call a routine makes in the first pass, its result dropped. -/
def Services.afair (env : Services) (desk : Desk) : Except Stop Desk := (env.checkAfair desk).map Prod.snd

/-! ## Runs -/

/-- What the energy control hands over with a command. -/
inductive Handed
  | rsp (r : ChargeStrategyRsp)
  | plans (ps : List ChargeStrategy)
  | exeState (e : ChargeExeState)
  | ctl (c : CtlCharge)
  | other
  deriving DecidableEq, Repr

/-- What `CtrlUnit_RecResp` stores of it. The record of a start or a stop is not looked at. -/
def Handed.store (handed : Handed) (cmd : CommCmd) (w : Office) : Office :=
  match cmd, handed with
  | .chgPlanIssueAck, .rsp r => { w with chgPlanIssueRsp := r }
  | .chgPlanAdjustAck, .rsp r => { w with chgPlanAdjustRsp := r }
  | .chgPlanIssueGetAck, .plans ps => { w with chargeStrategy698 := ps }
  | .chgPlanExeState, .exeState e => { w with reportChargeExeState := e }
  | _, _ => w

/-- What happens to the desk. `other` is a service that sets the flags of the link and rebuilds the transmit buffer. -/
inductive DeskOp
  | post (cmd : CommCmd) (handed : Handed)
  | take
  | poll (env : Services)
  | request (env : Services) (dataRev : CharPointDataManage)
  | other (linkFlag connectFlag : Byte) (frame : Frame698) (priveData : Vector Byte hplcDataMaxSize) (dataSize : Nat)

/-- A received request: the services of `rev_698_del_affairs` that are modelled here. -/
def Services.request (env : Services) (dataRev : CharPointDataManage) (desk : Desk) : Except Stop Desk := do
  let tag ← orStop .outside (dataRev.usrByte 0)
  if tag = 5 then
    let (result, h, w) ← getResponsePackage env env.afair dataRev.request desk
    .ok (h, if result = 0 then w.answered .get else w)
  else if tag = 7 then
    let (result, h, w) ← actionResponsePackage env.afair dataRev.request desk
    .ok (h, if result = 0 then w.answered .action else w)
  else .ok desk

/-- One event at the desk. -/
def Desk.step (desk : Desk) : DeskOp → Except Stop Desk
  | .post cmd handed => do
    let (_, s) ← orStop .lock (ctrlUnitRecResp (handed.store) cmd (desk.1.withWorld desk.2))
    .ok (s.withWorld (), s.world)
  | .take => do
    let (_, mask) ← orStop .strategyLock (strategyEventGet desk.2.mask)
    .ok (desk.1, { desk.2 with mask := mask })
  | .poll env => env.afair desk
  | .request env dataRev => env.request dataRev desk
  | .other linkFlag connectFlag frame priveData dataSize =>
    .ok (desk.1, { desk.2 with
      state := { desk.2.state with linkFlag := linkFlag, connectFlag := connectFlag }
      dataTx := { desk.2.dataTx with frame698 := frame, priveData := priveData, dataSize := dataSize } })

/-- The step of a run at the desk. -/
def Desk.next (desk : Desk) (op : DeskOp) : Option Desk := (desk.step op).toOption

/-- What the 698 thread works on after `hplc_inition` and `init_698_state`. -/
def powerUpOffice : Office where
  state := init698State getCurrentTime zeroState
  oadOmd := ⟨0, 0, 0, 0⟩
  dataTx := { zeroBuffer with size := hplcDataMaxSize }
  mask := ⟨false, false, 0⟩
  kept := fun k => ⟨0, k.initialData, 0, false, 0⟩
  chargeStrategyChgPlanIssue := zeroPlan
  chargeStrategyChgPlanAdjust := zeroPlan
  chgPlanIssueRsp := ⟨Vector.replicate 17 0, Vector.replicate 23 0, 0⟩
  chgPlanAdjustRsp := ⟨Vector.replicate 17 0, Vector.replicate 23 0, 0⟩
  chargeStrategy698 := []
  reportChargeExeState :=
    ⟨Vector.replicate 17 0, Vector.replicate 23 0, 0, Vector.replicate 5 0, Vector.replicate 5 0, Vector.replicate 5 0,
      0, 0, 0, 0, 0, 0⟩
  answers := []

/-- The desk at power-up. -/
def powerUpDesk : Desk := (idleHplc, powerUpOffice)

/-- Services that answer nothing about other objects. -/
def bareServices : Services where
  object := fun _ _ _ => (0, [])
  securityGetPackage := fun _ d => (0, d)
  reportNotificationPackage := fun _ _ d => d
  security_size := fun _ _ => rfl
  report_size := fun _ _ _ => rfl

/-- A received frame with the given user data. -/
def receivedApdu (apdu : List Byte) : CharPointDataManage :=
  { zeroBuffer with
    priveData := Buffer.copyAt zeroBuffer.priveData 14 apdu
    frame698 := { zeroBuffer.frame698 with head := 0x68, usrData := 14, usrDataLen := apdu.length } }

end EnergyRouter
