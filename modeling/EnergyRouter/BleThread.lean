import Mathlib.Data.List.Basic

/-!
# The Bluetooth thread

`bluetooth_thread_entry` sets up the module by AT commands, waits for a connection, and goes over to transparent mode. A command is
sent again every second until its answer has come; a module that does not answer is switched off and on, and set up anew. What
`strstr` finds in the receive buffer is the input of a turn.
-/

namespace EnergyRouter

/-- `BLE_AT_CMD`. -/
inductive BleAtCmd
  | ate | init | name | addrSet | gattsSrv | gattsStart | advParam | advData | advStart | sppCfg | spp | quitTrans | disconn | reset
  | null
  deriving DecidableEq, Repr

/-- `AT_CmdDef`. -/
def atCmdDef : List String :=
  ["ATE0\r\n", "AT+BLEINIT=2\r\n", "AT+BLENAME=\"[NR000000000001]\"\r\n", "AT+BLEADDR=1,\"f1:f2:f3:f4:f5:f6\"\r\n",
    "AT+BLEGATTSSRVCRE\r\n", "AT+BLEGATTSSRVSTART\r\n", "AT+BLEADVPARAM=32,64,0,1,7\r\n",
    "AT+BLEADVDATA=\"02010611095B4E523030303030303030303030315D0303E0FF\"\r\n", "AT+BLEADVSTART\r\n", "AT+BLESPPCFG=1,1,1,1,1\r\n",
    "AT+BLESPP\r\n", "+++", "AT+BLEDISCONN\r\n", "AT+RST\r\n"]

/-- The values of `BLE_AT_CMD` in their order. -/
def BleAtCmd.all : List BleAtCmd :=
  [.ate, .init, .name, .addrSet, .gattsSrv, .gattsStart, .advParam, .advData, .advStart, .sppCfg, .spp, .quitTrans, .disconn, .reset,
    .null]

/-- `BLE_ATCmd++`, which is not done at the last value. -/
def BleAtCmd.next (c : BleAtCmd) : BleAtCmd := BleAtCmd.all.getD (c.ctorIdx + 1) .null

/-- The text of a command, of which the last value has none. -/
def BleAtCmd.text (c : BleAtCmd) : String := atCmdDef.getD c.ctorIdx ""

/-- The variables of the thread. `atMode` tells `g_ucProtocol`, `pwrOn` whether the module has power, and `sent` is what was written to
it so far. -/
@[ext]
structure BleThread where
  atMode : Bool
  atCmd : BleAtCmd
  atCmdOld : BleAtCmd
  atCmdCount : Nat
  pwrOn : Bool
  sent : List String
  deriving DecidableEq, Repr

/-- Which texts are in what was received. -/
structure Heard where
  ok : Bool
  conn : Bool
  write : Bool
  disconn : Bool
  deriving DecidableEq, Repr

/-- `BLE_ATCmd_TimeOut`. -/
def bleATCmdTimeOut (t : BleThread) : BleThread :=
  if t.atCmdOld = t.atCmd then
    if 10 < t.atCmdCount + 1 then { t with pwrOn := true, atCmd := .ate, atCmdOld := .null, atCmdCount := 0 }
    else if 6 < t.atCmdCount + 1 then { t with atCmdCount := t.atCmdCount + 1, pwrOn := false }
    else { t with atCmdCount := t.atCmdCount + 1 }
  else { t with atCmdOld := t.atCmd, atCmdCount := 0 }

/-- `BLE_ATCmd_Send`. -/
def bleATCmdSend (t : BleThread) : BleThread :=
  if t.atCmd = .null then t else bleATCmdTimeOut { t with sent := t.sent ++ [t.atCmd.text] }

/-- The command a waiting thread takes up. A connection that has ended goes before one that has begun. -/
def Heard.call (h : Heard) : BleAtCmd := if h.disconn then .quitTrans else if h.conn || h.write then .spp else .null

/-- What `BLE_ATCmd_Recv` makes of the command and the mode. -/
def bleATCmdHear (h : Heard) (t : BleThread) : BleThread :=
  if t.atCmd = .null then { t with atCmd := h.call }
  else if h.ok then
    if t.atCmd = .sppCfg then { t with atCmd := .null }
    else if t.atCmd = .spp then { t with atCmd := .null, atMode := false }
    else { t with atCmd := t.atCmd.next }
  else t

/-- What `BLE_Trans_Recv` makes of them. -/
def bleTransHear (h : Heard) (t : BleThread) : BleThread := if h.disconn then { t with atCmd := .quitTrans, atMode := true } else t

/-- `BLE_RecvData_Process`, when something has come in. -/
def bleRecvDataProcess (t : BleThread) : Option Heard → BleThread
  | none => t
  | some h => if t.atMode then bleATCmdHear h t else bleTransHear h t

/-- A turn of the loop of `bluetooth_thread_entry`. -/
def bluetoothTurn (t : BleThread) (heard : Option Heard) : BleThread :=
  let t := bleRecvDataProcess t heard
  if t.atMode then bleATCmdSend t else t

/-- The thread when the module was switched on. -/
def bluetoothFresh (sent : List String) : BleThread := ⟨true, .ate, .null, 0, true, sent⟩

/-- The states the thread can get to from its start. -/
def BleThread.Reached (t : BleThread) : Prop := ∃ heard, List.foldl bluetoothTurn (bluetoothFresh []) heard = t

end EnergyRouter
