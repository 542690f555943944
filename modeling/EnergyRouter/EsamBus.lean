import EnergyRouter.Esam

/-!
# An exchange call by call

`ESAM_Send_and_Recv` with its calls to the kernel and to the SPI driver in their order, without the delays. Behind `Rx_data` stands
`DataTx_len`, so that a reply two bytes longer is still taken as it comes.
-/

namespace EnergyRouter

open Buffer

/-- A call to the kernel or to the driver of the bus. -/
inductive BusCall
  | enterCritical
  | exitCritical
  | takeBus
  | releaseBus
  | take
  | release
  | send (data : List Byte)
  | recv (place : Nat) (data : List Byte)
  deriving DecidableEq, Repr

/-- How far an exchange has come: it is still receiving, it returned `RT_EOK` with a reply in `Rx_data`, or it returned `RT_ERROR`. -/
inductive ExchangeEnd
  | running
  | accepted (reply : List Byte)
  | failed
  deriving DecidableEq, Repr

/-- The receive loop, for at most `fuel` turns: the bytes of a reply are those just received. -/
def recvCalls (spi : Spi) : Nat → Nat → Nat → ExchangeEnd × List BusCall
  | 0, _, _ => (.running, [])
  | fuel + 1, pos, count =>
    if count < 50000 then
      if spi.line pos = 0x55 then
        let head := spi.read (pos + 1) 4
        let lenth := replyLenth (head.getD 2 0) (head.getD 3 0)
        if lenth < 1023 then
          let reply := head ++ spi.read (pos + 5) lenth
          let calls := [.recv 0 [spi.line pos], .recv 0 head, .recv 4 (spi.read (pos + 5) lenth), .release]
          if reply.getD (lenth + 3) 0 = esamCheck (reply.take (lenth + 3)) then
            (.accepted reply, calls ++ [.release, .releaseBus, .exitCritical])
          else
            let later := recvCalls spi fuel (pos + 5 + lenth) count
            (later.1, calls ++ .take :: later.2)
        else
          let later := recvCalls spi fuel (pos + 5) count
          (later.1, .recv 0 [spi.line pos] :: .recv 0 head :: later.2)
      else
        let later := recvCalls spi fuel (pos + 1) (count + 1)
        (later.1, .recv 0 [spi.line pos] :: later.2)
    else (.failed, [.release, .releaseBus, .exitCritical])

/-- `ESAM_Send_and_Recv`, with at most `fuel` turns of its loop. A bus that cannot be taken is not released. -/
def esamSendAndRecvCalls (fuel : Nat) (spi : Spi) (comm : ScmEsamComm) : ExchangeEnd × List BusCall :=
  if spi.takeBus then
    let later := recvCalls spi fuel 0 0
    (later.1,
      [.enterCritical, .takeBus, .take, .send (front comm.txData comm.dataTxLen), .release, .take] ++ later.2)
  else (.failed, [.enterCritical, .exitCritical])

/-- `ESAM_Communicattion` up to the return of the exchange. -/
def esamCommunicattionCalls (fuel : Nat) (sendbuf : Vector Byte 1024) (spi : Spi) (cmd : EsamCmd) (e : Esam) :
    Option (ExchangeEnd × List BusCall) :=
  (esamFrame sendbuf cmd e.comm).map fun frame =>
    esamSendAndRecvCalls fuel spi { e.driver with txData := copyAt e.driver.txData 0 (front frame.1 frame.2), dataTxLen := frame.2 }

/-- The lock of the scheduler, the holders of the bus, and whether the chip is selected. -/
structure BusState where
  lock : Int
  holders : Int
  selected : Bool
  deriving DecidableEq, Repr

/-- What a call does to them. -/
def BusCall.act (s : BusState) : BusCall → BusState
  | enterCritical => { s with lock := s.lock + 1 }
  | exitCritical => { s with lock := s.lock - 1 }
  | takeBus => { s with holders := s.holders + 1 }
  | releaseBus => { s with holders := s.holders - 1 }
  | take => { s with selected := true }
  | release => { s with selected := false }
  | send _ => s
  | recv _ _ => s

/-- What calls leave, one after another. -/
def busAfter (s : BusState) (calls : List BusCall) : BusState := calls.foldl BusCall.act s

/-- The frames a list of calls sends. -/
def sentBy (calls : List BusCall) : List (List Byte) :=
  calls.filterMap fun
    | .send data => some data
    | _ => none

/-- The number of reads among a list of calls. -/
def readsOf (calls : List BusCall) : Nat :=
  calls.countP fun
    | .recv _ _ => true
    | _ => false

end EnergyRouter
