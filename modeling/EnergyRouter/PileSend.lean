import EnergyRouter.PileReceive

/-!
# Frames the charge pile sends

The data `Inform_Communicate_Can` puts into the frames of the time and of the telemetry. `CAN1_Send_Msg` fills what a frame does not
use with zeros.
-/

namespace EnergyRouter

/-- `CAN1_Send_Msg`: eight bytes are sent, zero behind the data. -/
def can1SendMsg (id : BitVec 29) (data : List Byte) : CanMsg := ⟨id, Vector.ofFn fun i => data.getD i 0⟩

theorem can1SendMsg_toList (id : BitVec 29) {data : List Byte} (h : data.length ≤ 8) :
    (can1SendMsg id data).data.toList = data ++ List.replicate (8 - data.length) 0 := by
  refine List.ext_getElem (by simp; omega) ?_
  intro i hi hi'
  by_cases hdata : i < data.length
  · simp [can1SendMsg, hdata]
  · rw [List.getElem_append_right (by omega), List.getElem_replicate]
    simp [can1SendMsg, hdata]

/-- The identifier of a frame of priority 6 from the router (0x8A) to the controller of the pile (0xF6). -/
def frameId (sendCmd : Byte) : BitVec 29 := ((6#29 <<< 26) + (sendCmd.setWidth 29 <<< 16)) + ((0xF6#29 <<< 8) + 0x8A#29)

/-- `TimingFrame`: the seconds go as milliseconds in 16 bits, the week and the day share a byte. -/
def informTiming (chargIdent : Byte) (now : SystemTime) : CanMsg :=
  let temp1 : BitVec 16 := now.second.setWidth 16 * 1000
  can1SendMsg (frameId 0x05)
    [chargIdent, temp1.setWidth 8, (temp1 >>> 8).setWidth 8, now.minute &&& 0x3F#8, now.hour &&& 0x1F#8,
      (now.week <<< 5) + (now.day &&& 0x1F#8), now.month &&& 0x0F#8, now.year &&& 0x7F#8]

/-- The low and the high byte of a value, in the order they are sent. -/
def lowHigh (value : BitVec 16) : List Byte := [value.setWidth 8, (value >>> 8).setWidth 8]

theorem high_append_low (value : BitVec 16) : (value >>> 8).setWidth 8 ++ value.setWidth 8 = value := by
  ext i hi
  rw [BitVec.getElem_append, ← BitVec.getLsbD_eq_getElem]
  split_ifs with hlow
  · simp
  · simp only [BitVec.getElem_setWidth, BitVec.getLsbD_ushiftRight]
    congr 1
    omega

/-- `YcSendDataFrame`: the number of the frame and seven bytes of the values one behind the other, with their sum at the end. -/
def informYc (chargIdent : Byte) (yc : Yc) (electricity chrgTime : BitVec 16) : List CanMsg :=
  let first : List Byte :=
    [0x04] ++ lowHigh 0x15 ++ [chargIdent] ++ lowHigh yc.chargVa ++ [yc.chargVb.setWidth 8]
  let second : List Byte :=
    [(yc.chargVb >>> 8).setWidth 8] ++ lowHigh yc.chargVc ++ lowHigh yc.chargIa ++ lowHigh yc.chargIb
  let third : List Byte := lowHigh yc.chargIc ++ lowHigh electricity ++ lowHigh chrgTime
  let addition : BitVec 16 := addBytes (addBytes (addBytes 0 first) second) third
  [can1SendMsg (frameId 0x31) (0x01 :: first), can1SendMsg (frameId 0x31) (0x02 :: second),
    can1SendMsg (frameId 0x31) (0x03 :: (third ++ [addition.setWidth 8])),
    can1SendMsg (frameId 0x31) [0x04, (addition >>> 8).setWidth 8]]

end EnergyRouter
