import EnergyRouter.Connect

/-!
# The objects of a get request

The reply of the meter is decoded into one record (`cmMeterStateUpdate`); the handlers of the object classes write the values of an
object behind its OAD. A handler is given as its result and the runs of bytes it hands to `save_char_point_data`.
-/

namespace EnergyRouter

open Buffer

/-! ## The record of the meter -/

/-- `ScmMeter_Analog`. -/
structure MeterAnalog where
  ulVol : BitVec 32
  ulCur : BitVec 32
  ulAcPwr : BitVec 32
  ulMeterTotal : BitVec 32
  ulPwrFactor : BitVec 32
  ulFrequency : BitVec 32
  deriving DecidableEq, Repr

/-- `USCRCLo`. -/
def uscrcLo : List Byte := [
  0x00, 0xc1, 0x81, 0x40, 0x01, 0xc0, 0x80, 0x41, 0x01, 0xc0, 0x80, 0x41, 0x00, 0xc1, 0x81, 0x40,
  0x01, 0xc0, 0x80, 0x41, 0x00, 0xc1, 0x81, 0x40, 0x00, 0xc1, 0x81, 0x40, 0x01, 0xc0, 0x80, 0x41,
  0x01, 0xc0, 0x80, 0x41, 0x00, 0xc1, 0x81, 0x40, 0x00, 0xc1, 0x81, 0x40, 0x01, 0xc0, 0x80, 0x41,
  0x00, 0xc1, 0x81, 0x40, 0x01, 0xc0, 0x80, 0x41, 0x01, 0xc0, 0x80, 0x41, 0x00, 0xc1, 0x81, 0x40,
  0x01, 0xc0, 0x80, 0x41, 0x00, 0xc1, 0x81, 0x40, 0x00, 0xc1, 0x81, 0x40, 0x01, 0xc0, 0x80, 0x41,
  0x00, 0xc1, 0x81, 0x40, 0x01, 0xc0, 0x80, 0x41, 0x01, 0xc0, 0x80, 0x41, 0x00, 0xc1, 0x81, 0x40,
  0x00, 0xc1, 0x81, 0x40, 0x01, 0xc0, 0x80, 0x41, 0x01, 0xc0, 0x80, 0x41, 0x00, 0xc1, 0x81, 0x40,
  0x01, 0xc0, 0x80, 0x41, 0x00, 0xc1, 0x81, 0x40, 0x00, 0xc1, 0x81, 0x40, 0x01, 0xc0, 0x80, 0x41,
  0x01, 0xc0, 0x80, 0x41, 0x00, 0xc1, 0x81, 0x40, 0x00, 0xc1, 0x81, 0x40, 0x01, 0xc0, 0x80, 0x41,
  0x00, 0xc1, 0x81, 0x40, 0x01, 0xc0, 0x80, 0x41, 0x01, 0xc0, 0x80, 0x41, 0x00, 0xc1, 0x81, 0x40,
  0x00, 0xc1, 0x81, 0x40, 0x01, 0xc0, 0x80, 0x41, 0x01, 0xc0, 0x80, 0x41, 0x00, 0xc1, 0x81, 0x40,
  0x01, 0xc0, 0x80, 0x41, 0x00, 0xc1, 0x81, 0x40, 0x00, 0xc1, 0x81, 0x40, 0x01, 0xc0, 0x80, 0x41,
  0x00, 0xc1, 0x81, 0x40, 0x01, 0xc0, 0x80, 0x41, 0x01, 0xc0, 0x80, 0x41, 0x00, 0xc1, 0x81, 0x40,
  0x01, 0xc0, 0x80, 0x41, 0x00, 0xc1, 0x81, 0x40, 0x00, 0xc1, 0x81, 0x40, 0x01, 0xc0, 0x80, 0x41,
  0x01, 0xc0, 0x80, 0x41, 0x00, 0xc1, 0x81, 0x40, 0x00, 0xc1, 0x81, 0x40, 0x01, 0xc0, 0x80, 0x41,
  0x00, 0xc1, 0x81, 0x40, 0x01, 0xc0, 0x80, 0x41, 0x01, 0xc0, 0x80, 0x41, 0x00, 0xc1, 0x81, 0x40]

/-- `USCRCHi`. -/
def uscrcHi : List Byte := [
  0x00, 0xc0, 0xc1, 0x01, 0xc3, 0x03, 0x02, 0xc2, 0xc6, 0x06, 0x07, 0xc7, 0x05, 0xc5, 0xc4, 0x04,
  0xcc, 0x0c, 0x0d, 0xcd, 0x0f, 0xcf, 0xce, 0x0e, 0x0a, 0xca, 0xcb, 0x0b, 0xc9, 0x09, 0x08, 0xc8,
  0xd8, 0x18, 0x19, 0xd9, 0x1b, 0xdb, 0xda, 0x1a, 0x1e, 0xde, 0xdf, 0x1f, 0xdd, 0x1d, 0x1c, 0xdc,
  0x14, 0xd4, 0xd5, 0x15, 0xd7, 0x17, 0x16, 0xd6, 0xd2, 0x12, 0x13, 0xd3, 0x11, 0xd1, 0xd0, 0x10,
  0xf0, 0x30, 0x31, 0xf1, 0x33, 0xf3, 0xf2, 0x32, 0x36, 0xf6, 0xf7, 0x37, 0xf5, 0x35, 0x34, 0xf4,
  0x3c, 0xfc, 0xfd, 0x3d, 0xff, 0x3f, 0x3e, 0xfe, 0xfa, 0x3a, 0x3b, 0xfb, 0x39, 0xf9, 0xf8, 0x38,
  0x28, 0xe8, 0xe9, 0x29, 0xeb, 0x2b, 0x2a, 0xea, 0xee, 0x2e, 0x2f, 0xef, 0x2d, 0xed, 0xec, 0x2c,
  0xe4, 0x24, 0x25, 0xe5, 0x27, 0xe7, 0xe6, 0x26, 0x22, 0xe2, 0xe3, 0x23, 0xe1, 0x21, 0x20, 0xe0,
  0xa0, 0x60, 0x61, 0xa1, 0x63, 0xa3, 0xa2, 0x62, 0x66, 0xa6, 0xa7, 0x67, 0xa5, 0x65, 0x64, 0xa4,
  0x6c, 0xac, 0xad, 0x6d, 0xaf, 0x6f, 0x6e, 0xae, 0xaa, 0x6a, 0x6b, 0xab, 0x69, 0xa9, 0xa8, 0x68,
  0x78, 0xb8, 0xb9, 0x79, 0xbb, 0x7b, 0x7a, 0xba, 0xbe, 0x7e, 0x7f, 0xbf, 0x7d, 0xbd, 0xbc, 0x7c,
  0xb4, 0x74, 0x75, 0xb5, 0x77, 0xb7, 0xb6, 0x76, 0x72, 0xb2, 0xb3, 0x73, 0xb1, 0x71, 0x70, 0xb0,
  0x50, 0x90, 0x91, 0x51, 0x93, 0x53, 0x52, 0x92, 0x96, 0x56, 0x57, 0x97, 0x55, 0x95, 0x94, 0x54,
  0x9c, 0x5c, 0x5d, 0x9d, 0x5f, 0x9f, 0x9e, 0x5e, 0x5a, 0x9a, 0x9b, 0x5b, 0x99, 0x59, 0x58, 0x98,
  0x88, 0x48, 0x49, 0x89, 0x4b, 0x8b, 0x8a, 0x4a, 0x4e, 0x8e, 0x8f, 0x4f, 0x8d, 0x4d, 0x4c, 0x8c,
  0x44, 0x84, 0x85, 0x45, 0x87, 0x47, 0x46, 0x86, 0x82, 0x42, 0x43, 0x83, 0x41, 0x81, 0x80, 0x40]

/-- The loop of `CRC_16`: `len` bytes from the pointer on, with the high and the low byte of the register. -/
def crc16Loop : Byte → Byte → List Byte → Nat → Option (BitVec 16)
  | hi, lo, _, 0 => some (hi ++ lo)
  | _, _, [], _ + 1 => none
  | hi, lo, b :: pcData, len + 1 =>
    let cIndex := (lo ^^^ b).toNat
    crc16Loop (uscrcHi.getD cIndex 0) (hi ^^^ uscrcLo.getD cIndex 0) pcData len

/-- `CRC_16`. -/
def crc16 (pcData : List Byte) (len : Nat) : Option (BitVec 16) := crc16Loop 0xff 0xff pcData len

/-- A register of the reply, high byte first. -/
def replyWord (rxData : List Byte) (i : Nat) : BitVec 32 :=
  rxData.getD i 0 ++ rxData.getD (i + 1) 0 ++ rxData.getD (i + 2) 0 ++ rxData.getD (i + 3) 0

/-- The check of a reply: its last two bytes are the CRC of those before, low byte first. -/
def ReplyGood (rxData : List Byte) : Prop :=
  ∃ crc, crc16 rxData (rxData.length - 2) = some crc ∧ rxData[rxData.length - 2]? = some (crc.setWidth 8) ∧
    rxData[rxData.length - 1]? = some ((crc >>> 8).setWidth 8)

instance (rxData : List Byte) : Decidable (ReplyGood rxData) :=
  match h : crc16 rxData (rxData.length - 2) with
  | none => isFalse fun ⟨_, hcrc, _⟩ => Option.some_ne_none _ (hcrc.symm.trans h)
  | some crc =>
    decidable_of_iff (rxData[rxData.length - 2]? = some (crc.setWidth 8) ∧
        rxData[rxData.length - 1]? = some ((crc >>> 8).setWidth 8))
      ⟨fun hbytes => ⟨crc, h, hbytes⟩, fun ⟨_, hcrc, hbytes⟩ => Option.some.inj (h.symm.trans hcrc) ▸ hbytes⟩

/-- The quantities of a reply. -/
def decodeReply (rxData : List Byte) : MeterAnalog where
  ulVol := replyWord rxData 3 / 1000#32
  ulCur := replyWord rxData 7 / 100#32
  ulAcPwr := replyWord rxData 11 / 10#32
  ulMeterTotal := replyWord rxData 15 / 10#32
  ulPwrFactor := replyWord rxData 19 / 10#32
  ulFrequency := replyWord rxData 31

/-- `cmMeterStateUpdate`, of a reply as long as its `DataRx_len`. A reply that fails its check changes nothing. -/
def cmMeterStateUpdate (rxData : List Byte) (stMeterAnalog : MeterAnalog) : Byte × MeterAnalog :=
  if ReplyGood rxData then (0, decodeReply rxData) else (1, stMeterAnalog)

/-- The search of `cmMeterModbus_RecProtocal` for the start of a reply, with `n` bytes left to look at. -/
def modbusStart (rxbuf : Vector Byte 100) : Nat → Nat → Option Nat
  | 0, _ => none
  | n + 1, rxPtr =>
    if rxbuf.getD rxPtr 0 = 0x01 ∧ rxbuf.getD (rxPtr + 1) 0 = 0x03 ∧ rxbuf.getD (rxPtr + 2) 0 = 0x20 then some rxPtr
    else if rxPtr + 1 > 97 then none
    else modbusStart rxbuf n (rxPtr + 1)

/-- `cmMeterModbus_RecProtocal`. A reply has 37 bytes, also where the buffer has fewer left. -/
def cmMeterModbusRecProtocal (rxbuf : Vector Byte 100) (rxlenth : Nat) (stMeterAnalog : MeterAnalog) : Option MeterAnalog :=
  match modbusStart rxbuf rxlenth 0 with
  | none => some stMeterAnalog
  | some rxPtr =>
    if rxPtr + 37 ≤ 100 then some (cmMeterStateUpdate ((rxbuf.toList.drop rxPtr).take 37) stMeterAnalog).2 else none

/-! ## The handlers -/

/-- Bytes handed over one call each. -/
def single (bytes : List Byte) : List (List Byte) := bytes.map ([·])

/-- The runs of `get_data_class`: data follow, and of which type. -/
def classRuns (dataType : Byte) : List (List Byte) := single [0x01, dataType]

/-- A byte of a value, as the emission loops mask and shift it. -/
def maskedByte (v : BitVec 32) (i : Nat) : Byte :=
  ((v &&& (0xff000000#32 >>> ((3 - i % 4) * 8))) >>> ((i % 4) * 8)).setWidth 8

/-- Five values out of a table of twenty bytes, each with its type. -/
def energyTable (tempArray : List Byte) : List (List Byte) :=
  classRuns 1 ++ single [5] ++
    (List.range 20).flatMap fun i => single ((if i % 4 = 0 then [6] else []) ++ [tempArray.getD i 0])

/-- `oi_electrical_pap`. What it switches on is shifted out before, so the phase is not looked at. -/
def oiElectricalPap (oad : Oad698) : Int × List (List Byte) :=
  if (oad.oi1 &&& 0x0f) >>> 4 = 0 then
    if oad.attributeId = 2 then (0, energyTable [0, 0, 8, 4, 0, 0, 2, 1, 0, 0, 1, 1, 0, 0, 3, 1, 0, 0, 2, 1]) else (-1, [])
  else (-1, [])

/-- `oi_electrical_rap`. -/
def oiElectricalRap (oad : Oad698) : Int × List (List Byte) :=
  if (oad.oi1 &&& 0x0f) >>> 4 = 0 then
    if oad.attributeId = 2 then (0, energyTable [8, 0, 0, 4, 2, 0, 0, 1, 2, 0, 0, 1, 2, 0, 0, 1, 2, 0, 0, 1]) else (-1, [])
  else (-1, [])

/-- `oi_electrical_oib_sum`. -/
def oiElectricalOibSum (oad : Oad698) : Int × List (List Byte) :=
  if (oad.oi1 &&& 0xf0) >>> 4 = 1 then oiElectricalPap oad
  else if (oad.oi1 &&& 0xf0) >>> 4 = 2 then oiElectricalRap oad
  else (-1, [])

/-- `get_response_electrical_oia`. -/
def getResponseElectricalOia (oad : Oad698) : Int × List (List Byte) :=
  if oad.oi0 &&& 0x0f = 0 then oiElectricalOibSum oad else (-1, [])

/-- `oi_variable_oib_meterage`. The bytes sent for the voltage are those of the current. -/
def oiVariableOibMeterage (analog : MeterAnalog) (oad : Oad698) : Int × List (List Byte) :=
  if oad.oi1 = 0x00 then
    if oad.attributeId = 2 then
      (0, classRuns 1 ++ single [1, 18, ((analog.ulCur &&& 0x0000ff00#32) >>> 8).setWidth 8,
        (analog.ulCur &&& 0x0000ff#32).setWidth 8])
    else (-1, [])
  else if oad.oi1 = 0x01 then
    if oad.attributeId = 2 then
      (0, classRuns 1 ++ single ([1, 5] ++ [3, 2, 1, 0].map (maskedByte analog.ulCur)))
    else (-1, [])
  else if oad.oi1 = 0x04 then
    if oad.attributeId = 2 then
      (0, classRuns 1 ++ single [2] ++ [7, 6, 5, 4, 3, 2, 1, 0].flatMap fun i =>
        single ((if (i + 1) % 4 = 0 then [5] else []) ++ [maskedByte analog.ulAcPwr i]))
    else (-1, [])
  else (-1, [])

/-- `get_response_variable_oia`. -/
def getResponseVariableOia (analog : MeterAnalog) (oad : Oad698) : Int × List (List Byte) :=
  if oad.oi0 &&& 0x0f = 0 then oiVariableOibMeterage analog oad else (-1, [])

/-- `get_date_time_s`. The sums are masked as a whole, and the month takes its lower digit from the year. -/
def getDateTimeS (t : SystemTime) : List Byte :=
  let digits (high low : Byte) : Byte := ((high >>> 4) * 10 + low) &&& 0x0f
  [20, digits t.year t.year, digits t.month t.year, digits t.day t.day, digits t.hour t.hour, digits t.minute t.minute,
    digits t.second t.second]

/-- `oi_parameter_oib_general`: the time, and the address of the answer, copied there from the port's. -/
def oiParameterOibGeneral (t : SystemTime) (s : State698) (oad : Oad698) : Int × List (List Byte) :=
  if oad.oi1 = 0 then
    if oad.attributeId = 2 then (0, classRuns 28 ++ [getDateTimeS t]) else (-1, [])
  else if oad.oi1 = 1 then
    if oad.attributeId = 2 then
      (0, classRuns 9 ++ single [BitVec.ofInt 8 s.addr.sAddrLen] ++ [s.addr.sAddr.toList.take s.addr.sAddrLen.toNat])
    else (-1, [])
  else (-1, [])

/-- `get_response_parameter_oia`. -/
def getResponseParameterOia (t : SystemTime) (s : State698) (oad : Oad698) : Int × List (List Byte) :=
  if oad.oi0 &&& 0x0f = 0 then oiParameterOibGeneral t s oad else (-1, [])

/-- The runs of one attempt to read an attribute, and whether the chip had an answer. -/
def EsamAttribute.runs (comm : ScmEsamComm) : EsamAttribute → Bool × List (List Byte)
  | octets _ =>
    let head := classRuns 9 ++ single [BitVec.ofInt 8 ((comm.dataRxLen : Int) - 5)]
    if comm.dataRxLen < 12 then (false, head) else (true, head ++ [(comm.rx.drop 4).take (comm.dataRxLen - 5)])
  | counters =>
    let head := classRuns 2 ++ single [4]
    if comm.dataRxLen < 12 then (false, head)
    else (true, head ++ [4, 8, 12, 16].flatMap fun i => [[6], (comm.rx.drop i).take 4])

/-- The runs of the loop of `oi_esam_oib`, with `n` attempts left, the next one being number `times`. -/
def esamLoopRuns (attr : EsamAttribute) (comm : Nat → ScmEsamComm) : Nat → Nat → Int × List (List Byte)
  | 0, _ => (-1, single [0, 2])
  | n + 1, times =>
    if (attr.runs (comm times)).1 then (0, (attr.runs (comm times)).2)
    else ((esamLoopRuns attr comm n (times + 1)).1, (attr.runs (comm times)).2 ++ (esamLoopRuns attr comm n (times + 1)).2)

/-- The runs of `oi_esam_oib`. -/
def esamOibRuns (comm : Nat → ScmEsamComm) (oad : Oad698) : Int × List (List Byte) :=
  if oad.oi1 = 0 then
    match esamAttribute oad.attributeId with
    | some attr => esamLoopRuns attr comm 5 0
    | none => (-1, single [0, 6])
  else (-1, [])

/-- `get_response_esam_oia`. -/
def getResponseEsamOia (comm : Nat → ScmEsamComm) (oad : Oad698) : Int × List (List Byte) :=
  if oad.oi0 &&& 0x0f = 1 then esamOibRuns comm oad else (-1, [])

/-- `oi_esam_info_package`, behind the type that its caller has stored. -/
def oiEsamInfoPackage (comm : ScmEsamComm) : Int × List (List Byte) :=
  let head := single [BitVec.ofInt 8 ((comm.dataRxLen : Int) - 1)]
  if comm.dataRxLen < 1 then (-1, head) else (0, head ++ [(comm.rx.drop 4).take (comm.dataRxLen - 1)])

/-! ## The values of the program -/

/-- What the handlers read: the record of the meter, the clock, and the buffer of the security chip after each call. -/
structure Values where
  analog : MeterAnalog
  systemTime : SystemTime
  esam : Oad698 → Nat → ScmEsamComm

/-- The handlers by class. -/
def Values.object (v : Values) : ObjectClass → State698 → Oad698 → Int × List (List Byte)
  | .electrical, _, oad => getResponseElectricalOia oad
  | .variable, _, oad => getResponseVariableOia v.analog oad
  | .parameter, s, oad => getResponseParameterOia v.systemTime s oad
  | .esam, _, oad => getResponseEsamOia (v.esam oad) oad
  | .esamInfo, _, oad => oiEsamInfoPackage (v.esam oad 0)

/-- The services with the handlers of the program. -/
def Services.withValues (env : Services) (v : Values) : Services := { env with object := v.object }

end EnergyRouter
