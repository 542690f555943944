import EnergyRouter.Theorems.ListAnswers

/-!
# Reported readings

The record of the meter is that of the last reply whose check was good. Of what a get request is answered, current and power are
those of the reply, the voltage is sent with the bytes of the current, and the energy does not depend on the record.
-/

namespace EnergyRouter

open Buffer

variable {r : Vector Byte 100 × Nat} {rx : List Byte} {a a' record : MeterAnalog} {later : List (Vector Byte 100 × Nat)}
    {s : State698} {o : Oad698} {index : Byte}

/-! ## The record -/

/-- The reply `cmMeterModbus_RecProtocal` finds in what was received. -/
def replyIn (received : Vector Byte 100 × Nat) : Option (List Byte) :=
  (modbusStart received.1 received.2 0).map fun rxPtr => (received.1.toList.drop rxPtr).take 37

/-- The record after what was received, in order. -/
def recordAfter (a : MeterAnalog) (received : List (Vector Byte 100 × Nat)) : Option MeterAnalog :=
  received.foldlM (fun a r => cmMeterModbusRecProtocal r.1 r.2 a) a

theorem cmMeterModbusRecProtocal_good (hrx : replyIn r = some rx) (hgood : ReplyGood rx)
    (h : cmMeterModbusRecProtocal r.1 r.2 a = some a') : a' = decodeReply rx := by
  obtain ⟨rxPtr, hstart, rfl⟩ := Option.map_eq_some_iff.mp hrx
  rw [cmMeterModbusRecProtocal, hstart] at h
  dsimp only at h
  split_ifs at h
  rw [cmMeterStateUpdate, if_pos hgood] at h
  exact (Option.some.inj h).symm

theorem cmMeterModbusRecProtocal_bad (hbad : ∀ rx, replyIn r = some rx → ¬ ReplyGood rx)
    (h : cmMeterModbusRecProtocal r.1 r.2 a = some a') : a' = a := by
  rw [cmMeterModbusRecProtocal] at h
  cases hstart : modbusStart r.1 r.2 0 with
  | none =>
    rw [hstart] at h
    exact (Option.some.inj h).symm
  | some rxPtr =>
    rw [hstart] at h
    dsimp only at h
    split_ifs at h
    rw [cmMeterStateUpdate, if_neg (hbad _ (by rw [replyIn, hstart, Option.map_some]))] at h
    exact (Option.some.inj h).symm

/-- Replies that fail their check, or none at all, leave the record. -/
theorem recordAfter_bad (hbad : ∀ r ∈ later, ∀ rx, replyIn r = some rx → ¬ ReplyGood rx) (h : recordAfter a later = some a') :
    a' = a := by
  induction later generalizing a with
  | nil => exact (Option.some.inj h).symm
  | cons r later ih =>
    rw [recordAfter, List.foldlM_cons] at h
    obtain ⟨a₁, hone, hrest⟩ := Option.bind_eq_some_iff.mp h
    rw [ih (fun s hs => hbad s (List.mem_cons_of_mem _ hs)) hrest]
    exact cmMeterModbusRecProtocal_bad (hbad r List.mem_cons_self) hone

/-- The record is that of the last good reply. -/
theorem recordAfter_eq {earlier : List (Vector Byte 100 × Nat)} (hrx : replyIn r = some rx) (hgood : ReplyGood rx)
    (hbad : ∀ s ∈ later, ∀ rx, replyIn s = some rx → ¬ ReplyGood rx) (h : recordAfter a (earlier ++ r :: later) = some a') :
    a' = decodeReply rx := by
  rw [recordAfter, List.foldlM_append] at h
  obtain ⟨a₁, -, h⟩ := Option.bind_eq_some_iff.mp h
  rw [List.foldlM_cons] at h
  obtain ⟨a₂, hone, hrest⟩ := Option.bind_eq_some_iff.mp h
  rw [recordAfter_bad hbad hrest]
  exact cmMeterModbusRecProtocal_good hrx hgood hone

/-! ## The bytes of a quantity -/

/-- A number, high byte first. -/
def bigEndian (bytes : List Byte) : Nat := bytes.foldl (fun n b => n * 256 + b.toNat) 0

/-- The bytes of the emission loops are those of the value, the highest one with the highest index. -/
theorem maskedByte_toNat (v : BitVec 32) (i : Nat) : (maskedByte v i).toNat = v.toNat / 2 ^ (i % 4 * 8) % 256 := by
  have hlt : i % 4 < 4 := Nat.mod_lt _ (by decide)
  have hmask : ∀ k < 4, 0xff000000#32 >>> ((3 - k) * 8) = 0xff#32 <<< (k * 8) := by decide
  rw [maskedByte, hmask _ hlt, setWidth_mask_shift v (by omega), BitVec.toNat_setWidth, BitVec.toNat_ushiftRight,
    Nat.shiftRight_eq_div_pow]

theorem bigEndian_maskedBytes (v : BitVec 32) (j : Nat) :
    bigEndian ([4 * j + 3, 4 * j + 2, 4 * j + 1, 4 * j].map (maskedByte v)) = v.toNat := by
  have hlt := v.isLt
  simp only [List.map_cons, List.map_nil, bigEndian, List.foldl_cons, List.foldl_nil, maskedByte_toNat]
  rw [show (4 * j + 3) % 4 = 3 by omega, show (4 * j + 2) % 4 = 2 by omega, show (4 * j + 1) % 4 = 1 by omega,
    show 4 * j % 4 = 0 by omega]
  omega

theorem bigEndian_lowBytes (v : BitVec 32) :
    bigEndian [((v &&& 0x0000ff00#32) >>> 8).setWidth 8, (v &&& 0x0000ff#32).setWidth 8] = v.toNat % 65536 := by
  have h₈ : (((v &&& 0x0000ff00#32) >>> 8).setWidth 8 : Byte) = (v >>> 8).setWidth 8 := setWidth_mask_shift v (k := 8) (by omega)
  have h₀ : ((v &&& 0x0000ff#32).setWidth 8 : Byte) = v.setWidth 8 := setWidth_mask_shift v (k := 0) (by omega)
  rw [h₈, h₀]
  simp only [bigEndian, List.foldl_cons, List.foldl_nil, BitVec.toNat_setWidth, BitVec.toNat_ushiftRight, Nat.shiftRight_eq_div_pow]
  omega

/-! ## Quantities -/

/-- What a head end asks the meter for: voltage, current, active power, and the objects of active energy. -/
inductive Quantity
  | voltage
  | current
  | power
  | energy (phase : Fin 16)
  deriving DecidableEq, Repr

/-- The object of a quantity, attribute 2. -/
def Quantity.oad (index : Byte) : Quantity → Oad698
  | voltage => ⟨0x20, 0x00, 2, index⟩
  | current => ⟨0x20, 0x01, 2, index⟩
  | power => ⟨0x20, 0x04, 2, index⟩
  | energy phase => ⟨0x00, 0x10 + BitVec.ofNat 8 phase, 2, index⟩

/-- The data the program sends for it. -/
def Quantity.data (record : MeterAnalog) : Quantity → List Byte
  | voltage => [1, 1, 18, ((record.ulCur &&& 0x0000ff00#32) >>> 8).setWidth 8, (record.ulCur &&& 0x0000ff#32).setWidth 8]
  | current => [1, 1, 5] ++ [3, 2, 1, 0].map (maskedByte record.ulCur)
  | power => [1, 2, 5] ++ [7, 6, 5, 4].map (maskedByte record.ulAcPwr) ++ [5] ++ [3, 2, 1, 0].map (maskedByte record.ulAcPwr)
  | energy _ => (energyTable [0, 0, 8, 4, 0, 0, 2, 1, 0, 0, 1, 1, 0, 0, 3, 1, 0, 0, 2, 1]).flatten.drop 1

theorem objectRuns_of_electrical {env : Services} (hcls : (o.oi0 &&& 0xf0) >>> 4 = 0) :
    objectRuns env s o = env.object .electrical s o := if_pos hcls

theorem objectRuns_of_variable {env : Services} (hcls : (o.oi0 &&& 0xf0) >>> 4 = 2) :
    objectRuns env s o = env.object .variable s o := by
  have hne : ¬ (o.oi0 &&& 0xf0) >>> 4 = 0 := by
    rw [hcls]
    decide
  exact (if_neg hne).trans (if_pos hcls)

theorem objectRuns_energy (env : Services) (v : Values) (s : State698) (index : Byte) (phase : Fin 16) :
    objectRuns (env.withValues v) s (Quantity.oad index (.energy phase)) =
      oiElectricalOibSum (Quantity.oad index (.energy phase)) := by
  have hcls : ((0x00 : Byte) &&& 0xf0) >>> 4 = 0 := by decide
  have hlow : (Quantity.oad index (.energy phase)).oi0 &&& 0x0f = 0 := (by decide : (0x00 : Byte) &&& 0x0f = 0)
  rw [objectRuns_of_electrical (o := Quantity.oad index (.energy phase)) hcls, Services.withValues]
  dsimp only [Values.object]
  rw [getResponseElectricalOia, if_pos hlow]

theorem Quantity.objectRuns_eq (env : Services) (v : Values) (s : State698) (index : Byte) (q : Quantity) :
    (objectRuns (env.withValues v) s (q.oad index)).1 = 0 ∧
      (objectRuns (env.withValues v) s (q.oad index)).2.flatten = 1 :: q.data v.analog := by
  have hvariable (oi1 : Byte) : objectRuns (env.withValues v) s ⟨0x20, oi1, 2, index⟩ =
      oiVariableOibMeterage v.analog ⟨0x20, oi1, 2, index⟩ := by
    have hcls : ((0x20 : Byte) &&& 0xf0) >>> 4 = 2 := by decide
    have hlow : (0x20 : Byte) &&& 0x0f = 0 := by decide
    rw [objectRuns_of_variable (o := ⟨0x20, oi1, 2, index⟩) hcls, Services.withValues]
    dsimp only [Values.object]
    rw [getResponseVariableOia, if_pos hlow]
  cases q with
  | voltage =>
    rw [Quantity.oad, hvariable, oiVariableOibMeterage, if_pos rfl, if_pos rfl]
    exact ⟨rfl, rfl⟩
  | current =>
    rw [Quantity.oad, hvariable, oiVariableOibMeterage, if_neg (by decide : ¬ (0x01 : Byte) = 0x00), if_pos rfl, if_pos rfl]
    exact ⟨rfl, rfl⟩
  | power =>
    rw [Quantity.oad, hvariable, oiVariableOibMeterage, if_neg (by decide : ¬ (0x04 : Byte) = 0x00),
      if_neg (by decide : ¬ (0x04 : Byte) = 0x01), if_pos rfl, if_pos rfl]
    exact ⟨rfl, rfl⟩
  | energy phase =>
    have hphase : ∀ p : Fin 16, ((0x10 + BitVec.ofNat 8 p : Byte) &&& 0xf0) >>> 4 = 1 ∧
        ((0x10 + BitVec.ofNat 8 p : Byte) &&& 0x0f) >>> 4 = 0 := by decide
    rw [objectRuns_energy, Quantity.oad, oiElectricalOibSum, if_pos (hphase phase).1, oiElectricalPap,
      if_pos (hphase phase).2, if_pos rfl]
    exact ⟨rfl, rfl⟩

theorem Quantity.not_isPlan (index : Byte) (q : Quantity) : ¬ (q.oad index).IsPlan := by
  rintro ⟨⟨hcls, -⟩, -⟩
  cases q with
  | energy phase => exact absurd hcls (by show ¬ ((0x00 : Byte) &&& 0xf0) >>> 4 = 9; decide)
  | _ => exact absurd hcls (by show ¬ ((0x20 : Byte) &&& 0xf0) >>> 4 = 9; decide)

/-! ## What a request gets -/

section Request

variable {H : Type} (env : Services) (v : Values) (afair : H × Office → Except Stop (H × Office)) (req : Request)
  (h : H) (w : Office)

/-- With this record in the meter, `data` come behind the OAD of the object that is asked for. -/
def Gets (record : MeterAnalog) (data : List Byte) : Prop :=
  ∃ h' w', getResponseNormalOad (env.withValues { v with analog := record }) afair req (h, w) = .ok (0, h', w') ∧
    w'.dataTx.contents = w.dataTx.contents ++ (w.oadOmd.bytes ++ 1 :: data)

/-- The quantity is reported as it was read: voltage, current and power as numbers, the energy as something that depends on the
record. -/
def Quantity.Reported (record reading : MeterAnalog) : Quantity → Prop
  | voltage => ∃ bs, bs.length = 2 ∧ Gets env v afair req h w record ([1, 1, 18] ++ bs) ∧ bigEndian bs = reading.ulVol.toNat
  | current => ∃ bs, bs.length = 4 ∧ Gets env v afair req h w record ([1, 1, 5] ++ bs) ∧ bigEndian bs = reading.ulCur.toNat
  | power => ∃ bs bs', bs.length = 4 ∧ bs'.length = 4 ∧ Gets env v afair req h w record ([1, 2, 5] ++ bs ++ [5] ++ bs') ∧
      bigEndian bs = reading.ulAcPwr.toNat ∧ bigEndian bs' = reading.ulAcPwr.toNat
  | energy _ => ∃ record' data data', Gets env v afair req h w record data ∧ Gets env v afair req h w record' data' ∧ data ≠ data'

/-- When it is: there is room behind `used` bytes, and the voltage is the number in the lower half of the current. -/
def Quantity.Right (used : Nat) (reading : MeterAnalog) : Quantity → Prop
  | voltage => used + 10 ≤ 1023 ∧ reading.ulCur.toNat % 65536 = reading.ulVol.toNat
  | current => used + 12 ≤ 1023
  | power => used + 17 ≤ 1023
  | energy _ => False

variable {env v afair req h w}

/-- What a request for a quantity stores. -/
theorem Quantity.answer_eq {q : Quantity} (homd : w.oadOmd = q.oad index) (record : MeterAnalog) :
    getResponseNormalOad (env.withValues { v with analog := record }) afair req (h, w) =
      .ok (0, h, w.storing (oadRuns (env.withValues { v with analog := record }) w.state (q.oad index))) := by
  rw [getResponseNormalOad_eq (by rw [homd]; exact q.not_isPlan index), homd, (q.objectRuns_eq env _ w.state index).1]

theorem Gets.room {q : Quantity} (homd : w.oadOmd = q.oad index) (hsize : w.dataTx.size = hplcDataMaxSize) {data : List Byte}
    (hgets : Gets env v afair req h w record data) :
    w.dataTx.dataSize + 5 + data.length ≤ 1023 := by
  obtain ⟨h', w', hok, hcontents⟩ := hgets
  rw [Quantity.answer_eq homd] at hok
  cases hok
  have hlen := congrArg List.length hcontents
  have hmax := (puts_foldl w.dataTx (oadRuns (env.withValues { v with analog := record }) w.state (q.oad index))).bounded hsize
  rw [Office.storing_dataTx] at hlen
  simp only [CharPointDataManage.contents, front, List.length_append, List.length_take, Vector.length_toList, Oad698.bytes,
    List.length_cons, List.length_nil] at hlen
  have hbuffer : hplcDataMaxSize = 1024 := rfl
  omega

/-- With room a request gets the data of the quantity and nothing else. -/
theorem Quantity.gets_iff {q : Quantity} (homd : w.oadOmd = q.oad index) (hsize : w.dataTx.size = hplcDataMaxSize)
    (hroom : w.dataTx.dataSize + 5 + (q.data record).length ≤ 1023) (data : List Byte) :
    Gets env v afair req h w record data ↔ data = q.data record := by
  have hflat : (oadRuns (env.withValues { v with analog := record }) w.state (q.oad index)).flatten =
      w.oadOmd.bytes ++ 1 :: q.data record := by
    rw [oadRuns, List.flatten_append, single_flatten, (q.objectRuns_eq env _ w.state index).2, homd]
  have hcontents := (puts_foldl _ _).contents hsize
    (show w.dataTx.dataSize + (oadRuns (env.withValues { v with analog := record }) w.state (q.oad index)).flatten.length ≤ 1023 by
      rw [hflat, List.length_append, List.length_cons]
      simp only [Oad698.bytes, List.length_cons, List.length_nil]
      omega)
  rw [hflat] at hcontents
  constructor
  · rintro ⟨h', w', hok, hgot⟩
    rw [Quantity.answer_eq homd] at hok
    cases hok
    rw [Office.storing_dataTx, hcontents] at hgot
    exact (List.cons.inj (List.append_cancel_left (List.append_cancel_left hgot))).2.symm
  · rintro rfl
    exact ⟨h, _, Quantity.answer_eq homd record, by rw [Office.storing_dataTx, hcontents]⟩

/-- After a good reply, and replies that fail their check, every request for a quantity is answered with what was read exactly under
the condition. -/
theorem reading_reported_iff {a record : MeterAnalog} {earlier later : List (Vector Byte 100 × Nat)} {r : Vector Byte 100 × Nat}
    {rx : List Byte} (hrun : recordAfter a (earlier ++ r :: later) = some record) (hrx : replyIn r = some rx)
    (hgood : ReplyGood rx) (hbad : ∀ s ∈ later, ∀ rx, replyIn s = some rx → ¬ ReplyGood rx)
    (hsize : w.dataTx.size = hplcDataMaxSize) {q : Quantity} {index : Byte} (homd : w.oadOmd = q.oad index) :
    q.Reported env v afair req h w record (decodeReply rx) ↔ q.Right w.dataTx.dataSize (decodeReply rx) := by
  rw [recordAfter_eq hrx hgood hbad hrun]
  generalize decodeReply rx = reading
  cases q with
  | voltage =>
    constructor
    · rintro ⟨bs, hlen, hgets, hvalue⟩
      have hroom := hgets.room homd hsize
      rw [List.length_append, hlen] at hroom
      simp only [List.length_cons, List.length_nil] at hroom
      rw [Quantity.gets_iff homd hsize (by simp only [Quantity.data, List.length_cons, List.length_nil]; omega)] at hgets
      have hbs : bs = [((reading.ulCur &&& 0x0000ff00#32) >>> 8).setWidth 8, (reading.ulCur &&& 0x0000ff#32).setWidth 8] := by
        cases hgets
        rfl
      rw [hbs, bigEndian_lowBytes] at hvalue
      exact ⟨by omega, hvalue⟩
    · rintro ⟨hroom, hvalue⟩
      refine ⟨_, rfl, (Quantity.gets_iff homd hsize ?_ _).mpr rfl, ?_⟩
      · simp only [Quantity.data, List.length_cons, List.length_nil]
        omega
      · rw [bigEndian_lowBytes, hvalue]
  | current =>
    constructor
    · rintro ⟨bs, hlen, hgets, -⟩
      have hroom := hgets.room homd hsize
      rw [List.length_append, hlen] at hroom
      simp only [List.length_cons, List.length_nil] at hroom
      show w.dataTx.dataSize + 12 ≤ 1023
      omega
    · intro hroom
      refine ⟨_, rfl, (Quantity.gets_iff homd hsize ?_ _).mpr rfl, bigEndian_maskedBytes reading.ulCur 0⟩
      change w.dataTx.dataSize + 12 ≤ 1023 at hroom
      simp only [Quantity.data, List.length_append, List.length_map, List.length_cons, List.length_nil]
      omega
  | power =>
    constructor
    · rintro ⟨bs, bs', hlen, hlen', hgets, -⟩
      have hroom := hgets.room homd hsize
      simp only [List.length_append, hlen, hlen', List.length_cons, List.length_nil] at hroom
      show w.dataTx.dataSize + 17 ≤ 1023
      omega
    · intro hroom
      refine ⟨_, _, rfl, rfl, (Quantity.gets_iff homd hsize ?_ _).mpr rfl, bigEndian_maskedBytes reading.ulAcPwr 1,
        bigEndian_maskedBytes reading.ulAcPwr 0⟩
      change w.dataTx.dataSize + 17 ≤ 1023 at hroom
      simp only [Quantity.data, List.length_append, List.length_map, List.length_cons, List.length_nil]
      omega
  | energy phase =>
    constructor
    · -- the same bytes are sent whatever the record says
      rintro ⟨record', data, data', ⟨h₁, w₁, hok, hdata⟩, ⟨h₂, w₂, hok', hdata'⟩, hne⟩
      rw [Quantity.answer_eq homd, oadRuns, objectRuns_energy] at hok hok'
      cases hok
      cases hok'
      exact hne (List.cons.inj (List.append_cancel_left (List.append_cancel_left (hdata.symm.trans hdata')))).2
    · exact False.elim

end Request

/-! ## One reply -/

/-- A reply of 230.0 V, 5.00 A and 1150.000 W. -/
def meterReply : List Byte :=
  [0x01, 0x03, 0x20, 0x00, 0x23, 0x18, 0x60, 0x00, 0x00, 0xc3, 0x50, 0x00, 0xaf, 0x79, 0xe0] ++ List.replicate 20 0x00 ++
    [0xec, 0x4b]

def receivedReply : Vector Byte 100 × Nat := (copyAt (Vector.replicate 100 0) 0 meterReply, 37)

theorem replyIn_receivedReply : replyIn receivedReply = some meterReply := by decide +kernel

theorem replyGood_meterReply : ReplyGood meterReply := by decide +kernel

theorem recordAfter_receivedReply :
    recordAfter zeroValues.analog ([] ++ receivedReply :: []) = some (decodeReply meterReply) := by decide +kernel

/-- The current of this reply is reported. -/
theorem current_reported_five_amperes :
    (decodeReply meterReply).ulCur = 500 ∧
      Quantity.Reported bareServices zeroValues nothingToDo (energyList 1) ()
        { powerUpOffice with oadOmd := Quantity.oad 0 .current } (decodeReply meterReply) (decodeReply meterReply) .current :=
  ⟨by decide, (reading_reported_iff recordAfter_receivedReply replyIn_receivedReply replyGood_meterReply nofun rfl rfl).mpr
    (by decide : 0 + 12 ≤ 1023)⟩

/-- What the handlers read after it. -/
def replyValues : Values := { zeroValues with analog := decodeReply meterReply }

/-- A request for the voltage. -/
def voltageList : Request := ⟨0x68, [0x05, 0x02, 0x01, 0x01, 0x20, 0x00, 0x02, 0x00, 0x00], 9, false, 0⟩

/-- The answer to it says 50.0 V, which are the bytes of the current; the meter has read 230.0 V. -/
theorem voltage_answered_with_current :
    recordAfter zeroValues.analog [receivedReply] = some replyValues.analog ∧ ReplyGood meterReply ∧
      replyValues.analog.ulVol = 2300 ∧ replyValues.analog.ulCur = 500 ∧
      ∃ w', getResponsePackage (bareServices.withValues replyValues) nothingToDo voltageList ((), powerUpOffice) = .ok (0, (), w') ∧
        w'.dataTx.sentApdu = [0x85, 2, 1, 1, 0x20, 0x00, 2, 0, 1, 1, 1, 18, 0x01, 0xf4, 0, 0] ∧
        bigEndian [0x01, 0xf4] ≠ replyValues.analog.ulVol.toNat := by
  refine ⟨recordAfter_receivedReply, replyGood_meterReply, by decide, by decide, ?_⟩
  have hdata : Quantity.data replyValues.analog .voltage = [1, 1, 18, 0x01, 0xf4] := by decide
  have hruns (s : State698) : ([Quantity.oad 0 .voltage].flatMap (oadRuns (bareServices.withValues replyValues) s)).flatten =
      [0x20, 0x00, 2, 0, 1, 1, 1, 18, 0x01, 0xf4] := by
    rw [List.flatMap_singleton, oadRuns, List.flatten_append, single_flatten,
      (Quantity.objectRuns_eq bareServices replyValues s 0 .voltage).2, hdata]
    rfl
  have hanswer : ∃ w', getResponsePackage (bareServices.withValues replyValues) nothingToDo voltageList ((), powerUpOffice) =
      .ok (0, (), w') ∧ _ :=
    list_answered (lists_one (o := Quantity.oad 0 .voltage) rfl rfl rfl rfl (by decide)) rfl () sound_powerUpOffice rfl
      (Quantity.objectRuns_eq bareServices replyValues _ 0 .voltage).1 (by rw [hruns]; decide)
  obtain ⟨w', hsent, hapdu⟩ := hanswer
  rw [hruns] at hapdu
  exact ⟨w', hsent, hapdu, by decide⟩

end EnergyRouter
