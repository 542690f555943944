import EnergyRouter.Theorems.PlanRoundTrip

/-!
# Reading a charge plan out of a request

`action_response_charge_strategy` checks no length and no number it takes from the frame. It also takes them from other places than
a plan encoded after 698.45 has them: it looks for a length one byte behind, and reads the year's low byte once more as the month.
-/

namespace EnergyRouter

open Buffer

/-! ## Bounds -/

/-- The place `action_response_normal_omd` hands to the reader: behind the four bytes of the method. -/
def planPositon : Nat := 3 + 4

/-- An action request whose method issues or adjusts a plan. -/
def CarriesPlan (dataRev : CharPointDataManage) : Prop :=
  dataRev.apdu[0]? = some 7 ∧ dataRev.apdu[1]? = some 1 ∧
    ((oadPackage dataRev.apdu 3).bind Oad698.method = some .chgPlanIssue ∨
      (oadPackage dataRev.apdu 3).bind Oad698.method = some .chgPlanAdjust)

instance (dataRev : CharPointDataManage) : Decidable (CarriesPlan dataRev) := by
  unfold CarriesPlan
  infer_instance

/-- The reader finishes with nothing but the user data before it, and in the buffer they are in it finishes with the same plan. -/
def ReadsInside (p : ChargeStrategy) (dataRev : CharPointDataManage) : Prop :=
  ∃ q, actionResponseChargeStrategy p dataRev.apdu planPositon = some q ∧
    actionResponseChargeStrategy p dataRev.request.usrData planPositon = some q

theorem request_usrData_eq (dataRev : CharPointDataManage) : ∃ behind, dataRev.request.usrData = dataRev.apdu ++ behind :=
  ⟨_, (List.take_append_drop dataRev.frame698.usrDataLen.toNat _).symm⟩

/-- A plan is read inside its request exactly when the bytes the reader takes for lengths are at most 16, 64 and 22, the byte it takes
for the number of slots at most 50, and the user data long enough for them. -/
theorem plan_read_inside_iff (p : ChargeStrategy) (dataRev : CharPointDataManage) :
    ReadsInside p dataRev ↔ PlanFits dataRev.apdu planPositon := by
  constructor
  · rintro ⟨q, hq, _⟩
    exact (actionResponseChargeStrategy_eq_some hq).1
  · intro hfits
    obtain ⟨q, hq⟩ := hfits.read p
    obtain ⟨behind, hbehind⟩ := request_usrData_eq dataRev
    refine ⟨q, hq, ?_⟩
    rw [hbehind]
    exact (actionResponseChargeStrategy_local p _).append hq behind

/-- The issue of a plan whose request number begins with the digit 0. -/
def digitPlanApdu : List Byte :=
  [7#8, 1, 0, 0x90, 0x01, 0x7f, 0, 2, 10, 9, 16] ++ List.replicate 16 0x30#8 ++ [10#8, 64] ++ List.replicate 64 0x30#8 ++
    [22#8, 1, 22, 1, 28, 0x07, 0xe5, 6, 1, 8, 0, 0, 10, 22] ++ List.replicate 22 0x30#8 ++
    [6#8, 0, 0, 0x27, 0x10, 5, 0, 1, 0x11, 0x70, 22, 0, 1, 0, 0]

/-- The digit is taken for a length, and 49 bytes are copied into an array of 17. -/
theorem digitPlanRequest_outside :
    CarriesPlan (receivedApdu digitPlanApdu) ∧ ¬ ReadsInside zeroPlan (receivedApdu digitPlanApdu) := by
  have hapdu : (receivedApdu digitPlanApdu).apdu = digitPlanApdu := receivedApdu_apdu (by simp [digitPlanApdu, hplcDataMaxSize])
  refine ⟨?_, ?_⟩
  · rw [CarriesPlan, hapdu]
    decide
  · rintro ⟨q, hq, _⟩
    have hlen := (actionResponseChargeStrategy_eq_some hq).1.requestNO
    rw [hapdu] at hlen
    revert hlen
    decide

/-! ## Plans after 698.45 -/

/-- A time on the wire, `date_time_s`. -/
structure WireTime where
  year : BitVec 16
  month : Byte
  day : Byte
  hour : Byte
  minute : Byte
  second : Byte
  deriving DecidableEq, Repr

def WireTime.bytes (t : WireTime) : List Byte :=
  [(t.year >>> 8).setWidth 8, t.year.setWidth 8, t.month, t.day, t.hour, t.minute, t.second]

/-- The time as the router keeps it: the year without its two thousand. -/
def WireTime.time (t : WireTime) : SystemTime :=
  { zeroTime with
    year := BitVec.ofNat 8 (t.year.toNat % 2000)
    month := t.month
    day := t.day
    hour := t.hour
    minute := t.minute
    second := t.second }

/-- A time slot on the wire: a structure of two times and a power. -/
structure WireSlot where
  start : WireTime
  stop : WireTime
  power : BitVec 32
  deriving DecidableEq, Repr

def WireSlot.bytes (s : WireSlot) : List Byte := [2#8, 3, 28] ++ s.start.bytes ++ 28#8 :: s.stop.bytes ++ 5#8 :: bytesOf32 s.power

/-- A plan as its sender has it. The lengths of the strings and the number of the slots go into a byte each. -/
structure WirePlan where
  requestNO : List Byte
  userID : List Byte
  decMaker : Byte
  decType : Byte
  decTime : WireTime
  assetNO : List Byte
  reqEle : BitVec 32
  ratePow : BitVec 32
  chargeMode : Byte
  slots : List WireSlot
  requestNO_lt : requestNO.length < 256
  userID_lt : userID.length < 256
  assetNO_lt : assetNO.length < 256
  slots_lt : slots.length < 256

/-- A string behind its tag and its length. -/
def taggedString (tag : Byte) (str : List Byte) : List Byte := tag :: BitVec.ofNat 8 str.length :: str

/-- The plan up to its slots: a structure of ten members, the last of which is the array of the slots. -/
def WirePlan.head (w : WirePlan) : List Byte :=
  [2#8, 10] ++ taggedString 9 w.requestNO ++ taggedString 10 w.userID ++ [22#8, w.decMaker, 22, w.decType] ++
    28#8 :: w.decTime.bytes ++ taggedString 10 w.assetNO ++ 6#8 :: bytesOf32 w.reqEle ++ 5#8 :: bytesOf32 w.ratePow ++
    [22#8, w.chargeMode, 1, BitVec.ofNat 8 w.slots.length]

def WirePlan.bytes (w : WirePlan) : List Byte := w.head ++ w.slots.flatMap WireSlot.bytes

theorem WireSlot.bytes_length (s : WireSlot) : s.bytes.length = 23 := rfl

/-- The place of slot number `j` in a plan that begins at `i`. -/
def WirePlan.slotPlace (w : WirePlan) (i j : Nat) : Nat := i + w.head.length + 23 * j

/-- The bytes of a slot stand at its place. -/
theorem WirePlan.drop_slotPlace (w : WirePlan) {pre behind : List Byte} {j : Nat} {s : WireSlot} (h : w.slots[j]? = some s) :
    ∃ rest, (pre ++ w.bytes ++ behind).drop (w.slotPlace pre.length j) = s.bytes ++ rest := by
  have hflat : ∀ (l : List WireSlot) (j : Nat), l[j]? = some s →
      ∃ rest, (l.flatMap WireSlot.bytes).drop (23 * j) = s.bytes ++ rest := by
    intro l
    induction l with
    | nil =>
      intro j hj
      cases hj
    | cons x l ih =>
      intro j hj
      cases j with
      | zero =>
        cases hj
        exact ⟨_, rfl⟩
      | succ j =>
        obtain ⟨rest, hrest⟩ := ih j hj
        refine ⟨rest, ?_⟩
        rw [List.flatMap_cons, Nat.mul_succ, Nat.add_comm, ← List.drop_drop, List.drop_left' x.bytes_length, hrest]
  obtain ⟨rest, hrest⟩ := hflat w.slots j h
  have hle : 23 * j ≤ (w.slots.flatMap WireSlot.bytes).length := by
    by_contra hlt
    rw [List.drop_eq_nil_of_le (by omega)] at hrest
    cases hrest
  refine ⟨rest ++ behind, ?_⟩
  rw [slotPlace, ← List.drop_drop, ← List.drop_drop, List.append_assoc, List.drop_left, bytes, List.append_assoc, List.drop_left,
    List.drop_append_of_le_length hle, hrest, List.append_assoc]

/-- The places a time has its bytes at. -/
def ownTimePlaces (i : Nat) : TimePlaces := ⟨i, i + 1, i + 2, i + 3, i + 4, i + 5, i + 6⟩

/-- Read at its own places, a time is the sender's. -/
theorem ownTimePlaces_read {usrData rest : List Byte} {i : Nat} {t : WireTime} (h : usrData.drop i = t.bytes ++ rest)
    (old : SystemTime) :
    SameTime t.time ((ownTimePlaces i).read usrData old) := by
  have hread : ∀ k, usrData.getD (i + k) 0 = (t.bytes ++ rest).getD k 0 := by
    intro k
    rw [← h, List.getD_eq_getElem?_getD, List.getD_eq_getElem?_getD, List.getElem?_drop]
  have hyear : ((t.year >>> 8).setWidth 8 : Byte).toNat * 256 + (t.year.setWidth 8 : Byte).toNat = t.year.toNat := by
    have := t.year.isLt
    simp only [BitVec.toNat_setWidth, BitVec.toNat_ushiftRight, Nat.shiftRight_eq_div_pow]
    omega
  refine ⟨?_, hread 2, hread 3, hread 4, hread 5, hread 6⟩
  show BitVec.ofNat 8 (((usrData.getD i 0).toNat * 256 + (usrData.getD (i + 1) 0).toNat) % 2000) = _
  rw [show usrData.getD i 0 = _ from hread 0, hread 1]
  show BitVec.ofNat 8 ((((t.year >>> 8).setWidth 8 : Byte).toNat * 256 + (t.year.setWidth 8 : Byte).toNat) % 2000) = _
  rw [hyear]
  rfl

/-- Slot `s`, number `j` of a plan, is read as it was sent: its times from their own places, with the sender's values and power, and
the reader is left where the next slot begins. -/
structure WirePlan.ReadsSlot (w : WirePlan) (p : ChargeStrategy) (pre behind : List Byte) (j : Nat) (s : WireSlot) : Prop where
  startPlaces : soltTimePlaces (soltAt (pre ++ w.bytes ++ behind) pre.length j + 3) = ownTimePlaces (w.slotPlace pre.length j + 3)
  stopPlaces : soltTimePlaces (soltAt (pre ++ w.bytes ++ behind) pre.length j + 17) = ownTimePlaces (w.slotPlace pre.length j + 11)
  values : ∃ q, actionResponseChargeStrategy p (pre ++ w.bytes ++ behind) pre.length = some q ∧
    SameTime s.start.time (q.slot j).strDecStartTime ∧ SameTime s.stop.time (q.slot j).strDecStopTime ∧
    (q.slot j).ulChargePow = s.power
  next : soltAt (pre ++ w.bytes ++ behind) pre.length (j + 1) = w.slotPlace pre.length (j + 1)

/-- The reader takes the month from the year, wherever it looks for the time. -/
theorem soltTimePlaces_ne_own (i k : Nat) : soltTimePlaces i ≠ ownTimePlaces k := by
  intro h
  have hyear : i = k := congrArg TimePlaces.yearHigh h
  have hmonth : i + 1 = k + 2 := congrArg TimePlaces.month h
  omega

/-- From eight to ten on the first of June 2021, with 7 kW. -/
def juneSlot : WireSlot := ⟨⟨2021, 6, 1, 8, 0, 0⟩, ⟨2021, 6, 1, 10, 0, 0⟩, 70000⟩

/-- A plan of one slot. Each string begins with its length, so that the reader stays inside. -/
def junePlan : WirePlan where
  requestNO := 16 :: List.replicate 15 0x30
  userID := 64 :: List.replicate 63 0x30
  decMaker := 1
  decType := 1
  decTime := ⟨2021, 6, 1, 7, 30, 0⟩
  assetNO := 22 :: List.replicate 21 0x30
  reqEle := 10000
  ratePow := 70000
  chargeMode := 0
  slots := [juneSlot]
  requestNO_lt := by decide
  userID_lt := by decide
  assetNO_lt := by decide
  slots_lt := by decide

/-- The method in front of the plan. -/
def planIssueHead : List Byte := [7, 1, 0, 0x90, 0x01, 0x7f, 0]

end EnergyRouter
