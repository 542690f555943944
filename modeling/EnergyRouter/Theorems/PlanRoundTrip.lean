import EnergyRouter.Lemmas.PlanReader
import EnergyRouter.Lemmas.Requests
import EnergyRouter.Lib.Runs

/-!
# Writing a charge plan and reading it back

A plan with a time slot is never written to its end. Of a plan without slots, whose strings have their full lengths, the reader
finds every field one byte behind its place; what it makes of them is the plan again for a few plans only.
-/

namespace EnergyRouter

open Buffer Runs

variable {p : ChargeStrategy} {d : CharPointDataManage} {n i k : Nat} {usrData rest : List Byte} {b₀ b₁ b₂ : Byte}

/-! ## What is written -/

theorem strSystemTimeToDateTimeS_length (t : SystemTime) : (strSystemTimeToDateTimeS t).length = 7 := rfl

theorem planBytes_length (p : ChargeStrategy) : (planBytes p).length = 136 := by
  simp [planBytes, strSystemTimeToDateTimeS_length, bytesOf32_length]

/-! ## What is read -/

theorem takeString_of_drop {str : List Byte} (dst : Vector Byte n) (h : usrData.drop i = str ++ rest) (hstr : str.length = n)
    {b : Byte} (hb : str[0]? = some b) (hlen : b.toNat + 1 = n) :
    ∃ v, takeString usrData i dst = some (n, v) ∧ v.toList = str := by
  have hread : usrData[i]? = some b := by
    have : (usrData.drop i)[0]? = some b := by
      rw [h, List.getElem?_append_left (by omega), hb]
    rwa [List.getElem?_drop, Nat.add_zero] at this
  have hfits : i + n ≤ usrData.length := by
    have : (usrData.drop i).length = n + rest.length := by rw [h, List.length_append, hstr]
    rw [List.length_drop] at this
    omega
  refine ⟨copyAt dst 0 str, ?_, ?_⟩
  · rw [takeString, hread]
    show (if i + (b.toNat + 1) ≤ usrData.length ∧ b.toNat + 1 ≤ n then
      some (b.toNat + 1, copyAt dst 0 ((usrData.drop i).take (b.toNat + 1))) else none) = _
    rw [hlen, if_pos ⟨hfits, Nat.le_refl n⟩, h, List.take_left' hstr]
  · have hfront := front_copyAt_zero dst str (by omega)
    rw [hstr, front, List.take_of_length_le (by simp)] at hfront
    exact hfront

theorem takeLong_of_drop (h : usrData.drop i = b₀ :: b₁ :: b₂ :: rest) :
    takeLong usrData i =
      some ((b₀.setWidth 32 <<< 24) + (b₀.setWidth 32 <<< 16) + (b₁.setWidth 32 <<< 8) + b₂.setWidth 32) := by
  have hread : ∀ k, usrData[i + k]? = (b₀ :: b₁ :: b₂ :: rest)[k]? := by
    intro k
    rw [← h, List.getElem?_drop]
  have h₀ := hread 0
  rw [Nat.add_zero] at h₀
  simp only [takeLong, h₀, hread 1, hread 2, List.getElem?_cons_succ, List.getElem?_cons_zero]
  rfl

theorem takeDecTime_of_drop {b₃ b₄ : Byte} (h : usrData.drop i = b₀ :: b₁ :: b₂ :: b₃ :: b₄ :: rest) (t : SystemTime) :
    takeDecTime usrData i t =
      some { t with year := b₀, month := b₀, day := b₁, hour := b₂, minute := b₃, second := b₄ } := by
  have hread : ∀ k, usrData[i + k]? = (b₀ :: b₁ :: b₂ :: b₃ :: b₄ :: rest)[k]? := by
    intro k
    rw [← h, List.getElem?_drop]
  have h₀ := hread 0
  rw [Nat.add_zero] at h₀
  simp only [takeDecTime, h₀, hread 1, hread 2, hread 3, hread 4, List.getElem?_cons_succ, List.getElem?_cons_zero]
  rfl

/-- The three strings of a plan have their full lengths, each given in the string's first byte. -/
structure FullStrings (p : ChargeStrategy) : Prop where
  requestNO : p.cRequestNO.getD 0 0 = 16
  userID : p.cUserID.getD 0 0 = 64
  assetNO : p.cAssetNO.getD 0 0 = 22

instance (p : ChargeStrategy) : Decidable (FullStrings p) :=
  decidable_of_iff (p.cRequestNO.getD 0 0 = 16 ∧ p.cUserID.getD 0 0 = 64 ∧ p.cAssetNO.getD 0 0 = 22)
    ⟨fun ⟨h₁, h₂, h₃⟩ => ⟨h₁, h₂, h₃⟩, fun ⟨h₁, h₂, h₃⟩ => ⟨h₁, h₂, h₃⟩⟩

/-- What four bytes of a number are read as: the second byte stands for the first as well. -/
def misread32 (v : BitVec 32) : BitVec 32 :=
  let b := ((v &&& 0x00ff0000#32) >>> 16).setWidth 8
  (b.setWidth 32 <<< 24) + (b.setWidth 32 <<< 16) + ((((v &&& 0x0000ff00#32) >>> 8).setWidth 8).setWidth 32 <<< 8) +
    ((v &&& 0x000000ff#32).setWidth 8).setWidth 32

/-- What the reader makes of a plan without slots over the plan `dest`: the fields that count. -/
structure ReadBack (p dest q : ChargeStrategy) : Prop where
  cRequestNO : q.cRequestNO.toList = p.cRequestNO.toList.take 16 ++ [10]
  cUserID : q.cUserID.toList = p.cUserID.toList.take 64 ++ [22]
  cAssetNO : q.cAssetNO.toList = p.cAssetNO.toList.take 22 ++ [6]
  strDecTime : q.strDecTime = { dest.strDecTime with
    year := dateDigits p.strDecTime.month p.strDecTime.year
    month := dateDigits p.strDecTime.month p.strDecTime.year
    day := dateDigits p.strDecTime.day p.strDecTime.day
    hour := dateDigits p.strDecTime.hour p.strDecTime.hour
    minute := dateDigits p.strDecTime.minute p.strDecTime.minute
    second := dateDigits p.strDecTime.second p.strDecTime.second }
  ulChargeReqEle : q.ulChargeReqEle = misread32 p.ulChargeReqEle
  ulChargeRatePow : q.ulChargeRatePow = misread32 p.ulChargeRatePow
  ucTimeSlotNum : q.ucTimeSlotNum = dest.ucTimeSlotNum

theorem getElem?_take_append (v : Vector Byte n) (hn : 0 < n) (hk : 0 < k) (rest : List Byte) :
    (v.toList.take k ++ rest)[0]? = some (v.getD 0 0) := by
  have hlen : 0 < (v.toList.take k).length := by
    rw [List.length_take, Vector.length_toList]
    omega
  rw [List.getElem?_append_left hlen, List.getElem?_take_of_lt hk, Vector.getElem?_toList, Vector.getD,
    Array.getD_eq_getD_getElem?, Vector.getElem?_toArray, Vector.getElem?_eq_getElem hn, Option.getD_some]

/-- The reader takes the tag of the array of slots for their number, and reads one slot behind the plan. -/
theorem actionResponseChargeStrategy_outcome (hfull : FullStrings p) (dest : ChargeStrategy) (pre behind : List Byte) :
    Outcome (actionResponseChargeStrategy dest (pre ++ planBytes p ++ behind) pre.length) (33 ≤ behind.length)
      (ReadBack p dest) := by
  obtain ⟨usrData, husr⟩ : ∃ usrData, usrData = pre ++ planBytes p ++ behind := ⟨_, rfl⟩
  rw [← husr]
  -- what stands from each place on that the reader looks at, from the last place to the first
  let t₁₀ := 1#8 :: p.ucTimeSlotNum :: behind
  let t₉ := (bytesOf32 p.ulChargeRatePow).drop 1 ++ 22#8 :: p.ucDecType :: t₁₀
  let t₈ := (bytesOf32 p.ulChargeReqEle).drop 1 ++ 5#8 :: ((p.ulChargeRatePow &&& 0xff000000#32) >>> 24).setWidth 8 :: t₉
  let t₇ := (p.cAssetNO.toList.take 22 ++ [6#8]) ++ ((p.ulChargeReqEle &&& 0xff000000#32) >>> 24).setWidth 8 :: t₈
  let t₆ := (strSystemTimeToDateTimeS p.strDecTime).drop 2 ++ 10#8 :: 22#8 :: t₇
  let t₄ := 22#8 :: p.ucDecType :: 28#8 :: 20#8 :: dateDigits p.strDecTime.year p.strDecTime.year :: t₆
  let t₃ := (p.cUserID.toList.take 64 ++ [22#8]) ++ p.ucDecMaker :: t₄
  let t₂ := (p.cRequestNO.toList.take 16 ++ [10#8]) ++ 64#8 :: t₃
  have h₀ : usrData.drop pre.length = [2#8] ++ ([10#8] ++ ([9#8, 16] ++ t₂)) := by
    rw [husr, List.append_assoc, List.drop_left]
    simp [planBytes, t₂, t₃, t₄, t₆, t₇, t₈, t₉, t₁₀, strSystemTimeToDateTimeS, bytesOf32]
  have h₁ := drop_add_of_append (n := 1) h₀ rfl
  have h₂ := drop_add_of_append (n := 2) (drop_add_of_append (n := 1) h₁ rfl) rfl
  have h₃ : _ = t₃ := drop_add_of_append (a := [64#8]) (n := 1) (drop_add_of_append (n := 17) h₂ (by simp)) rfl
  have h₄ : _ = t₄ := drop_add_of_append (a := [p.ucDecMaker]) (n := 1) (drop_add_of_append (n := 65) h₃ (by simp)) rfl
  have h₅ := drop_add_of_append (a := [22#8, p.ucDecType]) (n := 2) h₄ rfl
  have h₆ : _ = t₆ := drop_add_of_append (a := [28#8, 20#8, _]) (n := 3) h₅ rfl
  have h₇ : _ = t₇ := drop_add_of_append (a := [10#8, 22#8]) (n := 2) (drop_add_of_append (n := 5) h₆ rfl) rfl
  have h₈ : _ = t₈ := drop_add_of_append (a := [_]) (n := 1) (drop_add_of_append (n := 23) h₇ (by simp)) rfl
  have h₉ : _ = t₉ := drop_add_of_append (a := [5#8, _]) (n := 2) (drop_add_of_append (n := 3) h₈ rfl) rfl
  have h₁₀ : _ = t₁₀ := drop_add_of_append (a := [22#8, p.ucDecType]) (n := 2) (drop_add_of_append (n := 3) h₉ rfl) rfl
  -- what the reader finds there
  obtain ⟨v₁, hv₁, hlist₁⟩ := takeString_of_drop dest.cRequestNO h₂ (by simp) (getElem?_take_append _ (by omega) (by omega) _)
    (by rw [hfull.requestNO]; rfl)
  obtain ⟨v₂, hv₂, hlist₂⟩ := takeString_of_drop dest.cUserID h₃ (by simp) (getElem?_take_append _ (by omega) (by omega) _)
    (by rw [hfull.userID]; rfl)
  obtain ⟨v₃, hv₃, hlist₃⟩ := takeString_of_drop dest.cAssetNO h₇ (by simp) (getElem?_take_append _ (by omega) (by omega) _)
    (by rw [hfull.assetNO]; rfl)
  have hslots := takeSolts_isSome usrData 1 0
    (pre.length + 1 + 1 + 2 + 17 + 1 + 65 + 1 + 2 + 3 + 5 + 2 + 23 + 1 + 3 + 2 + 3 + 2 + 1) dest.strChargeTimeSolts
  have hlen : usrData.length = pre.length + 136 + behind.length := by
    rw [husr, List.length_append, List.length_append, planBytes_length]
  have hread : actionResponseChargeStrategy dest usrData pre.length =
      (takeSolts usrData 1 0 (pre.length + 1 + 1 + 2 + 17 + 1 + 65 + 1 + 2 + 3 + 5 + 2 + 23 + 1 + 3 + 2 + 3 + 2 + 1)
        dest.strChargeTimeSolts).bind fun solts => some { dest with
          cRequestNO := v₁
          cUserID := v₂
          ucDecMaker := 22
          ucDecType := 28
          strDecTime := { dest.strDecTime with
            year := dateDigits p.strDecTime.month p.strDecTime.year
            month := dateDigits p.strDecTime.month p.strDecTime.year
            day := dateDigits p.strDecTime.day p.strDecTime.day
            hour := dateDigits p.strDecTime.hour p.strDecTime.hour
            minute := dateDigits p.strDecTime.minute p.strDecTime.minute
            second := dateDigits p.strDecTime.second p.strDecTime.second }
          cAssetNO := v₃
          ulChargeReqEle := misread32 p.ulChargeReqEle
          ulChargeRatePow := misread32 p.ulChargeRatePow
          strChargeTimeSolts := solts } := by
    simp only [actionResponseChargeStrategy, getElem?_of_drop h₁, Option.bind_eq_bind, Option.bind_some, hv₁, hv₂,
      getElem?_of_drop h₄, getElem?_of_drop h₅, takeDecTime_of_drop h₆, hv₃, takeLong_of_drop h₈, takeLong_of_drop h₉,
      getElem?_of_drop h₁₀]
    rfl
  rw [hread]
  constructor
  · intro hbehind
    obtain ⟨solts, hsolts⟩ := Option.isSome_iff_exists.mp (hslots.mpr (.inr ⟨by decide, by rw [soltStride]; omega⟩))
    rw [hsolts]
    exact ⟨_, rfl, hlist₁, hlist₂, hlist₃, rfl, rfl, rfl, rfl⟩
  · intro hbehind
    have hnone := mt hslots.mp (by
      rintro (hone | ⟨_, hbytes⟩)
      · omega
      · rw [soltStride] at hbytes
        omega)
    rw [Option.not_isSome_iff_eq_none.mp hnone]
    rfl

/-! ## When the plan comes back -/

/-- The same time, as far as it goes over the wire. -/
structure SameTime (t u : SystemTime) : Prop where
  year : u.year = t.year
  month : u.month = t.month
  day : u.day = t.day
  hour : u.hour = t.hour
  minute : u.minute = t.minute
  second : u.second = t.second

/-- The same plan: the strings, the time of the decision, the energy, the power and the time slots. -/
structure SamePlan (p q : ChargeStrategy) : Prop where
  cRequestNO : q.cRequestNO = p.cRequestNO
  cUserID : q.cUserID = p.cUserID
  cAssetNO : q.cAssetNO = p.cAssetNO
  strDecTime : SameTime p.strDecTime q.strDecTime
  ulChargeReqEle : q.ulChargeReqEle = p.ulChargeReqEle
  ulChargeRatePow : q.ulChargeRatePow = p.ulChargeRatePow
  ucTimeSlotNum : q.ucTimeSlotNum = p.ucTimeSlotNum
  slots : ∀ i < p.ucTimeSlotNum.toNat, SameTime (p.slot i).strDecStartTime (q.slot i).strDecStartTime ∧
    SameTime (p.slot i).strDecStopTime (q.slot i).strDecStopTime ∧ (q.slot i).ulChargePow = (p.slot i).ulChargePow

/-- The plan is written into the buffer `d`, and what was written, put between other bytes, is read over `dest` as the same plan. -/
def RoundTrips (p dest : ChargeStrategy) (d : CharPointDataManage) (pre behind : List Byte) : Prop :=
  ∃ d', chargeStrategyPackage p d = some d' ∧
    ∃ q, actionResponseChargeStrategy dest (pre ++ d'.contents.drop d.dataSize ++ behind) pre.length = some q ∧ SamePlan p q

/-- The plans that come back: without time slots, each string ending in the byte behind it on the wire, a decision time whose year
and month are one number and whose numbers are below sixteen, and an energy and a power whose two high bytes are alike. The plan
read over has no slots either, and there are bytes for the slot the reader believes in. -/
structure Returns (p dest : ChargeStrategy) (behind : List Byte) : Prop where
  noSlots : p.ucTimeSlotNum = 0
  destNoSlots : dest.ucTimeSlotNum = 0
  behind : 33 ≤ behind.length
  requestNO : p.cRequestNO.getD 16 0 = 10
  userID : p.cUserID.getD 64 0 = 22
  assetNO : p.cAssetNO.getD 22 0 = 6
  year : p.strDecTime.year = p.strDecTime.month
  month : p.strDecTime.month < 16
  day : p.strDecTime.day < 16
  hour : p.strDecTime.hour < 16
  minute : p.strDecTime.minute < 16
  second : p.strDecTime.second < 16
  reqEle : p.ulChargeReqEle >>> 24 = (p.ulChargeReqEle >>> 16) &&& 0xff#32
  ratePow : p.ulChargeRatePow >>> 24 = (p.ulChargeRatePow >>> 16) &&& 0xff#32

theorem dateDigits_self_iff (x : Byte) : dateDigits x x = x ↔ x < 16 := by
  revert x
  decide

theorem dateDigits_month_iff (m y : Byte) : dateDigits m y = y ∧ dateDigits m y = m ↔ y = m ∧ m < 16 := by
  have hsmall : ∀ x : Byte, x &&& 0x0f < 16 := by decide
  constructor
  · rintro ⟨hy, hm⟩
    exact ⟨hy.symm.trans hm, by rw [← hm]; exact hsmall _⟩
  · rintro ⟨rfl, hy⟩
    have := (dateDigits_self_iff y).mpr hy
    exact ⟨this, this⟩

/-- An array whose last byte was replaced is the array again when that byte was there. -/
theorem eq_of_take_append_iff {v w : Vector Byte (n + 1)} {x : Byte} (h : w.toList = v.toList.take n ++ [x]) :
    w = v ↔ v.getD n 0 = x := by
  have hlast : v.toList = v.toList.take n ++ [v.getD n 0] := by
    have hn : n < v.toList.length := by simp
    rw [Vector.getD, Array.getD_eq_getD_getElem?, Vector.getElem?_toArray, Vector.getElem?_eq_getElem (by omega), Option.getD_some]
    conv_lhs => rw [← List.take_append_drop n v.toList, List.drop_eq_getElem_cons hn]
    simp
  rw [← Vector.toList_inj, h]
  conv_lhs => rw [hlast]
  simp [eq_comm]

theorem setWidth_mask_shift (v : BitVec 32) (hk : k ≤ 24) :
    (((v &&& (0xff#32 <<< k)) >>> k).setWidth 8 : Byte) = (v >>> k).setWidth 8 := by
  have hones : ∀ j : Fin 8, (0xff#32).getLsbD j = true := by decide
  ext i hi
  have hbit : k + i < 32 := by omega
  simp only [BitVec.getElem_setWidth, BitVec.getLsbD_ushiftRight, BitVec.getLsbD_and, BitVec.getLsbD_shiftLeft, hbit,
    Nat.not_lt.mpr (Nat.le_add_right k i), Nat.add_sub_cancel_left, decide_true, decide_false, Bool.not_false,
    hones ⟨i, hi⟩, Bool.and_true]

theorem misread32_eq_iff (v : BitVec 32) : misread32 v = v ↔ v >>> 24 = (v >>> 16) &&& 0xff#32 := by
  have h₁₆ : (((v &&& 0x00ff0000#32) >>> 16).setWidth 8 : Byte) = (v >>> 16).setWidth 8 := setWidth_mask_shift v (k := 16) (by omega)
  have h₈ : (((v &&& 0x0000ff00#32) >>> 8).setWidth 8 : Byte) = (v >>> 8).setWidth 8 := setWidth_mask_shift v (k := 8) (by omega)
  have h₀ : ((v &&& 0x000000ff#32).setWidth 8 : Byte) = v.setWidth 8 := setWidth_mask_shift v (k := 0) (by omega)
  have hand : (v >>> 16 &&& 0xff#32).toNat = v.toNat / 2 ^ 16 % 256 := by
    rw [BitVec.toNat_and, BitVec.toNat_ushiftRight, Nat.shiftRight_eq_div_pow]
    exact Nat.and_two_pow_sub_one_eq_mod _ 8
  have hsum : ∀ {a b c : Nat}, a < 256 → b < 256 → c < 256 →
      (((a % 2 ^ 32 * 2 ^ 24 % 2 ^ 32 + a % 2 ^ 32 * 2 ^ 16 % 2 ^ 32) % 2 ^ 32 + b % 2 ^ 32 * 2 ^ 8 % 2 ^ 32) % 2 ^ 32 +
        c % 2 ^ 32) % 2 ^ 32 = a * 2 ^ 24 + a * 2 ^ 16 + b * 2 ^ 8 + c := by
    intro a b c ha hb hc
    simp (disch := omega) only [Nat.mod_eq_of_lt]
  have hbyte : ∀ n : Nat, n % 2 ^ 8 < 256 := fun n => Nat.mod_lt n (by omega)
  have hv := v.isLt
  rw [misread32, h₁₆, h₈, h₀, ← BitVec.toNat_inj, ← BitVec.toNat_inj, hand]
  simp only [BitVec.toNat_add, BitVec.toNat_shiftLeft, BitVec.toNat_setWidth, BitVec.toNat_ushiftRight,
    Nat.shiftRight_eq_div_pow, Nat.shiftLeft_eq]
  rw [hsum (hbyte _) (hbyte _) (hbyte _)]
  omega

/-- A buffer with room for the plan holds it behind what it held before. -/
theorem chargeStrategyPackage_contents (hslots : p.ucTimeSlotNum = 0) (hsize : d.size = hplcDataMaxSize)
    (hroom : d.dataSize + 136 ≤ 1023) :
    ∃ d', chargeStrategyPackage p d = some d' ∧ d'.contents.drop d.dataSize = planBytes p := by
  obtain ⟨d', hd', hputs⟩ := chargeStrategyPackage_puts hslots d
  refine ⟨d', hd', ?_⟩
  rw [hputs.contents hsize (by rw [planBytes_length]; omega), List.drop_left' (stored_contents hsize (by omega)).1]

/-- What is read back is the plan for the plans that come back, and for no others. -/
theorem ReadBack.same_iff {dest q : ChargeStrategy} (h : ReadBack p dest q) (hslots : p.ucTimeSlotNum = 0) {behind : List Byte}
    (hbehind : 33 ≤ behind.length) : SamePlan p q ↔ Returns p dest behind := by
  have htime := h.strDecTime
  constructor
  · rintro ⟨hrequest, huser, hasset, ⟨hyear, hmonth, hday, hhour, hminute, hsecond⟩, hreq, hrate, hnum, _⟩
    rw [htime] at hyear hmonth hday hhour hminute hsecond
    obtain ⟨hym, hm⟩ := (dateDigits_month_iff _ _).mp ⟨hyear, hmonth⟩
    rw [h.ulChargeReqEle, misread32_eq_iff] at hreq
    rw [h.ulChargeRatePow, misread32_eq_iff] at hrate
    rw [h.ucTimeSlotNum, hslots] at hnum
    exact ⟨hslots, hnum, hbehind, (eq_of_take_append_iff h.cRequestNO).mp hrequest, (eq_of_take_append_iff h.cUserID).mp huser,
      (eq_of_take_append_iff h.cAssetNO).mp hasset, hym, hm, (dateDigits_self_iff _).mp hday, (dateDigits_self_iff _).mp hhour,
      (dateDigits_self_iff _).mp hminute, (dateDigits_self_iff _).mp hsecond, hreq, hrate⟩
  · intro hret
    obtain ⟨hyear, hmonth⟩ := (dateDigits_month_iff _ _).mpr ⟨hret.year, hret.month⟩
    refine ⟨(eq_of_take_append_iff h.cRequestNO).mpr hret.requestNO, (eq_of_take_append_iff h.cUserID).mpr hret.userID,
      (eq_of_take_append_iff h.cAssetNO).mpr hret.assetNO, ?_, ?_, ?_, ?_, ?_⟩
    · rw [htime]
      exact ⟨hyear, hmonth, (dateDigits_self_iff _).mpr hret.day, (dateDigits_self_iff _).mpr hret.hour,
        (dateDigits_self_iff _).mpr hret.minute, (dateDigits_self_iff _).mpr hret.second⟩
    · rw [h.ulChargeReqEle, misread32_eq_iff]
      exact hret.reqEle
    · rw [h.ulChargeRatePow, misread32_eq_iff]
      exact hret.ratePow
    · rw [h.ucTimeSlotNum, hslots, hret.destNoSlots]
    · intro i hi
      rw [hslots] at hi
      exact absurd hi (Nat.not_lt_zero i)

/-- A plan that comes back: strings ending in the bytes that are read for their last ones. -/
def returningPlan : ChargeStrategy :=
  { zeroPlan with
    cRequestNO := (Vector.replicate 17 0x31).set 0 16 |>.set 16 10
    cUserID := (Vector.replicate 65 0x31).set 0 64 |>.set 64 22
    cAssetNO := (Vector.replicate 23 0x31).set 0 22 |>.set 22 6 }

/-- The empty transmit buffer. -/
def emptyBuffer : CharPointDataManage := { zeroBuffer with size := hplcDataMaxSize }

/-- A plan of the fifth of June 2024 with full strings, and the same plan with one time slot. -/
def datedPlan : ChargeStrategy := { returningPlan with strDecTime := ⟨0, 0, 0, 5, 0, 6, 0x24⟩ }

def slottedPlan : ChargeStrategy := { datedPlan with ucTimeSlotNum := 1 }

end EnergyRouter
