import EnergyRouter.PlanCodec
import EnergyRouter.Lib.Reader

/-!
# Where the reader of a plan looks

`action_response_charge_strategy` walks through the user data with one index, moved on by the lengths it finds. The places it comes
to are functions of the data: which data the walk stays inside of, and which bytes a time slot is made of.
-/

namespace EnergyRouter

open Buffer Reader

variable {i n j k : Nat} {t u : SystemTime}

/-! ## Parts of a plan -/

/-- The length a string announces with its first byte. -/
def lengthAt (usrData : List Byte) (i : Nat) : Nat := (usrData.getD i 0).toNat

theorem getElem?_eq_getD {usrData : List Byte} (h : i < usrData.length) : usrData[i]? = some (usrData.getD i 0) := by
  rw [List.getD_eq_getElem?_getD, List.getElem?_eq_getElem h, Option.getD_some]

theorem takeString_eq_some {usrData : List Byte} {dst : Vector Byte n} {out : Nat × Vector Byte n}
    (h : takeString usrData i dst = some out) :
    out.1 = lengthAt usrData i + 1 ∧ i + (lengthAt usrData i + 1) ≤ usrData.length ∧ lengthAt usrData i + 1 ≤ n := by
  simp only [takeString, Option.bind_eq_bind, Option.bind_eq_some_iff] at h
  obtain ⟨b, hb, h⟩ := h
  have hlen : lengthAt usrData i = b.toNat := by
    rw [lengthAt, List.getD_eq_getElem?_getD, hb, Option.getD_some]
  split_ifs at h with hfits
  cases h
  rw [hlen]
  exact ⟨rfl, hfits⟩

theorem takeString_of_fits (usrData : List Byte) (i : Nat) (dst : Vector Byte n)
    (hread : i + (lengthAt usrData i + 1) ≤ usrData.length) (hwrite : lengthAt usrData i + 1 ≤ n) :
    ∃ v, takeString usrData i dst = some (lengthAt usrData i + 1, v) := by
  refine ⟨copyAt dst 0 ((usrData.drop i).take (lengthAt usrData i + 1)), ?_⟩
  rw [takeString, getElem?_eq_getD (by omega)]
  exact if_pos ⟨hread, hwrite⟩

theorem takeString_local (i : Nat) (dst : Vector Byte n) : Local fun usrData => takeString usrData i dst :=
  .bind (local_getElem i) fun b => local_slice i (b.toNat + 1) (b.toNat + 1 ≤ n) fun bytes => (b.toNat + 1, copyAt dst 0 bytes)

/-- What is read as a number. -/
def longAt (usrData : List Byte) (i : Nat) : BitVec 32 :=
  ((usrData.getD i 0).setWidth 32 <<< 24) + ((usrData.getD i 0).setWidth 32 <<< 16) +
    ((usrData.getD (i + 1) 0).setWidth 32 <<< 8) + (usrData.getD (i + 2) 0).setWidth 32

theorem takeLong_of_lt {usrData : List Byte} (h : i + 2 < usrData.length) :
    takeLong usrData i = some (longAt usrData i) := by
  rw [takeLong, getElem?_eq_getD (show i < _ by omega), getElem?_eq_getD (show i + 1 < _ by omega), getElem?_eq_getD h]
  rfl

theorem takeLong_isSome (usrData : List Byte) (i : Nat) : (takeLong usrData i).isSome ↔ i + 2 < usrData.length := by
  constructor
  · intro hsome
    obtain ⟨v, hv⟩ := Option.isSome_iff_exists.mp hsome
    simp only [takeLong, Option.bind_eq_bind, Option.bind_eq_some_iff] at hv
    obtain ⟨_, _, _, _, b₂, hb₂, _⟩ := hv
    exact (List.getElem?_eq_some_iff.mp hb₂).1
  · intro hlen
    rw [takeLong_of_lt hlen, Option.isSome_some]

theorem takeLong_local (i : Nat) : Local fun usrData => takeLong usrData i :=
  .bind (local_getElem _) fun _ => .bind (local_getElem _) fun _ => .bind (local_getElem _) fun _ => local_some _

theorem takeDecTime_of_lt (usrData : List Byte) (i : Nat) (h : i + 4 < usrData.length) (t : SystemTime) :
    ∃ u, takeDecTime usrData i t = some u := by
  rw [takeDecTime, getElem?_eq_getD (show i < _ by omega), getElem?_eq_getD (show i + 1 < _ by omega),
    getElem?_eq_getD (show i + 2 < _ by omega), getElem?_eq_getD (show i + 3 < _ by omega), getElem?_eq_getD h]
  exact ⟨_, rfl⟩

theorem takeDecTime_local (i : Nat) (t : SystemTime) : Local fun usrData => takeDecTime usrData i t :=
  .bind (local_getElem _) fun _ => .bind (local_getElem _) fun _ => .bind (local_getElem _) fun _ => .bind (local_getElem _) fun _ =>
    .bind (local_getElem _) fun _ => .bind (local_getElem _) fun _ => local_some _

/-! ## Time slots -/

/-- The places of the bytes of a time. -/
structure TimePlaces where
  yearHigh : Nat
  yearLow : Nat
  month : Nat
  day : Nat
  hour : Nat
  minute : Nat
  second : Nat
  deriving DecidableEq, Repr

/-- The places `action_response_charge_strategy` takes a time of a slot from when it has come to `i`. -/
def soltTimePlaces (i : Nat) : TimePlaces := ⟨i, i + 1, i + 1, i + 2, i + 3, i + 4, i + 5⟩

/-- The time made of the bytes at these places. The field for the day of the week stays. -/
def TimePlaces.read (places : TimePlaces) (usrData : List Byte) (t : SystemTime) : SystemTime :=
  { t with
    year := BitVec.ofNat 8 (((usrData.getD places.yearHigh 0).toNat * 256 + (usrData.getD places.yearLow 0).toNat) % 2000)
    month := usrData.getD places.month 0
    day := usrData.getD places.day 0
    hour := usrData.getD places.hour 0
    minute := usrData.getD places.minute 0
    second := usrData.getD places.second 0 }

theorem takeSoltTime_of_lt {usrData : List Byte} (h : i + 5 < usrData.length) (t : SystemTime) :
    takeSoltTime usrData i t = some ((soltTimePlaces i).read usrData t) := by
  rw [takeSoltTime, getElem?_eq_getD (show i < _ by omega), getElem?_eq_getD (show i + 1 < _ by omega),
    getElem?_eq_getD (show i + 2 < _ by omega), getElem?_eq_getD (show i + 3 < _ by omega),
    getElem?_eq_getD (show i + 4 < _ by omega), getElem?_eq_getD h]
  rfl

theorem takeSoltTime_local (i : Nat) (t : SystemTime) : Local fun usrData => takeSoltTime usrData i t :=
  .bind (local_getElem _) fun _ => .bind (local_getElem _) fun _ => .bind (local_getElem _) fun _ => .bind (local_getElem _) fun _ =>
    .bind (local_getElem _) fun _ => .bind (local_getElem _) fun _ => .bind (local_getElem _) fun _ => local_some _

/-- The number of bytes the reader moves on for a slot. -/
def soltStride : Nat := 34

/-- What is read as a slot that begins at `i`, over what the slot was. -/
def soltRead (usrData : List Byte) (i : Nat) (old : ChargeTimesolt) : ChargeTimesolt :=
  ⟨(soltTimePlaces (i + 3)).read usrData old.strDecStartTime, (soltTimePlaces (i + 17)).read usrData old.strDecStopTime,
    longAt usrData (i + 31)⟩

theorem takeSolts_succ {usrData : List Byte} (h : i + soltStride ≤ usrData.length) (hj : j < timeSoltMax) (n : Nat)
    (solts : Vector ChargeTimesolt timeSoltMax) :
    takeSolts usrData (n + 1) j i solts = takeSolts usrData n (j + 1) (i + soltStride)
      (solts.setIfInBounds j (soltRead usrData i (solts.getD j ⟨zeroTime, zeroTime, 0⟩))) := by
  rw [soltStride] at h
  simp only [takeSolts, takeSoltTime_of_lt (show i + 3 + 5 < usrData.length by omega),
    takeSoltTime_of_lt (show i + 3 + 6 + 8 + 5 < usrData.length by omega),
    takeLong_of_lt (show i + 3 + 6 + 8 + 6 + 8 + 2 < usrData.length by omega), Option.bind_eq_bind, Option.bind_some, if_pos hj]
  rfl

/-- The loop needs all the bytes of its slots, and room for them. -/
theorem takeSolts_isSome (usrData : List Byte) (n j i : Nat) (solts : Vector ChargeTimesolt timeSoltMax) :
    (takeSolts usrData n j i solts).isSome ↔ n = 0 ∨ (j + n ≤ timeSoltMax ∧ i + soltStride * n ≤ usrData.length) := by
  induction n generalizing j i solts with
  | zero => simp [takeSolts]
  | succ n ih =>
    by_cases hj : j < timeSoltMax
    · by_cases hi : i + soltStride ≤ usrData.length
      · rw [takeSolts_succ hi hj, ih]
        have hmul : soltStride * (n + 1) = soltStride * n + soltStride := Nat.mul_succ soltStride n
        rw [hmul]
        rcases Nat.eq_zero_or_pos n with rfl | hn <;> omega
      · have hnone : ¬ (takeSolts usrData (n + 1) j i solts).isSome := by
          intro hsome
          obtain ⟨solts', hsolts⟩ := Option.isSome_iff_exists.mp hsome
          simp only [takeSolts, Option.bind_eq_bind, Option.bind_eq_some_iff] at hsolts
          obtain ⟨_, _, _, _, power, hpower, _⟩ := hsolts
          have := (takeLong_isSome _ _).mp (Option.isSome_iff_exists.mpr ⟨power, hpower⟩)
          rw [soltStride] at hi
          omega
        have hmul : soltStride ≤ soltStride * (n + 1) := Nat.le_mul_of_pos_right _ (Nat.succ_pos n)
        exact iff_of_false hnone (by omega)
    · have hnone : ¬ (takeSolts usrData (n + 1) j i solts).isSome := by
        intro hsome
        obtain ⟨solts', hsolts⟩ := Option.isSome_iff_exists.mp hsome
        simp only [takeSolts, Option.bind_eq_bind, Option.bind_eq_some_iff, if_neg hj] at hsolts
        obtain ⟨_, _, _, _, _, _, hcases⟩ := hsolts
        cases hcases
      exact iff_of_false hnone (by omega)

theorem takeSolts_local (n j i : Nat) (solts : Vector ChargeTimesolt timeSoltMax) :
    Local fun usrData => takeSolts usrData n j i solts := by
  induction n generalizing j i solts with
  | zero => exact local_some _
  | succ n ih =>
    refine .bind (takeSoltTime_local _ _) fun start => .bind (takeSoltTime_local _ _) fun stop => .bind (takeLong_local _) fun power => ?_
    exact .ite (ih _ _ _) (local_some none)

/-! ## The walk through a plan -/

section Places

variable (usrData : List Byte) (timeFlagPositon : Nat)

def requestNOAt : Nat := timeFlagPositon + 1 + 1 + 2

def userIDAt : Nat := requestNOAt timeFlagPositon + (lengthAt usrData (requestNOAt timeFlagPositon) + 1) + 1

def decMakerAt : Nat := userIDAt usrData timeFlagPositon + (lengthAt usrData (userIDAt usrData timeFlagPositon) + 1) + 1

def decTimeAt : Nat := decMakerAt usrData timeFlagPositon + 2 + 3

def assetNOAt : Nat := decTimeAt usrData timeFlagPositon + 5 + 2

def reqEleAt : Nat := assetNOAt usrData timeFlagPositon + (lengthAt usrData (assetNOAt usrData timeFlagPositon) + 1) + 1

def ratePowAt : Nat := reqEleAt usrData timeFlagPositon + 3 + 2

def countAt : Nat := ratePowAt usrData timeFlagPositon + 3 + 2

/-- The place the reader has come to before slot number `j`. -/
def soltAt (j : Nat) : Nat := countAt usrData timeFlagPositon + 1 + soltStride * j

/-- The lengths and the number of slots found in the data lead neither out of the data nor out of the arrays of the plan. -/
structure PlanFits : Prop where
  requestNO : lengthAt usrData (requestNOAt timeFlagPositon) ≤ 16
  userID : lengthAt usrData (userIDAt usrData timeFlagPositon) ≤ 64
  assetNO : lengthAt usrData (assetNOAt usrData timeFlagPositon) ≤ 22
  count : lengthAt usrData (countAt usrData timeFlagPositon) ≤ timeSoltMax
  data : soltAt usrData timeFlagPositon (lengthAt usrData (countAt usrData timeFlagPositon)) ≤ usrData.length

end Places

variable {usrData : List Byte} {timeFlagPositon : Nat} {p q : ChargeStrategy}

/-- What a plan that was read says about the data, and its slots. -/
theorem actionResponseChargeStrategy_eq_some (h : actionResponseChargeStrategy p usrData timeFlagPositon = some q) :
    PlanFits usrData timeFlagPositon ∧
      takeSolts usrData (lengthAt usrData (countAt usrData timeFlagPositon)) 0 (soltAt usrData timeFlagPositon 0)
        p.strChargeTimeSolts = some q.strChargeTimeSolts := by
  unfold actionResponseChargeStrategy at h
  obtain ⟨_, _, h⟩ := Option.bind_eq_some_iff.mp h
  obtain ⟨⟨len₁, v₁⟩, h₁, h⟩ := Option.bind_eq_some_iff.mp h
  obtain ⟨⟨len₂, v₂⟩, h₂, h⟩ := Option.bind_eq_some_iff.mp h
  obtain ⟨_, _, h⟩ := Option.bind_eq_some_iff.mp h
  obtain ⟨_, _, h⟩ := Option.bind_eq_some_iff.mp h
  obtain ⟨_, _, h⟩ := Option.bind_eq_some_iff.mp h
  obtain ⟨⟨len₃, v₃⟩, h₃, h⟩ := Option.bind_eq_some_iff.mp h
  obtain ⟨_, _, h⟩ := Option.bind_eq_some_iff.mp h
  obtain ⟨_, _, h⟩ := Option.bind_eq_some_iff.mp h
  obtain ⟨count, hcount, h⟩ := Option.bind_eq_some_iff.mp h
  obtain ⟨solts, hsolts, h⟩ := Option.bind_eq_some_iff.mp h
  cases h
  obtain ⟨rfl, _, hlen₁⟩ := takeString_eq_some h₁
  obtain ⟨rfl, _, hlen₂⟩ := takeString_eq_some h₂
  obtain ⟨rfl, _, hlen₃⟩ := takeString_eq_some h₃
  have hnum : lengthAt usrData (countAt usrData timeFlagPositon) = count.toNat := by
    have : usrData[countAt usrData timeFlagPositon]? = some count := hcount
    rw [lengthAt, List.getD_eq_getElem?_getD, this, Option.getD_some]
  have hlast : countAt usrData timeFlagPositon < usrData.length := (List.getElem?_eq_some_iff.mp hcount).1
  have hslots := (takeSolts_isSome usrData count.toNat 0 _ p.strChargeTimeSolts).mp (Option.isSome_iff_exists.mpr ⟨_, hsolts⟩)
  refine ⟨⟨Nat.le_of_succ_le_succ hlen₁, Nat.le_of_succ_le_succ hlen₂, Nat.le_of_succ_le_succ hlen₃, ?_, ?_⟩, ?_⟩
  · rw [hnum]
    rcases hslots with hzero | ⟨hroom, _⟩
    · rw [hzero]
      exact Nat.zero_le _
    · omega
  · rw [hnum, soltAt]
    rcases hslots with hzero | ⟨_, hbytes⟩
    · rw [hzero]
      omega
    · exact hbytes
  · rw [hnum]
    exact hsolts

theorem PlanFits.read (h : PlanFits usrData timeFlagPositon) (p : ChargeStrategy) :
    ∃ q, actionResponseChargeStrategy p usrData timeFlagPositon = some q := by
  have hcount : countAt usrData timeFlagPositon < usrData.length := by
    have hdata := h.data
    rw [soltAt] at hdata
    omega
  have hsolts := (takeSolts_isSome usrData (lengthAt usrData (countAt usrData timeFlagPositon)) 0
    (soltAt usrData timeFlagPositon 0) p.strChargeTimeSolts).mpr (.inr ⟨by rw [Nat.zero_add]; exact h.count, by
      have hdata := h.data
      rw [soltAt] at hdata ⊢
      omega⟩)
  obtain ⟨solts, hsolts⟩ := Option.isSome_iff_exists.mp hsolts
  -- every place lies before the number of slots
  have hrate : ratePowAt usrData timeFlagPositon + 2 < usrData.length := by
    rw [countAt] at hcount
    omega
  have hreq : reqEleAt usrData timeFlagPositon + 2 < usrData.length := by
    rw [ratePowAt] at hrate
    omega
  have hasset :
      assetNOAt usrData timeFlagPositon + (lengthAt usrData (assetNOAt usrData timeFlagPositon) + 1) < usrData.length := by
    rw [reqEleAt] at hreq
    omega
  have htime : decTimeAt usrData timeFlagPositon + 4 < usrData.length := by
    rw [assetNOAt] at hasset
    omega
  have hmaker : decMakerAt usrData timeFlagPositon + 2 < usrData.length := by
    rw [decTimeAt] at htime
    omega
  have huser :
      userIDAt usrData timeFlagPositon + (lengthAt usrData (userIDAt usrData timeFlagPositon) + 1) < usrData.length := by
    rw [decMakerAt] at hmaker
    omega
  have hrequest : requestNOAt timeFlagPositon + (lengthAt usrData (requestNOAt timeFlagPositon) + 1) < usrData.length := by
    rw [userIDAt] at huser
    omega
  have hmembers : timeFlagPositon + 1 < usrData.length := by
    rw [requestNOAt] at hrequest
    omega
  obtain ⟨v₁, h₁⟩ := takeString_of_fits usrData (requestNOAt timeFlagPositon) p.cRequestNO (by omega)
    (Nat.succ_le_succ h.requestNO)
  obtain ⟨v₂, h₂⟩ := takeString_of_fits usrData (userIDAt usrData timeFlagPositon) p.cUserID (by omega)
    (Nat.succ_le_succ h.userID)
  obtain ⟨v₃, h₃⟩ := takeString_of_fits usrData (assetNOAt usrData timeFlagPositon) p.cAssetNO (by omega)
    (Nat.succ_le_succ h.assetNO)
  obtain ⟨u, hu⟩ := takeDecTime_of_lt usrData (decTimeAt usrData timeFlagPositon) htime p.strDecTime
  refine Option.isSome_iff_exists.mp (isSome_bind (getElem?_eq_getD hmembers) ?_)
  refine isSome_bind h₁ (isSome_bind h₂ ?_)
  refine isSome_bind (getElem?_eq_getD (Nat.lt_of_le_of_lt (Nat.le_add_right _ 2) hmaker)) ?_
  refine isSome_bind (getElem?_eq_getD hmaker) (isSome_bind hu ?_)
  refine isSome_bind h₃ (isSome_bind (takeLong_of_lt hreq) ?_)
  refine isSome_bind (takeLong_of_lt hrate) (isSome_bind (getElem?_eq_getD hcount) ?_)
  exact isSome_bind hsolts rfl

/-- What lies behind the data makes no difference to a plan that was read out of them. -/
theorem actionResponseChargeStrategy_local (p : ChargeStrategy) (timeFlagPositon : Nat) :
    Local fun usrData => actionResponseChargeStrategy p usrData timeFlagPositon := by
  refine .bind (local_getElem _) fun _ => .bind (takeString_local _ _) fun ⟨_, _⟩ => .bind (takeString_local _ _) fun ⟨_, _⟩ => ?_
  refine .bind (local_getElem _) fun _ => .bind (local_getElem _) fun _ => .bind (takeDecTime_local _ _) fun _ => ?_
  refine .bind (takeString_local _ _) fun ⟨_, _⟩ => .bind (takeLong_local _) fun _ => .bind (takeLong_local _) fun _ => ?_
  exact .bind (local_getElem _) fun _ => .bind (takeSolts_local ..) fun _ => local_some _

end EnergyRouter
