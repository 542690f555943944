import EnergyRouter.BleAnalysis
import EnergyRouter.Lemmas.BleFrame

/-!
# Charge applications over Bluetooth

A charge application is a sequence of items, and each place in it depends on the lengths of the strings before. The main result says
when `BLE_698_Action_Request_Normal_Charge_Appply` keeps what it was sent.
-/

namespace EnergyRouter

open Buffer

/-! ## Applications as items -/

/-- A charge application, with what stands in front of its items and their tags, which nothing looks at. -/
structure ChargeItems where
  lead : Vector Byte 9
  tags : Vector Byte 7
  requestNO : List Byte
  userID : List Byte
  assetNO : List Byte
  energy : Vector Byte 4
  yearHigh : Byte
  yearLow : Byte
  month : Byte
  day : Byte
  hour : Byte
  minute : Byte
  second : Byte
  mode : Byte
  token : List Byte
  requestNO_fits : requestNO.length ≤ 16
  userID_fits : userID.length ≤ 64
  assetNO_fits : assetNO.length ≤ 22
  token_fits : token.length ≤ 32

/-- A string behind its length. -/
def lengthPrefixed (str : List Byte) : List Byte := BitVec.ofNat 8 str.length :: str

namespace ChargeItems

variable (c : ChargeItems)

/-- From the mode on. -/
def modeAndToken (rest : List Byte) : List Byte := c.mode :: c.tags.get 6 :: (lengthPrefixed c.token ++ rest)

/-- From the time on. -/
def timeOn (rest : List Byte) : List Byte :=
  [c.yearHigh, c.yearLow, c.month, c.day, c.hour, c.minute, c.second, c.tags.get 5] ++ c.modeAndToken rest

/-- From the energy on. -/
def energyOn (rest : List Byte) : List Byte :=
  [c.energy.get 0, c.energy.get 1, c.energy.get 2, c.energy.get 3, c.tags.get 4] ++ c.timeOn rest

/-- From the length of the asset number on. -/
def assetOn (rest : List Byte) : List Byte := lengthPrefixed c.assetNO ++ c.tags.get 3 :: c.energyOn rest

/-- From the length of the user on. -/
def userOn (rest : List Byte) : List Byte := lengthPrefixed c.userID ++ c.tags.get 2 :: c.assetOn rest

/-- The items one after another, with `rest` behind them. -/
def bytes (rest : List Byte) : List Byte :=
  c.lead.toList ++ c.tags.get 0 :: (lengthPrefixed c.requestNO ++ c.tags.get 1 :: c.userOn rest)

/-- The encoded energy. -/
def energyValue : Nat :=
  (c.energy.get 0).toNat * 2 ^ 24 + (c.energy.get 1).toNat * 2 ^ 16 + (c.energy.get 2).toNat * 2 ^ 8 + (c.energy.get 3).toNat

/-- The encoded year. -/
def year : Nat := c.yearHigh.toNat * 256 + c.yearLow.toNat

end ChargeItems

/-- A number in binary coded decimals. -/
def bcd (n : Nat) : Byte := BitVec.ofNat 8 (n / 10 * 16 + n % 10)

/-- A string field begins with the length of the string and the string. -/
def FieldHolds {n : Nat} (field : Vector Byte n) (str : List Byte) : Prop := front field (str.length + 1) = lengthPrefixed str

/-- The application is stored as it was sent; the year by its last two digits. -/
structure ApplicationKept (c : ChargeItems) (a : ChargeApply) : Prop where
  requestNO : FieldHolds a.cRequestNO c.requestNO
  userID : FieldHolds a.cUserID c.userID
  assetNO : FieldHolds a.cAssetNO c.assetNO
  token : FieldHolds a.token c.token
  energy : a.ulChargeReqEle.toNat = c.energyValue
  year : a.planUnChg.year = bcd (c.year % 100)
  month : a.planUnChg.month = bcd c.month.toNat
  day : a.planUnChg.day = bcd c.day.toNat
  hour : a.planUnChg.hour = bcd c.hour.toNat
  minute : a.planUnChg.minute = bcd c.minute.toNat
  second : a.planUnChg.second = bcd c.second.toNat
  mode : a.chargeMode = c.mode

/-! ## Reading items -/

theorem intToBcd_eq (b : Byte) : intToBcd b = bcd b.toNat := by
  apply BitVec.eq_of_toNat_eq
  have hdiv : (b / 10).toNat = b.toNat / 10 := BitVec.toNat_udiv
  have hmul : (b / 10 * 6).toNat = b.toNat / 10 * 6 % 256 := by rw [BitVec.toNat_mul, hdiv]; rfl
  rw [intToBcd, bcd, BitVec.toNat_add, hmul, BitVec.toNat_ofNat]
  omega

theorem getD_of_drop {n : Nat} {v : Vector Byte n} {i j : Nat} {l : List Byte} (h : v.toList.drop i = l) (k : Nat) (hj : j = i + k) :
    v.getD j 0 = l.getD k 0 := by
  rw [← h, hj, List.getD_eq_getElem?_getD, List.getElem?_drop, Vector.getElem?_toList, Vector.getD, Array.getD_eq_getD_getElem?,
    Vector.getElem?_toArray]

theorem lengthPrefixed_length (str : List Byte) : (lengthPrefixed str).length = str.length + 1 := List.length_cons

section Strings

variable {apduData : Vector Byte 512} {ptr : Nat} {str rest : List Byte} (hstr : str.length < 256)
  (h : apduData.toList.drop (10 + ptr) = lengthPrefixed str ++ rest)

include hstr h

theorem length_at : (apduData.getD (10 + ptr) 0).toNat = str.length := by
  have hbyte : apduData.getD (10 + ptr) 0 = BitVec.ofNat 8 str.length := getD_of_drop h 0 rfl
  rw [hbyte, BitVec.toNat_ofNat]
  exact Nat.mod_eq_of_lt hstr

theorem applyString_eq {n : Nat} (field : Vector Byte n) (hfits : str.length + 1 ≤ n) :
    applyString field apduData ptr = some (copyAt field 0 (lengthPrefixed str)) := by
  have hlen := length_at hstr h
  have hbyte : apduData.getD (10 + ptr) 0 = BitVec.ofNat 8 str.length := getD_of_drop h 0 rfl
  have hdrop : apduData.toList.drop (11 + ptr) = str ++ rest := by
    rw [show 11 + ptr = 10 + ptr + 1 by omega, ← List.drop_drop, h]
    rfl
  rw [applyString, hdrop, hlen, blit, if_pos ⟨by omega, by rw [List.length_append]; omega⟩, List.take_left, hbyte]
  rfl

end Strings

/-- What stands behind a string and the tag of the item after it. -/
theorem drop_behind_string {l str rest : List Byte} {tag : Byte} {i j : Nat} (h : l.drop i = lengthPrefixed str ++ tag :: rest)
    (hj : j = i + (str.length + 2)) : l.drop j = rest := by
  rw [List.append_cons] at h
  rw [hj]
  refine drop_add_of_append h ?_
  rw [List.length_append, lengthPrefixed_length]
  rfl

theorem fieldHolds_copy {n : Nat} (field : Vector Byte n) {str : List Byte} (hfits : str.length + 1 ≤ n) :
    FieldHolds (copyAt field 0 (lengthPrefixed str)) str := by
  have hcopied := front_copyAt_zero field (lengthPrefixed str) (by rw [lengthPrefixed_length]; exact hfits)
  rwa [lengthPrefixed_length] at hcopied

theorem toNat_append_four (a b c d : Byte) :
    (a ++ b ++ c ++ d).toNat = a.toNat * 2 ^ 24 + b.toNat * 2 ^ 16 + c.toNat * 2 ^ 8 + d.toNat := by
  have hb := b.isLt
  have hc := c.isLt
  have hd := d.isLt
  rw [BitVec.toNat_append, BitVec.toNat_append, BitVec.toNat_append, ← Nat.shiftLeft_add_eq_or_of_lt hb,
    ← Nat.shiftLeft_add_eq_or_of_lt hc, ← Nat.shiftLeft_add_eq_or_of_lt hd, Nat.shiftLeft_eq, Nat.shiftLeft_eq, Nat.shiftLeft_eq]
  omega

/-! ## The whole application -/

/-- What is stored of an application: all of it, but for the length of the user, which the mode's takes the place of. -/
def ChargeItems.stored (c : ChargeItems) (a : ChargeApply) : ChargeApply where
  cRequestNO := copyAt a.cRequestNO 0 (lengthPrefixed c.requestNO)
  cAssetNO := copyAt a.cAssetNO 0 (lengthPrefixed c.assetNO)
  cUserID := (copyAt a.cUserID 0 (lengthPrefixed c.userID)).setIfInBounds 0 1
  ulChargeReqEle := c.energy.get 0 ++ c.energy.get 1 ++ c.energy.get 2 ++ c.energy.get 3
  planUnChg := { a.planUnChg with
    year := intToBcd (BitVec.ofNat 8 (c.year % 100))
    month := intToBcd c.month
    day := intToBcd c.day
    hour := intToBcd c.hour
    minute := intToBcd c.minute
    second := intToBcd c.second }
  chargeMode := c.mode
  token := copyAt a.token 0 (lengthPrefixed c.token)

/-- The offset runs over the items as they were encoded, and does not wrap. -/
theorem chargeAppply_eq {apduData : Vector Byte 512} {c : ChargeItems} {rest : List Byte} (h : apduData.toList = c.bytes rest)
    (a : ChargeApply) : ble698ActionRequestNormalChargeAppply apduData a = some (c.stored a) := by
  have hrequest := c.requestNO_fits
  have huser := c.userID_fits
  have hasset := c.assetNO_fits
  have htoken := c.token_fits
  -- what stands at each place the offset comes to
  have h₀ : apduData.toList.drop (10 + 0) = lengthPrefixed c.requestNO ++ c.tags.get 1 :: c.userOn rest := by
    rw [h, ChargeItems.bytes, List.append_cons]
    exact List.drop_left' (by simp)
  have hlen₀ := length_at (by omega) h₀
  generalize hptr₁ : c.requestNO.length + 2 = ptr₁
  have h₁ : apduData.toList.drop (10 + ptr₁) = lengthPrefixed c.userID ++ c.tags.get 2 :: c.assetOn rest :=
    drop_behind_string h₀ (by omega)
  have hlen₁ := length_at (by omega) h₁
  generalize hptr₂ : ptr₁ + c.userID.length + 2 = ptr₂
  have h₂ : apduData.toList.drop (10 + ptr₂) = lengthPrefixed c.assetNO ++ c.tags.get 3 :: c.energyOn rest :=
    drop_behind_string h₁ (by omega)
  have hlen₂ := length_at (by omega) h₂
  generalize hptr₃ : ptr₂ + c.assetNO.length + 1 = ptr₃
  have h₃ : apduData.toList.drop (11 + ptr₃) = c.energyOn rest := drop_behind_string h₂ (by omega)
  have h₄ : apduData.toList.drop (11 + (ptr₃ + 5)) = c.timeOn rest := by
    rw [ChargeItems.energyOn] at h₃
    rw [show 11 + (ptr₃ + 5) = 11 + ptr₃ + 5 by omega]
    exact drop_add_of_append h₃ rfl
  have h₅ : apduData.toList.drop (11 + (ptr₃ + 13)) = c.modeAndToken rest := by
    rw [ChargeItems.timeOn] at h₄
    rw [show 11 + (ptr₃ + 13) = 11 + (ptr₃ + 5) + 8 by omega]
    exact drop_add_of_append h₄ rfl
  have h₆ : apduData.toList.drop (10 + (ptr₃ + 16)) = lengthPrefixed c.token ++ rest := by
    rw [show 10 + (ptr₃ + 16) = 11 + (ptr₃ + 13) + 2 by omega]
    exact drop_add_of_append (show _ = [c.mode, c.tags.get 6] ++ (lengthPrefixed c.token ++ rest) from h₅) rfl
  -- the offset itself
  have hmod₁ : ((apduData.getD 10 0).toNat + 2) % 256 = ptr₁ := by
    rw [Nat.add_zero] at hlen₀
    omega
  have hmod₂ : (ptr₁ + (apduData.getD (10 + ptr₁) 0).toNat + 2) % 256 = ptr₂ := by omega
  have hmod₃ : (ptr₂ + (apduData.getD (10 + ptr₂) 0).toNat + 1) % 256 = ptr₃ := by omega
  have hmod₄ : (ptr₃ + 5) % 256 = ptr₃ + 5 := by omega
  have hmod₅ : (ptr₃ + 5 + 8) % 256 = ptr₃ + 13 := by omega
  have hmod₆ : (ptr₃ + 13 + 3) % 256 = ptr₃ + 16 := by omega
  have he0 : apduData.getD (11 + ptr₃) 0 = c.energy.get 0 := getD_of_drop h₃ 0 (by omega)
  have he1 : apduData.getD (12 + ptr₃) 0 = c.energy.get 1 := getD_of_drop h₃ 1 (by omega)
  have he2 : apduData.getD (13 + ptr₃) 0 = c.energy.get 2 := getD_of_drop h₃ 2 (by omega)
  have he3 : apduData.getD (14 + ptr₃) 0 = c.energy.get 3 := getD_of_drop h₃ 3 (by omega)
  have ht0 : apduData.getD (11 + (ptr₃ + 5)) 0 = c.yearHigh := getD_of_drop h₄ 0 (by omega)
  have ht1 : apduData.getD (12 + (ptr₃ + 5)) 0 = c.yearLow := getD_of_drop h₄ 1 (by omega)
  have ht2 : apduData.getD (13 + (ptr₃ + 5)) 0 = c.month := getD_of_drop h₄ 2 (by omega)
  have ht3 : apduData.getD (14 + (ptr₃ + 5)) 0 = c.day := getD_of_drop h₄ 3 (by omega)
  have ht4 : apduData.getD (15 + (ptr₃ + 5)) 0 = c.hour := getD_of_drop h₄ 4 (by omega)
  have ht5 : apduData.getD (16 + (ptr₃ + 5)) 0 = c.minute := getD_of_drop h₄ 5 (by omega)
  have ht6 : apduData.getD (17 + (ptr₃ + 5)) 0 = c.second := getD_of_drop h₄ 6 (by omega)
  have hmode : apduData.getD (11 + (ptr₃ + 13)) 0 = c.mode := getD_of_drop h₅ 0 rfl
  unfold ble698ActionRequestNormalChargeAppply
  simp only [hmod₁, hmod₂, hmod₃, hmod₄, hmod₅, hmod₆, hmode, applyString_eq (by omega) h₀ a.cRequestNO (by omega),
    applyString_eq (by omega) h₁ a.cUserID (by omega), applyString_eq (by omega) h₂ a.cAssetNO (by omega),
    applyString_eq (by omega) h₆ a.token (by omega), he0, he1, he2, he3, ht0, ht1, ht2, ht3, ht4, ht5, ht6, Option.bind_eq_bind,
    Option.bind_some]
  rfl

/-- The length of the user is right exactly when it is the one that was stored over it. -/
theorem fieldHolds_stored_user (c : ChargeItems) (a : ChargeApply) :
    FieldHolds (c.stored a).cUserID c.userID ↔ c.userID.length = 1 := by
  have hfits := c.userID_fits
  have hcopied : FieldHolds (copyAt a.cUserID 0 (lengthPrefixed c.userID)) c.userID := fieldHolds_copy _ (by omega)
  have hfront : front (c.stored a).cUserID (c.userID.length + 1) = 1 :: c.userID := by
    show front ((copyAt a.cUserID 0 (lengthPrefixed c.userID)).setIfInBounds 0 1) (c.userID.length + 1) = _
    rw [front_set, hcopied]
    rfl
  rw [FieldHolds, hfront, lengthPrefixed, List.cons.injEq]
  constructor
  · rintro ⟨hlen, -⟩
    have hnat := congrArg BitVec.toNat hlen
    rw [BitVec.toNat_ofNat] at hnat
    have hone : (1 : Byte).toNat = 1 := rfl
    omega
  · intro hlen
    rw [hlen]
    exact ⟨rfl, rfl⟩

/-- A charge application is decoded as it was encoded exactly when the user has one byte. -/
theorem charge_application_kept_iff {apduData : Vector Byte 512} {c : ChargeItems} {rest : List Byte}
    (h : apduData.toList = c.bytes rest) (a : ChargeApply) :
    (∃ a', ble698ActionRequestNormalChargeAppply apduData a = some a' ∧ ApplicationKept c a') ↔ c.userID.length = 1 := by
  have hrequest := c.requestNO_fits
  have hasset := c.assetNO_fits
  have htoken := c.token_fits
  have hrun := chargeAppply_eq h a
  constructor
  · rintro ⟨a', hcall, hkept⟩
    rw [hrun] at hcall
    cases hcall
    exact (fieldHolds_stored_user c a).mp hkept.userID
  · intro huser
    have hyear : (BitVec.ofNat 8 (c.year % 100) : Byte).toNat = c.year % 100 := by
      rw [BitVec.toNat_ofNat]
      omega
    refine ⟨c.stored a, hrun, fieldHolds_copy _ (by omega), (fieldHolds_stored_user c a).mpr huser, fieldHolds_copy _ (by omega),
      fieldHolds_copy _ (by omega), toNat_append_four _ _ _ _, ?_, intToBcd_eq _, intToBcd_eq _, intToBcd_eq _, intToBcd_eq _,
      intToBcd_eq _, rfl⟩
    show intToBcd (BitVec.ofNat 8 (c.year % 100)) = _
    rw [intToBcd_eq, hyear]

/-- An application with a user of `n` bytes: request 1, asset 2, 7 kWh by 2020-08-04 10:30:00 and the token 3. -/
def userApplication (n : Fin 65) : ChargeItems where
  lead := ⟨#[1, 0, 0x90, 0x02, 0x7F, 0x00, 2, 7, 2], rfl⟩
  tags := ⟨#[9, 10, 10, 6, 28, 22, 9], rfl⟩
  requestNO := [1]
  userID := List.replicate n 5
  assetNO := [2]
  energy := ⟨#[0, 0, 0, 7], rfl⟩
  yearHigh := 0x07
  yearLow := 0xE4
  month := 8
  day := 4
  hour := 10
  minute := 30
  second := 0
  mode := 1
  token := [3]
  requestNO_fits := by decide
  userID_fits := by
    rw [List.length_replicate]
    exact Nat.le_of_lt_succ n.isLt
  assetNO_fits := by decide
  token_fits := by decide

/-- The request with an application, and zeros behind it. -/
def applicationData (c : ChargeItems) : Vector Byte 512 := copyAt (Vector.replicate 512 0) 0 (c.bytes [])

theorem applicationData_toList (c : ChargeItems) : ∃ rest, (applicationData c).toList = c.bytes rest := by
  have hrequest := c.requestNO_fits
  have huser := c.userID_fits
  have hasset := c.assetNO_fits
  have htoken := c.token_fits
  have hlen : (c.bytes []).length ≤ 512 := by
    simp [ChargeItems.bytes, ChargeItems.userOn, ChargeItems.assetOn, ChargeItems.energyOn, ChargeItems.timeOn,
      ChargeItems.modeAndToken, lengthPrefixed_length]
    omega
  have hall : ∀ rest, c.bytes [] ++ rest = c.bytes rest := by
    intro rest
    simp [ChargeItems.bytes, ChargeItems.userOn, ChargeItems.assetOn, ChargeItems.energyOn, ChargeItems.timeOn,
      ChargeItems.modeAndToken]
  have hlist := toList_of_front (front_copyAt_zero (Vector.replicate 512 0) (c.bytes []) hlen)
  rw [hall] at hlist
  exact ⟨_, hlist⟩

def noApplication : ChargeApply :=
  ⟨Vector.replicate 17 0, Vector.replicate 23 0, Vector.replicate 65 0, 0, ⟨0, 0, 0, 0, 0, 0, 0⟩, 0, Vector.replicate 33 0⟩

/-- A user of one byte is kept. -/
theorem charge_application_kept_one : ∃ a', ble698ActionRequestNormalChargeAppply (applicationData (userApplication 1)) noApplication =
    some a' ∧ ApplicationKept (userApplication 1) a' := by
  obtain ⟨rest, hlist⟩ := applicationData_toList (userApplication 1)
  exact (charge_application_kept_iff hlist noApplication).mpr rfl

/-- Of a user of two bytes the length 1 is kept. -/
theorem charge_user_length_lost :
    ∃ a', ble698ActionRequestNormalChargeAppply (applicationData (userApplication 2)) noApplication = some a' ∧
      a'.cUserID.getD 0 0 = 1 ∧ ¬FieldHolds a'.cUserID (userApplication 2).userID ∧ ¬ApplicationKept (userApplication 2) a' := by
  obtain ⟨rest, hlist⟩ := applicationData_toList (userApplication 2)
  have hlost : ¬FieldHolds ((userApplication 2).stored noApplication).cUserID (userApplication 2).userID := by
    rw [fieldHolds_stored_user]
    decide
  exact ⟨_, chargeAppply_eq hlist noApplication, by decide, hlost, fun hkept => hlost hkept.userID⟩

end EnergyRouter
