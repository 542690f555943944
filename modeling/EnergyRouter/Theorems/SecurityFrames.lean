import EnergyRouter.Requests

/-!
# Security requests on their way to the ESAM and back

`unpatch_ScmEsam_Comm` looks for the attached data as many bytes behind the SID as the data are long, and a request with a random
number it appends to what was sent before.
-/

namespace EnergyRouter

open Buffer

variable {l part sid attached mac rn : List Byte} {comm : ScmEsamComm} {d : CharPointDataManage} {position : Nat}

/-! ## Parts of a request -/

/-- What a security request is checked by: an identifier, attached data and a code, or a random number and a code. -/
inductive Verification
  | sidMac (sid attached mac : List Byte)
  | rnMac (rn mac : List Byte)
  deriving DecidableEq, Repr

/-- An identifier has four bytes, and each other part a length that goes into a byte. -/
def Verification.Sized : Verification → Prop
  | sidMac sid attached mac => sid.length = 4 ∧ attached.length < 256 ∧ mac.length < 256
  | rnMac rn mac => rn.length < 256 ∧ mac.length < 256

instance (v : Verification) : Decidable v.Sized :=
  match v with
  | .sidMac _ _ _ => inferInstanceAs (Decidable (_ ∧ _ ∧ _))
  | .rnMac _ _ => inferInstanceAs (Decidable (_ ∧ _))

/-- A part behind its length. -/
def counted (part : List Byte) : List Byte := BitVec.ofNat 8 part.length :: part

def Verification.bytes : Verification → List Byte
  | sidMac sid attached mac => 0 :: sid ++ counted attached ++ counted mac
  | rnMac rn mac => 2 :: counted rn ++ counted mac

/-- A security request: data, with their length in two bytes, and what they are checked by. -/
structure SecurityRequest where
  data : List Byte
  check : Verification
  data_lt : data.length < 2 ^ 16
  sized : check.Sized

def SecurityRequest.bytes (r : SecurityRequest) : List Byte :=
  [16#8, 1, 0x82] ++ lengthBytes r.data.length ++ r.data ++ r.check.bytes

/-- The parts in the order the ESAM wants them. -/
def SecurityRequest.parts (r : SecurityRequest) : List Byte :=
  match r.check with
  | .sidMac sid attached mac => sid ++ attached ++ r.data ++ mac
  | .rnMac _ mac => r.data ++ mac

/-- The bytes to be sent. -/
structure Holds (l : List Byte) (comm : ScmEsamComm) : Prop where
  dataTxLen : comm.dataTxLen = l.length
  txData : front comm.txData l.length = l
  fits : l.length ≤ 1024

/-- The parts of the request are what is sent to the ESAM next. -/
def Unpatches (r : SecurityRequest) (hplcData : CharPointDataManage) (comm : ScmEsamComm) : Prop :=
  ∃ comm', unpatchScmEsamComm hplcData comm = some comm' ∧ Holds r.parts comm'

/-! ## Appending -/

/-- The buffer from the user data on. -/
def CharPointDataManage.fromUsr (d : CharPointDataManage) : List Byte := d.priveData.toList.drop d.frame698.usrData

theorem usrByte_eq (d : CharPointDataManage) (i : Nat) : d.usrByte i = d.fromUsr[i]? := by
  rw [CharPointDataManage.usrByte, CharPointDataManage.fromUsr, List.getElem?_drop, Vector.getElem?_toList]

theorem appendTx_eq (d : CharPointDataManage) (position len : Nat) (comm : ScmEsamComm) :
    appendTx d position len comm =
      if ((d.fromUsr.drop position).take len).length = len ∧ (len = 0 ∨ comm.dataTxLen + len ≤ 1024) then
        some { comm with
          txData := copyAt comm.txData comm.dataTxLen ((d.fromUsr.drop position).take len)
          dataTxLen := (comm.dataTxLen + len) % 2 ^ 16 }
      else none := by
  rw [appendTx, CharPointDataManage.fromUsr, List.drop_drop]

theorem Holds.append (h : Holds l comm) (hfits : l.length + part.length ≤ 1024) :
    Holds (l ++ part) { comm with
      txData := copyAt comm.txData comm.dataTxLen part
      dataTxLen := (comm.dataTxLen + part.length) % 2 ^ 16 } := by
  refine ⟨?_, ?_, ?_⟩
  · show (comm.dataTxLen + part.length) % 2 ^ 16 = (l ++ part).length
    rw [h.dataTxLen, List.length_append]
    omega
  · show front (copyAt comm.txData comm.dataTxLen part) (l ++ part).length = l ++ part
    rw [h.dataTxLen, List.length_append, front_copyAt _ _ _ (by omega), h.txData]
  · rw [List.length_append]
    exact hfits

theorem Holds.appendTx {len : Nat} {comm' : ScmEsamComm} (h : Holds l comm) (hcall : appendTx d position len comm = some comm') :
    ((d.fromUsr.drop position).take len).length = len ∧ Holds (l ++ (d.fromUsr.drop position).take len) comm' := by
  rw [appendTx_eq] at hcall
  split_ifs at hcall with hcond
  cases hcall
  obtain ⟨hlen, hroom⟩ := hcond
  have hfits : l.length + ((d.fromUsr.drop position).take len).length ≤ 1024 := by
    rw [hlen]
    have := h.fits
    have := h.dataTxLen
    omega
  have happend := h.append hfits
  rw [hlen] at happend
  exact ⟨hlen, happend⟩

/-- A part that stands in the user data is appended when there is room for it. -/
theorem Holds.appendTx_some (h : Holds l comm) (hpart : (d.fromUsr.drop position).take part.length = part)
    (hfits : l.length + part.length ≤ 1024) :
    ∃ comm', EnergyRouter.appendTx d position part.length comm = some comm' ∧ Holds (l ++ part) comm' := by
  rw [appendTx_eq, hpart, if_pos ⟨rfl, .inr (by rw [h.dataTxLen]; exact hfits)⟩]
  exact ⟨_, rfl, h.append hfits⟩

theorem Holds.unique {l' : List Byte} (h : Holds l comm) (h' : Holds l' comm) : l = l' := by
  have hlen := h.dataTxLen.symm.trans h'.dataTxLen
  rw [← h.txData, hlen, h'.txData]

theorem holds_nil (h : comm.dataTxLen = 0) : Holds [] comm :=
  ⟨h, by simp, by simp⟩

/-! ## Where the parts are -/

section Request

variable {r : SecurityRequest} {hplcData : CharPointDataManage} {behind : List Byte}

/-- The bytes the router takes the length of the data from say it. -/
theorem lengthBytes_value {n : Nat} (h : n < 2 ^ 16) : (BitVec.ofNat 8 (n / 256)).toNat * 256 + (BitVec.ofNat 8 n).toNat = n := by
  simp only [BitVec.toNat_ofNat]
  omega

theorem ofNat_length_toNat (h : part.length < 256) : (BitVec.ofNat 8 part.length).toNat = part.length := by
  rw [BitVec.toNat_ofNat]
  omega

theorem SecurityRequest.drop_data (husr : hplcData.fromUsr = r.bytes ++ behind) :
    hplcData.fromUsr.drop 5 = r.data ++ (r.check.bytes ++ behind) := by
  rw [husr, bytes, List.append_assoc, List.append_assoc]
  exact List.drop_left' rfl

theorem SecurityRequest.drop_sidMac (hcheck : r.check = .sidMac sid attached mac) (husr : hplcData.fromUsr = r.bytes ++ behind) :
    hplcData.fromUsr.drop (5 + r.data.length) = [(0 : Byte)] ++ (sid ++ (counted attached ++ (counted mac ++ behind))) := by
  rw [drop_add_of_append (drop_data husr) rfl, hcheck, Verification.bytes]
  simp only [List.cons_append, List.nil_append, List.append_assoc]

theorem SecurityRequest.drop_rnMac (hcheck : r.check = .rnMac rn mac) (husr : hplcData.fromUsr = r.bytes ++ behind) :
    hplcData.fromUsr.drop (5 + r.data.length) =
      [(2 : Byte)] ++ ([BitVec.ofNat 8 rn.length] ++ (rn ++ ([BitVec.ofNat 8 mac.length] ++ (mac ++ behind)))) := by
  rw [drop_add_of_append (drop_data husr) rfl, hcheck, Verification.bytes, counted, counted]
  simp only [List.cons_append, List.nil_append, List.append_assoc]

theorem SecurityRequest.length_le (husr : hplcData.fromUsr = r.bytes ++ behind) : 5 + r.data.length + r.check.bytes.length ≤ 1024 := by
  have hlen : hplcData.fromUsr.length ≤ 1024 := by
    rw [CharPointDataManage.fromUsr, List.length_drop, Vector.length_toList]
    exact Nat.sub_le _ _
  rw [husr, bytes] at hlen
  simp only [List.length_append, lengthBytes, List.length_cons, List.length_nil] at hlen
  omega

/-- The parts of a request with an identifier are copied from these places. -/
theorem unpatchScmEsamComm_sidMac (hcheck : r.check = .sidMac sid attached mac) (husr : hplcData.fromUsr = r.bytes ++ behind)
    (comm : ScmEsamComm) :
    unpatchScmEsamComm hplcData comm = (hplcData.fromUsr[2 * r.data.length + 7 + attached.length]?).bind fun lenMac =>
      (appendTx hplcData (r.data.length + 6) 4 { comm with dataTxLen := 0 }).bind fun comm =>
      (appendTx hplcData (2 * r.data.length + 7) attached.length comm).bind fun comm =>
      (appendTx hplcData 5 r.data.length comm).bind fun comm =>
      appendTx hplcData (2 * r.data.length + 8 + attached.length) lenMac.toNat comm := by
  obtain ⟨hsid, hattached, _⟩ : sid.length = 4 ∧ attached.length < 256 ∧ mac.length < 256 := by
    have := r.sized
    rwa [hcheck] at this
  have hhi : hplcData.fromUsr[3]? = some (BitVec.ofNat 8 (r.data.length / 256)) := by rw [husr]; rfl
  have hlo : hplcData.fromUsr[4]? = some (BitVec.ofNat 8 r.data.length) := by rw [husr]; rfl
  have hkind := SecurityRequest.drop_sidMac hcheck husr
  have hsidAt := drop_add_of_append hkind (n := 1) rfl
  have hlenA := getElem?_of_drop (drop_add_of_append hsidAt hsid)
  simp only [unpatchScmEsamComm, usrByte_eq, hhi, hlo, Option.bind_eq_bind, Option.bind_some, lengthBytes_value r.data_lt,
    getElem?_of_drop hkind, hlenA, ofNat_length_toNat hattached]
  rw [if_pos trivial, show 5 + r.data.length + 1 = r.data.length + 6 by omega,
    show r.data.length + 6 + r.data.length + 1 = 2 * r.data.length + 7 by omega,
    show 2 * r.data.length + 7 + attached.length + 1 = 2 * r.data.length + 8 + attached.length by omega]

/-- The parts of a request with a random number are copied from these places. -/
theorem unpatchScmEsamComm_rnMac (hcheck : r.check = .rnMac rn mac) (husr : hplcData.fromUsr = r.bytes ++ behind)
    (comm : ScmEsamComm) :
    unpatchScmEsamComm hplcData comm = (appendTx hplcData 5 r.data.length comm).bind fun comm =>
      appendTx hplcData (r.data.length + 8 + rn.length) mac.length comm := by
  obtain ⟨hrn, hmac⟩ : rn.length < 256 ∧ mac.length < 256 := by
    have := r.sized
    rwa [hcheck] at this
  have hhi : hplcData.fromUsr[3]? = some (BitVec.ofNat 8 (r.data.length / 256)) := by rw [husr]; rfl
  have hlo : hplcData.fromUsr[4]? = some (BitVec.ofNat 8 r.data.length) := by rw [husr]; rfl
  have hkind := SecurityRequest.drop_rnMac hcheck husr
  have hrnAt := drop_add_of_append hkind (n := 1) rfl
  have hmacAt := drop_add_of_append (drop_add_of_append hrnAt (n := 1) rfl) rfl
  simp only [unpatchScmEsamComm, usrByte_eq, hhi, hlo, Option.bind_eq_bind, Option.bind_some, lengthBytes_value r.data_lt,
    getElem?_of_drop hkind, getElem?_of_drop hrnAt, ofNat_length_toNat hrn, getElem?_of_drop hmacAt, ofNat_length_toNat hmac]
  rw [if_neg (by decide), if_pos trivial,
    show 5 + r.data.length + 1 + 1 + rn.length + 1 = r.data.length + 8 + rn.length by omega]

/-- A run read in two parts with a byte between them. -/
theorem take_add_one_add {a b : List Byte} {x : Byte} {i : Nat} :
    (l.drop i).take (a.length + (1 + b.length)) = a ++ x :: b ↔
      (l.drop i).take a.length = a ∧ l[i + a.length]? = some x ∧ (l.drop (i + a.length + 1)).take b.length = b := by
  have hsplit : (l.drop i).take (a.length + (1 + b.length)) =
      (l.drop i).take a.length ++ ((l.drop (i + a.length)).take 1 ++ (l.drop (i + a.length + 1)).take b.length) := by
    rw [List.take_add, List.drop_drop, List.take_add, List.drop_drop]
  have hbyte : (l.drop (i + a.length)).take 1 = l[i + a.length]?.toList := by
    rw [List.take_one, List.head?_drop]
  rw [hsplit, hbyte]
  constructor
  · intro h
    have hlen := congrArg List.length h
    simp only [List.length_append, List.length_cons] at hlen
    have hle : ((l.drop i).take a.length).length ≤ a.length := List.length_take_le _ _
    have hle' : ((l.drop (i + a.length + 1)).take b.length).length ≤ b.length := List.length_take_le _ _
    have hone : l[i + a.length]?.toList.length ≤ 1 := by cases l[i + a.length]? <;> simp
    obtain ⟨ha, hrest⟩ := List.append_inj h (by omega)
    cases hx : l[i + a.length]? with
    | none =>
      rw [hx] at hlen
      simp only [Option.toList_none, List.length_nil] at hlen
      omega
    | some y =>
      rw [hx] at hrest
      obtain ⟨hy, hb⟩ := List.cons.inj hrest
      exact ⟨ha, by rw [hy], hb⟩
  · rintro ⟨ha, hx, hb⟩
    rw [ha, hx, hb]
    rfl

theorem SecurityRequest.take_data (husr : hplcData.fromUsr = r.bytes ++ behind) :
    (hplcData.fromUsr.drop 5).take r.data.length = r.data := by
  rw [drop_data husr]
  exact List.take_left' rfl

theorem SecurityRequest.take_sid (hcheck : r.check = .sidMac sid attached mac) (hsid : sid.length = 4)
    (husr : hplcData.fromUsr = r.bytes ++ behind) :
    (hplcData.fromUsr.drop (r.data.length + 6)).take 4 = sid := by
  have hsidAt := drop_add_of_append (drop_sidMac hcheck husr) (n := 1) rfl
  rw [show r.data.length + 6 = 5 + r.data.length + 1 by omega, hsidAt]
  exact List.take_left' hsid

/-- The parts with an identifier are put together when the attached data and the code stand, besides where they are, as many bytes
behind the identifier as the data are long. -/
theorem unpatches_sidMac_iff (hcheck : r.check = .sidMac sid attached mac) (husr : hplcData.fromUsr = r.bytes ++ behind)
    (comm : ScmEsamComm) :
    Unpatches r hplcData comm ↔
      (hplcData.fromUsr.drop (2 * r.data.length + 7)).take (attached.length + (1 + mac.length)) = attached ++ counted mac := by
  obtain ⟨hsid, _, hmac⟩ : sid.length = 4 ∧ attached.length < 256 ∧ mac.length < 256 := by
    have := r.sized
    rwa [hcheck] at this
  have hroom : 12 + r.data.length + attached.length + mac.length ≤ 1024 := by
    have := SecurityRequest.length_le husr
    rw [hcheck, Verification.bytes] at this
    simp only [counted, List.length_append, List.length_cons, hsid] at this
    omega
  have hparts : r.parts = sid ++ attached ++ r.data ++ mac := by rw [SecurityRequest.parts, hcheck]
  have hsidAt := SecurityRequest.take_sid hcheck hsid husr
  have hdataAt := SecurityRequest.take_data husr
  have hstart : Holds [] { comm with dataTxLen := 0 } := holds_nil rfl
  rw [counted, take_add_one_add, Unpatches, unpatchScmEsamComm_sidMac hcheck husr, hparts]
  constructor
  · rintro ⟨comm', hcall, hholds⟩
    obtain ⟨lenMac, hlenMac, hcall⟩ := Option.bind_eq_some_iff.mp hcall
    obtain ⟨c₁, h₁, hcall⟩ := Option.bind_eq_some_iff.mp hcall
    obtain ⟨c₂, h₂, hcall⟩ := Option.bind_eq_some_iff.mp hcall
    obtain ⟨c₃, h₃, h₄⟩ := Option.bind_eq_some_iff.mp hcall
    obtain ⟨_, hc₁⟩ := hstart.appendTx h₁
    obtain ⟨hlen₂, hc₂⟩ := hc₁.appendTx h₂
    obtain ⟨_, hc₃⟩ := hc₂.appendTx h₃
    obtain ⟨hlen₄, hc₄⟩ := hc₃.appendTx h₄
    rw [hsidAt, hdataAt, List.nil_append] at hc₄
    -- the parts have the lengths of the request's, so the lists agree part by part
    have hsame := hc₄.unique hholds
    obtain ⟨hfirst, hmacAt⟩ := List.append_inj hsame (by simp only [List.length_append, hlen₂])
    obtain ⟨hfirst, _⟩ := List.append_inj hfirst (by simp only [List.length_append, hlen₂])
    have hattachedAt := (List.append_inj hfirst rfl).2
    have hnum : lenMac.toNat = mac.length := by rw [← hlen₄, hmacAt]
    refine ⟨hattachedAt, ?_, ?_⟩
    · rw [hlenMac, ← hnum, BitVec.ofNat_toNat, BitVec.setWidth_eq]
    · rw [hnum] at hmacAt
      rw [show 2 * r.data.length + 7 + attached.length + 1 = 2 * r.data.length + 8 + attached.length by omega]
      exact hmacAt
  · rintro ⟨hattachedAt, hlenMac, hmacAt⟩
    rw [show 2 * r.data.length + 7 + attached.length + 1 = 2 * r.data.length + 8 + attached.length by omega] at hmacAt
    rw [← hsid] at hsidAt
    obtain ⟨c₁, h₁, hc₁⟩ := hstart.appendTx_some hsidAt (by rw [List.length_nil]; omega)
    obtain ⟨c₂, h₂, hc₂⟩ := hc₁.appendTx_some hattachedAt (by simp only [List.length_append, List.length_nil]; omega)
    obtain ⟨c₃, h₃, hc₃⟩ := hc₂.appendTx_some hdataAt (by simp only [List.length_append, List.length_nil]; omega)
    obtain ⟨c₄, h₄, hc₄⟩ := hc₃.appendTx_some hmacAt (by simp only [List.length_append, List.length_nil]; omega)
    rw [hsid] at h₁
    refine ⟨c₄, ?_, hc₄⟩
    rw [hlenMac, Option.bind_some, h₁, Option.bind_some, h₂, Option.bind_some, h₃, Option.bind_some, ofNat_length_toNat hmac, h₄]

/-- A request with a random number goes behind what was sent before it, when there is room for it. -/
theorem Holds.unpatch_rnMac (hcheck : r.check = .rnMac rn mac) (husr : hplcData.fromUsr = r.bytes ++ behind) (h : Holds l comm)
    (hfits : l.length + r.parts.length ≤ 1024) :
    ∃ comm', unpatchScmEsamComm hplcData comm = some comm' ∧ Holds (l ++ r.parts) comm' := by
  have hparts : r.parts = r.data ++ mac := by rw [SecurityRequest.parts, hcheck]
  have hmacAt : (hplcData.fromUsr.drop (r.data.length + 8 + rn.length)).take mac.length = mac := by
    have hrnAt := drop_add_of_append (drop_add_of_append (SecurityRequest.drop_rnMac hcheck husr) (n := 1) rfl) (n := 1) rfl
    have hat := drop_add_of_append (drop_add_of_append hrnAt rfl) (n := 1) rfl
    rw [show r.data.length + 8 + rn.length = 5 + r.data.length + 1 + 1 + rn.length + 1 by omega, hat]
    exact List.take_left' rfl
  rw [hparts, List.length_append] at hfits
  obtain ⟨c₁, h₁, hc₁⟩ := h.appendTx_some (SecurityRequest.take_data husr) (by omega)
  obtain ⟨c₂, h₂, hc₂⟩ := hc₁.appendTx_some hmacAt (by rw [List.length_append]; omega)
  refine ⟨c₂, ?_, ?_⟩
  · rw [unpatchScmEsamComm_rnMac hcheck husr, h₁, Option.bind_some, h₂]
  · rw [hparts, ← List.append_assoc]
    exact hc₂

/-- The parts of a request with a random number are put together when nothing is left from before. -/
theorem unpatches_rnMac_iff (hcheck : r.check = .rnMac rn mac) (husr : hplcData.fromUsr = r.bytes ++ behind)
    (hrange : comm.dataTxLen < 2 ^ 16) : Unpatches r hplcData comm ↔ comm.dataTxLen = 0 := by
  obtain ⟨hrn, hmac⟩ : rn.length < 256 ∧ mac.length < 256 := by
    have := r.sized
    rwa [hcheck] at this
  have hroom : 8 + r.data.length + rn.length + mac.length ≤ 1024 := by
    have := SecurityRequest.length_le husr
    rw [hcheck, Verification.bytes] at this
    simp only [counted, List.length_append, List.length_cons] at this
    omega
  have hparts : r.parts = r.data ++ mac := by rw [SecurityRequest.parts, hcheck]
  constructor
  · rintro ⟨comm', hcall, hholds⟩
    rw [unpatchScmEsamComm_rnMac hcheck husr] at hcall
    rw [hparts] at hholds
    obtain ⟨c₁, h₁, h₂⟩ := Option.bind_eq_some_iff.mp hcall
    have hlen := hholds.dataTxLen
    rw [appendTx_eq] at h₁ h₂
    split_ifs at h₁ with hcond₁
    cases h₁
    split_ifs at h₂ with hcond₂
    cases h₂
    rw [List.length_append] at hlen
    dsimp only at hcond₂ hlen
    omega
  · intro hzero
    exact (holds_nil hzero).unpatch_rnMac hcheck husr (by rw [hparts, List.length_append, List.length_nil]; omega)

/-- The parts are found: where the attached data are looked for, they and the code stand indeed; or nothing is left to be sent from
before. -/
def SecurityRequest.Found (r : SecurityRequest) (behind : List Byte) (comm : ScmEsamComm) : Prop :=
  match r.check with
  | .sidMac _ attached mac =>
    ((r.bytes ++ behind).drop (2 * r.data.length + 7)).take (attached.length + (1 + mac.length)) = attached ++ counted mac
  | .rnMac _ _ => comm.dataTxLen = 0

end Request

theorem receivedApdu_fromUsr {apdu : List Byte} (h : 14 + apdu.length ≤ hplcDataMaxSize) :
    (receivedApdu apdu).fromUsr = apdu ++ (receivedApdu apdu).fromUsr.drop apdu.length := by
  have htake : (receivedApdu apdu).fromUsr.take apdu.length = apdu := mid_copyAt zeroBuffer.priveData 14 apdu h
  conv_lhs => rw [← List.take_append_drop apdu.length (receivedApdu apdu).fromUsr, htake]

/-- A request with data of as many bytes as an identifier. -/
def fourByteRequest : SecurityRequest where
  data := [5, 1, 0, 0x40]
  check := .sidMac [0x80, 0x11, 0x22, 0x33] [0, 0x12] [0xaa, 0xbb, 0xcc, 0xdd]
  data_lt := by decide
  sized := by decide

/-- The same request with one byte more. -/
def fiveByteRequest : SecurityRequest where
  data := [5, 1, 0, 0x40, 0]
  check := .sidMac [0x80, 0x11, 0x22, 0x33] [0, 0x12] [0xaa, 0xbb, 0xcc, 0xdd]
  data_lt := by decide
  sized := by decide

/-- A request of the controller. -/
def randomRequest : SecurityRequest where
  data := [5, 1, 0, 0x40]
  check := .rnMac [1, 2, 3, 4] [0xaa, 0xbb, 0xcc, 0xdd]
  data_lt := by decide
  sized := by decide

end EnergyRouter
