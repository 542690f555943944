import EnergyRouter.Theorems.BleCiphertext
import EnergyRouter.Theorems.ChargeApplications
import EnergyRouter.Lib.Reader

/-!
# One response to a request

The analysis writes at most one reply and leaves nothing to send, however deep the requests lie one inside the other. The main
result says exactly when it comes to an end.
-/

namespace EnergyRouter

open Buffer Reader

/-! ## Requests -/

/-- What a record asks for. -/
inductive BleRequest
  | meterAddr
  | sessInti
  | sessKey
  | chargeAppply
  | cipher
  | other
  deriving DecidableEq, Repr

/-- The object of a request to read. -/
def readRequest (devRecv : Ble698Frame) : BleRequest := if apduOad devRecv = 0x40010200 then .meterAddr else .other

/-- The object of a request to act. -/
def actionRequest (devRecv : Ble698Frame) : BleRequest :=
  if apduOad devRecv = 0xF1000B00 then .sessInti
  else if apduOad devRecv = 0xF1000C00 then .sessKey
  else if apduOad devRecv = 0x90027F00 then .chargeAppply
  else .other

/-- The switches of the analysis, one inside the other. -/
def requestOf (devRecv : Ble698Frame) : BleRequest :=
  if devRecv.apduCmd = 5 then if devRecv.apduData.getD 0 0 = 1 then readRequest devRecv else .other
  else if devRecv.apduCmd = 16 then
    if devRecv.apduData.getD 0 0 = 0 then readRequest devRecv
    else if devRecv.apduData.getD 0 0 = 1 then .cipher
    else .other
  else if devRecv.apduCmd = 7 then if devRecv.apduData.getD 0 0 = 1 then actionRequest devRecv else .other
  else .other

/-- What is done about a request that is no ciphertext. -/
def BleRequest.handle (links : Nat → Link) (devRecv : Ble698Frame) (s : BleAnalyser) : BleRequest → Option BleAnalyser
  | meterAddr =>
    (ble698GetMeterAddrPackage devRecv s.session.stData).map fun stData => { s with session := { s.session with stData := stData } }
  | sessInti => (ble698EsamSessIntiPackage links devRecv s.session).map fun r => { s with session := r.2 }
  | sessKey => (ble698EsamSessKeyPackage links devRecv s.session).map fun r => { s with session := r.2 }
  | chargeAppply =>
    (ble698ActionRequestNormalChargeAppply devRecv.apduData s.apply).map fun a =>
      { s with apply := a, event := s.event ||| cmdStartChg }
  | cipher => some s
  | other => some s

/-- What is done about a ciphertext, when `inner` analyses what was decrypted. -/
def handleCipher (links : Nat → Link) (inner : Ble698Frame → BleAnalyser → Option (Ble698Frame × BleAnalyser)) (devRecv : Ble698Frame)
    (s : BleAnalyser) : Option (Ble698Frame × BleAnalyser) := do
  let (found, session) ← ble698SecurityRequestCipherText links devRecv s.session
  match found with
  | some devRecv => inner devRecv { s with session := session }
  | none => some (devRecv, { s with session := session })

section Analysis

variable (links : Nat → Link) (devRecv : Ble698Frame) (s : BleAnalyser)

theorem getRequestNormal_eq : ble698GetRequestNormalAnalysis devRecv s = (readRequest devRecv).handle links devRecv s := by
  unfold ble698GetRequestNormalAnalysis readRequest
  split_ifs with hobject
  · exact Option.map_eq_bind.symm
  · rfl

theorem actionRequestNormal_eq :
    ble698ActionRequestNormalAnalysis links devRecv s = (actionRequest devRecv).handle links devRecv s := by
  unfold ble698ActionRequestNormalAnalysis actionRequest
  split_ifs with hinti hkey hcharge
  · exact Option.map_eq_bind.symm
  · exact Option.map_eq_bind.symm
  · exact Option.map_eq_bind.symm
  · rfl

theorem readRequest_ne_cipher : readRequest devRecv ≠ .cipher := by
  unfold readRequest
  split_ifs <;> decide

theorem actionRequest_ne_cipher : actionRequest devRecv ≠ .cipher := by
  unfold actionRequest
  split_ifs <;> decide

variable {devRecv}

theorem analysis_plain (h : requestOf devRecv ≠ .cipher) (depth : Nat) :
    ble698DataAnalysisAndResponse links (depth + 1) devRecv s =
      ((requestOf devRecv).handle links devRecv s).map fun s => s.respond devRecv := by
  have hdone (handled : Option BleAnalyser) : ((handled.map (devRecv, ·)).bind fun out => some (out.2.respond out.1)) =
      handled.map fun s => s.respond devRecv := by cases handled <;> rfl
  unfold requestOf at h ⊢
  rw [ble698DataAnalysisAndResponse]
  split_ifs at h ⊢ with hget hone hsecurity hplain hcipher hact hone'
  · rw [getRequestNormal_eq links]
    exact hdone _
  · rfl
  · rw [getRequestNormal_eq links]
    exact hdone _
  · exact absurd rfl h
  · rfl
  · rw [actionRequestNormal_eq]
    exact hdone _
  · rfl
  · rfl

theorem analysis_cipher (h : requestOf devRecv = .cipher) (depth : Nat) :
    ble698DataAnalysisAndResponse links (depth + 1) devRecv s =
      (handleCipher links (ble698DataAnalysisAndResponse links depth) devRecv s).map fun out => out.2.respond out.1 := by
  unfold requestOf at h
  rw [ble698DataAnalysisAndResponse]
  split_ifs at h ⊢ with hget hone hsecurity hplain hcipher hact hone'
  · exact absurd h (readRequest_ne_cipher devRecv)
  · exact absurd h (readRequest_ne_cipher devRecv)
  · unfold handleCipher
    generalize ble698SecurityRequestCipherText links devRecv s.session = found
    rcases found with _ | ⟨_ | inner, session⟩
    · rfl
    · rfl
    · simp only [Option.bind_eq_bind, Option.bind_some]
      generalize ble698DataAnalysisAndResponse links depth inner _ = analysed
      cases analysed <;> rfl
  · exact absurd h (actionRequest_ne_cipher devRecv)

end Analysis

/-! ## At most one response -/

section Responses

variable {links : Nat → Link} {devRecv devRecv' : Ble698Frame} {s s' : BleAnalyser}

/-- At most one reply was written, and nothing is left to send. -/
structure OneResponse (s s' : BleAnalyser) : Prop where
  written : ∃ replies : List (List Byte), replies.length ≤ 1 ∧ s'.written = s.written ++ replies
  sent : s'.session.stData.dataTxLen = 0

theorem BleAnalyser.respond_of_zero (h : s.session.stData.dataTxLen = 0) (devRecv : Ble698Frame) :
    s.respond devRecv = (devRecv, s) := by
  unfold BleAnalyser.respond
  exact if_neg (not_not.mpr h)

theorem BleAnalyser.respond_oneResponse (devRecv : Ble698Frame) (s : BleAnalyser) : OneResponse s (s.respond devRecv).2 := by
  by_cases h : s.session.stData.dataTxLen = 0
  · rw [BleAnalyser.respond_of_zero h]
    exact ⟨⟨[], Nat.zero_le 1, (List.append_nil _).symm⟩, h⟩
  · have hrespond : s.respond devRecv = _ := if_pos h
    rw [hrespond]
    exact ⟨⟨[_], Nat.le_refl 1, rfl⟩, rfl⟩

theorem BleRequest.handle_written {r : BleRequest} (h : r.handle links devRecv s = some s') : s'.written = s.written := by
  cases r with
  | cipher =>
    cases h
    rfl
  | other =>
    cases h
    rfl
  | _ =>
    obtain ⟨x, -, rfl⟩ := Option.map_eq_some_iff.mp h
    rfl

/-- However deep the requests lie one inside the other, one response is all that is written. -/
theorem analysis_oneResponse {depth : Nat} (h : ble698DataAnalysisAndResponse links depth devRecv s = some (devRecv', s')) :
    OneResponse s s' := by
  induction depth generalizing devRecv devRecv' s s' with
  | zero => cases h
  | succ depth ih =>
    by_cases hcipher : requestOf devRecv = .cipher
    · rw [analysis_cipher links s hcipher] at h
      obtain ⟨⟨d, s₁⟩, hhandled, hmapped⟩ := Option.map_eq_some_iff.mp h
      obtain ⟨⟨found, session⟩, -, hinner⟩ := Option.bind_eq_some_iff.mp hhandled
      have hrespond : s₁.respond d = (devRecv', s') := hmapped
      have hend := s₁.respond_oneResponse d
      rw [hrespond] at hend
      cases found with
      | none =>
        cases hinner
        exact ⟨hend.written, hend.sent⟩
      | some inner =>
        -- the inner call has sent its reply, and nothing is left for this one
        have hone := ih hinner
        rw [BleAnalyser.respond_of_zero hone.sent] at hrespond
        cases hrespond
        exact ⟨hone.written, hone.sent⟩
    · rw [analysis_plain links s hcipher] at h
      obtain ⟨s₁, hhandled, hrespond⟩ := Option.map_eq_some_iff.mp h
      have hend := s₁.respond_oneResponse devRecv
      rw [show s₁.respond devRecv = (devRecv', s') from hrespond] at hend
      obtain ⟨replies, hle, hwritten⟩ := hend.written
      refine ⟨⟨replies, hle, ?_⟩, hend.sent⟩
      rw [hwritten, BleRequest.handle_written hhandled]

end Responses

/-! ## Session requests that end -/

section Sessions

variable (links : Nat → Link) (devRecv : Ble698Frame) (s : BleSession)

/-- The exchanges end; and after four successes the address has room, the last answer has fewer than 256 bytes, and the reply is
long enough for the check. -/
def IntiEnds : Prop :=
  ∃ asked s₄, intiExchanges links devRecv s = some (asked, s₄) ∧
    (asked = true → addrLenthOf devRecv.sa ≤ 6 ∧ s₄.endataLen < 256 ∧
      addrLenthOf devRecv.sa + s₄.endataLen ≠ 232 ∧ addrLenthOf devRecv.sa + s₄.endataLen ≠ 233)

theorem intiReply_isSome (asked : Bool) (s₄ : BleSession) : (intiReply devRecv (asked, s₄)).isSome ↔
    (asked = true → addrLenthOf devRecv.sa ≤ 6 ∧ s₄.endataLen < 256 ∧
      addrLenthOf devRecv.sa + s₄.endataLen ≠ 232 ∧ addrLenthOf devRecv.sa + s₄.endataLen ≠ 233) := by
  cases asked with
  | false => exact iff_of_true rfl nofun
  | true =>
    rw [forall_prop_of_true rfl]
    rcases Nat.lt_or_ge s₄.endataLen 256 with hlt | hge
    · have hlen := BleSession.intiOctets_length hlt devRecv
      rw [intiReply_eq hlt, Option.isSome_map, sessReply_isSome, hlen]
      omega
    · rw [intiReply_eq_none hge]
      refine iff_of_false Bool.false_ne_true fun h => ?_
      exact Nat.not_lt.mpr hge h.2.1

theorem inti_isSome : (ble698EsamSessIntiPackage links devRecv s).isSome ↔ IntiEnds links devRecv s := by
  rw [ble698EsamSessIntiPackage_eq, ← Option.bind_eq_bind, isSome_bind_iff, Prod.exists]
  simp only [intiReply_isSome]
  rfl

/-- The first exchange of `BLE_698_ESAM_SESS_KEY_Package`, and the key it brings. -/
def keyAgreeOne : Option (Bool × BleSession) :=
  BleSession.asks links .appSessAgreeOne (s.setTx (s.keys.r1.toList ++ s.keys.r2.toList)) fun s =>
    some (true, { s with keys := { s.keys with data := copyAt s.keys.data 0 (s.talk.esam.comm.rxPart 4 32) } })

/-- The length byte of the key data. -/
def keydataByte : Nat := (devRecv.apduData.getD 7 0).toNat

/-- The second exchange, and the number it brings. -/
def keyAgreeTwo : Option (Bool × BleSession) :=
  let tx := copyAt (copyAt s.talk.esam.comm.txData 0 s.keys.data.toList) 32
    ((devRecv.apduData.toList.drop 10).take (keydataByte devRecv - 2))
  BleSession.asks links .appSessAgreeTwo { s with talk := s.talk.setTx tx (32 + (keydataByte devRecv - 2)) } fun s =>
    some (true, { s with keys := { s.keys with r3 := copyAt s.keys.r3 0 (s.talk.esam.comm.rxPart 4 16) } })

/-- The reply behind the two exchanges. -/
def keyReply : Bool × BleSession → Option (Bool × BleSession)
  | (false, s) => some (false, s)
  | (true, s) =>
    if s.keys.r3 = s.keys.r1 then do
      let stData ← sessReply devRecv (keyData devRecv) s.stData
      some (true, { s with stData := stData })
    else some (false, s)

/-- What comes behind the first exchange. -/
def keyRest : Bool × BleSession → Option (Bool × BleSession)
  | (false, s) => some (false, s)
  | (true, s) => if 2 ≤ keydataByte devRecv then (keyAgreeTwo links devRecv s).bind (keyReply devRecv) else none

theorem keydataLen_eq : ((devRecv.apduData.getD 7 0).setWidth 16 - 2#16).toNat =
    if 2 ≤ keydataByte devRecv then keydataByte devRecv - 2 else keydataByte devRecv + 65534 := by
  have hlt := (devRecv.apduData.getD 7 0).isLt
  have hwide : ((devRecv.apduData.getD 7 0).setWidth 16).toNat = keydataByte devRecv := by
    rw [BitVec.toNat_setWidth]
    exact Nat.mod_eq_of_lt (by omega)
  have htwo : (2#16).toNat = 2 := rfl
  have hsmall : keydataByte devRecv < 256 := hlt
  rw [BitVec.toNat_sub, hwide, htwo]
  split_ifs <;> omega

theorem ble698EsamSessKeyPackage_eq :
    ble698EsamSessKeyPackage links devRecv s = (keyAgreeOne links s).bind (keyRest links devRecv) := by
  have hrest : ∀ s, keyRest links devRecv (false, s) = some (false, s) := fun _ => rfl
  have hreply : ∀ s, keyReply devRecv (false, s) = some (false, s) := fun _ => rfl
  unfold ble698EsamSessKeyPackage keyAgreeOne
  rw [BleSession.asks_bind _ _ _ _ hrest]
  refine congrArg (BleSession.asks links .appSessAgreeOne _) (funext fun s => ?_)
  have hlt : keydataByte devRecv < 256 := (devRecv.apduData.getD 7 0).isLt
  simp only [Option.bind_some, keyRest, keydataLen_eq]
  split_ifs with htwo
  · have hlen : keydataByte devRecv - 2 ≤ (devRecv.apduData.toList.drop 10).length := by
      rw [List.length_drop, Vector.length_toList]
      omega
    rw [blit, if_pos ⟨by omega, hlen⟩, keyAgreeTwo, BleSession.asks_bind _ _ _ _ hreply]
    rfl
  · rw [blit, if_neg (by omega)]
    rfl

/-- The exchanges end, the key data have a length between them, and the address has room when the numbers agree. -/
def KeyEnds : Prop :=
  ∃ asked s₁, keyAgreeOne links s = some (asked, s₁) ∧ (asked = true → 2 ≤ keydataByte devRecv ∧
    ∃ asked' s₂, keyAgreeTwo links devRecv s₁ = some (asked', s₂) ∧
      (asked' = true → s₂.keys.r3 = s₂.keys.r1 → addrLenthOf devRecv.sa ≤ 6))

theorem keyReply_isSome (asked : Bool) (s₂ : BleSession) :
    (keyReply devRecv (asked, s₂)).isSome ↔ (asked = true → s₂.keys.r3 = s₂.keys.r1 → addrLenthOf devRecv.sa ≤ 6) := by
  cases asked with
  | false => exact iff_of_true rfl nofun
  | true =>
    rw [forall_prop_of_true rfl, keyReply]
    split_ifs with hsame
    · have hbuilt := sessReply_isSome devRecv (keyData devRecv) s₂.stData
      rw [show (keyData devRecv).length = 6 from rfl] at hbuilt
      rw [isSome_bind_and fun _ => iff_of_true rfl trivial, hbuilt, forall_prop_of_true hsame, and_true]
      omega
    · exact iff_of_true rfl fun heq => absurd heq hsame

theorem key_isSome : (ble698EsamSessKeyPackage links devRecv s).isSome ↔ KeyEnds links devRecv s := by
  have hrest (asked : Bool) (s₁ : BleSession) : (keyRest links devRecv (asked, s₁)).isSome ↔ (asked = true →
      2 ≤ keydataByte devRecv ∧ ∃ asked' s₂, keyAgreeTwo links devRecv s₁ = some (asked', s₂) ∧
        (asked' = true → s₂.keys.r3 = s₂.keys.r1 → addrLenthOf devRecv.sa ≤ 6)) := by
    cases asked with
    | false => exact iff_of_true rfl nofun
    | true =>
      rw [forall_prop_of_true rfl, keyRest]
      split_ifs with htwo
      · rw [and_iff_right htwo, ← Option.bind_eq_bind, isSome_bind_iff, Prod.exists]
        simp only [keyReply_isSome]
      · exact iff_of_false Bool.false_ne_true fun h => htwo h.1
  rw [ble698EsamSessKeyPackage_eq, ← Option.bind_eq_bind, isSome_bind_iff, Prod.exists]
  simp only [hrest]
  rfl

end Sessions

/-! ## Charge applications that end -/

/-- The length of the string at an offset of a charge application. -/
def applyLen (apduData : Vector Byte 512) (ptr : Nat) : Nat := (apduData.getD (10 + ptr) 0).toNat

/-- The strings found one behind another have room in their fields. The offset has eight bits. -/
def ChargeFits (apduData : Vector Byte 512) : Prop :=
  let user := (applyLen apduData 0 + 2) % 256
  let asset := (user + applyLen apduData user + 2) % 256
  let token := (asset + applyLen apduData asset + 17) % 256
  applyLen apduData 0 ≤ 16 ∧ applyLen apduData user ≤ 64 ∧ applyLen apduData asset ≤ 22 ∧ applyLen apduData token ≤ 32

theorem applyString_isSome {n ptr : Nat} (field : Vector Byte n) (apduData : Vector Byte 512) (hptr : ptr < 256) (hn : n ≤ 65) :
    (applyString field apduData ptr).isSome ↔ applyLen apduData ptr + 1 ≤ n := by
  have hdrop : (apduData.toList.drop (11 + ptr)).length = 501 - ptr := by
    rw [List.length_drop, Vector.length_toList]
    omega
  unfold applyString blit applyLen
  rw [hdrop]
  generalize apduData.getD (10 + ptr) 0 = dataLen
  dsimp only
  split_ifs with hfits
  · exact ⟨fun _ => by omega, fun _ => rfl⟩
  · exact ⟨nofun, fun hle => absurd ⟨by omega, by omega⟩ hfits⟩

theorem charge_isSome (apduData : Vector Byte 512) (a : ChargeApply) :
    (ble698ActionRequestNormalChargeAppply apduData a).isSome ↔ ChargeFits apduData := by
  have hoffset (asset : Nat) : ((((asset + applyLen apduData asset + 1) % 256 + 5) % 256 + 8) % 256 + 3) % 256 =
      (asset + applyLen apduData asset + 17) % 256 := by omega
  have hlen (ptr : Nat) : (apduData.getD (10 + ptr) 0).toNat = applyLen apduData ptr := rfl
  have hfirst : (apduData.getD 10 0).toNat = applyLen apduData 0 := rfl
  unfold ble698ActionRequestNormalChargeAppply ChargeFits
  simp only [hlen, hfirst, hoffset]
  generalize hp₁ : (applyLen apduData 0 + 2) % 256 = user
  generalize hp₂ : (user + applyLen apduData user + 2) % 256 = asset
  generalize hp₃ : (asset + applyLen apduData asset + 17) % 256 = token
  have h₀ := applyString_isSome a.cRequestNO apduData (show 0 < 256 by decide) (by decide)
  have h₁ := applyString_isSome a.cUserID apduData (show user < 256 by omega) (by decide)
  have h₂ := applyString_isSome a.cAssetNO apduData (show asset < 256 by omega) (by decide)
  have h₃ := applyString_isSome a.token apduData (show token < 256 by omega) (by decide)
  rw [isSome_bind_and fun _ => isSome_bind_and fun _ => isSome_bind_and fun _ => isSome_bind_and fun _ => iff_of_true rfl trivial,
    h₀, h₁, h₂, h₃, and_true]
  omega

/-! ## Requests that end -/

/-- What it takes for a request that is no ciphertext to be done with. -/
def BleRequest.Ends (links : Nat → Link) (devRecv : Ble698Frame) (s : BleAnalyser) : BleRequest → Prop
  | meterAddr => addrLenthOf devRecv.sa ≤ 6
  | sessInti => IntiEnds links devRecv s.session
  | sessKey => KeyEnds links devRecv s.session
  | chargeAppply => ChargeFits devRecv.apduData
  | cipher => True
  | other => True

theorem BleRequest.handle_isSome (links : Nat → Link) (devRecv : Ble698Frame) (s : BleAnalyser) (r : BleRequest) :
    (r.handle links devRecv s).isSome ↔ r.Ends links devRecv s := by
  cases r with
  | meterAddr =>
    simp only [handle, Option.isSome_map]
    exact ble698GetMeterAddrPackage_isSome devRecv s.session.stData
  | sessInti =>
    simp only [handle, Option.isSome_map]
    exact inti_isSome links devRecv s.session
  | sessKey =>
    simp only [handle, Option.isSome_map]
    exact key_isSome links devRecv s.session
  | chargeAppply =>
    simp only [handle, Option.isSome_map]
    exact charge_isSome devRecv.apduData s.apply
  | cipher => exact iff_of_true rfl trivial
  | other => exact iff_of_true rfl trivial

/-- A record with other user data over its own. -/
def Ble698Frame.withUserData (devRecv : Ble698Frame) : List Byte → Ble698Frame
  | [] => devRecv
  | cmd :: data => { devRecv with apduCmd := cmd, apduData := copyAt devRecv.apduData 0 data }

/-- What the analysis goes on with after an exchange about a ciphertext. -/
def BleAnalyser.asked (s : BleAnalyser) (devRecv : Ble698Frame) (t : Talk) : BleAnalyser :=
  { s with session := { s.session.cipherTx devRecv with talk := t } }

/-- A request the analysis comes to an end with: every exchange with the ESAM ends; and of a ciphertext, what the ESAM decrypted has
room for the user data and is such a request itself. -/
inductive Answerable (links : Nat → Link) : Ble698Frame → BleAnalyser → Prop
  | plain {devRecv s} (hrequest : requestOf devRecv ≠ .cipher) (hends : (requestOf devRecv).Ends links devRecv s) :
      Answerable links devRecv s
  | refused {devRecv s res t} (hrequest : requestOf devRecv = .cipher)
      (hexchange : (s.session.cipherTx devRecv).talk.communicattion links .appSessVeriMac = some (res, t))
      (hrefused : ¬(res = .eok ∧ StatusOk t.esam.comm.rx)) : Answerable links devRecv s
  | decrypted {devRecv s t} (hrequest : requestOf devRecv = .cipher)
      (hexchange : (s.session.cipherTx devRecv).talk.communicattion links .appSessVeriMac = some (.eok, t))
      (hok : StatusOk t.esam.comm.rx) (hroom : t.esam.comm.dataRxLen - 5 ≤ 513)
      (hanswerable : Answerable links (devRecv.withUserData (t.esam.comm.rxPart 4 (t.esam.comm.dataRxLen - 5))) (s.asked devRecv t)) :
      Answerable links devRecv s

/-- The call ends, and in whatever way it does, one response is all that is written. -/
structure RespondsOnce (links : Nat → Link) (devRecv : Ble698Frame) (s : BleAnalyser) : Prop where
  ends : ∃ depth out, ble698DataAnalysisAndResponse links depth devRecv s = some out
  once : ∀ depth devRecv' s', ble698DataAnalysisAndResponse links depth devRecv s = some (devRecv', s') → OneResponse s s'

section Cipher

variable {links : Nat → Link} {devRecv : Ble698Frame} {t : Talk}

theorem Ble698Frame.decrypted_eq_withUserData {s : Talk} {cmd : EsamCmd} (h : s.communicattion links cmd = some (.eok, t)) :
    devRecv.decrypted t.esam.comm = if t.esam.comm.dataRxLen - 5 ≤ 513 then
      some (devRecv.withUserData (t.esam.comm.rxPart 4 (t.esam.comm.dataRxLen - 5))) else none := by
  have hholds := Talk.communicattion_eok h
  have hfive := hholds.five_le
  rw [← hholds.len] at hfive
  unfold Ble698Frame.decrypted
  split_ifs with hboth hroom hroom
  · cases t.esam.comm.rxPart 4 (t.esam.comm.dataRxLen - 5) <;> rfl
  · exact absurd hboth.2 hroom
  · exact absurd ⟨hfive, hroom⟩ hboth
  · rfl

/-- A ciphertext the ESAM did not decrypt leaves nothing to analyse. -/
theorem securityRequest_refused {s : BleSession} {res : RtErr}
    (h : (s.cipherTx devRecv).talk.communicattion links .appSessVeriMac = some (res, t))
    (hrefused : ¬(res = .eok ∧ StatusOk t.esam.comm.rx)) :
    ble698SecurityRequestCipherText links devRecv s = some (none, { s.cipherTx devRecv with talk := t }) := by
  simp only [ble698SecurityRequestCipherText, h, Option.bind_eq_bind, Option.bind_some]
  exact if_neg hrefused

end Cipher

variable {links : Nat → Link} {devRecv : Ble698Frame} {s : BleAnalyser}

theorem answerable_of_ends {depth : Nat} {out : Ble698Frame × BleAnalyser}
    (h : ble698DataAnalysisAndResponse links depth devRecv s = some out) : Answerable links devRecv s := by
  induction depth generalizing devRecv s out with
  | zero => cases h
  | succ depth ih =>
    by_cases hcipher : requestOf devRecv = .cipher
    · rw [analysis_cipher links s hcipher] at h
      obtain ⟨inner, hhandled, -⟩ := Option.map_eq_some_iff.mp h
      obtain ⟨⟨found, session⟩, hrequest, hinner⟩ := Option.bind_eq_some_iff.mp hhandled
      obtain ⟨⟨res, t⟩, hexchange, -⟩ := Option.bind_eq_some_iff.mp hrequest
      by_cases hok : res = .eok ∧ StatusOk t.esam.comm.rx
      · obtain ⟨rfl, hstatus⟩ := hok
        rw [ble698SecurityRequestCipherText_eok hexchange hstatus, Ble698Frame.decrypted_eq_withUserData hexchange] at hrequest
        split_ifs at hrequest with hroom
        · rw [Option.bind_some] at hrequest
          cases hrequest
          exact .decrypted hcipher hexchange hstatus hroom (ih hinner)
        · cases hrequest
      · exact .refused hcipher hexchange hok
    · rw [analysis_plain links s hcipher] at h
      obtain ⟨s₁, hhandled, -⟩ := Option.map_eq_some_iff.mp h
      refine .plain hcipher ((BleRequest.handle_isSome links devRecv s _).mp ?_)
      rw [hhandled]
      rfl

theorem Answerable.ends (h : Answerable links devRecv s) :
    ∃ depth out, ble698DataAnalysisAndResponse links depth devRecv s = some out := by
  induction h with
  | @plain devRecv s hrequest hends =>
    obtain ⟨s', hhandled⟩ := Option.isSome_iff_exists.mp ((BleRequest.handle_isSome links devRecv s _).mpr hends)
    refine ⟨1, s'.respond devRecv, ?_⟩
    rw [analysis_plain links s hrequest, hhandled, Option.map_some]
  | @refused devRecv s res t hrequest hexchange hrefused =>
    refine ⟨1, (s.asked devRecv t).respond devRecv, ?_⟩
    rw [analysis_cipher links s hrequest, handleCipher, securityRequest_refused hexchange hrefused]
    rfl
  | @decrypted devRecv s t hrequest hexchange hok hroom _ ih =>
    obtain ⟨depth, ⟨d, s'⟩, hinner⟩ := ih
    refine ⟨depth + 1, s'.respond d, ?_⟩
    rw [analysis_cipher links s hrequest, handleCipher, ble698SecurityRequestCipherText_eok hexchange hok,
      Ble698Frame.decrypted_eq_withUserData hexchange, if_pos hroom]
    rw [BleAnalyser.asked] at hinner
    simp only [Option.bind_some, Option.bind_eq_bind, hinner]
    rfl

/-- The analysis of a request ends with at most one reply written and nothing left to send exactly when the request can be
answered. -/
theorem one_response_iff (links : Nat → Link) (devRecv : Ble698Frame) (s : BleAnalyser) :
    RespondsOnce links devRecv s ↔ Answerable links devRecv s := by
  constructor
  · intro h
    obtain ⟨depth, out, hrun⟩ := h.ends
    exact answerable_of_ends hrun
  · intro h
    exact ⟨h.ends, fun _ _ _ hrun => analysis_oneResponse hrun⟩

/-- A request to begin a session. -/
def intiRequest : Ble698Frame := { bareBleFrame with apduData := copyAt bareBleFrame.apduData 0 [1, 0, 0xF1, 0x00, 0x0B, 0x00] }

def newAnalyser : BleAnalyser := ⟨newSession, noApplication, 0, []⟩

/-- A request to begin a session, to a chip whose last answer has 256 bytes, is analysed without end. -/
theorem response_never_sent : newAnalyser.session.stData.dataTxLen = 0 ∧
    (∀ depth, ble698DataAnalysisAndResponse (intiLinks 256) depth intiRequest newAnalyser = none) ∧
    ¬RespondsOnce (intiLinks 256) intiRequest newAnalyser := by
  have hrequest : requestOf intiRequest = .sessInti := by decide +kernel
  have hnone := intiPackage_intiLinks_long intiRequest
  have hendless : ∀ depth, ble698DataAnalysisAndResponse (intiLinks 256) depth intiRequest newAnalyser = none := by
    intro depth
    cases depth with
    | zero => rfl
    | succ depth =>
      rw [analysis_plain _ _ (by rw [hrequest]; decide), hrequest, BleRequest.handle,
        show newAnalyser.session = newSession from rfl, hnone]
      rfl
  refine ⟨rfl, hendless, ?_⟩
  intro h
  obtain ⟨depth, out, hrun⟩ := h.ends
  rw [hendless depth] at hrun
  cases hrun

end EnergyRouter
