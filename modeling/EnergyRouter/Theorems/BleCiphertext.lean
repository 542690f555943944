import EnergyRouter.Theorems.BleReplies

/-!
# Ciphertext over Bluetooth

For which requests and replies all of the ciphertext of a security request arrives at the ESAM, and all of the decrypted data at the
analysis.
-/

namespace EnergyRouter

open Buffer

variable {comm : ScmEsamComm} {links : Nat → Link} {t : Talk} {devRecv : Ble698Frame}

/-! ## What goes out -/

/-- The ciphertext of a request. -/
def ciphertext (devRecv : Ble698Frame) : List Byte := (devRecv.apduData.toList.drop 2).take (cipherdataLenth devRecv)

/-- The ESAM gets the session data and the whole ciphertext, and their length. -/
structure CipherHanded (devRecv : Ble698Frame) (s : BleSession) : Prop where
  len : (s.cipherTx devRecv).talk.esam.comm.dataTxLen = 32 + cipherdataLenth devRecv
  bytes : front (s.cipherTx devRecv).talk.esam.comm.txData (32 + cipherdataLenth devRecv) = s.keys.data.toList ++ ciphertext devRecv

theorem ciphertext_length (devRecv : Ble698Frame) : (ciphertext devRecv).length = cipherdataLenth devRecv := by
  have hbyte := (devRecv.apduData.getD 1 0).isLt
  simp only [ciphertext, List.length_take, List.length_drop, Vector.length_toList]
  unfold cipherdataLenth
  omega

theorem cipherTx_dataTxLen (devRecv : Ble698Frame) (s : BleSession) :
    (s.cipherTx devRecv).talk.esam.comm.dataTxLen = (32 + cipherdataLenth devRecv) % 256 := by
  have hsnd := putPtr_snd (ciphertext devRecv) (copyAt s.talk.esam.comm.txData 0 s.keys.data.toList) (show 32 < 256 by decide)
  rw [ciphertext_length] at hsnd
  exact hsnd

/-- The session data take 32 of the 256 bytes. -/
theorem cipherHanded_iff (devRecv : Ble698Frame) (s : BleSession) : CipherHanded devRecv s ↔ cipherdataLenth devRecv ≤ 223 := by
  have hlen := ciphertext_length devRecv
  have hkeys : s.keys.data.toList.length = 32 := Vector.length_toList
  have hptr := cipherTx_dataTxLen devRecv s
  constructor
  · intro h
    have hbyte := (devRecv.apduData.getD 1 0).isLt
    have hhanded := h.len
    unfold cipherdataLenth at *
    omega
  · intro h
    have hfits : 32 + (ciphertext devRecv).length ≤ 256 := by omega
    have hstored : (s.cipherTx devRecv).talk.esam.comm.txData =
        copyAt s.talk.esam.comm.txData 0 (s.keys.data.toList ++ ciphertext devRecv) := by
      rw [copyAt_append, hkeys]
      exact putPtr_fst hfits
    have hall : (s.keys.data.toList ++ ciphertext devRecv).length = 32 + cipherdataLenth devRecv := by
      rw [List.length_append, hkeys, hlen]
    refine ⟨by omega, ?_⟩
    rw [hstored, ← hall]
    exact front_copyAt_zero _ _ (by omega)

/-! ## What comes back -/

/-- The data of a reply that reports success: as many bytes as it names, and its check behind them. -/
def ReplyData (reply data : List Byte) : Prop :=
  ∃ hi lo chk, reply = [0x90, 0x00, hi, lo] ++ data ++ [chk] ∧ data.length = hi.toNat * 256 + lo.toNat

/-- The length a reply names. -/
def reportedLen (reply : List Byte) : Nat := (reply.getD 2 0).toNat * 256 + (reply.getD 3 0).toNat

/-- The driver counts the rest of a reply as it should, up to 513 bytes of data, but for 511. -/
theorem replyLenth_of_le {hi lo : Byte} (hle : hi.toNat * 256 + lo.toNat ≤ 513) (hne : hi.toNat * 256 + lo.toNat ≠ 511) :
    replyLenth hi lo = hi.toNat * 256 + lo.toNat + 1 := by
  have hlo := lo.isLt
  by_cases hfull : lo.toNat = 255
  · -- no carry is lost where there is none
    have hzero : hi.toNat = 0 := by omega
    rw [replyLenth, hfull, hzero]
    simp
  · rw [replyLenth_of_ne hfull, Nat.add_assoc]

/-- A reply the driver accepted has the data it names, when it counted it as it should. -/
theorem exists_replyData {reply : List Byte} (h : comm.Holds reply) (hok : StatusOk reply) (hle : reportedLen reply ≤ 513)
    (hne : reportedLen reply ≠ 511) :
    ∃ data, ReplyData reply data ∧ data.length = reportedLen reply ∧ comm.rxPart 4 (comm.dataRxLen - 5) = data ∧
      comm.dataRxLen = data.length + 5 := by
  have hlength : reply.length = reportedLen reply + 5 := by
    rw [h.framed, replyLenth_of_le hle hne]
    rfl
  have hpart : comm.rxPart 4 (comm.dataRxLen - 5) = (reply.drop 4).take (reply.length - 5) := by
    rw [h.len]
    exact h.part (by omega)
  rw [hpart, h.len]
  rcases reply with _ | ⟨a, _ | ⟨b, _ | ⟨hi, _ | ⟨lo, rest⟩⟩⟩⟩
  · simp at hlength
  · simp at hlength
  · simp at hlength
  · simp at hlength
  obtain ⟨ha, hb⟩ := hok
  have hrest : rest.length = hi.toNat * 256 + lo.toNat + 1 := by
    simp only [List.length_cons] at hlength
    simp only [reportedLen, List.getD_cons_succ, List.getD_cons_zero] at hlength
    omega
  have hne' : rest ≠ [] := by
    rw [← List.length_pos_iff]
    omega
  have hdata : rest.dropLast.length = hi.toNat * 256 + lo.toNat := by
    rw [List.length_dropLast]
    omega
  refine ⟨rest.dropLast, ⟨hi, lo, rest.getLast hne', ?_, hdata⟩, hdata, ?_, ?_⟩
  · rw [show a = 0x90 from ha, show b = 0x00 from hb, List.append_assoc, List.dropLast_append_getLast]
    rfl
  · rw [List.dropLast_eq_take]
    show rest.take (rest.length + 1 + 1 + 1 + 1 - 5) = _
    rw [show rest.length + 1 + 1 + 1 + 1 - 5 = rest.length - 1 by omega]
  · rw [hdata]
    simp only [List.length_cons]
    omega

/-! ## Both ways -/

/-- The ESAM gets the whole ciphertext; and the request that is analysed is the old one with the decrypted data, which have room
there, for user data. -/
structure CipherForwarded (links : Nat → Link) (devRecv : Ble698Frame) (s : BleSession) : Prop where
  handed : CipherHanded devRecv s
  dispatched : ∀ t, (s.cipherTx devRecv).talk.communicattion links .appSessVeriMac = some (.eok, t) → StatusOk t.esam.comm.rx →
    ∃ s' cmd data, ReplyData t.esam.delivered (cmd :: data) ∧ data.length ≤ 512 ∧
      ble698SecurityRequestCipherText links devRecv s =
        some (some { devRecv with apduCmd := cmd, apduData := copyAt devRecv.apduData 0 data }, s')

theorem Talk.communicattion_eok {cmd : EsamCmd} {t' : Talk} (h : t.communicattion links cmd = some (.eok, t')) :
    t'.esam.comm.Holds t'.esam.delivered := by
  unfold Talk.communicattion at h
  obtain ⟨⟨res, e⟩, hcall, h⟩ := Option.bind_eq_some_iff.mp h
  cases h
  exact esamCommunicattion_eok hcall

theorem ble698SecurityRequestCipherText_eok {s : BleSession}
    (h : (s.cipherTx devRecv).talk.communicattion links .appSessVeriMac = some (.eok, t)) (hok : StatusOk t.esam.comm.rx) :
    ble698SecurityRequestCipherText links devRecv s =
      (devRecv.decrypted t.esam.comm).bind fun inner => some (some inner, { s.cipherTx devRecv with talk := t }) := by
  simp only [ble698SecurityRequestCipherText, h, Option.bind_eq_bind, Option.bind_some]
  exact if_pos ⟨trivial, hok⟩

theorem Ble698Frame.decrypted_eq {cmd : Byte} {data : List Byte} (hpart : comm.rxPart 4 (comm.dataRxLen - 5) = cmd :: data)
    (hlen : comm.dataRxLen = (cmd :: data).length + 5) (hroom : data.length ≤ 512) :
    devRecv.decrypted comm = some { devRecv with apduCmd := cmd, apduData := copyAt devRecv.apduData 0 data } := by
  rw [List.length_cons] at hlen
  rw [Ble698Frame.decrypted, if_pos (by omega), hpart]

/-- All of the ciphertext is handed over exactly when it has at most 223 bytes, and all of the decrypted data dispatched exactly when
the ESAM reports between 1 and 513 of them, 511 apart. -/
theorem cipher_forwarded_iff (links : Nat → Link) (devRecv : Ble698Frame) (s : BleSession) :
    CipherForwarded links devRecv s ↔ cipherdataLenth devRecv ≤ 223 ∧
      ∀ t, (s.cipherTx devRecv).talk.communicattion links .appSessVeriMac = some (.eok, t) → StatusOk t.esam.comm.rx →
        1 ≤ reportedLen t.esam.delivered ∧ reportedLen t.esam.delivered ≤ 513 ∧ reportedLen t.esam.delivered ≠ 511 := by
  constructor
  · intro h
    refine ⟨(cipherHanded_iff devRecv s).mp h.handed, ?_⟩
    intro t hexchange hok
    obtain ⟨s', cmd, data, ⟨hi, lo, chk, hreply, hcount⟩, hroom, -⟩ := h.dispatched t hexchange hok
    have hframed := (Talk.communicattion_eok hexchange).framed
    have hlen : reportedLen t.esam.delivered = hi.toNat * 256 + lo.toNat := by rw [hreply]; rfl
    have hrest : replyLenth hi lo = data.length + 2 := by
      rw [hreply] at hframed
      simp only [List.length_append, List.length_cons, List.length_nil] at hframed
      have hlenth : replyLenth hi lo = replyLenth (([0x90, 0x00, hi, lo] ++ cmd :: data ++ [chk]).getD 2 0)
          (([0x90, 0x00, hi, lo] ++ cmd :: data ++ [chk]).getD 3 0) := rfl
      omega
    rw [List.length_cons] at hcount
    refine ⟨by omega, by omega, ?_⟩
    -- 511 bytes: the carry out of the low byte meets a set bit
    intro hlost
    have hlo := lo.isLt
    have hhi : hi.toNat = 1 := by omega
    have hlow : lo.toNat = 255 := by omega
    rw [replyLenth, hhi, hlow] at hrest
    have hcarry : (1 <<< 8 ||| (255 + 1)) = 256 := by decide
    omega
  · rintro ⟨hshort, hreported⟩
    refine ⟨(cipherHanded_iff devRecv s).mpr hshort, ?_⟩
    intro t hexchange hok
    obtain ⟨hpos, hle, hne⟩ := hreported t hexchange hok
    have hholds := Talk.communicattion_eok hexchange
    obtain ⟨all, hall, hcount, hpart, hlen⟩ := exists_replyData hholds (hholds.statusOk.mp hok) hle hne
    cases all with
    | nil =>
      rw [List.length_nil] at hcount
      omega
    | cons cmd data =>
      have hroom : data.length ≤ 512 := by
        rw [List.length_cons] at hcount
        omega
      refine ⟨{ s.cipherTx devRecv with talk := t }, cmd, data, hall, hroom, ?_⟩
      rw [ble698SecurityRequestCipherText_eok hexchange hok, Ble698Frame.decrypted_eq hpart hlen hroom, Option.bind_some]

/-- A request with `n` bytes of ciphertext, all of them 2. -/
def cipherRequest (n : Byte) : Ble698Frame :=
  { bareBleFrame with apduCmd := 16, apduData := copyAt bareBleFrame.apduData 0 [1, n] }

/-- With 224 bytes of ciphertext the pointer comes back to 0, and nothing at all is handed over. -/
theorem ciphertext_not_forwarded : cipherdataLenth (cipherRequest 224) = 224 ∧
    (newSession.cipherTx (cipherRequest 224)).talk.esam.comm.dataTxLen = 0 ∧
    ∀ links, ¬CipherForwarded links (cipherRequest 224) newSession := by
  have hlenth : cipherdataLenth (cipherRequest 224) = 224 := by
    have hbyte : (cipherRequest 224).apduData.getD 1 0 = 224 := getD_copyAt_zero bareBleFrame.apduData [1, 224] 0 (by simp) (by simp)
    rw [cipherdataLenth, hbyte]
    rfl
  refine ⟨hlenth, ?_, ?_⟩
  · rw [cipherTx_dataTxLen, hlenth]
  · intro links h
    have hshort := (cipherHanded_iff _ _).mp h.handed
    rw [hlenth] at hshort
    exact absurd hshort (by decide)

end EnergyRouter
