import EnergyRouter.Lemmas.BleReply
import EnergyRouter.Theorems.Freshness

/-!
# Replies over Bluetooth are frames

The reply with the address of the meter and the one that ends the agreement on a session are valid frames. The one that begins it
carries what the ESAM answered, through an eight-bit counter, pointer and length; the second main result says for which answers it
is a frame.
-/

namespace EnergyRouter

open Buffer

variable {devRecv : Ble698Frame} {stData : ScmUartComm} {s : BleSession} {n : Nat}

/-! ## Accepted requests -/

/-- A frame the receiver finds and unpacks is an accepted request, whatever stands behind it in its slot. -/
theorem accepted_of_found {rxData : Vector Byte 1024} {i lenth : Nat} (hfound : bleFrameAt rxData i = some (some lenth))
    {old : Ble698Frame} {rest : List Byte}
    (hunpack : ble698DataUnPackage old ((rxData.toList.drop i).take (lenth + 2) ++ rest) = some (.eok, devRecv)) :
    devRecv.Accepted := by
  obtain ⟨-, ⟨high, low, hhigh, hlow, hlenth⟩, hlast⟩ := bleFrameAt_inv hfound
  have hpos := bleFrameAt_pos hfound
  have hcell {k : Nat} {b : Byte} (hk : k < lenth + 2) (hb : rxData[i + k]? = some b) :
      ((rxData.toList.drop i).take (lenth + 2) ++ rest)[k]? = some b := by
    have hread := getElem?_found hk hb
    rw [List.getElem?_append_left (List.getElem?_eq_some_iff.mp hread).1, hread]
  rcases ble698DataUnPackage_inv hunpack with ⟨herror, -⟩ | ⟨-, hunpacked⟩
  · cases herror
  have hlow' := hunpacked.uclenth0
  have hhigh' := hunpacked.uclenth1
  have hend := hunpacked.endChar
  rw [hcell (by omega) hlow] at hlow'
  rw [hcell (by omega) hhigh] at hhigh'
  rw [← Option.some.inj hlow', ← Option.some.inj hhigh', ullenthOf, ← hlenth, hcell (by omega) hlast] at hend
  exact ⟨hunpacked.head, (Option.some.inj hend).symm, hunpacked.addr⟩

/-! ## Replies to them -/

/-- A reply is a frame that `BLE_Check_Data_to_Buf` finds, of the length in `DataTx_len`, with the two addresses of the request. -/
structure ValidReply (devRecv : Ble698Frame) (stData : ScmUartComm) : Prop where
  head : stData.txData[0]? = some 0x68
  length : ∃ low high, stData.txData[1]? = some low ∧ stData.txData[2]? = some high ∧ stData.dataTxLen = ullenthOf low high + 2
  last : stData.txData[stData.dataTxLen - 1]? = some 0x16
  found : bleFrameAt stData.txData 0 = some (some (stData.dataTxLen - 2))
  sa : stData.txData[4]? = some devRecv.sa
  addr : (stData.txData.toList.drop 5).take (addrLenthOf devRecv.sa) = front devRecv.addr (addrLenthOf devRecv.sa)
  ca : stData.txData[5 + addrLenthOf devRecv.sa]? = some devRecv.ca

theorem RepliesTo.validReply (h : devRecv.Accepted) {p : Parts698} (hp : RepliesTo devRecv stData.txData p)
    (hlen : stData.dataTxLen = p.bytes.length) : ValidReply devRecv stData := by
  have hlist := toList_of_front hp.bytes
  have hcell (k : Nat) : stData.txData[k]? = (p.bytes ++ stData.txData.toList.drop p.bytes.length)[k]? := by
    rw [← hlist, Vector.getElem?_toList]
  have hsAddr : p.sAddr.length = addrLenthOf devRecv.sa := by rw [hp.sAddr, h.addr_length]
  have htotal := hp.valid.ullenth hp.reserved
  have hfound := bleFrameAt_frame (i := 0) hp.valid hp.reserved hlist
  have hlast := (bleFrameAt_inv hfound).2.2
  have hmin := p.bytes_length
  refine ⟨hcell 0, ⟨p.length0, p.length1, hcell 1, hcell 2, ?_⟩, ?_, ?_, ?_, ?_, ?_⟩
  · rw [htotal, hlen]
  · rw [Nat.zero_add, show p.bytes.length - 2 + 1 = p.bytes.length - 1 by omega] at hlast
    rw [hlen, hlast]
  · rw [hlen, hfound]
  · rw [hcell 4, ← hp.sa]
    rfl
  · rw [hlist, p.drop_addr, ← hp.sAddr, List.take_left' hsAddr]
  · rw [hcell, ← hsAddr, p.getElem?_behind_addr _ (j := 0) (by omega), ← hp.ca]
    rfl

/-- The two replies that do not depend on the length of an answer of the ESAM are always built, and are valid frames to the sender of
the request. -/
theorem ble_replies_valid {devRecv : Ble698Frame} (h : devRecv.Accepted) :
    (∀ stData, ∃ stData', ble698GetMeterAddrPackage devRecv stData = some stData' ∧ ValidReply devRecv stData') ∧
      (∀ stData, ∃ stData', sessReply devRecv (keyData devRecv) stData = some stData' ∧ ValidReply devRecv stData') ∧
      ∀ links s s', ble698EsamSessKeyPackage links devRecv s = some (true, s') → ValidReply devRecv s'.stData := by
  have hmeter : ∀ stData, ∃ stData', ble698GetMeterAddrPackage devRecv stData = some stData' ∧ ValidReply devRecv stData' := by
    intro stData
    obtain ⟨stData', p, hbuilt, hp, hlen, -⟩ := ble698GetMeterAddrPackage_repliesTo h stData
    exact ⟨stData', hbuilt, hp.validReply h hlen⟩
  have hkey : ∀ stData, ∃ stData', sessReply devRecv (keyData devRecv) stData = some stData' ∧ ValidReply devRecv stData' := by
    intro stData
    have hdata : (keyData devRecv).length = 6 := rfl
    have haddr := h.addr
    obtain ⟨stData', p, stale, hbuilt, hp, hlength, hlen, -⟩ := sessReply_repliesTo h (keyData devRecv) stData (by omega)
    rw [Nat.mod_eq_of_lt (by omega)] at hlen
    exact ⟨stData', hbuilt, hp.validReply h hlen⟩
  refine ⟨hmeter, hkey, ?_⟩
  intro links s s' hrun
  obtain ⟨stData, hbuilt⟩ := ble698EsamSessKeyPackage_built hrun
  obtain ⟨stData', hbuilt', hvalid⟩ := hkey stData
  rw [hbuilt] at hbuilt'
  rw [Option.some.inj hbuilt']
  exact hvalid

/-- The session key is agreed on with a chip that answered `90 00` and zeros. -/
theorem ble_replies_valid_zero :
    (∃ stData, ble698GetMeterAddrPackage bareBleFrame zeroUart = some stData ∧ ValidReply bareBleFrame stData) ∧
      ∃ s', ble698EsamSessKeyPackage (fun _ => deadLink) bareBleFrame ⟨zeroKeys, zeroUart, ⟨staleEsam [0x90], []⟩⟩ = some (true, s') ∧
        ValidReply bareBleFrame s'.stData := by
  obtain ⟨hmeter, -, hkey⟩ := ble_replies_valid (show bareBleFrame.Accepted by decide)
  have hrun : (ble698EsamSessKeyPackage (fun _ => deadLink) bareBleFrame ⟨zeroKeys, zeroUart, ⟨staleEsam [0x90], []⟩⟩).map
      Prod.fst = some true := by decide +kernel
  obtain ⟨⟨built, s'⟩, hcall, hbuilt⟩ := Option.map_eq_some_iff.mp hrun
  rw [show built = true from hbuilt] at hcall
  exact ⟨hmeter zeroUart, s', hcall, hkey _ _ _ hcall⟩

/-! ## The reply that begins a session -/

/-- The four exchanges of `BLE_698_ESAM_SESS_INTI_Package`, without the reply. -/
def intiExchanges (links : Nat → Link) (devRecv : Ble698Frame) (s : BleSession) : Option (Bool × BleSession) :=
  BleSession.asks links rdInfo01 { s with talk := s.talk.setTx s.talk.esam.comm.txData 0 } fun s =>
  let version := s.talk.esam.comm.rxPart 4 5
  BleSession.asks links .appKeyAgreeOne s fun s =>
  let r1 := (devRecv.apduData.toList.drop 11).take 16
  let keys := { s.keys with r1 := copyAt s.keys.r1 0 r1, r2 := copyAt s.keys.r2 0 (s.talk.esam.comm.rxPart 4 16) }
  BleSession.asks links .appKeyAgreeTwo ({ s with keys := keys }.setTx (r1 ++ version)) fun s =>
  let data2 := s.talk.esam.comm.rxPart 4 16
  BleSession.asks links .appKeyAgreeThree (s.setTx (data2 ++ r1 ++ s.keys.r2.toList)) fun s => some (true, s)

/-- The length the last reply of the ESAM reports. -/
def BleSession.endataLen (s : BleSession) : Nat :=
  (s.talk.esam.comm.rx.getD 2 0).toNat * 256 + (s.talk.esam.comm.rx.getD 3 0).toNat

/-- The data of the last reply of the ESAM. -/
def BleSession.endata (s : BleSession) : List Byte := s.talk.esam.comm.rxPart 4 s.endataLen

/-- The reply behind the exchanges, when they all succeeded. -/
def intiReply (devRecv : Ble698Frame) : Bool × BleSession → Option (Bool × BleSession)
  | (false, s) => some (false, s)
  | (true, s) => do
    let data ← intiData devRecv s.talk.esam.comm.rx
    let stData ← sessReply devRecv data s.stData
    some (true, { s with stData := stData })

theorem ble698EsamSessIntiPackage_eq (links : Nat → Link) (devRecv : Ble698Frame) (s : BleSession) :
    ble698EsamSessIntiPackage links devRecv s = (intiExchanges links devRecv s).bind (intiReply devRecv) := by
  have hf : ∀ s, intiReply devRecv (false, s) = some (false, s) := fun s => rfl
  unfold intiExchanges ble698EsamSessIntiPackage
  simp only [BleSession.asks_bind _ _ _ _ hf, Option.bind_some]
  rfl

/-- The call ends with a valid frame that carries all data of the last reply in their order, or with nothing to send. -/
def IntiReplied (links : Nat → Link) (devRecv : Ble698Frame) (s : BleSession) : Prop :=
  ∃ built s', ble698EsamSessIntiPackage links devRecv s = some (built, s') ∧
    (s'.stData.dataTxLen = 0 ∨
      ∃ p : Parts698, p.Valid ∧ front s'.stData.txData s'.stData.dataTxLen = p.bytes ∧ s'.endata <:+: p.apdu)

theorem BleSession.endata_length (h : s.endataLen < 256) : s.endata.length = s.endataLen := by
  simp only [BleSession.endata, ScmEsamComm.rxPart, ScmEsamComm.rx, List.length_take, List.length_drop, Vector.length_toList]
  omega

/-- What the reply carries: an octet string of two bytes of the request and the data. -/
def BleSession.intiOctets (devRecv : Ble698Frame) (s : BleSession) : List Byte :=
  [0x09, BitVec.ofNat 8 (s.endataLen + 2), devRecv.apduData.getD 8 0, devRecv.apduData.getD 9 0] ++ s.endata

theorem BleSession.intiOctets_length (h : s.endataLen < 256) (devRecv : Ble698Frame) :
    (s.intiOctets devRecv).length = 4 + s.endataLen := by
  rw [intiOctets, List.length_append, BleSession.endata_length h]
  rfl

theorem intiReply_eq (h : s.endataLen < 256) (devRecv : Ble698Frame) :
    intiReply devRecv (true, s) =
      (sessReply devRecv (s.intiOctets devRecv) s.stData).map fun stData => (true, { s with stData := stData }) := by
  have hdata : intiData devRecv s.talk.esam.comm.rx = some (s.intiOctets devRecv) := if_neg (Nat.not_le.mpr h)
  rw [intiReply, hdata]
  exact Option.map_eq_bind.symm

theorem intiReply_eq_none (h : 256 ≤ s.endataLen) (devRecv : Ble698Frame) : intiReply devRecv (true, s) = none := by
  have hdata : intiData devRecv s.talk.esam.comm.rx = none := if_pos h
  rw [intiReply, hdata]
  rfl

theorem sessReply_dataTxLen (h : devRecv.Accepted) {data : List Byte} {stData' : ScmUartComm}
    (hbuilt : sessReply devRecv data stData = some stData') :
    stData'.dataTxLen = (22 + addrLenthOf devRecv.sa + data.length) % 256 := by
  have hstored := sessStored_length h.addr data
  rw [sessReply_eq h.addr] at hbuilt
  obtain ⟨tx, -, hst⟩ := Option.map_eq_some_iff.mp hbuilt
  rw [← hst]
  show ((_ + 2) % 256 + 2) % 256 = _
  rw [putPtr_snd _ _ (by decide), hstored]
  omega

/-- The four exchanges succeeded. Then the call replies as it should exactly when the address has room and the reply is no longer
than the eight bits of its length, with 26 bytes around the address and the data. -/
theorem inti_reply_iff {links : Nat → Link} {devRecv : Ble698Frame} {s s₄ : BleSession} (hhead : devRecv.head = 0x68)
    (hend : devRecv.endChar = 0x16) (hasked : intiExchanges links devRecv s = some (true, s₄)) :
    IntiReplied links devRecv s ↔ addrLenthOf devRecv.sa ≤ 6 ∧ 26 + addrLenthOf devRecv.sa + s₄.endataLen ≤ 256 := by
  have hcall : ble698EsamSessIntiPackage links devRecv s = intiReply devRecv (true, s₄) := by
    rw [ble698EsamSessIntiPackage_eq, hasked, Option.bind_some]
  constructor
  · rintro ⟨built, s', hrun, hreply⟩
    rw [hcall] at hrun
    have hlt : s₄.endataLen < 256 := by
      by_contra hlong
      rw [intiReply_eq_none (Nat.not_lt.mp hlong)] at hrun
      cases hrun
    rw [intiReply_eq hlt] at hrun
    obtain ⟨stData, hbuilt, hrun⟩ := Option.map_eq_some_iff.mp hrun
    cases hrun
    have haddr : addrLenthOf devRecv.sa ≤ 6 := by
      by_contra hlong
      rw [sessReply_eq_none hlong] at hbuilt
      cases hbuilt
    refine ⟨haddr, ?_⟩
    have hendata := BleSession.endata_length hlt
    have hlen := BleSession.intiOctets_length hlt devRecv
    have hsent := sessReply_dataTxLen ⟨hhead, hend, haddr⟩ hbuilt
    by_contra hover
    -- the length wrapped: too few bytes are sent to hold the data
    rcases hreply with hzero | ⟨p, -, hbytes, hinfix⟩
    · dsimp only at hzero
      omega
    · have hsize := congrArg List.length hbytes
      rw [front_length (by dsimp only; omega), p.bytes_length] at hsize
      have hle : s₄.endata.length ≤ p.apdu.length := hinfix.length_le
      dsimp only at hsize
      omega
  · rintro ⟨haddr, hfits⟩
    have haccepted : devRecv.Accepted := ⟨hhead, hend, haddr⟩
    have hlt : s₄.endataLen < 256 := by omega
    have hoctets := BleSession.intiOctets_length hlt devRecv
    obtain ⟨stData', p, stale, hbuilt, hp, hlength, hlen, hapdu⟩ :=
      sessReply_repliesTo haccepted (s₄.intiOctets devRecv) s₄.stData (by omega)
    refine ⟨true, { s₄ with stData := stData' }, ?_, ?_⟩
    · rw [hcall, intiReply_eq hlt, hbuilt, Option.map_some]
    · rw [hoctets] at hlength
      rcases Nat.lt_or_ge p.bytes.length 256 with hshort | hfull
      · refine .inr ⟨p, hp.valid, ?_, ?_⟩
        · rw [hlen, Nat.mod_eq_of_lt hshort, hp.bytes]
        · rw [hapdu]
          refine ⟨replyObject devRecv ++ ([0, 1] ++ [0x09, BitVec.ofNat 8 (s₄.endataLen + 2), devRecv.apduData.getD 8 0,
            devRecv.apduData.getD 9 0]), [0, stale], ?_⟩
          simp [sessApdu, BleSession.intiOctets, BleSession.endata, BleSession.endataLen]
      · -- a reply of 256 bytes has the length 0
        refine .inl ?_
        dsimp only
        omega

/-- An answer that reports success, with `n` bytes of data. -/
def successReply (n : Nat) : List Byte := [0x90, 0x00] ++ lengthBytes n ++ List.replicate n 7

theorem successReply_framed (hn : n < 1020) (hlow : n % 256 ≠ 255) : ReplySized (successReply n) := by
  have hlen : (successReply n).length = n + 4 := by simp [successReply, lengthBytes]
  have hlo : (BitVec.ofNat 8 n : Byte).toNat = n % 256 := BitVec.toNat_ofNat n 8
  have hhi : (BitVec.ofNat 8 (n / 256) : Byte).toNat = n / 256 := by
    rw [BitVec.toNat_ofNat]
    omega
  refine ⟨?_, by omega⟩
  show _ = replyLenth (BitVec.ofNat 8 (n / 256)) (BitVec.ofNat 8 n) + 3
  rw [replyLenth_of_ne (by rw [hlo]; exact hlow), hlo, hhi]
  omega

/-- Four answers that report success, the last one with `n` bytes of data. -/
def intiLinks (n : Nat) (k : Nat) : Link := replyLink (successReply (if k = 3 then n else 16))

/-- A session at power-up. -/
def newSession : BleSession := ⟨zeroKeys, zeroUart, ⟨zeroEsam, []⟩⟩

theorem length_rxPart_le (comm : ScmEsamComm) (i n : Nat) : (comm.rxPart i n).length ≤ n := List.length_take_le ..

theorem intiExchanges_intiLinks (hn : n < 1020) (hlow : n % 256 ≠ 255) (devRecv : Ble698Frame) :
    ∃ s₄, intiExchanges (intiLinks n) devRecv newSession = some (true, s₄) ∧ s₄.endataLen = n ∧ s₄.stData = zeroUart := by
  have hsixteen := successReply_framed (show 16 < 1020 by decide) (by decide)
  have hlast := successReply_framed hn hlow
  have hok (m : Nat) : StatusOk (successReply m) := ⟨rfl, rfl⟩
  have hr1 : ((devRecv.apduData.toList.drop 11).take 16).length ≤ 16 := List.length_take_le ..
  unfold intiExchanges
  refine BleSession.asks_replyLink (show intiLinks n 0 = replyLink (successReply 16) from rfl) hsixteen (hok 16) (by decide)
    fun t₁ hcomm₁ hmade₁ => ?_
  have hlink₁ : intiLinks n t₁.made.length = replyLink (successReply 16) := by
    rw [hmade₁]
    rfl
  refine BleSession.asks_replyLink hlink₁ hsixteen (hok 16) (by rw [hcomm₁]; decide) fun t₂ hcomm₂ hmade₂ => ?_
  have hcount₂ : t₂.made.length = 2 := hmade₂.trans (congrArg (· + 1) hmade₁)
  have hlink₂ : intiLinks n t₂.made.length = replyLink (successReply 16) := by
    rw [hcount₂]
    rfl
  refine BleSession.asks_replyLink hlink₂ hsixteen (hok 16) ?_ fun t₃ hcomm₃ hmade₃ => ?_
  · have hversion := length_rxPart_le t₁.esam.comm 4 5
    show 6 + 1 + 0 + ((devRecv.apduData.toList.drop 11).take 16 ++ t₁.esam.comm.rxPart 4 5).length < 1024
    rw [List.length_append]
    omega
  have hlink₃ : intiLinks n t₃.made.length = replyLink (successReply n) := by
    rw [show t₃.made.length = 3 from hmade₃.trans (congrArg (· + 1) hcount₂)]
    rfl
  refine BleSession.asks_replyLink hlink₃ hlast (hok n) ?_ fun t₄ hcomm₄ hmade₄ => ?_
  · have hdata2 := length_rxPart_le t₃.esam.comm 4 16
    show 6 + 1 + 0 + (t₃.esam.comm.rxPart 4 16 ++ (devRecv.apduData.toList.drop 11).take 16 ++ Vector.toList _).length < 1024
    rw [List.length_append, List.length_append, Vector.length_toList]
    omega
  refine ⟨_, rfl, ?_, rfl⟩
  have hholds : t₄.esam.comm.Holds (successReply n ++ [esamCheck (successReply n)]) := by
    rw [hcomm₄]
    exact ScmEsamComm.answered_holds hlast _
  have hfive := hholds.five_le
  show (t₄.esam.comm.rx.getD 2 0).toNat * 256 + (t₄.esam.comm.rx.getD 3 0).toNat = n
  rw [hholds.getD (by omega), hholds.getD (by omega)]
  show (BitVec.ofNat 8 (n / 256)).toNat * 256 + (BitVec.ofNat 8 n).toNat = n
  rw [BitVec.toNat_ofNat, BitVec.toNat_ofNat]
  omega

/-- An answer of 16 bytes is passed on in a frame. -/
theorem inti_reply_sixteen : ∃ s₄, intiExchanges (intiLinks 16) bareBleFrame newSession = some (true, s₄) ∧ s₄.endataLen = 16 ∧
    IntiReplied (intiLinks 16) bareBleFrame newSession := by
  obtain ⟨s₄, hasked, hlen, -⟩ := intiExchanges_intiLinks (show 16 < 1020 by decide) (by decide) bareBleFrame
  refine ⟨s₄, hasked, hlen, (inti_reply_iff rfl rfl hasked).mpr ⟨by decide, ?_⟩⟩
  rw [hlen]
  decide

/-- Data of 256 bytes are copied without end. -/
theorem intiPackage_intiLinks_long (devRecv : Ble698Frame) : ble698EsamSessIntiPackage (intiLinks 256) devRecv newSession = none := by
  obtain ⟨s₄, hasked, hlen, -⟩ := intiExchanges_intiLinks (show 256 < 1020 by decide) (by decide) devRecv
  rw [ble698EsamSessIntiPackage_eq, hasked, Option.bind_some, intiReply_eq_none (by omega)]

/-- An answer of 256 bytes gets no reply, and the call does not end. -/
theorem inti_reply_endless :
    (∃ s₄, intiExchanges (intiLinks 256) bareBleFrame newSession = some (true, s₄) ∧ s₄.endataLen = 256) ∧
      ble698EsamSessIntiPackage (intiLinks 256) bareBleFrame newSession = none ∧
      ¬IntiReplied (intiLinks 256) bareBleFrame newSession := by
  obtain ⟨s₄, hasked, hlen, -⟩ := intiExchanges_intiLinks (show 256 < 1020 by decide) (by decide) bareBleFrame
  have hnone := intiPackage_intiLinks_long bareBleFrame
  refine ⟨⟨s₄, hasked, hlen⟩, hnone, ?_⟩
  rintro ⟨built, s', hrun, -⟩
  rw [hnone] at hrun
  cases hrun

end EnergyRouter
