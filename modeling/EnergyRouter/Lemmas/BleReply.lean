import EnergyRouter.BleAnalysis
import EnergyRouter.Lemmas.BleReceive

/-!
# The replies over Bluetooth

What the builders of replies leave in `Tx_data`: a header with gaps and user data, closed to a valid frame. The session replies are
stored through an eight-bit pointer, which is the same as long as it does not wrap.
-/

namespace EnergyRouter

open Buffer TableCrc

variable {tx : Vector Byte 1024} {apdu : List Byte} {ptr : Nat} {links : Nat → Link} {s s' : BleSession}

/-! ## Closing a reply -/

theorem check_two (r : BitVec 16) : ∃ c₀ c₁, check r = [c₀, c₁] := ⟨_, _, check_eq r⟩

/-- Closing patches the gaps of the header: what is left is a valid frame. -/
theorem closeReply_frame {g₁ g₂ control sa ca g₃ g₄ : Byte} {sAddr : List Byte}
    (hfront : front tx (8 + sAddr.length + apdu.length) = [0x68, g₁, g₂, control, sa] ++ sAddr ++ [ca, g₃, g₄] ++ apdu)
    (haddr : sAddr.length = addrLenthOf sa) (hlen : 11 + sAddr.length + apdu.length ≤ 1024) :
    ∃ tx', ∃ p : Parts698, closeReply tx sAddr.length (9 + sAddr.length + apdu.length) 0x16 = some tx' ∧ p.Valid ∧ p.ReservedClear ∧
      front tx' p.bytes.length = p.bytes ∧ p.control = control ∧ p.sa = sa ∧ p.sAddr = sAddr ∧ p.ca = ca ∧ p.apdu = apdu := by
  generalize htotal : 9 + sAddr.length + apdu.length = total
  -- the length field
  have hlength : front ((tx.setIfInBounds 1 (BitVec.ofNat 8 total)).setIfInBounds 2 (BitVec.ofNat 8 (total / 256)))
      (8 + sAddr.length + apdu.length) =
      ([0x68, BitVec.ofNat 8 total, BitVec.ofNat 8 (total / 256), control, sa] ++ sAddr ++ [ca]) ++ [g₃, g₄] ++ apdu := by
    rw [front_set, front_set, hfront]
    simp
  generalize htx₀ : (tx.setIfInBounds 1 (BitVec.ofNat 8 total)).setIfInBounds 2 (BitVec.ofNat 8 (total / 256)) = tx₀ at hlength
  generalize hhead : [0x68, BitVec.ofNat 8 total, BitVec.ofNat 8 (total / 256), control, sa] ++ sAddr ++ [ca] = head at hlength
  have hheadLen : head.length = sAddr.length + 6 := by
    rw [← hhead]
    simp
  -- the header check
  have hheader : front tx₀ (sAddr.length + 6) = head := by
    rw [List.append_assoc] at hlength
    have hpart := front_of_append hlength (by omega)
    rwa [hheadLen] at hpart
  have hhcs := tryfcs16_eq tx₀ (sAddr.length + 6) (by omega) (by omega)
  rw [hheader] at hhcs
  obtain ⟨h₀, h₁, hcheck⟩ := check_two (fcsOf (head.drop 1))
  rw [hcheck] at hhcs
  have hbody := front_copyAt_mid tx₀ (8 + sAddr.length + apdu.length) head [g₃, g₄] apdu [h₀, h₁] hlength rfl
  rw [hheadLen] at hbody
  generalize copyAt tx₀ (sAddr.length + 6) [h₀, h₁] = tx₁ at hhcs hbody
  -- the frame check
  have hfcs := tryfcs16_eq tx₁ (8 + sAddr.length + apdu.length) (by omega) (by omega)
  rw [hbody] at hfcs
  obtain ⟨f₀, f₁, hcheck'⟩ := check_two (fcsOf ((head ++ [h₀, h₁] ++ apdu).drop 1))
  rw [hcheck'] at hfcs
  have hchecked := front_copyAt tx₁ (8 + sAddr.length + apdu.length) [f₀, f₁] (by simp; omega)
  rw [hbody] at hchecked
  generalize copyAt tx₁ (8 + sAddr.length + apdu.length) [f₀, f₁] = tx₂ at hfcs hchecked
  rw [show 8 + sAddr.length + apdu.length + [f₀, f₁].length = total + 1 by simp; omega] at hchecked
  have hended := front_set_succ tx₂ (0x16 : Byte) (show total + 1 < 1024 by omega)
  rw [hchecked] at hended
  let p : Parts698 := ⟨BitVec.ofNat 8 total, BitVec.ofNat 8 (total / 256), control, sa, sAddr, ca, h₀, h₁, apdu, f₀, f₁⟩
  have hpheader : p.header = head ++ [h₀, h₁] := by
    rw [← hhead]
    simp [p, Parts698.header]
  have hpbytes : p.bytes = head ++ [h₀, h₁] ++ apdu ++ [f₀, f₁] ++ [0x16] := by
    rw [Parts698.bytes, hpheader]
    simp [p]
  have hplen : p.bytes.length = total + 2 := by
    rw [p.bytes_length, ← htotal]
    simp only [p]
    omega
  have hne : head ≠ [] := by
    rw [← hhead]
    simp
  have hclose : closeReply tx sAddr.length total 0x16 = some (tx₂.setIfInBounds (total + 1) 0x16) := by
    have hint : (total : Int) - 1 = ((8 + sAddr.length + apdu.length : Nat) : Int) := by omega
    have hint' : (sAddr.length : Int) + 6 = ((sAddr.length + 6 : Nat) : Int) := by omega
    simp only [closeReply, htx₀, hint, hint', hhcs, hfcs, Option.bind_eq_bind, Option.bind_some]
  have hhigh : (BitVec.ofNat 8 (total / 256)).toNat = total / 256 := by
    rw [BitVec.toNat_ofNat]
    omega
  refine ⟨_, p, hclose, ⟨haddr, ?_, ?_, ?_⟩, ?_, ?_, rfl, rfl, rfl, rfl, rfl⟩
  · have hlow : (BitVec.ofNat 8 total).toNat = total % 256 := BitVec.toNat_ofNat total 8
    rw [hplen, toNat_lengthMask]
    simp only [p]
    rw [hhigh, hlow]
    omega
  · rw [hpheader, ← hcheck]
    exact fcsGood_append_check hne
  · have hblock : head ++ [h₀, h₁] ++ apdu ≠ [] := by simp
    rw [hpbytes, List.dropLast_concat, ← hcheck']
    exact fcsGood_append_check hblock
  · show (BitVec.ofNat 8 (total / 256)).toNat < 2 ^ 6
    rw [hhigh]
    omega
  · rw [hplen, hpbytes]
    exact hended

/-- No check is written over fewer bytes than the first. -/
theorem tryfcs16_of_lt_one (cp : Vector Byte 1024) {len : Int} (h : len < 1) : tryfcs16 cp len = none := by
  rw [tryfcs16, pppfcs16, if_pos (by omega)]
  rfl

/-- A reply is closed whenever it has a length; the rest of the checks lie in the buffer. -/
theorem closeReply_isSome {lenth total : Nat} (hlenth : lenth ≤ 16) (htotal : total ≤ 1000) (tx : Vector Byte 1024) (endChar : Byte) :
    (closeReply tx lenth total endChar).isSome ↔ 2 ≤ total := by
  unfold closeReply
  generalize (tx.setIfInBounds 1 (BitVec.ofNat 8 total)).setIfInBounds 2 (BitVec.ofNat 8 (total / 256)) = tx₀
  have hhcs := tryfcs16_eq tx₀ (lenth + 6) (by omega) (by omega)
  rw [show (lenth : Int) + 6 = ((lenth + 6 : Nat) : Int) by omega]
  simp only [hhcs, Option.bind_eq_bind, Option.bind_some]
  generalize copyAt tx₀ (lenth + 6) _ = tx₁
  rcases Nat.lt_or_ge total 2 with hshort | hlong
  · rw [tryfcs16_of_lt_one tx₁ (by omega)]
    simp
    omega
  · have hfcs := tryfcs16_eq tx₁ (total - 1) (by omega) (by omega)
    rw [show (total : Int) - 1 = ((total - 1 : Nat) : Int) by omega, hfcs]
    simp [hlong]

/-! ## Replies to a request -/

/-- The header of a request that was accepted: the start and the end character, and an address that has room. -/
structure Ble698Frame.Accepted (devRecv : Ble698Frame) : Prop where
  head : devRecv.head = 0x68
  endChar : devRecv.endChar = 0x16
  addr : addrLenthOf devRecv.sa ≤ 6

instance (devRecv : Ble698Frame) : Decidable devRecv.Accepted :=
  decidable_of_iff (devRecv.head = 0x68 ∧ devRecv.endChar = 0x16 ∧ addrLenthOf devRecv.sa ≤ 6)
    ⟨fun ⟨h₁, h₂, h₃⟩ => ⟨h₁, h₂, h₃⟩, fun ⟨h₁, h₂, h₃⟩ => ⟨h₁, h₂, h₃⟩⟩

/-- A buffer begins with a valid frame to the sender of a request. -/
structure RepliesTo (devRecv : Ble698Frame) (tx : Vector Byte 1024) (p : Parts698) : Prop where
  valid : p.Valid
  reserved : p.ReservedClear
  bytes : front tx p.bytes.length = p.bytes
  control : p.control = devRecv.ucControl ||| 0x80
  sa : p.sa = devRecv.sa
  sAddr : p.sAddr = front devRecv.addr (addrLenthOf devRecv.sa)
  ca : p.ca = devRecv.ca

/-- What both builders store in front of the user data: the header of the request. -/
def replyHead (devRecv : Ble698Frame) : List Byte :=
  [devRecv.head, devRecv.uclenth0, devRecv.uclenth1, devRecv.ucControl ||| 0x80, devRecv.sa]
    ++ front devRecv.addr (addrLenthOf devRecv.sa) ++ [devRecv.ca, devRecv.ucHcs0, devRecv.ucHcs1]

/-- The user data of a reply begin with the object the request named. -/
def replyObject (devRecv : Ble698Frame) : List Byte := (devRecv.apduCmd ||| 0x80) :: front devRecv.apduData 6

theorem replyObject_length (devRecv : Ble698Frame) : (replyObject devRecv).length = 7 := by
  rw [replyObject, List.length_cons, front_length (by omega)]

theorem replyHead_length {devRecv : Ble698Frame} (haddr : addrLenthOf devRecv.sa ≤ 6) :
    (replyHead devRecv).length = 8 + addrLenthOf devRecv.sa := by
  simp only [replyHead, List.length_append, List.length_cons, List.length_nil, front_length haddr]
  omega

section Replies

variable {devRecv : Ble698Frame} (h : devRecv.Accepted)

include h

theorem Ble698Frame.Accepted.addr_length :
    (front devRecv.addr (addrLenthOf devRecv.sa)).length = addrLenthOf devRecv.sa := front_length h.addr

/-- A reply is closed to a frame with the user data that were stored. -/
theorem closeReply_repliesTo (hfront : front tx (8 + addrLenthOf devRecv.sa + apdu.length) = replyHead devRecv ++ apdu)
    (hlen : apdu.length ≤ 1007) :
    ∃ tx' p, closeReply tx (addrLenthOf devRecv.sa) (9 + addrLenthOf devRecv.sa + apdu.length) devRecv.endChar = some tx' ∧
      RepliesTo devRecv tx' p ∧ p.apdu = apdu := by
  have haddr := h.addr_length
  have hfits := h.addr
  have hroom : 11 + (front devRecv.addr (addrLenthOf devRecv.sa)).length + apdu.length ≤ 1024 := by omega
  rw [replyHead, h.head] at hfront
  obtain ⟨tx', p, hclose, hvalid, hreserved, hbytes, hcontrol, hsa, hsAddr, hca, hapdu⟩ :=
    closeReply_frame (by rw [haddr]; exact hfront) haddr hroom
  rw [haddr] at hclose
  rw [h.endChar]
  exact ⟨tx', p, hclose, ⟨hvalid, hreserved, hbytes, hcontrol, hsa, hsAddr, hca⟩, hapdu⟩

theorem ble698GetMeterAddrPackage_repliesTo (stData : ScmUartComm) :
    ∃ stData' p, ble698GetMeterAddrPackage devRecv stData = some stData' ∧ RepliesTo devRecv stData'.txData p ∧
      stData'.dataTxLen = p.bytes.length ∧ p.apdu = replyObject devRecv ++ meterAddrData := by
  have hhead := replyHead_length h.addr
  have hfits := h.addr
  have hobject := replyObject_length devRecv
  have hmeter : meterAddrData.length = 11 := rfl
  have happ : (replyObject devRecv ++ meterAddrData).length = 18 := by rw [List.length_append, hobject, hmeter]
  have hstored : (replyHead devRecv ++ (replyObject devRecv ++ meterAddrData)).length =
      8 + addrLenthOf devRecv.sa + (replyObject devRecv ++ meterAddrData).length := by rw [List.length_append, hhead]
  have hfront := front_copyAt_zero stData.txData (replyHead devRecv ++ (replyObject devRecv ++ meterAddrData))
    (by rw [hstored, happ]; omega)
  rw [hstored] at hfront
  obtain ⟨tx', p, hclose, hreplies, hapdu⟩ := closeReply_repliesTo h hfront (by omega)
  have hlist : [devRecv.head, devRecv.uclenth0, devRecv.uclenth1, devRecv.ucControl ||| 0x80, devRecv.sa]
      ++ front devRecv.addr (addrLenthOf devRecv.sa) ++ [devRecv.ca, devRecv.ucHcs0, devRecv.ucHcs1, devRecv.apduCmd ||| 0x80]
      ++ front devRecv.apduData 6 ++ meterAddrData = replyHead devRecv ++ (replyObject devRecv ++ meterAddrData) := by
    simp [replyHead, replyObject]
  have hplen : p.bytes.length = 29 + addrLenthOf devRecv.sa := by
    rw [p.bytes_length, hreplies.sAddr, h.addr_length, hapdu, happ]
    omega
  have htotal : 27 + addrLenthOf devRecv.sa = 9 + addrLenthOf devRecv.sa + (replyObject devRecv ++ meterAddrData).length := by
    rw [happ]
    omega
  have hsize : ¬devRecv.addr.size < addrLenthOf devRecv.sa := by
    rw [Vector.size]
    omega
  refine ⟨{ stData with txData := tx', dataTxLen := (27 + addrLenthOf devRecv.sa + 2) % 256 }, p, ?_, hreplies, ?_, hapdu⟩
  · simp only [ble698GetMeterAddrPackage, if_neg hsize, hlist]
    rw [htotal, hclose]
    rfl
  · rw [hplen]
    show (27 + addrLenthOf devRecv.sa + 2) % 256 = 29 + addrLenthOf devRecv.sa
    omega

end Replies

theorem ble698GetMeterAddrPackage_isSome (devRecv : Ble698Frame) (stData : ScmUartComm) :
    (ble698GetMeterAddrPackage devRecv stData).isSome ↔ addrLenthOf devRecv.sa ≤ 6 := by
  by_cases haddr : addrLenthOf devRecv.sa ≤ 6
  · have hsize : ¬devRecv.addr.size < addrLenthOf devRecv.sa := by
      rw [Vector.size]
      omega
    simp only [ble698GetMeterAddrPackage, if_neg hsize, Option.bind_eq_bind]
    generalize copyAt stData.txData 0 _ = tx
    have hclosed : (closeReply tx (addrLenthOf devRecv.sa) (27 + addrLenthOf devRecv.sa) devRecv.endChar).isSome :=
      (closeReply_isSome (by omega) (by omega) tx devRecv.endChar).mpr (by omega)
    obtain ⟨tx', hclose⟩ := Option.isSome_iff_exists.mp hclosed
    rw [hclose]
    simp [haddr]
  · rw [ble698GetMeterAddrPackage, if_pos (by rw [Vector.size]; omega)]
    simp [haddr]

/-! ## The pointer of the session replies -/

theorem putPtr_snd (bytes : List Byte) (tx : Vector Byte 1024) (hptr : ptr < 256) :
    (putPtr (tx, ptr) bytes).2 = (ptr + bytes.length) % 256 := by
  induction bytes generalizing tx ptr with
  | nil => exact (Nat.mod_eq_of_lt hptr).symm
  | cons b bytes ih =>
    rw [putPtr, ih _ (Nat.mod_lt _ (by decide)), List.length_cons]
    omega

/-- As long as the pointer does not wrap, the bytes stand one after another. -/
theorem putPtr_fst {bytes : List Byte} (hfits : ptr + bytes.length ≤ 256) :
    (putPtr (tx, ptr) bytes).1 = copyAt tx ptr bytes := by
  induction bytes generalizing tx ptr with
  | nil => rfl
  | cons b bytes ih =>
    rw [List.length_cons] at hfits
    cases bytes with
    | nil => rfl
    | cons b' bytes =>
      rw [List.length_cons] at hfits ih
      rw [putPtr, Nat.mod_eq_of_lt (by omega), ih (by omega)]
      rfl

/-- The user data of a session reply, up to the byte in front of the check. -/
def sessApdu (devRecv : Ble698Frame) (data : List Byte) : List Byte := replyObject devRecv ++ ([0, 1] ++ data ++ [0])

theorem sessApdu_length (devRecv : Ble698Frame) (data : List Byte) : (sessApdu devRecv data).length = 10 + data.length := by
  simp only [sessApdu, List.length_append, replyObject_length, List.length_cons, List.length_nil]
  omega

theorem sessReply_eq {devRecv : Ble698Frame} (haddr : addrLenthOf devRecv.sa ≤ 6) (data : List Byte) (stData : ScmUartComm) :
    sessReply devRecv data stData =
      let stored := putPtr (stData.txData, 0) (replyHead devRecv ++ sessApdu devRecv data)
      (closeReply stored.1 (addrLenthOf devRecv.sa) ((stored.2 + 2) % 256) devRecv.endChar).map fun tx =>
        { stData with txData := tx, dataTxLen := ((stored.2 + 2) % 256 + 2) % 256 } := by
  have hsize : ¬devRecv.addr.size < addrLenthOf devRecv.sa := by
    rw [Vector.size]
    omega
  have hlist : [devRecv.head, devRecv.uclenth0, devRecv.uclenth1, devRecv.ucControl ||| 0x80, devRecv.sa]
      ++ front devRecv.addr (addrLenthOf devRecv.sa) ++ [devRecv.ca, devRecv.ucHcs0, devRecv.ucHcs1, devRecv.apduCmd ||| 0x80]
      ++ front devRecv.apduData 6 ++ [0, 1] ++ data ++ [0] = replyHead devRecv ++ sessApdu devRecv data := by
    simp [replyHead, sessApdu, replyObject]
  simp only [sessReply, if_neg hsize, hlist]
  generalize putPtr (stData.txData, 0) (replyHead devRecv ++ sessApdu devRecv data) = stored
  have hhigh : (stored.2 + 2) % 256 / 256 = 0 := by omega
  simp only [closeReply, hhigh, Option.bind_eq_bind]
  show _ = Option.map _ (Option.bind _ _)
  generalize tryfcs16 _ ((addrLenthOf devRecv.sa : Int) + 6) = checked
  cases checked with
  | none => rfl
  | some checked =>
    simp only [Option.bind_some]
    generalize tryfcs16 _ (((stored.2 + 2) % 256 : Nat) - 1 : Int) = checked'
    cases checked' <;> rfl

theorem sessReply_eq_none {devRecv : Ble698Frame} (haddr : ¬addrLenthOf devRecv.sa ≤ 6) (data : List Byte) (stData : ScmUartComm) :
    sessReply devRecv data stData = none := by
  rw [sessReply, if_pos (by rw [Vector.size]; omega)]

theorem sessStored_length {devRecv : Ble698Frame} (haddr : addrLenthOf devRecv.sa ≤ 6) (data : List Byte) :
    (replyHead devRecv ++ sessApdu devRecv data).length = 18 + addrLenthOf devRecv.sa + data.length := by
  rw [List.length_append, replyHead_length haddr, sessApdu_length]
  omega

/-- A session reply is built unless its length, in eight bits, is 0 or 1. -/
theorem sessReply_isSome (devRecv : Ble698Frame) (data : List Byte) (stData : ScmUartComm) :
    (sessReply devRecv data stData).isSome ↔
      addrLenthOf devRecv.sa ≤ 6 ∧ 2 ≤ (20 + addrLenthOf devRecv.sa + data.length) % 256 := by
  by_cases haddr : addrLenthOf devRecv.sa ≤ 6
  · have hsnd := putPtr_snd (replyHead devRecv ++ sessApdu devRecv data) stData.txData (show 0 < 256 by decide)
    rw [sessStored_length haddr] at hsnd
    have htotal : ((putPtr (stData.txData, 0) (replyHead devRecv ++ sessApdu devRecv data)).2 + 2) % 256 =
        (20 + addrLenthOf devRecv.sa + data.length) % 256 := by
      rw [hsnd]
      omega
    simp only [sessReply_eq haddr, htotal, Option.isSome_map]
    rw [closeReply_isSome (by omega) (by omega)]
    exact (and_iff_right haddr).symm
  · rw [sessReply_eq_none haddr]
    simp [haddr]

/-- A session reply that fits the pointer. One byte of what the buffer held stands in front of the check. -/
theorem sessReply_repliesTo {devRecv : Ble698Frame} (h : devRecv.Accepted) (data : List Byte) (stData : ScmUartComm)
    (hfits : 22 + addrLenthOf devRecv.sa + data.length ≤ 256) :
    ∃ stData' p stale, sessReply devRecv data stData = some stData' ∧ RepliesTo devRecv stData'.txData p ∧
      p.bytes.length = 22 + addrLenthOf devRecv.sa + data.length ∧ stData'.dataTxLen = p.bytes.length % 256 ∧
      p.apdu = sessApdu devRecv data ++ [stale] := by
  have hhead := replyHead_length h.addr
  have happ := sessApdu_length devRecv data
  have hstored := sessStored_length h.addr data
  have hfst : (putPtr (stData.txData, 0) (replyHead devRecv ++ sessApdu devRecv data)).1 =
      copyAt stData.txData 0 (replyHead devRecv ++ sessApdu devRecv data) := putPtr_fst (by omega)
  have hsnd := putPtr_snd (replyHead devRecv ++ sessApdu devRecv data) stData.txData (show 0 < 256 by decide)
  have hcopied := front_copyAt_zero stData.txData (replyHead devRecv ++ sessApdu devRecv data) (by omega)
  -- the byte behind what was stored is closed in
  obtain ⟨stale, hstale⟩ : ∃ stale, ((copyAt stData.txData 0 (replyHead devRecv ++ sessApdu devRecv data)).toList.drop
      (replyHead devRecv ++ sessApdu devRecv data).length).take 1 = [stale] := by
    refine List.length_eq_one_iff.mp ?_
    simp only [List.length_take, List.length_drop, Vector.length_toList]
    omega
  have hfront : front (copyAt stData.txData 0 (replyHead devRecv ++ sessApdu devRecv data))
      (8 + addrLenthOf devRecv.sa + (sessApdu devRecv data ++ [stale]).length) =
      replyHead devRecv ++ (sessApdu devRecv data ++ [stale]) := by
    have hlen : 8 + addrLenthOf devRecv.sa + (sessApdu devRecv data ++ [stale]).length =
        (replyHead devRecv ++ sessApdu devRecv data).length + 1 := by
      rw [List.length_append, List.length_append, hhead, List.length_singleton]
      omega
    rw [hlen, front_add, hcopied, hstale, List.append_assoc]
  have hstaleLen : (sessApdu devRecv data ++ [stale]).length = 11 + data.length := by
    rw [List.length_append, happ, List.length_singleton]
    omega
  obtain ⟨tx', p, hclose, hreplies, hapdu⟩ := closeReply_repliesTo h hfront (by omega)
  have hplen : p.bytes.length = 22 + addrLenthOf devRecv.sa + data.length := by
    rw [p.bytes_length, hreplies.sAddr, h.addr_length, hapdu, hstaleLen]
    omega
  have htotal : ((putPtr (stData.txData, 0) (replyHead devRecv ++ sessApdu devRecv data)).2 + 2) % 256 =
      9 + addrLenthOf devRecv.sa + (sessApdu devRecv data ++ [stale]).length := by
    rw [hsnd, hstaleLen]
    omega
  have hsent : (9 + addrLenthOf devRecv.sa + (sessApdu devRecv data ++ [stale]).length + 2) % 256 = p.bytes.length % 256 := by
    rw [hplen, hstaleLen]
    omega
  refine ⟨{ stData with txData := tx', dataTxLen := p.bytes.length % 256 }, p, stale, ?_, hreplies, hplen, rfl, hapdu⟩
  rw [sessReply_eq h.addr]
  simp only [htotal, hfst, hclose, Option.map_some, hsent]

/-! ## The session requests -/

theorem BleSession.asks_built {cmd : EsamCmd} {next : BleSession → Option (Bool × BleSession)}
    (h : s.asks links cmd next = some (true, s')) : ∃ s₁, next s₁ = some (true, s') := by
  unfold BleSession.asks at h
  obtain ⟨t, -, h⟩ := Option.bind_eq_some_iff.mp h
  dsimp only at h
  split_ifs at h with hstatus
  · exact ⟨_, h⟩
  · cases h

/-- What comes behind the exchanges of a call can be said behind each of them. -/
theorem BleSession.asks_bind (links : Nat → Link) (cmd : EsamCmd) (s : BleSession) (next : BleSession → Option (Bool × BleSession))
    {f : Bool × BleSession → Option (Bool × BleSession)} (hf : ∀ s, f (false, s) = some (false, s)) :
    (s.asks links cmd next).bind f = s.asks links cmd fun s => (next s).bind f := by
  unfold BleSession.asks
  rw [Option.bind_eq_bind, Option.bind_assoc]
  refine congrArg (Option.bind (s.talk.exchange links cmd)) (funext fun t => ?_)
  dsimp only
  split_ifs with hstatus
  · rfl
  · exact hf _

/-- A request for a session key that ends with a reply built it as the last thing. -/
theorem ble698EsamSessKeyPackage_built {devRecv : Ble698Frame} (h : ble698EsamSessKeyPackage links devRecv s = some (true, s')) :
    ∃ stData, sessReply devRecv (keyData devRecv) stData = some s'.stData := by
  unfold ble698EsamSessKeyPackage at h
  obtain ⟨s₁, h⟩ := BleSession.asks_built h
  obtain ⟨tx, -, h⟩ := Option.bind_eq_some_iff.mp h
  obtain ⟨s₂, h⟩ := BleSession.asks_built h
  dsimp only at h
  split_ifs at h with hsame
  · obtain ⟨stData, hbuilt, h⟩ := Option.bind_eq_some_iff.mp h
    cases h
    exact ⟨_, hbuilt⟩
  · cases h

end EnergyRouter
