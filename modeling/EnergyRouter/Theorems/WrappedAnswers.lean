import EnergyRouter.Lemmas.EsamReply
import EnergyRouter.Lemmas.Requests
import EnergyRouter.Theorems.Builders

/-!
# Answers wrapped for a security request

`security_get_package` writes the wrapped answer behind the byte `dataSize` stands at, and each of its callers sets that before. The
user data of the frame are taken to begin behind the header check all the same.
-/

namespace EnergyRouter

open Buffer TableCrc

/-- What the ESAM delivered last. -/
def Talk.reply (t : Talk) : List Byte := front t.esam.comm.rxData t.esam.comm.dataRxLen

/-- The buffer with the wrapped answer behind the bytes in use. -/
def wrapStores (reply : List Byte) (n : Nat) (d : CharPointDataManage) : CharPointDataManage :=
  let d := putBytes (putEach d [0x90, 1, BitVec.ofNat 8 n]) (reply.take n)
  putBytes (putEach d [1, 0, BitVec.ofNat 8 (reply.length - n)]) (reply.drop n)

theorem securityGetPackage_eq_zero {links : Nat → Link} {d d' : CharPointDataManage} {t t' : Talk} {n : Nat}
    (hcall : securityGetPackage links 1 12 (d, t) = some (0, d', t')) (hlen : d.frame698.usrDataLen = n) :
    n ≤ t'.reply.length ∧ closeFrame (wrapStores t'.reply n d) 1 12 false = some (0, d') := by
  simp only [securityGetPackage, hlen, Option.bind_eq_bind, Option.bind_eq_some_iff] at hcall
  obtain ⟨_, _, t₁, _, hcall⟩ := hcall
  split_ifs at hcall with hrx hshort
  · cases hcall
  obtain ⟨⟨result, d₁⟩, hclose, hcall⟩ := Option.bind_eq_some_iff.mp hcall
  cases hcall
  have hle : n ≤ t'.esam.comm.dataRxLen := by omega
  have hreply : t'.reply.length = t'.esam.comm.dataRxLen := front_length hrx
  have hrxLen : t'.esam.comm.rx.length = 1024 := by rw [ScmEsamComm.rx, Vector.length_toList]
  have hdata : ∀ d : CharPointDataManage, (saveCharPointData d d.dataSize t'.esam.comm.rx n).2 = putBytes d (t'.reply.take n) := by
    intro d
    rw [saveCharPointData_take _ _ (by omega), Talk.reply, front, List.take_take, Nat.min_eq_left hle, ScmEsamComm.rx]
  have hmac : ∀ d : CharPointDataManage, (saveCharPointData d d.dataSize (t'.esam.comm.rx.drop n) (t'.reply.length - n : Nat)).2 =
      putBytes d (t'.reply.drop n) := by
    intro d
    rw [saveCharPointData_take _ _ (by rw [List.length_drop]; omega), hreply, Talk.reply, front, List.drop_take, ScmEsamComm.rx]
  have hlenMac : (t'.esam.comm.dataRxLen : Int) - n = (t'.reply.length - n : Nat) := by
    rw [hreply]
    omega
  refine ⟨by omega, ?_⟩
  rw [hlenMac, Int.toNat_natCast, BitVec.ofInt_natCast, BitVec.ofInt_natCast, hdata, hmac] at hclose
  exact hclose

/-! ## What the stores leave -/

section Stores

variable (reply : List Byte) (n : Nat) (d : CharPointDataManage)

/-- The wrapped answer as bytes. -/
def wrapBytes : List Byte :=
  [0x90, 1, BitVec.ofNat 8 n] ++ reply.take n ++ [1, 0, BitVec.ofNat 8 (reply.length - n)] ++ reply.drop n

theorem wrapBytes_length (hn : n ≤ reply.length) : (wrapBytes reply n).length = 6 + reply.length := by
  simp only [wrapBytes, List.length_append, List.length_cons, List.length_nil, List.length_take_of_le hn, List.length_drop]
  omega

theorem wrapStores_puts : Puts (wrapBytes reply n) d (wrapStores reply n d) :=
  ((puts_putEach d [0x90, 1, BitVec.ofNat 8 n]).put _).each [1, 0, BitVec.ofNat 8 (reply.length - n)] |>.put _

end Stores

/-! ## The frame -/

theorem closeFrame_dataSize {d d' : CharPointDataManage} (h : closeFrame d 1 12 false = some (0, d')) :
    d.dataSize + 2 ≤ d'.dataSize ∧ d'.dataSize ≤ d.dataSize + 3 := by
  have hend := puts_putEach (skipTwo d) [0x16]
  have hsize : d'.dataSize = (putEach (skipTwo d) [0x16]).dataSize := by
    simp only [closeFrame, Bool.false_eq_true, false_and, if_false, Option.bind_eq_bind, Option.bind_eq_some_iff] at h
    obtain ⟨_, _, _, _, h⟩ := h
    rw [← (Prod.mk.inj (Option.some.inj h)).2]
  rw [hsize]
  exact ⟨hend.dataSize, hend.dataSize_le⟩

theorem Framed.dataSize {apdu : List Byte} {d : CharPointDataManage} (h : Framed apdu d) : d.dataSize = apdu.length + 17 := by
  obtain ⟨control, sa, sAddr, ca, _, haddr, hlen, hstored, _⟩ := h
  rw [hstored.dataSize_eq (by rw [frameOf_length control sa ca apdu haddr]; exact hlen), frameOf_length control sa ca apdu haddr]

theorem Framed.apdu_eq {apdu : List Byte} {d : CharPointDataManage} (h : Framed apdu d) : d.apdu = apdu := by
  have hsize := h.dataSize
  obtain ⟨control, sa, sAddr, ca, _, haddr, hlen, hstored, husr, hulen⟩ := h
  have hcontents := hstored.contents
  rw [kept_of_le (by rw [frameOf_length control sa ca apdu haddr]; exact hlen), CharPointDataManage.contents, hsize] at hcontents
  have hbody := frameOf_apdu control sa ca apdu haddr
  rw [← hcontents, front, List.drop_take, List.take_take, Nat.min_eq_left (by omega)] at hbody
  rw [CharPointDataManage.apdu, husr, hulen, Int.toNat_natCast]
  exact hbody

theorem Framed.getElem?_first {b : Byte} {rest : List Byte} {d : CharPointDataManage} (h : Framed (b :: rest) d) :
    d.priveData[14]? = some b := by
  have hapdu := h.apdu_eq
  obtain ⟨_, _, _, _, _, _, _, _, husr, hulen⟩ := h
  rw [CharPointDataManage.apdu, husr, hulen, Int.toNat_natCast] at hapdu
  have hfirst : ((d.priveData.toList.drop 14).take (b :: rest).length)[0]? = some b := by rw [hapdu, List.getElem?_cons_zero]
  rwa [List.length_cons, List.getElem?_take_of_lt (Nat.succ_pos _), List.getElem?_drop, Vector.getElem?_toList] at hfirst

/-- The header of a frame, with nothing behind it in use. -/
theorem Framed.header {apdu : List Byte} {d : CharPointDataManage} (h : Framed apdu d) :
    ∃ control sa sAddr ca g₁ g₂ g₃ g₄, sa &&& 0x0f#8 = 5 ∧ sAddr.length = 6 ∧
      Stored ([0x68, g₁, g₂, control, sa] ++ sAddr ++ [ca, g₃, g₄]) { d with dataSize := 14 } := by
  have hsize := h.dataSize
  obtain ⟨control, sa, sAddr, ca, hsa, haddr, hlen, hstored, _⟩ := h
  have hcontents := hstored.contents
  rw [kept_of_le (by rw [frameOf_length control sa ca apdu haddr]; exact hlen), CharPointDataManage.contents, hsize] at hcontents
  obtain ⟨c₁, c₂, hcheck⟩ : ∃ c₁ c₂, check (fcsOf ((headerOf control sa sAddr ca (apdu.length + 15)).drop 1)) = [c₁, c₂] := ⟨_, _, rfl⟩
  have hfront : front d.priveData 14 = headerOf control sa sAddr ca (apdu.length + 15) ++ [c₁, c₂] := by
    rw [front_of_le d.priveData (show 14 ≤ apdu.length + 17 by omega), hcontents, frameOf, bodyOf, hcheck, List.append_assoc,
      List.append_assoc]
    exact List.take_left' (by rw [List.length_append, headerOf_length control sa ca _ haddr]; rfl)
  have hhead : headerOf control sa sAddr ca (apdu.length + 15) ++ [c₁, c₂] =
      [0x68, BitVec.ofNat 8 ((apdu.length + 15) % 256), BitVec.ofNat 8 ((apdu.length + 15) / 256), control, sa] ++ sAddr ++
        [ca, c₁, c₂] := by
    simp [headerOf]
  refine ⟨control, sa, sAddr, ca, BitVec.ofNat 8 ((apdu.length + 15) % 256), BitVec.ofNat 8 ((apdu.length + 15) / 256), c₁, c₂,
    hsa, haddr, hstored.size, ?_, ?_⟩
  · rw [kept_of_le (by simp [haddr])]
    simp [haddr]
  · rw [kept_of_le (by simp [haddr]), ← hhead]
    exact hfront

/-- Written right behind the header, the wrapped answer makes a frame. -/
theorem framed_of_wrapStores {apdu reply : List Byte} {d d' : CharPointDataManage} {n : Nat} (hframed : Framed apdu d)
    (hn : n ≤ reply.length) (hfits : reply.length + 23 ≤ 1023)
    (hclose : closeFrame (wrapStores reply n { d with dataSize := 14 }) 1 12 false = some (0, d')) :
    Framed (wrapBytes reply n) d' := by
  have hlen := wrapBytes_length reply n hn
  obtain ⟨control, sa, sAddr, ca, g₁, g₂, g₃, g₄, hsa, haddr, hstored⟩ := hframed.header
  have hputs := wrapStores_puts reply n { d with dataSize := 14 }
  obtain ⟨d₁, hclosed, hframe, husr, hulen⟩ := closeFrame_stored (hputs.stored hstored (by simp [haddr]; omega)) haddr (by omega) false
  cases hclose.symm.trans hclosed
  obtain ⟨_, _, _, _, _, _, _, _, hplace, _⟩ := hframed
  refine ⟨control, sa, sAddr, ca, hsa, haddr, by omega, hframe, ?_, hulen⟩
  rw [husr, hputs.frame698]
  exact hplace

/-! ## When the answer is wrapped -/

/-- The callers of `security_get_package`: a block of `check_afair_from_botom`, and `rev_698_del_affairs`. -/
inductive WrapCaller
  | botom
  | affairs (usrDataSize : Nat)
  deriving DecidableEq, Repr

/-- What a caller sets `dataSize` to. -/
def WrapCaller.dataSize (d : CharPointDataManage) : WrapCaller → Nat
  | botom => 9 + ((d.usrByte 4).getD 0).toNat
  | affairs usrDataSize => usrDataSize

/-- An answer as it was built, not wrapped. -/
structure PlainAnswer (apdu : List Byte) (d : CharPointDataManage) : Prop where
  framed : Framed apdu d
  tag : ∃ b rest, apdu = b :: rest ∧ b ≠ 0x90

/-- The buffer holds one frame, around the answer and its code, each behind its length. -/
def Wrapped (apdu mac : List Byte) (d : CharPointDataManage) : Prop :=
  ∃ lenApdu lenMac : Byte, lenApdu.toNat = apdu.length ∧ lenMac.toNat = mac.length ∧
    Framed ([0x90, 1, lenApdu] ++ apdu ++ [1, 0, lenMac] ++ mac) d

/-- The transmit buffer with one answer in it. -/
def answerBuffer (apdu : List Byte) : CharPointDataManage :=
  let frame := frameOf 0xc3 5 (List.replicate 6 0) 0 apdu
  { zeroBuffer with
    priveData := copyAt zeroBuffer.priveData 0 frame, size := hplcDataMaxSize, dataSize := frame.length,
    frame698 := { zeroBuffer.frame698 with usrData := 14, usrDataLen := apdu.length } }

theorem answerBuffer_framed (apdu : List Byte) (h : apdu.length + 17 ≤ 1023) : Framed apdu (answerBuffer apdu) := by
  have hlen := frameOf_length 0xc3 5 0 apdu (List.length_replicate (n := 6) (a := (0 : Byte)))
  have hkept : kept (frameOf 0xc3 5 (List.replicate 6 0) 0 apdu) = frameOf 0xc3 5 (List.replicate 6 0) 0 apdu :=
    kept_of_le (by omega)
  refine ⟨0xc3, 5, List.replicate 6 0, 0, by decide, rfl, h, ⟨rfl, ?_, ?_⟩, rfl, rfl⟩
  · rw [hkept]
    rfl
  · have hfront := front_copyAt_zero zeroBuffer.priveData (frameOf 0xc3 5 (List.replicate 6 0) 0 apdu)
      (by rw [hlen, hplcDataMaxSize]; omega)
    simp only [hkept, CharPointDataManage.contents, answerBuffer, hfront]

/-- An answer whose third and fourth byte count what the ESAM delivers with it, so that the reply can begin with it. -/
def countingAnswer : List Byte := [0x87, 1, 0, 6, 5, 0, 0]

/-- The acknowledgement of a start request. -/
def startAnswer : List Byte := [0x87, 1, 0, 0x90, 4, 0x7f, 0, 0, 0, 0, 0]

end EnergyRouter
