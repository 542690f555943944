import Mathlib.Data.List.GetD
import EnergyRouter.BleSession

/-!
# The reply of an exchange

A reply the driver accepts is as long as its length bytes say, and it is the first part of the caller's buffer. What the callers
read is then read from the reply, whatever the buffer held before.
-/

namespace EnergyRouter

open Buffer

variable {spi : Spi} {fuel n i : Nat} {comm : ScmEsamComm} {cmd : EsamCmd} {e : Esam} {links : Nat → Link} {t t' : Talk}
    {reply : List Byte} {dataRev : CharPointDataManage}

theorem recvLoop_length {pos count : Nat} {rx rx' : Vector Byte 1024} (h : recvLoop spi fuel pos count rx = some (some n, rx')) :
    n = replyLenth (rx'.getD 2 0) (rx'.getD 3 0) + 4 ∧ n ≤ 1024 := by
  induction fuel generalizing pos count rx with
  | zero => cases h
  | succ fuel ih =>
    rw [recvLoop] at h
    simp only at h
    split_ifs at h with hcount hstart hshort hfits hcheck
    · -- the rest of the reply goes behind its length bytes
      generalize copyAt rx 0 (spi.read (pos + 1) 4) = rx₁ at h hfits
      cases h
      rw [getD_copyAt _ _ _ _ (.inl (by omega)), getD_copyAt _ _ _ _ (.inl (by omega))]
      exact ⟨rfl, hfits⟩
    · exact ih h
    · exact ih h
    · exact ih h
    · cases h

/-- The caller's buffer begins with a reply, which is as long as it says. -/
structure ScmEsamComm.Holds (comm : ScmEsamComm) (reply : List Byte) : Prop where
  rx : comm.rx.take reply.length = reply
  len : comm.dataRxLen = reply.length
  framed : reply.length = replyLenth (reply.getD 2 0) (reply.getD 3 0) + 4

theorem esamSendAndRecv_eok {comm' : ScmEsamComm} (h : esamSendAndRecv fuel spi comm = some (.eok, comm')) :
    comm'.dataRxLen = replyLenth (comm'.rxData.getD 2 0) (comm'.rxData.getD 3 0) + 4 ∧ comm'.dataRxLen ≤ 1024 := by
  unfold esamSendAndRecv at h
  split_ifs at h with hbus
  · split at h
    · cases h
    · rename_i n rx hloop
      cases h
      exact recvLoop_length hloop
    · cases h
  · cases h

theorem esamCommunicattion_eok {sendbuf : Vector Byte 1024} {e' : Esam}
    (h : esamCommunicattion fuel sendbuf spi cmd e = some (.eok, e')) : e'.comm.Holds e'.delivered := by
  unfold esamCommunicattion at h
  obtain ⟨⟨buf, n⟩, -, h⟩ := Option.bind_eq_some_iff.mp h
  obtain ⟨⟨res, driver⟩, hsend, h⟩ := Option.bind_eq_some_iff.mp h
  cases res with
  | error => cases h
  | eok =>
    cases h
    obtain ⟨hlen, hle⟩ := esamSendAndRecv_eok hsend
    have hlength : (front driver.rxData driver.dataRxLen).length = driver.dataRxLen := front_length hle
    have hcopy := front_copyAt_zero e.comm.rxData (front driver.rxData driver.dataRxLen) (by rw [hlength]; omega)
    have htwo := getD_front driver.rxData (k := driver.dataRxLen) (0 : Byte) (i := 2) (by omega)
    have hthree := getD_front driver.rxData (k := driver.dataRxLen) (0 : Byte) (i := 3) (by omega)
    refine ⟨hcopy, hlength.symm, ?_⟩
    simp only [Esam.delivered, hlength, ← htwo, ← hthree]
    exact hlen

/-- An exchange leaves its caller the reply it delivered, or delivered nothing. -/
structure Exchange.Proper (x : Exchange) : Prop where
  eok : x.res = .eok → x.comm.Holds x.delivered
  error : x.res ≠ .eok → x.delivered = []

theorem Talk.exchange_spec (h : t.exchange links cmd = some t') :
    ∃ x : Exchange, t'.made = t.made ++ [x] ∧ t'.esam.comm = x.comm ∧ x.Proper := by
  unfold Talk.exchange at h
  obtain ⟨⟨res, e⟩, hcall, h⟩ := Option.bind_eq_some_iff.mp h
  cases h
  refine ⟨_, rfl, rfl, ?_, ?_⟩
  · rintro rfl
    exact esamCommunicattion_eok hcall
  · intro hres
    exact if_neg hres

/-! ## A chip that answers -/

/-- The ESAM delivers some bytes and a check byte behind them. -/
def replyLink (reply : List Byte) : Link :=
  ⟨1, Vector.replicate 1024 0, ⟨true, fun i => (0x55 :: reply ++ [esamCheck reply]).getD i 0⟩⟩

/-- A reply as long as its length bytes say, when its check is counted, and no longer than the buffers. -/
structure ReplySized (reply : List Byte) : Prop where
  framed : reply.length = replyLenth (reply.getD 2 0) (reply.getD 3 0) + 3
  short : reply.length < 1024

theorem read_replyLink (reply : List Byte) (h : i + n ≤ reply.length + 1) :
    (replyLink reply).spi.read (i + 1) n = ((reply ++ [esamCheck reply]).drop i).take n := by
  apply List.ext_getElem
  · simp [Spi.read]
    omega
  · intro k hk hk'
    have hkn : k < n := by simpa [Spi.read] using hk
    simp only [Spi.read, List.getElem_map, List.getElem_range, List.getElem_take, List.getElem_drop, replyLink]
    rw [show i + 1 + k = i + k + 1 by omega, List.cons_append, List.getD_cons_succ, List.getD_eq_getElem _ _ (by simp; omega)]

/-- The receive loop takes such a reply from the first byte on. -/
theorem recvLoop_replyLink (h : ReplySized reply) (rx : Vector Byte 1024) :
    recvLoop (replyLink reply).spi 1 0 0 rx = some (some (reply.length + 1), copyAt rx 0 (reply ++ [esamCheck reply])) := by
  have hframed := h.framed
  have hshort := h.short
  have hfour : 4 ≤ reply.length := by
    have hor : (reply.getD 3 0).toNat + 1 ≤ replyLenth (reply.getD 2 0) (reply.getD 3 0) := Nat.right_le_or
    omega
  have hhead := read_replyLink reply (i := 0) (n := 4) (by omega)
  rw [List.drop_zero, List.take_append_of_le_length hfour] at hhead
  have htake : (reply.take 4).length = 4 := List.length_take_of_le hfour
  have hlow (k : Nat) (hk : k < 4) : (copyAt rx 0 (reply.take 4)).getD k 0 = reply.getD k 0 := by
    rw [getD_copyAt_zero rx (reply.take 4) 0 (by omega) (by omega), List.getD_eq_getElem?_getD, List.getElem?_take_of_lt hk,
      List.getD_eq_getElem?_getD]
  generalize hlenth : replyLenth (reply.getD 2 0) (reply.getD 3 0) = lenth at hframed
  have htail := read_replyLink reply (i := 4) (n := lenth) (by omega)
  have hrest : ((reply ++ [esamCheck reply]).drop 4).take lenth = (reply ++ [esamCheck reply]).drop 4 := by
    refine List.take_of_length_le ?_
    simp
    omega
  have hcopy : copyAt (copyAt rx 0 (reply.take 4)) 4 ((reply ++ [esamCheck reply]).drop 4) =
      copyAt rx 0 (reply ++ [esamCheck reply]) := by
    have happend := copyAt_append rx 0 (reply.take 4) ((reply ++ [esamCheck reply]).drop 4)
    rw [htake, List.drop_append_of_le_length hfour, ← List.append_assoc, List.take_append_drop] at happend
    rw [List.drop_append_of_le_length hfour]
    exact happend.symm
  have hall : front (copyAt rx 0 (reply ++ [esamCheck reply])) (reply.length + 1) = reply ++ [esamCheck reply] := by
    have hfront := front_copyAt_zero rx (reply ++ [esamCheck reply]) (by simp; omega)
    rwa [List.length_append, List.length_singleton] at hfront
  have hreply : front (copyAt rx 0 (reply ++ [esamCheck reply])) (lenth + 3) = reply := by
    rw [← hframed]
    exact front_of_append hall (by omega)
  have hcheck : (copyAt rx 0 (reply ++ [esamCheck reply])).getD (lenth + 3) 0 = esamCheck reply := by
    rw [getD_front _ 0 (show lenth + 3 < reply.length + 1 by omega), hall, ← hframed, List.getD_append_right _ _ _ _ (Nat.le_refl _),
      Nat.sub_self]
    rfl
  rw [recvLoop, if_pos (by decide), if_pos (show (replyLink reply).spi.line 0 = 0x55 from rfl)]
  simp only [Nat.zero_add, hhead, hlow 2 (by decide), hlow 3 (by decide), hlenth]
  rw [if_pos (by omega), if_pos (by omega)]
  rw [htail, hrest, hcopy, hcheck, hreply, if_pos rfl, hframed]

/-! ## Reading the reply -/

theorem ScmEsamComm.Holds.five_le (h : comm.Holds reply) : 5 ≤ reply.length := by
  have hor : (reply.getD 3 0).toNat + 1 ≤ replyLenth (reply.getD 2 0) (reply.getD 3 0) := Nat.right_le_or
  have hframed := h.framed
  omega

theorem ScmEsamComm.Holds.getD (h : comm.Holds reply) (hi : i < reply.length) :
    comm.rx.getD i 0 = reply.getD i 0 := by
  have hcell : (comm.rx.take reply.length)[i]? = reply[i]? := by rw [h.rx]
  rw [List.getElem?_take_of_lt hi] at hcell
  rw [List.getD_eq_getElem?_getD, List.getD_eq_getElem?_getD, hcell]

theorem ScmEsamComm.Holds.part (h : comm.Holds reply) (hin : i + n ≤ reply.length) :
    (comm.rx.drop i).take n = (reply.drop i).take n := by
  have hshort : (comm.rx.take reply.length).take (i + n) = reply.take (i + n) := by rw [h.rx]
  rw [List.take_take, Nat.min_eq_left hin] at hshort
  have htake : (comm.rx.take (i + n)).drop i = (reply.take (i + n)).drop i := by rw [hshort]
  rwa [List.drop_take, List.drop_take, Nat.add_sub_cancel_left] at htake

theorem ScmEsamComm.Holds.statusOk (h : comm.Holds reply) :
    StatusOk comm.rx ↔ StatusOk reply := by
  have hfive := h.five_le
  rw [StatusOk, StatusOk, h.getD (by omega), h.getD (by omega)]

/-- The buffer of the caller after such a reply. -/
def ScmEsamComm.answered (comm : ScmEsamComm) (reply : List Byte) : ScmEsamComm :=
  { comm with rxData := copyAt comm.rxData 0 (reply ++ [esamCheck reply]), dataRxLen := reply.length + 1 }

theorem ScmEsamComm.answered_holds (h : ReplySized reply) (comm : ScmEsamComm) :
    (comm.answered reply).Holds (reply ++ [esamCheck reply]) := by
  have hframed := h.framed
  have hshort := h.short
  have hcell (k : Nat) (hk : k < reply.length) : (reply ++ [esamCheck reply]).getD k 0 = reply.getD k 0 := List.getD_append _ _ _ _ hk
  have hor : (reply.getD 3 0).toNat + 1 ≤ replyLenth (reply.getD 2 0) (reply.getD 3 0) := Nat.right_le_or
  refine ⟨front_copyAt_zero comm.rxData (reply ++ [esamCheck reply]) (by simp; omega), by simp [ScmEsamComm.answered], ?_⟩
  rw [hcell 2 (by omega), hcell 3 (by omega), List.length_append, List.length_singleton]
  omega

theorem esamCommunicattion_replyLink (h : ReplySized reply)
    (hfits : (cmd.header e.comm.dataTxLen).length + 1 + (cmd.overlay e.comm.dataTxLen).length + e.comm.dataTxLen < 1024) :
    ∃ driver, esamCommunicattion 1 (Vector.replicate 1024 0) (replyLink reply).spi cmd e =
      some (.eok, ⟨e.comm.answered reply, driver⟩) := by
  have hfront (rx : Vector Byte 1024) :
      front (copyAt rx 0 (reply ++ [esamCheck reply])) (reply.length + 1) = reply ++ [esamCheck reply] := by
    have hshort := h.short
    have hcopied := front_copyAt_zero rx (reply ++ [esamCheck reply]) (by simp; omega)
    rwa [List.length_append, List.length_singleton] at hcopied
  have hbus : (replyLink reply).spi.takeBus = true := rfl
  obtain ⟨⟨buf, n⟩, hframe⟩ : ∃ sent, esamFrame (Vector.replicate 1024 0) cmd e.comm = some sent := ⟨_, if_pos hfits⟩
  refine ⟨⟨reply.length + 1, copyAt e.driver.rxData 0 (reply ++ [esamCheck reply]), n, copyAt e.driver.txData 0 (front buf n)⟩, ?_⟩
  simp only [esamCommunicattion, hframe, Option.bind_eq_bind, Option.bind_some, esamSendAndRecv, hbus, if_true, recvLoop_replyLink h,
    hfront]
  rfl

/-- A call that asks such a chip goes on, with the reply in its buffer. -/
theorem BleSession.asks_replyLink {s : BleSession} {next : BleSession → Option (Bool × BleSession)} {P : BleSession → Prop}
    (hlink : links s.talk.made.length = replyLink reply) (h : ReplySized reply) (hstatus : StatusOk reply)
    (hfits : (cmd.header s.talk.esam.comm.dataTxLen).length + 1 + (cmd.overlay s.talk.esam.comm.dataTxLen).length
      + s.talk.esam.comm.dataTxLen < 1024)
    (hnext : ∀ t, t.esam.comm = s.talk.esam.comm.answered reply → t.made.length = s.talk.made.length + 1 →
      ∃ s', next { s with talk := t } = some (true, s') ∧ P s') : ∃ s', s.asks links cmd next = some (true, s') ∧ P s' := by
  obtain ⟨driver, hcall⟩ := esamCommunicattion_replyLink h hfits
  have hholds := ScmEsamComm.answered_holds h s.talk.esam.comm
  have hshort := h.framed
  have hok : StatusOk (s.talk.esam.comm.answered reply).rx := by
    rw [hholds.statusOk, StatusOk, List.getD_append _ _ _ _ (by omega), List.getD_append _ _ _ _ (by omega)]
    exact hstatus
  have hexchange : s.talk.exchange links cmd = some ⟨⟨s.talk.esam.comm.answered reply, driver⟩,
      s.talk.made ++ [⟨.eok, Esam.delivered ⟨s.talk.esam.comm.answered reply, driver⟩, s.talk.esam.comm.answered reply⟩]⟩ := by
    rw [Talk.exchange, hlink, show (replyLink reply).fuel = 1 from rfl,
      show (replyLink reply).sendbuf = Vector.replicate 1024 0 from rfl, hcall]
    rfl
  generalize hmade : s.talk.made ++ [⟨.eok, Esam.delivered ⟨s.talk.esam.comm.answered reply, driver⟩,
    s.talk.esam.comm.answered reply⟩] = made at hexchange
  obtain ⟨s', hrest, hP⟩ := hnext ⟨⟨s.talk.esam.comm.answered reply, driver⟩, made⟩ rfl (by rw [← hmade, List.length_append]; rfl)
  refine ⟨s', ?_, hP⟩
  simp only [BleSession.asks, hexchange, Option.bind_eq_bind, Option.bind_some, if_pos hok]
  exact hrest

/-- The bytes an attribute is read from. -/
def EsamAttribute.reads : EsamAttribute → Nat
  | octets _ => 0
  | counters => 20

theorem EsamAttribute.store_reply (h : comm.Holds reply) (attr : EsamAttribute)
    (hreads : 12 ≤ comm.dataRxLen → attr.reads ≤ reply.length) (d : CharPointDataManage) :
    attr.store comm.rx comm.dataRxLen d = attr.store reply reply.length d := by
  rw [h.len] at hreads ⊢
  cases attr with
  | octets n =>
    simp only [EsamAttribute.store]
    split_ifs with hshort
    · rfl
    · have hpart := h.part (i := 4) (n := reply.length - 5) (by omega)
      have hsize : ((reply.length : Int) - 5).toNat = reply.length - 5 := by omega
      simp only [saveCharPointData, hsize, hpart]
  | counters =>
    simp only [EsamAttribute.store]
    split_ifs with hshort
    · rfl
    · have hlong : 20 ≤ reply.length := hreads (by omega)
      simp only [List.foldl_cons, List.foldl_nil]
      rw [h.part (by omega), h.part (by omega), h.part (by omega), h.part (by omega)]

/-- Below 255 the low length byte is counted as it is. -/
theorem replyLenth_of_ne {lo : Byte} (hlo : lo.toNat ≠ 255) (hi : Byte) : replyLenth hi lo = hi.toNat * 256 + (lo.toNat + 1) := by
  have hlt := lo.isLt
  rw [replyLenth, ← Nat.shiftLeft_add_eq_or_of_lt (by omega : lo.toNat + 1 < 2 ^ 8), Nat.shiftLeft_eq]

/-- The first part of the answer to a connection request, and four bytes more, lie in the reply. -/
theorem connectLen_le (hi lo : Byte) (h : 48 ≤ replyLenth hi lo) :
    (BitVec.ofInt 8 ((hi.toNat : Int) * 256 + lo.toNat - 4)).toNat + 4 ≤ replyLenth hi lo := by
  have hlo := lo.isLt
  by_cases hfull : lo.toNat = 255
  · -- the length byte is one below the carry
    have hor : 256 ≤ replyLenth hi lo := by
      rw [replyLenth, hfull]
      exact Nat.right_le_or
    have hbyte := (BitVec.ofInt 8 ((hi.toNat : Int) * 256 + lo.toNat - 4)).isLt
    rw [hfull, BitVec.toNat_ofInt]
    omega
  · have hsum := replyLenth_of_ne hfull hi
    rw [BitVec.toNat_ofInt]
    omega

theorem connectTail_reply (h : comm.Holds reply) (d : CharPointDataManage) (lenPosition hcsPosition : Nat) :
    connectTail d lenPosition hcsPosition comm.rx comm.dataRxLen = connectTail d lenPosition hcsPosition reply reply.length := by
  have hfive := h.five_le
  have hframed := h.framed
  simp only [connectTail, h.len, h.getD (i := 2) (by omega), h.getD (i := 3) (by omega)]
  split_ifs with hshort
  · rfl
  · have hfits := connectLen_le (reply.getD 2 0) (reply.getD 3 0) (by omega)
    rw [h.part (by omega), h.part (by omega)]

theorem connectTx_made (h : connectTx dataRev t = some t') : t'.made = t.made := by
  unfold connectTx at h
  obtain ⟨lenSession, -, h⟩ := Option.bind_eq_some_iff.mp h
  obtain ⟨lenSign, -, h⟩ := Option.bind_eq_some_iff.mp h
  obtain ⟨tx₁, -, h⟩ := Option.bind_eq_some_iff.mp h
  obtain ⟨tx₂, -, h⟩ := Option.bind_eq_some_iff.mp h
  cases h
  rfl

/-- The parts of a connection request's routine: the request, the answer up to the exchange, the exchange and the rest. -/
theorem connectResponsePackage_cases {factory : FactoryVersion} {d d' : CharPointDataManage} {s s' : State698} {result : Int}
    (h : connectResponsePackage links factory dataRev (s, d, ⟨e, []⟩) = some (result, s', d', t)) :
    ∃ d₁ x, unPackage698ConnectRequest dataRev s = some s' ∧
      connectHead factory dataRev
        (openResponse dataRev.frame698.head d (0xc0 ||| 0x03) (copiedAddr d s'.addr dataRev.frame698.addr.ca)).1 = some d₁ ∧
      t.made = [x] ∧ x.Proper ∧
      connectTail d₁ (openResponse dataRev.frame698.head d (0xc0 ||| 0x03) (copiedAddr d s'.addr dataRev.frame698.addr.ca)).2.1
        (openResponse dataRev.frame698.head d (0xc0 ||| 0x03) (copiedAddr d s'.addr dataRev.frame698.addr.ca)).2.2
        x.comm.rx x.comm.dataRxLen = some (result, d') := by
  unfold connectResponsePackage at h
  obtain ⟨s₁, hunpackage, h⟩ := Option.bind_eq_some_iff.mp h
  dsimp only at h
  obtain ⟨d₁, hhead, h⟩ := Option.bind_eq_some_iff.mp h
  obtain ⟨t₁, htx, h⟩ := Option.bind_eq_some_iff.mp h
  obtain ⟨t₂, hexchange, h⟩ := Option.bind_eq_some_iff.mp h
  obtain ⟨⟨result₁, d₂⟩, htail, h⟩ := Option.bind_eq_some_iff.mp h
  cases h
  obtain ⟨x, hmade, hcomm, hproper⟩ := Talk.exchange_spec hexchange
  rw [connectTx_made htx, List.nil_append] at hmade
  rw [hcomm] at htail
  exact ⟨d₁, x, hunpackage, hhead, hmade, hproper, htail⟩

theorem intiData_reply (h : comm.Holds reply) (devRecv : Ble698Frame) :
    intiData devRecv comm.rx = intiData devRecv reply := by
  have hfive := h.five_le
  have hframed := h.framed
  simp only [intiData, h.getD (i := 2) (by omega), h.getD (i := 3) (by omega)]
  split_ifs with hlong
  · rfl
  · -- the high length byte is zero, so the reply holds what the low one says
    have hor : (reply.getD 3 0).toNat + 1 ≤ replyLenth (reply.getD 2 0) (reply.getD 3 0) := Nat.right_le_or
    rw [h.part (by omega)]

end EnergyRouter
