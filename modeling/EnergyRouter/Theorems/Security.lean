import EnergyRouter.Lemmas.EsamReply

/-!
# Authenticated dispatch

The dispatcher serves what the ESAM's buffer holds after a security request, whether the exchange succeeded or not. The main result
says when this is safe.
-/

namespace EnergyRouter

open Buffer

variable {d : CharPointDataManage} {tag : Byte} {fuel : Nat} {sendbuf : Vector Byte 1024} {spi : Spi} {e e' : Esam}
    {c c' : ScmEsamComm} {res : RtErr}

variable {W : Type}

/-- The tags whose service does something. -/
def servedTags : List Byte := [2, 3, 5, 7, 0x87]

theorem serve_served {routines : Routines W} {p : Port W} {a : Affairs W} (htag : d.usrByte 0 = some tag)
    (h : serve routines d p = some a) (hs : tag ∈ servedTags) :
    a.dataRev = d ∧ ∃ service, a.served = some (service, d.apdu) := by
  unfold serve at h
  rw [htag] at h
  simp only [Option.bind_eq_bind, Option.bind_some] at h
  simp only [servedTags, List.mem_cons, List.not_mem_nil, or_false] at hs
  rcases hs with rfl | rfl | rfl | rfl | rfl
  · cases h
    exact ⟨rfl, .connect, rfl⟩
  · cases h
    exact ⟨rfl, .release, rfl⟩
  · cases h
    exact ⟨rfl, .get, rfl⟩
  · cases h
    exact ⟨rfl, .action, rfl⟩
  · cases h
    exact ⟨rfl, .notice, rfl⟩

/-- The answer to a link request never changes the port and is never followed by an answer. -/
theorem linkResponse_snd (b : Byte) (s : State698) : (linkResponse b s).2 = s ∧ (linkResponse b s).1 ≠ 0 := by
  unfold linkResponse
  by_cases hb : b = 0x80
  · subst hb
    exact ⟨rfl, one_ne_zero⟩
  · rw [if_neg hb]
    exact ⟨rfl, neg_ne_zero.mpr one_ne_zero⟩

/-- A frame with any other tag changes nothing and is not answered. -/
theorem serve_other {routines : Routines W} {p : Port W} {a : Affairs W} (htag : d.usrByte 0 = some tag)
    (h : serve routines d p = some a) (hs : tag ∉ servedTags) :
    a.served = none ∧ a.port = p ∧ a.result ≠ 0 ∧ a.dataRev = d := by
  simp only [servedTags, List.mem_cons, List.not_mem_nil, or_false, not_or] at hs
  obtain ⟨h2, h3, h5, h7, h87⟩ := hs
  unfold serve at h
  rw [htag] at h
  simp only [Option.bind_eq_bind, Option.bind_some, if_neg h2, if_neg h3, if_neg h5, if_neg h7, if_neg h87] at h
  split_ifs at h with h1 h81 h82 h83
  · cases h
    exact ⟨rfl, rfl, one_ne_zero, rfl⟩
  · obtain ⟨b, -, hb⟩ := Option.bind_eq_some_iff.mp h
    cases hb
    obtain ⟨hstate, hresult⟩ := linkResponse_snd b p.state
    refine ⟨rfl, ?_, hresult, rfl⟩
    simp only [hstate]
  · cases h
    exact ⟨rfl, rfl, one_ne_zero, rfl⟩
  · cases h
    exact ⟨rfl, rfl, one_ne_zero, rfl⟩
  · cases h
    exact ⟨rfl, rfl, neg_ne_zero.mpr one_ne_zero, rfl⟩

/-- An unwrapped frame starts with the first byte of the ESAM's buffer, unless it is empty. -/
theorem unwrapped_spec {d' : CharPointDataManage} {rx : Vector Byte 1024} (h : unwrapped d rx = some d') :
    d'.apdu = front rx (announced rx) ∧ (front rx (announced rx)).length = announced rx ∧
    d'.usrByte 0 = if announced rx = 0 then d.usrByte 0 else some (rx.getD 0 0) := by
  unfold unwrapped at h
  split_ifs at h with hfits
  obtain ⟨hrx, hd⟩ := hfits
  have hlen : (front rx (announced rx)).length = announced rx := front_length hrx
  cases h
  have hmid := mid_copyAt d.priveData d.frame698.usrData (front rx (announced rx)) (by rw [hlen]; exact hd)
  refine ⟨?_, hlen, ?_⟩
  · rw [hlen] at hmid
    exact hmid
  · split_ifs with hzero
    · have hnil : front rx (announced rx) = [] := by rw [hzero, front_zero]
      simp only [CharPointDataManage.usrByte, hnil, copyAt]
    · have hcell : (((copyAt d.priveData d.frame698.usrData (front rx (announced rx))).toList.drop
          d.frame698.usrData).take (front rx (announced rx)).length)[0]? = (front rx (announced rx))[0]? := by rw [hmid]
      rw [List.getElem?_take_of_lt (by omega), List.getElem?_drop, Vector.getElem?_toList, front_getElem? rx (by omega)] at hcell
      show (copyAt d.priveData d.frame698.usrData (front rx (announced rx)))[d.frame698.usrData + 0]? = _
      rw [hcell]
      simp [Vector.getD]

/-- The reply of an exchange that succeeded is the first part of the caller's buffer. -/
theorem unwrapExchange_eok (h : unwrapExchange fuel sendbuf spi d e = some (.eok, e')) {k : Nat} (hk : k ≤ e'.delivered.length) :
    front e'.comm.rxData k <+: e'.delivered := by
  unfold unwrapExchange at h
  obtain ⟨comm, -, h⟩ := Option.bind_eq_some_iff.mp h
  have hreply : front e'.comm.rxData e'.delivered.length = e'.delivered := (esamCommunicattion_eok h).rx
  rw [front_of_le _ hk, hreply]
  exact List.take_prefix k e'.delivered

theorem appendTx_rxData {position len : Nat} (h : appendTx d position len c = some c') : c'.rxData = c.rxData := by
  unfold appendTx at h
  simp only at h
  split_ifs at h
  cases h
  rfl

theorem unpatchScmEsamComm_rxData (h : unpatchScmEsamComm d c = some c') : c'.rxData = c.rxData := by
  unfold unpatchScmEsamComm at h
  obtain ⟨hi, -, h⟩ := Option.bind_eq_some_iff.mp h
  obtain ⟨lo, -, h⟩ := Option.bind_eq_some_iff.mp h
  obtain ⟨kind, -, h⟩ := Option.bind_eq_some_iff.mp h
  split_ifs at h with hsid hrn
  · obtain ⟨lenAData, -, h⟩ := Option.bind_eq_some_iff.mp h
    obtain ⟨lenMac, -, h⟩ := Option.bind_eq_some_iff.mp h
    obtain ⟨c₁, h₁, h⟩ := Option.bind_eq_some_iff.mp h
    obtain ⟨c₂, h₂, h⟩ := Option.bind_eq_some_iff.mp h
    obtain ⟨c₃, h₃, h⟩ := Option.bind_eq_some_iff.mp h
    rw [appendTx_rxData h, appendTx_rxData h₃, appendTx_rxData h₂, appendTx_rxData h₁]
  · obtain ⟨lenRn, -, h⟩ := Option.bind_eq_some_iff.mp h
    obtain ⟨lenMac, -, h⟩ := Option.bind_eq_some_iff.mp h
    obtain ⟨c₁, h₁, h⟩ := Option.bind_eq_some_iff.mp h
    rw [appendTx_rxData h, appendTx_rxData h₁]
  · cases h
    rfl

/-- An exchange that failed leaves the caller's receive buffer as it was. -/
theorem unwrapExchange_error (h : unwrapExchange fuel sendbuf spi d e = some (.error, e')) : e'.comm.rxData = e.comm.rxData := by
  unfold unwrapExchange at h
  obtain ⟨comm, hcomm, h⟩ := Option.bind_eq_some_iff.mp h
  unfold esamCommunicattion at h
  obtain ⟨⟨buf, n⟩, -, h⟩ := Option.bind_eq_some_iff.mp h
  obtain ⟨⟨res, driver⟩, -, h⟩ := Option.bind_eq_some_iff.mp h
  cases res with
  | eok => cases h
  | error =>
    cases h
    exact unpatchScmEsamComm_rxData hcomm

/-- A service runs only when the exchange made for this frame succeeded, and on bytes it delivered; when it failed, no service runs
and nothing changes. -/
def Authenticated (res : RtErr) (delivered : List Byte) (p : Port W) (a : Affairs W) : Prop :=
  (∀ service apdu, a.served = some (service, apdu) → res = .eok ∧ apdu <+: delivered) ∧
  (res ≠ .eok → a.served = none ∧ a.port.state = p.state ∧ a.port.dataTx = p.dataTx ∧ a.port.world = p.world)

/-- A security request is served as the unwrapped frame, and answered when a service asked for it. -/
theorem rev698DelAffairs_security {routines : Routines W} {p : Port W} {a : Affairs W} (htag : d.usrByte 0 = some 16)
    (hex : unwrapExchange fuel sendbuf spi d p.esam = some (res, e))
    (hrun : rev698DelAffairs routines fuel sendbuf spi d p = some a) :
    ∃ d' a', unwrapped d e.comm.rxData = some d' ∧ serve routines d' { p with esam := e } = some a' ∧
      a.served = a'.served ∧ (a'.result ≠ 0 → a = a') := by
  unfold rev698DelAffairs at hrun
  rw [htag] at hrun
  simp only [Option.bind_eq_bind, Option.bind_some, if_pos, hex] at hrun
  obtain ⟨d', hd', hrun⟩ := Option.bind_eq_some_iff.mp hrun
  obtain ⟨a', ha', hrun⟩ := Option.bind_eq_some_iff.mp hrun
  refine ⟨d', a', hd', ha', ?_⟩
  split_ifs at hrun with hzero
  · cases hrun
    exact ⟨rfl, fun hne => absurd hzero hne⟩
  · cases hrun
    exact ⟨rfl, fun _ => rfl⟩

/-- In terms of the buffer: it announces no bytes, or starts with a tag nothing serves, or the exchange delivered what it announces.
-/
theorem authenticated_iff_left {routines : Routines W} {dataRev : CharPointDataManage} {p : Port W} {a : Affairs W}
    (htag : dataRev.usrByte 0 = some 16) (hex : unwrapExchange fuel sendbuf spi dataRev p.esam = some (res, e))
    (hrun : rev698DelAffairs routines fuel sendbuf spi dataRev p = some a) :
    Authenticated res e.delivered p a ↔ announced e.comm.rxData = 0 ∨ e.comm.rxData.getD 0 0 ∉ servedTags ∨
      (res = .eok ∧ announced e.comm.rxData ≤ e.delivered.length) := by
  obtain ⟨d', a', hd', ha', hserved, heq⟩ := rev698DelAffairs_security htag hex hrun
  obtain ⟨hapdu, hlen, hfirst⟩ := unwrapped_spec hd'
  -- whether the tag of the unwrapped frame is served
  have hquiet : ∀ tag, d'.usrByte 0 = some tag → tag ∉ servedTags → Authenticated res e.delivered p a := by
    intro tag htag' hnot
    obtain ⟨hnone, hport, hresult, -⟩ := serve_other htag' ha' hnot
    rw [heq hresult]
    constructor
    · intro service apdu hsome
      rw [hnone] at hsome
      cases hsome
    · intro _
      rw [hport]
      exact ⟨hnone, rfl, rfl, rfl⟩
  constructor
  · intro hauth
    by_cases hzero : announced e.comm.rxData = 0
    · exact .inl hzero
    by_cases htags : e.comm.rxData.getD 0 0 ∈ servedTags
    · rw [if_neg hzero] at hfirst
      obtain ⟨-, service, hsome⟩ := serve_served hfirst ha' htags
      obtain ⟨hok, hpart⟩ := hauth.1 service d'.apdu (by rw [hserved, hsome])
      refine .inr (.inr ⟨hok, ?_⟩)
      rw [← hlen, ← hapdu]
      exact hpart.length_le
    · exact .inr (.inl htags)
  · intro hguard
    by_cases hzero : announced e.comm.rxData = 0
    · rw [if_pos hzero, htag] at hfirst
      exact hquiet 16 hfirst (by decide)
    rw [if_neg hzero] at hfirst
    by_cases htags : e.comm.rxData.getD 0 0 ∈ servedTags
    · obtain ⟨-, service, hsome⟩ := serve_served hfirst ha' htags
      rcases hguard with h | h | ⟨hok, hle⟩
      · exact absurd h hzero
      · exact absurd htags h
      · subst hok
        constructor
        · intro service' apdu hsome'
          rw [hserved, hsome] at hsome'
          cases hsome'
          rw [hapdu]
          exact ⟨rfl, unwrapExchange_eok hex hle⟩
        · exact fun hne => absurd rfl hne
    · exact hquiet _ hfirst htags

/-- After an exchange that succeeded, the reply is as long as it announces or starts with a tag nothing serves; else the buffer
announced no bytes or starts with such a tag. -/
def Guarded (old : Vector Byte 1024) (e : Esam) : RtErr → Prop
  | .eok => announced e.comm.rxData ≤ e.delivered.length ∨ e.comm.rxData.getD 0 0 ∉ servedTags
  | .error => announced old = 0 ∨ old.getD 0 0 ∉ servedTags

/-- A security request is dispatched as asked exactly when the exchange is guarded. -/
theorem security_authenticated_iff (routines : Routines W) (fuel : Nat) (sendbuf : Vector Byte 1024) (spi : Spi)
    (dataRev : CharPointDataManage) (p : Port W) {res : RtErr} {e : Esam} {a : Affairs W}
    (htag : dataRev.usrByte 0 = some 16) (hex : unwrapExchange fuel sendbuf spi dataRev p.esam = some (res, e))
    (hrun : rev698DelAffairs routines fuel sendbuf spi dataRev p = some a) :
    Authenticated res e.delivered p a ↔ Guarded p.esam.comm.rxData e res := by
  rw [authenticated_iff_left htag hex hrun]
  cases res with
  | eok =>
    constructor
    · rintro (hzero | htags | ⟨-, hle⟩)
      · exact .inl (by omega)
      · exact .inr htags
      · exact .inl hle
    · rintro (hle | htags)
      · exact .inr (.inr ⟨rfl, hle⟩)
      · exact .inr (.inl htags)
  | error =>
    rw [unwrapExchange_error hex]
    constructor
    · rintro (hzero | htags | ⟨hne, -⟩)
      · exact .inl hzero
      · exact .inr htags
      · cases hne
    · rintro (hzero | htags)
      · exact .inl hzero
      · exact .inr (.inl htags)

/-- A received security request without data. -/
def securityFrame : CharPointDataManage :=
  { zeroBuffer with
    priveData := copyAt zeroBuffer.priveData 14 [0x10, 0x01]
    frame698 := { zeroBuffer.frame698 with usrData := 14, usrDataLen := 12 } }

/-- A bus that cannot be taken. -/
def noBus : Spi := ⟨false, fun _ => 0⟩

/-- Routines that answer nothing. -/
def mute : Routines Unit where
  connectResponsePackage _ p := (1, p)
  getResponsePackage _ p := (1, p)
  actionResponsePackage _ p := (1, p)
  actionResponseNoticeUser _ p := (1, p)
  securityGetPackage p := (1, p)

/-- The port at power-up, with `rx` in the ESAM's receive buffer. -/
def portWith (rx : List Byte) : Port Unit where
  state := zeroState
  dataTx := zeroBuffer
  esam := { zeroEsam with comm := { zeroEsam.comm with rxData := copyAt zeroEsam.comm.rxData 0 rx } }
  world := ()

/-- With nothing in the ESAM's buffer a request whose exchange fails is dispatched as asked: not at all. -/
theorem security_authenticated_powerUp :
    ∃ e a, unwrapExchange 0 (Vector.replicate 1024 0) noBus securityFrame (portWith []).esam = some (.error, e) ∧
      rev698DelAffairs mute 0 (Vector.replicate 1024 0) noBus securityFrame (portWith []) = some a ∧
      Authenticated .error e.delivered (portWith []) a := by
  have hex : (unwrapExchange 0 (Vector.replicate 1024 0) noBus securityFrame (portWith []).esam).map Prod.fst =
      some .error := by decide +kernel
  have hrun : (rev698DelAffairs mute 0 (Vector.replicate 1024 0) noBus securityFrame (portWith [])).map Affairs.result =
      some (-1) := by decide +kernel
  obtain ⟨⟨res, e⟩, hex, rfl⟩ := Option.map_eq_some_iff.mp hex
  obtain ⟨a, hrun, -⟩ := Option.map_eq_some_iff.mp hrun
  refine ⟨e, a, hex, hrun, ?_⟩
  exact (security_authenticated_iff mute 0 _ noBus securityFrame (portWith []) (by decide +kernel) hex hrun).mpr
    (.inl (by decide +kernel))

/-- An action request an earlier exchange left in the ESAM's buffer is served again for a security request whose own exchange
failed because the bus could not be taken. -/
theorem stale_action_served :
    ∃ e a, unwrapExchange 0 (Vector.replicate 1024 0) noBus securityFrame (portWith [0x07, 0x05, 0x00, 0x01, 0x02]).esam =
        some (.error, e) ∧
      rev698DelAffairs mute 0 (Vector.replicate 1024 0) noBus securityFrame (portWith [0x07, 0x05, 0x00, 0x01, 0x02]) =
        some a ∧
      a.served = some (.action, [0x07, 0x05, 0x00, 0x01, 0x02]) ∧
      ¬ Authenticated .error e.delivered (portWith [0x07, 0x05, 0x00, 0x01, 0x02]) a := by
  have hex : (unwrapExchange 0 (Vector.replicate 1024 0) noBus securityFrame
      (portWith [0x07, 0x05, 0x00, 0x01, 0x02]).esam).map Prod.fst = some .error := by decide +kernel
  have hrun : (rev698DelAffairs mute 0 (Vector.replicate 1024 0) noBus securityFrame
      (portWith [0x07, 0x05, 0x00, 0x01, 0x02])).map Affairs.served =
      some (some (.action, [0x07, 0x05, 0x00, 0x01, 0x02])) := by decide +kernel
  obtain ⟨⟨res, e⟩, hex, rfl⟩ := Option.map_eq_some_iff.mp hex
  obtain ⟨a, hrun, hserved⟩ := Option.map_eq_some_iff.mp hrun
  refine ⟨e, a, hex, hrun, hserved, ?_⟩
  rintro ⟨hauth, -⟩
  obtain ⟨hok, -⟩ := hauth _ _ hserved
  cases hok

end EnergyRouter
