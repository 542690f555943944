import EnergyRouter.Lemmas.EsamBus
import EnergyRouter.Theorems.Security
import EnergyRouter.Theorems.SecurityFrames

/-!
# The frames to the security chip

Two commands copy the payload before all of their header is written: the rest of it goes over the payload, and the last bytes are
sent as the array on the stack happened to hold them. Nothing bounds the payload.
-/

namespace EnergyRouter

open Buffer

variable {cmd : EsamCmd} {comm : ScmEsamComm} {e : Esam}

/-! ## What is to be sent -/

/-- All the bytes the source writes as the header of a command. -/
def EsamCmd.headers (lenth : Nat) (cmd : EsamCmd) : List Byte := cmd.header lenth ++ cmd.overlay lenth

/-- The payload of an exchange. -/
def ScmEsamComm.payload (comm : ScmEsamComm) : List Byte := front comm.txData comm.dataTxLen

/-- The frame of a command: the start byte, the header, the payload, and the complement of the exclusive or of all bytes behind the
first. -/
def esamWire (cmd : EsamCmd) (comm : ScmEsamComm) : List Byte :=
  0x55 :: (cmd.headers comm.dataTxLen ++ comm.payload) ++ [esamCheck (cmd.headers comm.dataTxLen ++ comm.payload)]

/-- Whatever the array on the stack held: the exchange comes about, the frame has at most 1024 bytes, and it is all that is sent. -/
def SendsFrame (cmd : EsamCmd) (e : Esam) : Prop :=
  ∀ (sendbuf : Vector Byte 1024) (spi : Spi) (fuel : Nat), spi.takeBus = true →
    ∃ ended calls, esamCommunicattionCalls fuel sendbuf spi cmd e = some (ended, calls) ∧ (esamWire cmd e.comm).length ≤ 1024 ∧
      sentBy calls = [esamWire cmd e.comm]

/-! ## What is sent -/

/-- The array on the stack before the check is stored: header, payload, and over it the second header. -/
def esamBody (sendbuf : Vector Byte 1024) (cmd : EsamCmd) (comm : ScmEsamComm) : List Byte :=
  front (copyAt (copyAt (copyAt sendbuf 0 (0x55 :: cmd.header comm.dataTxLen)) ((cmd.header comm.dataTxLen).length + 1) comm.payload)
    ((cmd.header comm.dataTxLen).length + 1) (cmd.overlay comm.dataTxLen)) ((cmd.headers comm.dataTxLen).length + 1 + comm.dataTxLen)

/-- The frame that is built: the array and the check of it, if there is room for both. -/
theorem esamFrame_cases (sendbuf : Vector Byte 1024) (cmd : EsamCmd) (comm : ScmEsamComm) :
    ((cmd.headers comm.dataTxLen).length + 1 + comm.dataTxLen < 1024 ∧
      ∃ buf, esamFrame sendbuf cmd comm = some (buf, (cmd.headers comm.dataTxLen).length + 1 + comm.dataTxLen + 1) ∧
        front buf ((cmd.headers comm.dataTxLen).length + 1 + comm.dataTxLen + 1) =
          esamBody sendbuf cmd comm ++ [esamCheck ((esamBody sendbuf cmd comm).drop 1)]) ∨
    ¬ (cmd.headers comm.dataTxLen).length + 1 + comm.dataTxLen < 1024 ∧ esamFrame sendbuf cmd comm = none := by
  have hptr : (0x55 :: cmd.header comm.dataTxLen : List Byte).length + (cmd.overlay comm.dataTxLen).length =
      (cmd.headers comm.dataTxLen).length + 1 := by
    rw [EsamCmd.headers, List.length_append, List.length_cons]
    omega
  unfold esamFrame
  simp only [hptr]
  split_ifs with hfits
  · exact .inl ⟨hfits, _, rfl, front_set_succ _ _ hfits⟩
  · exact .inr ⟨hfits, rfl⟩

theorem sentBy_append (calls calls' : List BusCall) : sentBy (calls ++ calls') = sentBy calls ++ sentBy calls' := List.filterMap_append

theorem sentBy_recvCalls (spi : Spi) (fuel pos count : Nat) : sentBy (recvCalls spi fuel pos count).2 = [] := by
  induction fuel generalizing pos count with
  | zero => rfl
  | succ fuel ih =>
    rw [recvCalls_succ]
    split_ifs
    · rfl
    · exact ih _ _
    · exact ih _ _
    · exact ih _ _
    · rfl

/-- The array and its check are what is sent, if the frame fits. -/
theorem esamCommunicattionCalls_cases (sendbuf : Vector Byte 1024) {spi : Spi} (hbus : spi.takeBus = true) (fuel : Nat) (cmd : EsamCmd)
    (e : Esam) :
    ((cmd.headers e.comm.dataTxLen).length + 1 + e.comm.dataTxLen < 1024 ∧
      ∃ ended calls, esamCommunicattionCalls fuel sendbuf spi cmd e = some (ended, calls) ∧
        sentBy calls = [esamBody sendbuf cmd e.comm ++ [esamCheck ((esamBody sendbuf cmd e.comm).drop 1)]]) ∨
    ¬ (cmd.headers e.comm.dataTxLen).length + 1 + e.comm.dataTxLen < 1024 ∧
      esamCommunicattionCalls fuel sendbuf spi cmd e = none := by
  rcases esamFrame_cases sendbuf cmd e.comm with ⟨hfits, buf, hframe, hfront⟩ | ⟨hlong, hframe⟩
  · have hlength := front_length (v := buf) (show (cmd.headers e.comm.dataTxLen).length + 1 + e.comm.dataTxLen + 1 ≤ 1024 from hfits)
    -- the frame is copied to the front of the driver's buffer, and sent from there
    obtain ⟨driver, hcall, hdriver⟩ : ∃ driver,
        esamCommunicattionCalls fuel sendbuf spi cmd e = some (esamSendAndRecvCalls fuel spi driver) ∧
        front driver.txData driver.dataTxLen = esamBody sendbuf cmd e.comm ++ [esamCheck ((esamBody sendbuf cmd e.comm).drop 1)] := by
      rw [hfront] at hlength
      refine ⟨_, by rw [esamCommunicattionCalls, hframe, Option.map_some], ?_⟩
      have hcopied := front_copyAt_zero e.driver.txData _ (by rw [hlength]; omega)
      rw [hlength] at hcopied
      dsimp only
      rw [hfront, hcopied]
    refine .inl ⟨hfits, (esamSendAndRecvCalls fuel spi driver).1, (esamSendAndRecvCalls fuel spi driver).2, hcall, ?_⟩
    rw [esamSendAndRecvCalls_snd hbus, sentBy_append, sentBy_recvCalls, hdriver]
    rfl
  · exact .inr ⟨hlong, by rw [esamCommunicattionCalls, hframe]; rfl⟩

/-! ## When the frame is sent -/

theorem overlay_eq_nil_iff (cmd : EsamCmd) (lenth : Nat) :
    cmd.overlay lenth = [] ↔ cmd ≠ .conSessCalcMac11 ∧ cmd ≠ .conSessCalcMac13 := by
  cases cmd <;> simp [EsamCmd.overlay]

/-- Without a second header, or without a payload under it, the array holds the frame. -/
theorem esamBody_eq (sendbuf : Vector Byte 1024) (hfits : (cmd.headers comm.dataTxLen).length + 1 + comm.dataTxLen < 1024)
    (h : cmd.overlay comm.dataTxLen = [] ∨ comm.dataTxLen = 0) :
    esamBody sendbuf cmd comm = 0x55 :: (cmd.headers comm.dataTxLen ++ comm.payload) := by
  have hpayload : comm.payload.length = comm.dataTxLen := front_length (by omega)
  rcases h with hnone | hempty
  · have hheaders : cmd.headers comm.dataTxLen = cmd.header comm.dataTxLen := by rw [EsamCmd.headers, hnone, List.append_nil]
    rw [hheaders] at hfits
    have hcopied := front_copyAt_copyAt sendbuf (0x55 :: cmd.header comm.dataTxLen) comm.payload (by rw [List.length_cons]; omega)
    rw [hpayload] at hcopied
    rw [esamBody, hnone, hheaders]
    exact hcopied
  · have hnil : comm.payload = [] := List.eq_nil_of_length_eq_zero (hpayload.trans hempty)
    have hlength : (0x55 :: cmd.header comm.dataTxLen : List Byte).length + (cmd.overlay comm.dataTxLen).length =
        (cmd.headers comm.dataTxLen).length + 1 + comm.dataTxLen := by
      rw [EsamCmd.headers, List.length_append, List.length_cons]
      omega
    have hcopied := front_copyAt_copyAt sendbuf (0x55 :: cmd.header comm.dataTxLen) (cmd.overlay comm.dataTxLen) (by omega)
    rw [hlength] at hcopied
    rw [esamBody, hnil, List.append_nil]
    exact hcopied

/-- Under a second header, the last byte in front of the check is the one the array held before. -/
theorem esamBody_last (sendbuf : Vector Byte 1024) (hsecond : cmd.overlay comm.dataTxLen ≠ []) (hpayload : comm.dataTxLen ≠ 0) :
    (esamBody sendbuf cmd comm)[(cmd.headers comm.dataTxLen).length + comm.dataTxLen]? =
      sendbuf[(cmd.headers comm.dataTxLen).length + comm.dataTxLen]? := by
  have hheaders : (cmd.headers comm.dataTxLen).length = (cmd.header comm.dataTxLen).length + (cmd.overlay comm.dataTxLen).length :=
    List.length_append
  have hpos : 0 < (cmd.overlay comm.dataTxLen).length := List.length_pos_iff.mpr hsecond
  have hlength : comm.payload.length ≤ comm.dataTxLen := List.length_take_le _ _
  rw [esamBody, front_getElem? _ (by omega), getElem?_copyAt _ _ _ (by omega), getElem?_copyAt _ _ _ (by omega),
    getElem?_copyAt _ _ _ (by rw [List.length_cons]; omega)]

/-- What the array must hold for the frame to be sent. -/
theorem SendsFrame.body (h : SendsFrame cmd e) (sendbuf : Vector Byte 1024) :
    (cmd.headers e.comm.dataTxLen).length + 1 + e.comm.dataTxLen < 1024 ∧
      esamBody sendbuf cmd e.comm = 0x55 :: (cmd.headers e.comm.dataTxLen ++ e.comm.payload) := by
  obtain ⟨ended, calls, hcalls, -, hsent⟩ := h sendbuf ⟨true, fun _ => 0⟩ 0 rfl
  have hcases := esamCommunicattionCalls_cases sendbuf (show (⟨true, fun _ => 0⟩ : Spi).takeBus = true from rfl) 0 cmd e
  rcases hcases with ⟨hfits, ended', calls', hcalls', hsent'⟩ | ⟨-, hnone⟩
  · rw [hcalls] at hcalls'
    cases hcalls'
    rw [hsent] at hsent'
    exact ⟨hfits, (List.append_inj_left' (List.singleton_inj.mp hsent') rfl).symm⟩
  · rw [hcalls] at hnone
    cases hnone

/-- No payload goes out under a second header. -/
theorem SendsFrame.overlay (h : SendsFrame cmd e) :
    cmd.overlay e.comm.dataTxLen = [] ∨ e.comm.dataTxLen = 0 := by
  obtain ⟨hfits, hzeros⟩ := h.body (Vector.replicate 1024 0)
  obtain ⟨-, hones⟩ := h.body (Vector.replicate 1024 1)
  by_contra hneither
  obtain ⟨hsecond, hpayload⟩ := not_or.mp hneither
  -- the last byte of the payload would be what the array held, zero as well as one
  have hzero := esamBody_last (Vector.replicate 1024 0) hsecond hpayload
  have hone := esamBody_last (Vector.replicate 1024 1) hsecond hpayload
  rw [hzeros, Vector.getElem?_replicate, if_pos (by omega)] at hzero
  rw [hones, hzero, Vector.getElem?_replicate, if_pos (by omega)] at hone
  exact absurd hone (by decide)

/-- For every command and payload: the frame is sent, whatever the array held, exactly when it fits, and the command is not one of the
two with a second header or has no payload. -/
theorem esam_frame_sent_iff (cmd : EsamCmd) (e : Esam) :
    SendsFrame cmd e ↔
      (cmd.headers e.comm.dataTxLen).length + e.comm.dataTxLen + 2 ≤ 1024 ∧
        ((cmd ≠ .conSessCalcMac11 ∧ cmd ≠ .conSessCalcMac13) ∨ e.comm.dataTxLen = 0) := by
  rw [← overlay_eq_nil_iff cmd e.comm.dataTxLen]
  constructor
  · intro hsends
    have hfits := (hsends.body (Vector.replicate 1024 0)).1
    exact ⟨by omega, hsends.overlay⟩
  · rintro ⟨hfits, hallowed⟩ sendbuf spi fuel hbus
    rcases esamCommunicattionCalls_cases sendbuf hbus fuel cmd e with ⟨hroom, ended, calls, hcalls, hsent⟩ | ⟨hlong, -⟩
    · have hpayload : e.comm.payload.length = e.comm.dataTxLen := front_length (by omega)
      refine ⟨ended, calls, hcalls, ?_, ?_⟩
      · rw [esamWire]
        simp only [List.length_append, List.length_cons, List.length_nil, hpayload]
        omega
      · rw [hsent, esamBody_eq sendbuf hroom hallowed]
        rfl
    · omega

/-! ## Requests that pile up -/

/-- Requests of the controller one after another from power-up on, while the bus cannot be taken. -/
def randomRequests : Nat → Option Esam
  | 0 => some zeroEsam
  | n + 1 => (randomRequests n).bind fun e =>
    (unwrapExchange 0 (Vector.replicate 1024 0) noBus (receivedApdu randomRequest.bytes) e).map Prod.snd

/-- An exchange without the bus leaves the bytes to be sent as they are. -/
theorem esamCommunicattion_noBus (hfits : (cmd.headers e.comm.dataTxLen).length + 1 + e.comm.dataTxLen < 1024) (fuel : Nat)
    (sendbuf : Vector Byte 1024) :
    ∃ driver, esamCommunicattion fuel sendbuf noBus cmd e = some (.error, { e with driver := driver }) := by
  rcases esamFrame_cases sendbuf cmd e.comm with ⟨-, buf, hframe, -⟩ | ⟨hlong, -⟩
  · exact ⟨_, by rw [esamCommunicattion, hframe]; rfl⟩
  · exact absurd hfits hlong

theorem Holds.unpatch_randomRequest {l : List Byte} (h : Holds l comm) (hfits : l.length + 8 ≤ 1024) :
    ∃ comm', unpatchScmEsamComm (receivedApdu randomRequest.bytes) comm = some comm' ∧ comm'.dataTxLen = l.length + 8 ∧
      Holds (l ++ randomRequest.parts) comm' := by
  have husr := receivedApdu_fromUsr (show 14 + randomRequest.bytes.length ≤ hplcDataMaxSize by decide)
  obtain ⟨comm', hcomm, hholds⟩ := h.unpatch_rnMac rfl husr hfits
  exact ⟨comm', hcomm, by rw [hholds.dataTxLen, List.length_append]; rfl, hholds⟩

/-- Each of them goes behind the others, as long as the frame fits. -/
theorem randomRequests_hold {n : Nat} (hn : n ≤ 127) : ∃ e l, randomRequests n = some e ∧ Holds l e.comm ∧ l.length = 8 * n := by
  induction n with
  | zero => exact ⟨zeroEsam, [], rfl, holds_nil rfl, rfl⟩
  | succ n ih =>
    obtain ⟨e, l, hrun, hholds, hlength⟩ := ih (by omega)
    obtain ⟨comm, hcomm, hlen, hholds⟩ := hholds.unpatch_randomRequest (by omega)
    obtain ⟨driver, hexchange⟩ : ∃ driver,
        esamCommunicattion 0 (Vector.replicate 1024 0) noBus .hostSessVeriMac { e with comm := comm } =
          some (.error, ⟨comm, driver⟩) := by
      refine esamCommunicattion_noBus ?_ 0 _
      show 0 + 1 + comm.dataTxLen < 1024
      omega
    refine ⟨⟨comm, driver⟩, l ++ randomRequest.parts, ?_, hholds, ?_⟩
    · simp only [randomRequests, hrun, unwrapExchange, hcomm, Option.bind_eq_bind, Option.bind_some, hexchange, Option.map_some]
    · rw [← hholds.dataTxLen]
      omega

/-- After 127 requests of the controller the next one makes a payload for which there is no room; and a payload of one byte goes under
the second header of its command. -/
theorem frames_not_sent :
    (∃ e comm, randomRequests 127 = some e ∧ unpatchScmEsamComm (receivedApdu randomRequest.bytes) e.comm = some comm ∧
      ¬ SendsFrame .hostSessVeriMac { e with comm := comm }) ∧
    ¬ SendsFrame .conSessCalcMac11 { zeroEsam with comm := { zeroEsam.comm with dataTxLen := 1 } } := by
  constructor
  · obtain ⟨e, l, hrun, hholds, hlength⟩ := randomRequests_hold (le_refl 127)
    obtain ⟨comm, hcomm, hlen, -⟩ := hholds.unpatch_randomRequest (by omega)
    refine ⟨e, comm, hrun, hcomm, ?_⟩
    intro hsends
    have hfits : 0 + 1 + comm.dataTxLen < 1024 := (hsends.body (Vector.replicate 1024 0)).1
    omega
  · intro hsends
    rcases hsends.overlay with hnone | hempty
    · cases hnone
    · cases hempty

end EnergyRouter
