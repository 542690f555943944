import EnergyRouter.Lemmas.Build

/-!
# Builders and receiver agree

Whatever the three builders build, the receiver takes as one frame, and the user data it reports is what the builder wrote.
-/

namespace EnergyRouter

open Buffer

variable {s s' : State698} {d d' : CharPointDataManage}

/-- The states the firmware can be in when it builds a frame. Nothing after the initialisation writes the kind of the address, its
length or the capacity. -/
inductive Reachable698 : State698 → CharPointDataManage → Prop
  | init (clock : Clock) (s : State698) (d : CharPointDataManage) :
    Reachable698 (init698State clock s) (initCharPointDataManage d)
  | other {s s' : State698} {d d' : CharPointDataManage} : Reachable698 s d → s'.addr.sa = s.addr.sa →
    s'.addr.sAddrLen = s.addr.sAddrLen → d'.size = d.size → Reachable698 s' d'

theorem Reachable698.fixed (h : Reachable698 s d) :
    s.addr.sa = 5 ∧ s.addr.sAddrLen = 6 ∧ d.size = hplcDataMaxSize := by
  induction h with
  | init clock s d => exact ⟨rfl, rfl, rfl⟩
  | other _ hsa hlen hsize ih =>
    rw [hsa, hlen, hsize]
    exact ih

/-- The three builders. -/
inductive Builder
  | link
  | connect
  | report
  deriving DecidableEq, Repr

/-- A call of a builder. -/
def Builder.run (clock : Clock) (exe : ChargeExeState) (d : CharPointDataManage) (s : State698) :
    Builder → Option (Int × CharPointDataManage × State698)
  | .link => linkRequestPackage clock d s
  | .connect => (connectRequestPackage d s).map fun (result, d) => (result, d, s)
  | .report => (reportCmdChgPlanExeState exe d s).map fun (result, d) => (result, d, s)

/-- The user data a builder writes. -/
def Builder.apdu (clock : Clock) (exe : ChargeExeState) (s : State698) : Builder → List Byte
  | .link => [0x01, if s.linkFlag = 0 then 0x00 else 0x01, 0x01, s.heartBeatTime0, s.heartBeatTime1] ++ (clock 2).toList
  | .connect => [0x02, s.piid] ++ s.version.toList ++ s.protocolconformance.toList ++ s.functionconformance.toList ++
      [0x04, 0x00, 0x04, 0x00, 0x01, 0x04, 0x00] ++ s.connectOvertime.toList ++ [0x00, 0x00]
  | .report => [0x88, 0x01, 0x09, 0x01, 0x34, 0x04, 0x06, 0x00, 0x01] ++ exeStateBytes exe ++ [0x00]

/-- The buffer holds a frame with a six-byte server address around `apdu`, and its fields say where the user data is. -/
def Framed (apdu : List Byte) (d : CharPointDataManage) : Prop :=
  ∃ control sa sAddr ca, sa &&& 0x0f#8 = 5 ∧ sAddr.length = 6 ∧ apdu.length + 17 ≤ 1023 ∧
    Stored (frameOf control sa sAddr ca apdu) d ∧ d.frame698.usrData = 14 ∧ d.frame698.usrDataLen = apdu.length

/-- Opening a frame, writing user data and closing the frame gives the frame around the user data. -/
theorem framed_of_closeFrame {d₂ : CharPointDataManage} {apdu : List Byte} (control : Byte) (addr : Addr698)
    (hsize : d.size = hplcDataMaxSize) (hsa : addr.sa = 5) (haddr : addr.sAddrLen = 6) (hlen : apdu.length + 17 ≤ 1023)
    (hputs : Puts apdu (openFrame d control addr).1 d₂) (checksSize : Bool) :
    ∃ d', closeFrame d₂ (openFrame d control addr).2.1 (openFrame d control addr).2.2 checksSize = some (0, d') ∧
      Framed apdu d' := by
  obtain ⟨⟨g₁, g₂, g₃, g₄, hopen⟩, hpos, husr⟩ := openFrame_stored hsize control haddr
  have hsix : (addr.sAddr.toList.take 6).length = 6 := by simp
  have hbody := hputs.stored hopen (by simp; omega)
  obtain ⟨d', hclose, hstored, husr', hulen⟩ := closeFrame_stored hbody hsix hlen checksSize
  rw [hpos]
  refine ⟨d', hclose, control, addr.sa, _, addr.ca, ?_, hsix, hlen, hstored, ?_, hulen⟩
  · rw [hsa]
    rfl
  · rw [husr', hputs.frame698, husr]

/-- Whatever kind of link request is due, its rest makes it a frame. -/
theorem closeLinkRequest_framed (clock : Clock) (control : Byte) (addr : Addr698) (s : State698)
    (hsize : d.size = hplcDataMaxSize) (hsa : addr.sa = 5) (haddr : addr.sAddrLen = 6) (kind : Byte) :
    ∃ d', closeLinkRequest clock (putEach (putEach (openFrame d control addr).1 [0x01]) [kind, 0x01])
        (openFrame d control addr).2.1 (openFrame d control addr).2.2 s = some (0, d', s) ∧
      Framed ([0x01, kind, 0x01, s.heartBeatTime0, s.heartBeatTime1] ++ (clock 2).toList) d' := by
  have hputs : Puts ([0x01, kind, 0x01, s.heartBeatTime0, s.heartBeatTime1] ++ (clock 2).toList) (openFrame d control addr).1
      (putBytes (putEach (putEach (putEach (openFrame d control addr).1 [0x01]) [kind, 0x01])
        [s.heartBeatTime0, s.heartBeatTime1]) (clock 2).toList) :=
    ((puts_putEach _ [0x01]).each [kind, 0x01]).each [s.heartBeatTime0, s.heartBeatTime1] |>.put (clock 2).toList
  obtain ⟨d', hclose, hframed⟩ := framed_of_closeFrame control addr hsize hsa haddr (by simp) hputs false
  refine ⟨d', ?_, hframed⟩
  simp only [closeLinkRequest, hclose, Option.bind_eq_bind, Option.bind_some]

theorem linkRequestPackage_framed (clock : Clock) (exe : ChargeExeState) (hsize : d.size = hplcDataMaxSize) (hsa : s.addr.sa = 5)
    (haddr : s.addr.sAddrLen = 6) (hrun : linkRequestPackage clock d s = some (0, d', s')) :
    Framed (Builder.apdu clock exe s .link) d' := by
  simp only [linkRequestPackage] at hrun
  split_ifs at hrun with hdue hlink hconnect
  · obtain ⟨d₁, hclose, hframed⟩ := closeLinkRequest_framed clock (0x80 ||| 0x01) (copiedAddr d s.addr 0x00)
      { s with tryLinkType := 0, lastLinkRequsetTime := clock 1 } hsize hsa haddr 0x00
    rw [hclose] at hrun
    cases hrun
    rw [Builder.apdu, if_pos hlink]
    exact hframed
  · obtain ⟨d₁, hclose, hframed⟩ := closeLinkRequest_framed clock (0x80 ||| 0x01) (copiedAddr d s.addr 0x00)
      { s with tryLinkType := 1, lastLinkRequsetTime := clock 1 } hsize hsa haddr 0x01
    rw [hclose] at hrun
    cases hrun
    rw [Builder.apdu, if_neg hlink]
    exact hframed
  · cases hrun
  · cases hrun

theorem connectRequestPackage_framed (clock : Clock) (exe : ChargeExeState) (hsize : d.size = hplcDataMaxSize)
    (hsa : s.addr.sa = 5) (haddr : s.addr.sAddrLen = 6) :
    ∃ d', connectRequestPackage d s = some (0, d') ∧ Framed (Builder.apdu clock exe s .connect) d' := by
  simp only [connectRequestPackage]
  refine framed_of_closeFrame (0x40 ||| 0x03) (copiedAddr d s.addr s.addr.ca) hsize hsa haddr (by simp [Builder.apdu]) ?_ false
  rw [Builder.apdu]
  exact (puts_putEach _ [0x02, s.piid]).put _ |>.put _ |>.put _ |>.each _ |>.put _ |>.each _

theorem reportCmdChgPlanExeState_framed (clock : Clock) (exe : ChargeExeState) (hsize : d.size = hplcDataMaxSize)
    (hsa : s.addr.sa = 5) (haddr : s.addr.sAddrLen = 6) :
    ∃ d', reportCmdChgPlanExeState exe d s = some (0, d') ∧ Framed (Builder.apdu clock exe s .report) d' := by
  simp only [reportCmdChgPlanExeState]
  refine framed_of_closeFrame (0x80 ||| 0x03) { s.addr with ca := 0x00 } hsize hsa haddr
    (by simp [Builder.apdu, exeStateBytes_length]) ?_ true
  rw [Builder.apdu]
  exact ((puts_putEach _ [0x88, 0x01, 0x09, 0x01, 0x34, 0x04, 0x06, 0x00, 0x01]).trans (puts_chargeExeStatePackage exe _)).each [0x00]

theorem Builder.run_framed {clock : Clock} {exe : ChargeExeState} (hreach : Reachable698 s d) {b : Builder}
    (hrun : b.run clock exe d s = some (0, d', s')) :
    Framed (b.apdu clock exe s) d' := by
  obtain ⟨hsa, haddr, hsize⟩ := hreach.fixed
  cases b with
  | link => exact linkRequestPackage_framed clock exe hsize hsa haddr hrun
  | connect =>
    obtain ⟨d₁, hbuilt, hframed⟩ := connectRequestPackage_framed clock exe hsize hsa haddr
    rw [Builder.run, hbuilt] at hrun
    cases hrun
    exact hframed
  | report =>
    obtain ⟨d₁, hbuilt, hframed⟩ := reportCmdChgPlanExeState_framed clock exe hsize hsa haddr
    rw [Builder.run, hbuilt] at hrun
    cases hrun
    exact hframed

/-- An unpacked frame has its user data behind fourteen bytes, and three bytes behind its user data. -/
theorem unPackage698_usrData {data : Vector Byte hplcDataMaxSize} {f : Frame698} {size : Nat}
    (h : (unPackage698 data f size).1 = 0) :
    (unPackage698 data f size).2.usrData = 14 ∧ (unPackage698 data f size).2.usrDataLen = (size : Int) - 17 := by
  unfold unPackage698 at h ⊢
  simp only at h ⊢
  split_ifs at h ⊢ with hlength hroom
  · cases h
  · cases h
  · refine ⟨rfl, ?_⟩
    simp only
    omega

/-- A plan with nothing in it. -/
def zeroExeState : ChargeExeState where
  cRequestNO := Vector.replicate 17 0
  cAssetNO := Vector.replicate 23 0
  exeState := 0
  ulEleBottomValue := Vector.replicate 5 0
  ulEleActualValue := Vector.replicate 5 0
  ucChargeEle := Vector.replicate 5 0
  ucChargeTime := 0
  ucPlanPower := 0
  ucActualPower := 0
  ucVoltage := 0
  ucCurrent := 0
  chgPileState := 0

section

variable {W : Type} (checkAfairFromBotom : W → W)

/-- Builders and receiver agree. In every state reached after the initialisation, for every content of clock and identity: what a
builder that returns 0 has built is read by the receiver as one frame, byte for byte, the analysis accepts it, and the user data
it reports is where and as long as the builder said and consists of the bytes the builder wrote. -/
theorem built_frame_received (clock : Clock) (exe : ChargeExeState) {s s' : State698} {d d' : CharPointDataManage}
    (hreach : Reachable698 s d) (b : Builder) (hrun : b.run clock exe d s = some (0, d', s'))
    {rx : RxState} {rev : CharPointDataManage} (hclean : Tracks [] rx rev) (tail : List (Option Byte)) (w : W) :
    ∃ r rev', getSingleFrameFromeHplc checkAfairFromBotom false (d'.contents.map some ++ tail) rx rev w = some r ∧
      r.result = 0 ∧ r.reads = tail ∧ r.rev.contents = d'.contents ∧ priveDataAnalysis false r.rev = some (0, rev') ∧
      rev'.frame698.usrData = d'.frame698.usrData ∧ rev'.frame698.usrDataLen = d'.frame698.usrDataLen ∧
      (rev'.contents.drop rev'.frame698.usrData).take rev'.frame698.usrDataLen.toNat = b.apdu clock exe s := by
  obtain ⟨control, sa, sAddr, ca, hsa, haddr, hlen, hstored, husr, hulen⟩ := Builder.run_framed hreach hrun
  have hwell := frameOf_wellFormed control ca haddr hsa hlen
  have hflen := frameOf_length control sa ca (b.apdu clock exe s) haddr
  have hcont : d'.contents = frameOf control sa sAddr ca (b.apdu clock exe s) := by
    rw [hstored.contents, kept_of_le hwell.fits]
  obtain ⟨r, hr, hzero, hrev, htail⟩ := getSingleFrame_after_pause checkAfairFromBotom hwell 0 (by decide) tail w hclean
  have hok := priveDataAnalysis_wellFormed hwell hrev (by omega)
  have hrcont : r.rev.contents = frameOf control sa sAddr ca (b.apdu clock exe s) := by
    rw [hrev.contents, kept_of_le hwell.fits]
  obtain ⟨hu, hul⟩ := unPackage698_usrData (unPackage698_stored hrev hwell.fits (by omega) hwell.lengthField)
  have hsize := (hrev.front_eq hwell.fits).1
  have hulen' : (unPackage698 r.rev.priveData r.rev.frame698 r.rev.dataSize).2.usrDataLen = (b.apdu clock exe s).length := by
    rw [hul, hsize, hflen]
    omega
  refine ⟨r, _, ?_, hzero, htail, by rw [hrcont, hcont], hok, by rw [husr]; exact hu, by rw [hulen]; exact hulen', ?_⟩
  · rw [hcont]
    exact hr
  · have hdrop := frameOf_apdu control sa ca (b.apdu clock exe s) haddr
    rw [← hrcont] at hdrop
    simp only [hu, hulen', Int.toNat_natCast]
    exact hdrop

/-- A connect request built right after the initialisation is received by a receiver that has just started. -/
theorem built_frame_received_connect :
    ∃ d' : CharPointDataManage, ∃ r : Received Unit, ∃ rev',
      connectRequestPackage (initCharPointDataManage zeroBuffer) (init698State getCurrentTime zeroState) = some (0, d') ∧
      getSingleFrameFromeHplc id false (d'.contents.map some ++ []) rxStart (initCharPointDataManage zeroBuffer) () = some r ∧
      r.result = 0 ∧ r.rev.contents = d'.contents ∧ priveDataAnalysis false r.rev = some (0, rev') ∧
      (rev'.contents.drop rev'.frame698.usrData).take rev'.frame698.usrDataLen.toNat =
        Builder.apdu getCurrentTime zeroExeState (init698State getCurrentTime zeroState) .connect := by
  have hreach := Reachable698.init getCurrentTime zeroState zeroBuffer
  obtain ⟨hsa, haddr, hsize⟩ := hreach.fixed
  obtain ⟨d', hbuilt, _⟩ := connectRequestPackage_framed getCurrentTime zeroExeState hsize hsa haddr
  have hrun : Builder.run getCurrentTime zeroExeState (initCharPointDataManage zeroBuffer)
      (init698State getCurrentTime zeroState) .connect = some (0, d', init698State getCurrentTime zeroState) := by
    rw [Builder.run, hbuilt]
    rfl
  obtain ⟨r, rev', hr, hzero, _, hcont, hok, _, _, happ⟩ := built_frame_received (id : Unit → Unit) getCurrentTime zeroExeState
    hreach .connect hrun (tracks_start zeroBuffer) [] ()
  exact ⟨d', r, rev', hbuilt, hr, hzero, hcont, hok, happ⟩

end

end EnergyRouter
