import Mathlib.Tactic.IntervalCases
import EnergyRouter.Build
import EnergyRouter.Lemmas.Addresses
import EnergyRouter.Theorems.Reception

/-!
# Addresses

The receiver lets addresses of one to sixteen bytes in; the code behind it is made for six. The fields are reported for the frame's
own address length only when that is six, and whether the device takes a frame for its own depends on the frame alone only when it
brings six bytes, or fails at one it brings.
-/

namespace EnergyRouter

open Buffer

variable {own : Addr698} {frame addr : List Byte} {rev : CharPointDataManage}

section

variable {W : Type} (checkAfairFromBotom : W → W) (answer645 : CharPointDataManage → W → W) (service : Service W)

/-! ## The reported layout -/

/-- In every run of the thread, unpacking a frame the receiver returned fails or reports the layout of the address length the
frame announces, exactly when this length is six, the frame has fewer than seventeen bytes or its length field is not its
length. -/
theorem layout_reported_iff (des : CharPointDataManage) (w : W) (reads : List (Option Byte)) (n : Nat) {s r : Received W}
    (hturns : hplcThreadTurns checkAfairFromBotom false answer645 service n reads rxStart (initCharPointDataManage des) w =
      some s)
    (hcall : getSingleFrameFromeHplc checkAfairFromBotom false s.reads s.rx s.rev s.world = some r) (hzero : r.result = 0) :
    LayoutOf r.rev.priveData r.rev.dataSize (nibbleLen r.rev.contents)
        (unPackage698 r.rev.priveData r.rev.frame698 r.rev.dataSize) ↔
      nibbleLen r.rev.contents = 6 ∨ r.rev.dataSize < 17 ∨ lengthField r.rev.contents + 2 ≠ r.rev.dataSize := by
  obtain ⟨_, hclean, _⟩ := hplcThreadTurns_clean checkAfairFromBotom answer645 service n (tracks_start des) hturns
  have hle := receiveLoop_dataSize_le checkAfairFromBotom hclean hcall hzero
  rw [layoutOf_iff]
  refine or_congr Iff.rfl ?_
  rw [ne_eq, unPackage698_zero]
  by_cases h17 : r.rev.dataSize < 17
  · exact iff_of_true (by omega) (Or.inl h17)
  · have hfield : (r.rev.priveData.getD 2 0 &&& 0x3f#8).toNat * 256 + (r.rev.priveData.getD 1 0).toNat =
        lengthField r.rev.contents := by
      rw [lengthField, CharPointDataManage.contents, ← getD_front r.rev.priveData 0 (by omega),
        ← getD_front r.rev.priveData 0 (by omega)]
    omega

/-- The bare frame has an address of six bytes. -/
theorem layout_reported_bareFrame :
    ∃ r : Received Unit, r.rev.contents = bareFrame ∧
      LayoutOf r.rev.priveData r.rev.dataSize 6 (unPackage698 r.rev.priveData r.rev.frame698 r.rev.dataSize) := by
  obtain ⟨r, hr, hzero, hstored, _⟩ := getSingleFrame_after_pause (id : Unit → Unit) bareFrame_wellFormed 0 (by decide) []
    () (tracks_start zeroBuffer)
  rw [List.replicate_zero, List.nil_append, List.append_nil] at hr
  have hcont : r.rev.contents = bareFrame := by rw [hstored.contents, kept_of_le (by decide)]
  have hlayout := layout_reported_iff id (fun _ w => w) (fun f v w => (f, v, w)) zeroBuffer () (bareFrame.map some) 0 rfl hr hzero
  rw [hcont] at hlayout
  exact ⟨r, hcont, hlayout.mpr (Or.inl (by decide))⟩

/-- A frame with an address of five bytes. -/
def fiveFrame : List Byte :=
  [0x68, 0x0f, 0x00, 0x43, 0x04, 0x01, 0x00, 0x00, 0x00, 0x00, 0x00, 0xd8, 0x4a, 0x05, 0x61, 0x91, 0x16]

/-- The frame with an address of five bytes is returned by the receiver, and unpacking it reports an address of six. -/
theorem fiveFrame_layout :
    nibbleLen fiveFrame = 5 ∧
    (getSingleFrameFromeHplc (id : Unit → Unit) false (fiveFrame.map some) rxStart (initCharPointDataManage zeroBuffer) ()).map
      (fun r => (r.result, r.rev.contents, (unPackage698 r.rev.priveData r.rev.frame698 r.rev.dataSize).1,
        (unPackage698 r.rev.priveData r.rev.frame698 r.rev.dataSize).2.addr.sAddrLen,
        (unPackage698 r.rev.priveData r.rev.frame698 r.rev.dataSize).2.usrData)) =
      some (0, fiveFrame, 0, 6, 14) := by
  constructor <;> decide +kernel

/-! ## The address comparison -/

/-- In some run of the thread from the memory `des` the frame was received, passed its checks and got the verdict `v`. -/
def Judged (des : CharPointDataManage) (w : W) (own : Addr698) (frame : List Byte) (v : Int) : Prop :=
  ∃ (reads : List (Option Byte)) (n : Nat) (s r : Received W) (rev : CharPointDataManage),
    hplcThreadTurns checkAfairFromBotom false answer645 service n reads rxStart (initCharPointDataManage des) w = some s ∧
    getSingleFrameFromeHplc checkAfairFromBotom false s.reads s.rx s.rev s.world = some r ∧ r.result = 0 ∧
    r.rev.contents = frame ∧ priveDataAnalysis false r.rev = some (0, rev) ∧ judgeMeterNo own rev = some v

/-- The verdict on a frame, when earlier frames left the address `old`. -/
def verdictAfter (own : Addr698) (frame : List Byte) (old : Vector Byte 8) : Int :=
  if ∀ k < 6, Passes (own.sAddr.getD k 0)
      (if nibbleLen frame ≤ 8 ∧ k < nibbleLen frame then frame.getD (5 + k) 0 else old.getD k 0) then 0
  else -1

/-- The frame alone decides: it brings the six bytes that are compared, or it fails at one of those it brings. -/
def AddressDecides (own : Addr698) (frame : List Byte) : Prop :=
  (6 ≤ nibbleLen frame ∧ nibbleLen frame ≤ 8) ∨
    (nibbleLen frame < 6 ∧ ∃ k < nibbleLen frame, ¬ Passes (own.sAddr.getD k 0) (frame.getD (5 + k) 0))

theorem verdictAfter_of_decides (h : AddressDecides own frame) (old old' : Vector Byte 8) :
    verdictAfter own frame old = verdictAfter own frame old' := by
  rcases h with ⟨h6, h8⟩ | ⟨hlt, k, hk, hfail⟩
  · -- all six bytes are the frame's
    have hcell : ∀ old : Vector Byte 8, ∀ k < 6,
        (if nibbleLen frame ≤ 8 ∧ k < nibbleLen frame then frame.getD (5 + k) 0 else old.getD k 0) = frame.getD (5 + k) 0 := by
      intro old k hk
      rw [if_pos ⟨h8, by omega⟩]
    refine if_congr ?_ rfl rfl
    refine forall_congr' fun k => forall_congr' fun hk => ?_
    rw [hcell old k hk, hcell old' k hk]
  · have hfails : ∀ old : Vector Byte 8, verdictAfter own frame old = -1 := by
      intro old
      rw [verdictAfter, if_neg]
      intro hall
      have hpass := hall k (by omega)
      rw [if_pos ⟨by omega, hk⟩] at hpass
      exact hfail hpass
    rw [hfails old, hfails old']

/-- When the frame does not decide, it passes over the device's address and fails over one that differs in every byte. -/
theorem verdictAfter_of_not_decides (h : ¬ AddressDecides own frame) {same other : Vector Byte 8}
    (hsame : ∀ k < 6, same.getD k 0 = own.sAddr.getD k 0) (hother : ∀ k < 6, ¬ Passes (own.sAddr.getD k 0) (other.getD k 0)) :
    verdictAfter own frame same = 0 ∧ verdictAfter own frame other = -1 := by
  have hbounds := nibbleLen_bounds frame
  have hbrings : ∀ k, nibbleLen frame ≤ 8 → k < nibbleLen frame → Passes (own.sAddr.getD k 0) (frame.getD (5 + k) 0) := by
    intro k h8 hk
    by_contra hfail
    by_cases h6 : nibbleLen frame < 6
    · exact h (Or.inr ⟨h6, k, hk, hfail⟩)
    · exact h (Or.inl ⟨by omega, h8⟩)
  constructor
  · rw [verdictAfter, if_pos]
    intro k hk
    split_ifs with hfrom
    · exact hbrings k hfrom.1 hfrom.2
    · exact Or.inr (hsame k hk).symm
  · -- the first byte the frame does not bring
    have hleft : ∃ k < 6, ¬ (nibbleLen frame ≤ 8 ∧ k < nibbleLen frame) := by
      by_cases h8 : nibbleLen frame ≤ 8
      · by_cases h6 : nibbleLen frame < 6
        · exact ⟨nibbleLen frame, h6, by omega⟩
        · exact absurd (Or.inl ⟨by omega, h8⟩) h
      · exact ⟨0, by omega, by omega⟩
    obtain ⟨k, hk, hout⟩ := hleft
    rw [verdictAfter, if_neg]
    intro hall
    have hpass := hall k hk
    rw [if_neg hout] at hpass
    exact hother k hk hpass

/-- What an accepted frame is: it was collected byte by byte, kept whole and unpacked. -/
theorem accepted_collected {s r : Received W} (hclean : Tracks [] s.rx s.rev)
    (hcall : getSingleFrameFromeHplc checkAfairFromBotom false s.reads s.rx s.rev s.world = some r) (hzero : r.result = 0)
    (hok : priveDataAnalysis false r.rev = some (0, rev)) :
    Collects r.rev.contents (.complete r.rev.contents) ∧ Stored r.rev.contents r.rev ∧ 17 ≤ r.rev.contents.length ∧
      r.rev.contents.length ≤ 1023 ∧ lengthField r.rev.contents + 2 = r.rev.contents.length ∧
      FcsGood r.rev.contents.dropLast := by
  have hle := receiveLoop_dataSize_le checkAfairFromBotom hclean hcall hzero
  have hmax : r.rev.dataSize ≤ hplcDataMaxSize := by rw [hplcDataMaxSize]; omega
  obtain ⟨h17, hfcs, hlength⟩ := priveDataAnalysis_zero hmax hok
  obtain ⟨frame, hs, hc, hcollects⟩ := receiveLoop_collected checkAfairFromBotom s.reads 0 _ hclean growing_nil hcall hzero
    (by omega)
  have hcont := hc.contents_eq hs hlength
  have hfront : r.rev.contents.length = r.rev.dataSize := front_length hmax
  rw [hcont] at hfront hlength hfcs ⊢
  exact ⟨hcollects, hs, by omega, by omega, by omega, hfcs⟩

/-- The analysis of a stored frame that was accepted, and the comparison behind it. -/
theorem judge_stored {rev' : CharPointDataManage} (hown : own.sAddrLen = 6) (hs : Stored frame rev) (h17 : 17 ≤ frame.length)
    (hle : frame.length ≤ 1023) (hok : priveDataAnalysis false rev = some (0, rev')) :
    judgeMeterNo own rev' = some (verdictAfter own frame rev.frame698.addr.sAddr) := by
  have hsize : rev.dataSize = frame.length := by rw [hs.dataSize, kept_of_le hle]
  rw [priveDataAnalysis_eq rev (by omega) (by rw [hplcDataMaxSize]; omega)] at hok
  split_ifs at hok with hgood hpack
  · cases hok
  · cases hok
    rw [judgeMeterNo_eq hown, verdictAfter]
    simp only [unPackage698_sAddr hs hle h17 (not_not.mp hpack)]
  · cases hok

theorem Judged.verdict {des : CharPointDataManage} {w : W} {v : Int} (hown : own.sAddrLen = 6)
    (h : Judged checkAfairFromBotom answer645 service des w own frame v) :
    ∃ old, v = verdictAfter own frame old := by
  obtain ⟨reads, n, s, r, rev, hturns, hcall, hzero, rfl, hok, hv⟩ := h
  obtain ⟨_, hclean, _⟩ := hplcThreadTurns_clean checkAfairFromBotom answer645 service n (tracks_start des) hturns
  obtain ⟨_, hs, h17, hle, _⟩ := accepted_collected checkAfairFromBotom hclean hcall hzero hok
  rw [judge_stored hown hs h17 hle hok] at hv
  exact ⟨_, (Option.some.inj hv).symm⟩

/-! ## Two histories -/

/-- A frame with nothing but an address of six bytes. -/
def addressFrame (addr : List Byte) : List Byte :=
  let head := [0x68, 0x0f, 0x00, 0x43, 0x05] ++ addr ++ [0x00]
  let head := head ++ TableCrc.check (fcsOf (head.drop 1))
  head ++ TableCrc.check (fcsOf (head.drop 1)) ++ [0x16]

theorem addressFrame_wellFormed (h : addr.length = 6) :
    WellFormed (addressFrame addr) ∧ (addressFrame addr).length = 17 ∧ nibbleLen (addressFrame addr) = 6 ∧
      ∀ k < 6, (addressFrame addr).getD (5 + k) 0 = addr.getD k 0 := by
  obtain ⟨a, b, c, d, e, f, rfl⟩ : ∃ a b c d e f, addr = [a, b, c, d, e, f] := by
    rcases addr with _ | ⟨a, _ | ⟨b, _ | ⟨c, _ | ⟨d, _ | ⟨e, _ | ⟨f, _ | ⟨g, rest⟩⟩⟩⟩⟩⟩⟩
    case cons.cons.cons.cons.cons.cons.nil => exact ⟨a, b, c, d, e, f, rfl⟩
    all_goals
      simp only [List.length_nil, List.length_cons] at h
      omega
  have hlen : (addressFrame [a, b, c, d, e, f]).length = 17 := rfl
  have h1 : (addressFrame [a, b, c, d, e, f]).getD 1 0 = 0x0f#8 := rfl
  have h2 : (addressFrame [a, b, c, d, e, f]).getD 2 0 = 0x00#8 := rfl
  have h4 : (addressFrame [a, b, c, d, e, f]).getD 4 0 = 0x05#8 := rfl
  have hnibble : nibbleLen (addressFrame [a, b, c, d, e, f]) = 6 := by
    rw [nibbleLen, h4]
    decide
  have hescape : ¬ Escaped (addressFrame [a, b, c, d, e, f]) := by
    rw [Escaped, h1, h2]
    decide
  have hend : headEnd (addressFrame [a, b, c, d, e, f]) = 14 := by
    rw [headEnd, addrLen, if_neg hescape, h4]
    decide
  have hwant : wantLen (addressFrame [a, b, c, d, e, f]) = 17 := by
    rw [wantLen, h1, h2]
    decide
  refine ⟨⟨rfl, by omega, by omega, by omega, ?_, ?_, ?_⟩, hlen, hnibble, ?_⟩
  · rw [hend]
    exact fcsGood_append_check (by simp : [0x68, 0x0f, 0x00, 0x43, 0x05] ++ [a, b, c, d, e, f] ++ [0x00] ≠ ([] : List Byte))
  · rw [addressFrame, List.dropLast_concat]
    exact fcsGood_append_check (by simp)
  · rw [addressFrame, List.getLast?_concat]
  · intro k hk
    interval_cases k <;> rfl

/-- A byte that is neither the given one nor the one that stands for any. -/
def otherByte (b : Byte) : Byte := if b = 0 then 1 else 0

theorem not_passes_otherByte (b : Byte) : ¬ Passes b (otherByte b) := by
  rw [Passes, otherByte]
  split_ifs with h
  · rw [h]
    decide
  · rintro (hany | hsame)
    · exact absurd hany (by decide)
    · exact h hsame

variable {service}

/-- After a frame with the address `addr`, any frame that is accepted is judged over `addr`. -/
theorem judged_after_address (hservice : ∀ f v w, (service f v w).1.addr = f.addr) (des : CharPointDataManage) (w : W)
    (hown : own.sAddrLen = 6) (hcollects : Collects frame (.complete frame)) (h17 : 17 ≤ frame.length) (hle : frame.length ≤ 1023)
    (hlength : lengthField frame + 2 = frame.length) (hfcs : FcsGood frame.dropLast) (haddr : addr.length = 6) :
    ∃ old : Vector Byte 8, (∀ k < 6, old.getD k 0 = addr.getD k 0) ∧
      Judged checkAfairFromBotom answer645 service des w own frame (verdictAfter own frame old) := by
  obtain ⟨hwell, hlen, hnibble, hcells⟩ := addressFrame_wellFormed haddr
  have hne : frame ≠ [] := by
    rw [← List.length_pos_iff]
    omega
  -- the first turn unpacks the address
  obtain ⟨rev₀, w₀, s, hs₀, hturn, hreads, hframe⟩ := hplcThreadTurn_wellFormed checkAfairFromBotom answer645 service hwell
    (by omega) (frame.map some ++ []) w (tracks_start des)
  obtain ⟨_, hclean, _⟩ := hplcThreadTurn_clean checkAfairFromBotom answer645 service (tracks_start des) hturn
  -- the second call receives the frame over it
  obtain ⟨r, hr, hzero, hstored, _⟩ := receiveLoop_completed checkAfairFromBotom hcollects hne (delivery_map_some frame) []
    (checkAfairFromBotom s.world) hclean
  have hok := priveDataAnalysis_stored hstored hle h17 hlength hfcs
  refine ⟨r.rev.frame698.addr.sAddr, ?_, (addressFrame addr).map some ++ (frame.map some ++ []), 1,
    ⟨0, s.rx, s.rev, s.world, s.reads⟩, r, _, ?_, ?_, hzero, ?_, hok, judge_stored hown hstored h17 hle hok⟩
  · intro k hk
    have hzero₀ := unPackage698_stored hs₀ hwell.fits (by omega) hwell.lengthField
    rw [receiveLoop_frame698 checkAfairFromBotom _ 0 _ hr, hframe, hservice,
      unPackage698_sAddr hs₀ hwell.fits (by omega) hzero₀ k, hnibble, if_pos ⟨by omega, hk⟩, hcells k hk]
  · rw [hplcThreadTurns, hturn]
    rfl
  · rw [getSingleFrameFromeHplc, hreads]
    exact hr
  · rw [hstored.contents, kept_of_le hle]

/-- The address comparison has no memory exactly when the frame decides. For every frame that was once received and accepted: in
all runs of the thread the device comes to the same verdict on it, exactly when the frame brings the six address bytes the
device compares, in an address of at most eight, or brings fewer and fails at one of them. -/
theorem address_memoryless_iff (hservice : ∀ f v w, (service f v w).1.addr = f.addr) (des : CharPointDataManage) (w : W)
    {own : Addr698} (hown : own.sAddrLen = 6) {frame : List Byte}
    (haccepted : ∃ v, Judged checkAfairFromBotom answer645 service des w own frame v) :
    (∀ v v', Judged checkAfairFromBotom answer645 service des w own frame v →
      Judged checkAfairFromBotom answer645 service des w own frame v' → v = v') ↔ AddressDecides own frame := by
  constructor
  · intro hsame
    by_contra hopen
    obtain ⟨_, reads, n, s, r, rev, hturns, hcall, hzero, rfl, hok, _⟩ := haccepted
    obtain ⟨_, hclean, _⟩ := hplcThreadTurns_clean checkAfairFromBotom answer645 service n (tracks_start des) hturns
    obtain ⟨hcollects, _, h17, hle, hlength, hfcs⟩ := accepted_collected checkAfairFromBotom hclean hcall hzero hok
    have hafter := fun (addr : List Byte) (haddr : addr.length = 6) =>
      judged_after_address checkAfairFromBotom answer645 hservice des w hown hcollects h17 hle hlength hfcs haddr
    -- one history leaves the device's own address, the other one that differs in every byte
    obtain ⟨same, hmine, hpass⟩ := hafter (List.ofFn fun k : Fin 6 => own.sAddr.getD k 0) List.length_ofFn
    obtain ⟨other, hnot, hfail⟩ := hafter (List.ofFn fun k : Fin 6 => otherByte (own.sAddr.getD k 0)) List.length_ofFn
    have hcell : ∀ (f : Fin 6 → Byte) (k : Nat) (hk : k < 6), (List.ofFn f).getD k 0 = f ⟨k, hk⟩ := by
      intro f k hk
      rw [List.getD_eq_getElem?_getD, List.getElem?_eq_getElem (by simpa using hk), List.getElem_ofFn]
      rfl
    obtain ⟨hzero, hminus⟩ := verdictAfter_of_not_decides hopen
      (fun k hk => (hmine k hk).trans (hcell _ k hk))
      (fun k hk => by
        rw [hnot k hk, hcell _ k hk]
        exact not_passes_otherByte _)
    have := hsame _ _ hpass hfail
    rw [hzero, hminus] at this
    cases this
  · intro hdecides v v' hv hv'
    obtain ⟨old, rfl⟩ := hv.verdict checkAfairFromBotom answer645 service hown
    obtain ⟨old', rfl⟩ := hv'.verdict checkAfairFromBotom answer645 service hown
    exact verdictAfter_of_decides hdecides old old'

/-- The address the device has after it was set up. -/
def deviceAddr : Addr698 := (init698State getCurrentTime zeroState).addr

/-- A service that does nothing. -/
def idle : Service Unit := fun f v w => (f, v, w)

/-- A well-formed frame of at least seventeen bytes is judged after any address. -/
theorem WellFormed.judged_after (h : WellFormed frame) (h17 : 17 ≤ frame.length) (haddr : addr.length = 6) :
    ∃ old : Vector Byte 8, (∀ k < 6, old.getD k 0 = addr.getD k 0) ∧
      Judged id (fun _ w => w) idle zeroBuffer () deviceAddr frame (verdictAfter deviceAddr frame old) :=
  judged_after_address id (fun _ w => w) (fun _ _ _ => rfl) zeroBuffer () rfl h.collects h17 h.fits h.lengthField h.fcs haddr

/-- On the bare frame, which has six address bytes, the device always comes to the same verdict. -/
theorem bareFrame_judged_alike :
    (∃ v, Judged id (fun _ w => w) idle zeroBuffer () deviceAddr bareFrame v) ∧
    ∀ v v', Judged id (fun _ w => w) idle zeroBuffer () deviceAddr bareFrame v →
      Judged id (fun _ w => w) idle zeroBuffer () deviceAddr bareFrame v' → v = v' := by
  obtain ⟨_, _, hjudged⟩ := bareFrame_wellFormed.judged_after (by decide) (show [0, 0, 0, 0, 0, 0].length = 6 from rfl)
  exact ⟨⟨_, hjudged⟩, (address_memoryless_iff id (fun _ w => w) (fun _ _ _ => rfl) zeroBuffer () rfl ⟨_, hjudged⟩).mpr
    (Or.inl (by decide))⟩

theorem fiveFrame_wellFormed : WellFormed fiveFrame :=
  ⟨rfl, by decide, by decide, by decide, by decide, by decide, rfl⟩

/-- The frame with five address bytes, all of them the device's own, is taken after a frame for the device and not taken after
one for another device. -/
theorem fiveFrame_judged_differently :
    Judged id (fun _ w => w) idle zeroBuffer () deviceAddr fiveFrame 0 ∧
    Judged id (fun _ w => w) idle zeroBuffer () deviceAddr fiveFrame (-1) := by
  have hopen : ¬ AddressDecides deviceAddr fiveFrame := by
    have hfive : nibbleLen fiveFrame = 5 := by decide
    have hbrings : ∀ k < 5, Passes (deviceAddr.sAddr.getD k 0) (fiveFrame.getD (5 + k) 0) := by decide
    rintro (⟨h6, _⟩ | ⟨_, k, hk, hfail⟩)
    · omega
    · rw [hfive] at hk
      exact hfail (hbrings k hk)
  obtain ⟨same, hmine, hpass⟩ :=
    fiveFrame_wellFormed.judged_after (by decide) (show [0x01, 0, 0, 0, 0, 0].length = 6 from rfl)
  obtain ⟨other, hnot, hfail⟩ :=
    fiveFrame_wellFormed.judged_after (by decide) (show [0x09, 9, 9, 9, 9, 9].length = 6 from rfl)
  have hown : ∀ k < 6, [0x01, 0, 0, 0, 0, 0].getD k 0 = deviceAddr.sAddr.getD k 0 := by decide
  have hnone : ∀ k < 6, ¬ Passes (deviceAddr.sAddr.getD k 0) ([0x09, 9, 9, 9, 9, 9].getD k 0) := by decide
  obtain ⟨hzero, hminus⟩ := verdictAfter_of_not_decides hopen (fun k hk => (hmine k hk).trans (hown k hk))
    (fun k hk => by
      rw [hnot k hk]
      exact hnone k hk)
  rw [hzero] at hpass
  rw [hminus] at hfail
  exact ⟨hpass, hfail⟩

end

end EnergyRouter
