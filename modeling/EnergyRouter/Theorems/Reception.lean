import EnergyRouter.Lemmas.Resync
import EnergyRouter.Lemmas.ReceiveIndices

/-!
# Reception

What the thread accepts is a frame that stands in the stream, byte for byte; and after any garbage a pause of thirty empty reads is
enough for the next well-formed frame to be received. But a frame of the greatest length admitted finds one cell too few, and a
header that fails its check, or that the announced length cuts off, is not given up as it should be.
-/

namespace EnergyRouter

open Buffer

/-- A completed segment that passes the analysis was kept whole: else its length field would be refused. -/
theorem Completed.contents_eq {seg : List Byte} {rev : CharPointDataManage} (hc : Completed seg) (hs : Stored seg rev)
    (hlength : lengthField rev.contents = rev.dataSize - 2) : rev.contents = seg := by
  by_cases hle : seg.length ≤ 1023
  · rw [hs.contents, kept_of_le hle]
  exfalso
  have hcell : ∀ i : Nat, i < 3 → (kept seg).getD i 0 = seg.getD i 0 := by
    intro i hi
    rw [List.getD_eq_getElem?_getD, kept, List.getElem?_take_of_lt (by rw [hplcDataMaxSize]; omega),
      List.getD_eq_getElem?_getD]
  rw [hs.contents, hs.dataSize, kept_length, lengthField, hcell 2 (by omega), hcell 1 (by omega)] at hlength
  have hwant := hc.length
  rcases hc.fits with ⟨h1, h2⟩ | hfits
  · -- the escape announces 43690 bytes, of which fourteen bits are 10922
    have hescape : ((0xaa : Byte) &&& 0x3f#8).toNat * 256 + (0xaa : Byte).toNat = 10922 := by decide
    rw [h1, h2, hescape] at hlength
    omega
  · -- otherwise exactly one byte too many was announced, and the length field says so
    rw [wantLen, hplcDataMaxSize] at *
    have hlo := (seg.getD 1 0).isLt
    have hhi : seg.getD 2 0 = 3#8 := by
      apply BitVec.eq_of_toNat_eq
      show (seg.getD 2 0).toNat = 3
      omega
    have hmask : (3#8 &&& 0x3f#8).toNat = 3 := by decide
    have hthree : (3#8).toNat = 3 := by decide
    rw [hhi, hmask] at hlength
    rw [hhi, hthree] at hwant
    omega

/-- The shortest frame the thread accepts: a header and no user data. -/
def bareFrame : List Byte :=
  [0x68, 0x0f, 0x00, 0x43, 0x05, 0x01, 0x00, 0x00, 0x00, 0x00, 0x00, 0x00, 0x48, 0x2b, 0x47, 0x0f, 0x16]

theorem bareFrame_wellFormed : WellFormed bareFrame :=
  ⟨rfl, by decide, by decide, by decide, by decide, by decide, rfl⟩

section

variable {W : Type} (checkAfairFromBotom : W → W) (answer645 : CharPointDataManage → W → W) (service : Service W)

/-- What the thread accepts stands in the stream. After any number of turns of the thread over any port, if a call of the
receiver returns 0 and the analysis of its buffer returns 0, then the bytes this call read are some skipped bytes followed by
exactly the bytes accepted; these start with 0x68, end with 0x16, have the length field of their number and a good frame
check. -/
theorem accepted_is_segment (des : CharPointDataManage) (w : W) (reads : List (Option Byte)) (n : Nat) {s r : Received W}
    {rev : CharPointDataManage}
    (hturns : hplcThreadTurns checkAfairFromBotom false answer645 service n reads rxStart (initCharPointDataManage des) w =
      some s)
    (hcall : getSingleFrameFromeHplc checkAfairFromBotom false s.reads s.rx s.rev s.world = some r)
    (hzero : r.result = 0) (hok : priveDataAnalysis false r.rev = some (0, rev)) :
    ∃ before skipped : List Byte,
      reads.reduceOption = before ++ s.reads.reduceOption ∧
      s.reads.reduceOption = skipped ++ r.rev.contents ++ r.reads.reduceOption ∧
      r.rev.contents.length = r.rev.dataSize ∧
      r.rev.contents.head? = some 0x68 ∧ r.rev.contents.getLast? = some 0x16 ∧
      lengthField r.rev.contents = r.rev.dataSize - 2 ∧ FcsGood r.rev.contents.dropLast := by
  obtain ⟨⟨used₀, hused₀⟩, hclean, _⟩ :=
    hplcThreadTurns_clean checkAfairFromBotom answer645 service n (tracks_start des) hturns
  obtain ⟨used, _, hused, hends⟩ := receiveLoop_ends checkAfairFromBotom s.reads 0 _ hclean hcall
  cases hends with
  | failed hres ht hb => rw [hzero] at hres; cases hres
  | is645 hres hs hb => rw [hzero] at hres; cases hres
  | underflow hres hb hd => rw [priveDataAnalysis_none r.rev (by omega)] at hok; cases hok
  | complete hres seg skipped hs hc hread hb =>
    obtain ⟨h12, hlt⟩ := hc.dataSize hs
    obtain ⟨_, hfcs, hlength⟩ := priveDataAnalysis_zero (Nat.le_of_lt hlt) hok
    have hcont := hc.contents_eq hs hlength
    have hkept : kept seg = seg := by rw [← hs.contents, hcont]
    refine ⟨used₀.reduceOption, skipped, ?_, ?_, ?_, ?_, ?_, hlength, hfcs⟩
    · rw [hused₀, List.reduceOption_append]
    · rw [List.nil_append] at hread
      rw [hused, List.reduceOption_append, hread, hcont]
    · exact front_length (Nat.le_of_lt hlt)
    · rw [hcont]
      exact hc.head
    · rw [hcont, ← hkept]
      exact hc.last

/-- The bare frame, read alone, is accepted. -/
theorem accepted_is_segment_bareFrame :
    ∃ r : Received Unit, ∃ before skipped : List Byte,
      r.result = 0 ∧ r.rev.contents = bareFrame ∧
      (bareFrame.map some).reduceOption = before ++ (bareFrame.map some).reduceOption ∧
      (bareFrame.map some).reduceOption = skipped ++ r.rev.contents ++ r.reads.reduceOption ∧
      r.rev.contents.length = r.rev.dataSize ∧
      r.rev.contents.head? = some 0x68 ∧ r.rev.contents.getLast? = some 0x16 ∧
      lengthField r.rev.contents = r.rev.dataSize - 2 ∧ FcsGood r.rev.contents.dropLast := by
  obtain ⟨r, hr, hzero, hstored, _⟩ := getSingleFrame_after_pause (id : Unit → Unit) bareFrame_wellFormed 0 (by decide) []
    () (tracks_start zeroBuffer)
  have hok := priveDataAnalysis_wellFormed bareFrame_wellFormed hstored (by decide)
  rw [List.replicate_zero, List.nil_append, List.append_nil] at hr
  obtain ⟨before, skipped, h⟩ := accepted_is_segment id (fun _ w => w) (fun f v w => (f, v, w)) zeroBuffer ()
    (bareFrame.map some) 0 rfl hr hzero hok
  exact ⟨r, before, skipped, hzero, hstored.contents, h⟩

/-- The header of a frame of 1024 bytes. -/
def longHead : List Byte := [0x68, 0xfe, 0x03, 0x43, 0x05, 0x01, 0x00, 0x00, 0x00, 0x00, 0x00, 0x00, 0x61, 0xc6]

/-- A frame of the greatest length the receiver admits. -/
def longFrame : List Byte :=
  longHead ++ List.replicate 1007 0 ++ TableCrc.check (fcsOf ((longHead ++ List.replicate 1007 0).drop 1)) ++ [0x16]

theorem longFrame_length : longFrame.length = 1024 := by
  rw [longFrame, List.length_append, List.length_append, List.length_append, List.length_replicate]
  rfl

theorem longFrame_linkFrame : LinkFrame longFrame := by
  have htake : longFrame.take 14 = longHead := rfl
  have hend : headEnd longFrame = 14 := by decide
  refine ⟨rfl, ?_, ?_, ?_, ?_, ?_⟩
  · rw [longFrame_length]
    decide
  · rw [longFrame_length, hend]
    omega
  · rw [hend, htake]
    decide
  · rw [longFrame, List.dropLast_concat]
    exact fcsGood_append_check (List.cons_ne_nil _ _)
  · rw [longFrame, List.getLast?_concat]

/-- In every run of the thread, the next call of the receiver uses cells of the buffer only and returns no frame but one with a
checked header, exactly when the reads it finds are sound: no header ends that fails its check without being the broadcast
request, and no frame ends that announced less than its header, its frame check and the end character. -/
theorem call_sound_iff (des : CharPointDataManage) (w : W) (reads : List (Option Byte)) (n : Nat) {s : Received W}
    (hturns : hplcThreadTurns checkAfairFromBotom false answer645 service n reads rxStart (initCharPointDataManage des) w =
      some s) :
    ((∀ i ∈ loopIndices false s.reads 0 s.rx s.rev, 0 ≤ i ∧ i ≤ 1023) ∧
      ∀ r, getSingleFrameFromeHplc checkAfairFromBotom false s.reads s.rx s.rev s.world = some r → r.result = 0 →
        HeaderChecked r.rx r.rev) ↔
      SoundCall s.reads 0 [] := by
  obtain ⟨_, hclean, _⟩ := hplcThreadTurns_clean checkAfairFromBotom answer645 service n (tracks_start des) hturns
  exact receiveLoop_sound checkAfairFromBotom s.reads 0 (checkAfairFromBotom s.world) hclean growing_nil

/-- The first call over the bare frame. -/
theorem call_sound_bareFrame :
    (∀ i ∈ loopIndices false (bareFrame.map some) 0 rxStart (initCharPointDataManage zeroBuffer), 0 ≤ i ∧ i ≤ 1023) ∧
    ∀ r : Received Unit, getSingleFrameFromeHplc id false (bareFrame.map some) rxStart (initCharPointDataManage zeroBuffer) () =
      some r → r.result = 0 → HeaderChecked r.rx r.rev :=
  (call_sound_iff id (fun _ w => w) (fun f v w => (f, v, w)) zeroBuffer () (bareFrame.map some) 0 rfl).mpr (by decide)

/-- A header whose check fails. -/
def brokenHeader : List Byte := [0x68, 0x0f, 0x00, 0x43, 0x05, 0x01, 0x00, 0x00, 0x00, 0x00, 0x00, 0x00, 0x48, 0x2c]

/-- A frame of twelve bytes that announces an address of sixteen. -/
def cutHeader : List Byte := [0x68, 0x0a, 0x00, 0x43, 0x0f, 0x00, 0x00, 0x00, 0x00, 0x00, 0x00, 0x16]

/-- After the broken header the receiver looks at the cell in front of its buffer; and the cut header, which was never checked,
is returned as a frame. -/
theorem broken_and_cut_header :
    (-1 : Int) ∈ loopIndices false (brokenHeader.map some) 0 rxStart (initCharPointDataManage zeroBuffer) ∧
    (getSingleFrameFromeHplc (id : Unit → Unit) false (cutHeader.map some) rxStart (initCharPointDataManage zeroBuffer) ()).map
      (fun r => (r.result, r.rev.contents, r.rx.usartRxSta &&& 0x08000000)) = some (0, cutHeader, 0) := by
  constructor <;> decide +kernel

end

end EnergyRouter
