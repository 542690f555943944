import EnergyRouter.Lemmas.Answers

/-!
# Answers at the end of the buffer

The routines of a get request store without looking whether there is room, and the frame is closed behind whatever was stored. What
the program's own receiver makes of the answer depends on the number of bytes in use before that alone. The store never goes past
the end.
-/

namespace EnergyRouter

open Buffer Calls TableCrc

variable {d d' : CharPointDataManage} {result : Int} {w w' : Office}

/-! ## Appending -/

/-- A call of `save_char_point_data` at the end of the bytes in use, with at least as many bytes behind its pointer as it is to
store. -/
structure AppendCall where
  res : List Byte
  size : Int
  size_le : size ≤ 2 ^ 30
  enough : size ≤ res.length

/-- The bytes the call is to store. -/
def AppendCall.chunk (c : AppendCall) : List Byte := c.res.take c.size.toNat

def AppendCall.save (c : AppendCall) (d : CharPointDataManage) : Int × CharPointDataManage :=
  saveCharPointData d d.dataSize c.res c.size

/-- A buffer with the chunks of the calls that returned 0. -/
structure Appended where
  buffer : CharPointDataManage
  chunks : List (List Byte)

def Appended.append (s : Appended) (c : AppendCall) : Appended :=
  ⟨(c.save s.buffer).2, if (c.save s.buffer).1 = 0 then s.chunks ++ [c.chunk] else s.chunks⟩

def appendAll (d : CharPointDataManage) (calls : List AppendCall) : Appended := calls.foldl Appended.append ⟨d, []⟩

/-- The chunks make up the bytes in use. -/
structure Appended.Holds (s : Appended) : Prop where
  size : s.buffer.size = hplcDataMaxSize
  lt : s.buffer.dataSize < hplcDataMaxSize
  contents : s.buffer.contents = s.chunks.flatten

/-- A call fails and leaves the buffer, or there is room and it stores its chunk. -/
theorem AppendCall.save_cases (c : AppendCall) (d : CharPointDataManage) :
    c.save d = (-1, d) ∨ d.dataSize + c.chunk.length < d.size ∧ c.save d = (0, { d with
      priveData := copyAt d.priveData d.dataSize c.chunk, dataSize := d.dataSize + c.chunk.length }) := by
  have henough := c.enough
  have hlen : c.chunk.length = c.size.toNat := by
    rw [chunk, List.length_take]
    omega
  rw [save, saveCharPointData, hlen]
  split_ifs with hneg hroom
  · exact .inl rfl
  · exact .inr ⟨by omega, rfl⟩
  · exact .inl rfl

theorem Appended.Holds.append {s : Appended} (h : s.Holds) (c : AppendCall) : (s.append c).Holds := by
  have hsize := h.size
  rcases c.save_cases s.buffer with hsave | ⟨hroom, hsave⟩
  · unfold Appended.append
    rw [hsave, if_neg (show ¬ (-1 : Int) = 0 by decide)]
    exact h
  · have hcopy := front_copyAt s.buffer.priveData s.buffer.dataSize c.chunk (by omega)
    unfold Appended.append
    rw [hsave, if_pos rfl]
    refine ⟨h.size, by simpa only [hsize] using hroom, ?_⟩
    rw [List.flatten_append, ← h.contents, List.flatten_singleton]
    exact hcopy

/-- Whatever is appended to an empty buffer, the bytes in use are those of the calls that returned 0 and stay below the size of the
buffer, and a call that returns -1 changes nothing. -/
theorem append_buffer (hsize : d.size = hplcDataMaxSize) (hempty : d.dataSize = 0) (calls : List AppendCall) :
    (appendAll d calls).buffer.dataSize < hplcDataMaxSize ∧
      (appendAll d calls).buffer.contents = (appendAll d calls).chunks.flatten ∧
      ∀ c : AppendCall, (c.save (appendAll d calls).buffer).1 = -1 →
        (c.save (appendAll d calls).buffer).2 = (appendAll d calls).buffer := by
  have hstart : Appended.Holds ⟨d, []⟩ := by
    refine ⟨hsize, by simp only [hempty]; decide, ?_⟩
    simp only [CharPointDataManage.contents, hempty, front_zero, List.flatten_nil]
  have hall : ∀ s : Appended, s.Holds → (calls.foldl Appended.append s).Holds := by
    induction calls with
    | nil => exact fun _ hs => hs
    | cons c calls ih => exact fun s hs => ih (s.append c) (hs.append c)
  refine ⟨(hall _ hstart).lt, (hall _ hstart).contents, fun c hfail => ?_⟩
  rcases c.save_cases (appendAll d calls).buffer with hsave | ⟨-, hsave⟩
  · rw [hsave]
  · rw [hsave] at hfail
    exact absurd (show (0 : Int) = -1 from hfail) (by decide)

/-- Three bytes, and a call with a negative size. -/
theorem append_buffer_three :
    (appendAll { zeroBuffer with size := hplcDataMaxSize }
      [⟨[1, 2, 3], 3, by decide, by decide⟩, ⟨[], -1, by decide, by decide⟩]).buffer.contents = [1, 2, 3] :=
  (append_buffer rfl rfl _).2.1

/-! ## Closing a frame -/

/-- The buffer has the header of an answer in front. -/
structure HeadIn (d : CharPointDataManage) : Prop where
  size : d.size = hplcDataMaxSize
  head : d.priveData[0]? = some 0x68
  sa : ∃ sa, d.priveData[4]? = some sa ∧ sa &&& 0x0f#8 = 5
  header : 14 ≤ d.dataSize

/-- The bytes in use are at most 1023, and a receiver that has just started reads them as one frame, which the analysis accepts. -/
def Accepted (d : CharPointDataManage) : Prop :=
  d.contents.length ≤ 1023 ∧ ∀ rx rev, Tracks [] rx rev → ∀ tail, ∃ r rev',
    getSingleFrameFromeHplc id false (d.contents.map some ++ tail) rx rev () = some r ∧ r.result = 0 ∧
      r.rev.contents = d.contents ∧ priveDataAnalysis false r.rev = some (0, rev')

/-- A buffer with a header holds the parts of a frame that is still open. -/
theorem HeadIn.parts (h : HeadIn d) (hle : d.dataSize ≤ 1023) :
    ∃ g₁ g₂ control sa sAddr ca g₃ g₄ apdu, sa &&& 0x0f#8 = 5 ∧ sAddr.length = 6 ∧ apdu.length + 14 = d.dataSize ∧
      Stored ([0x68, g₁, g₂, control, sa] ++ sAddr ++ [ca, g₃, g₄] ++ apdu) d := by
  obtain ⟨sa, hsa, hnibble⟩ := h.sa
  obtain ⟨hlen, hstored⟩ := stored_contents h.size hle
  have hheader := h.header
  have h0 : d.contents[0]? = some 0x68 := by rw [CharPointDataManage.contents, front_getElem? _ (by omega), h.head]
  have h4 : d.contents[4]? = some sa := by rw [CharPointDataManage.contents, front_getElem? _ (by omega), hsa]
  obtain ⟨n, hn⟩ : ∃ n, d.dataSize = n + 14 := ⟨d.dataSize - 14, by omega⟩
  rw [hn] at hlen ⊢
  generalize d.contents = l at hlen h0 h4 hstored
  rcases l with _ | ⟨a₀, _ | ⟨a₁, _ | ⟨a₂, _ | ⟨a₃, _ | ⟨a₄, _ | ⟨a₅, _ | ⟨a₆, _ | ⟨a₇, _ | ⟨a₈, _ | ⟨a₉, _ | ⟨b₀, _ | ⟨b₁, _ |
    ⟨b₂, _ | ⟨b₃, apdu⟩⟩⟩⟩⟩⟩⟩⟩⟩⟩⟩⟩⟩⟩
  case cons.cons.cons.cons.cons.cons.cons.cons.cons.cons.cons.cons.cons.cons =>
    cases Option.some.inj h0
    cases Option.some.inj h4
    exact ⟨a₁, a₂, a₃, sa, [a₅, a₆, a₇, a₈, a₉, b₀], b₁, b₂, b₃, apdu, hnibble, rfl, by simpa using hlen, hstored⟩
  -- a shorter list is no header
  all_goals
    exfalso
    simp only [List.length_nil, List.length_cons] at hlen
    omega

/-- With room for the checks and the end character the closed frame is accepted. -/
theorem closeFrame_accepted (h : HeadIn d) (hle : d.dataSize ≤ 1020) :
    ∃ d', closeFrame d 1 12 false = some (0, d') ∧ Accepted d' := by
  obtain ⟨g₁, g₂, control, sa, sAddr, ca, g₃, g₄, apdu, hsa, haddr, hlen, hstored⟩ := h.parts (by omega)
  obtain ⟨d', hclose, hframe, -, -⟩ := closeFrame_stored hstored haddr (by omega) false
  have hwell : WellFormed (frameOf control sa sAddr ca apdu) := frameOf_wellFormed control ca haddr hsa (by omega)
  have hflen := frameOf_length control sa ca apdu haddr
  have hcont : d'.contents = frameOf control sa sAddr ca apdu := by rw [hframe.contents, kept_of_le hwell.fits]
  refine ⟨d', hclose, by rw [hcont]; exact hwell.fits, fun rx rev htracks tail => ?_⟩
  obtain ⟨r, hr, hzero, hrev, -⟩ := getSingleFrame_after_pause id hwell 0 (by decide) tail () htracks
  refine ⟨r, _, ?_, hzero, ?_, priveDataAnalysis_wellFormed hwell hrev (by omega)⟩
  · rw [hcont]
    exact hr
  · rw [hrev.contents, kept_of_le hwell.fits, hcont]

/-- A block with the first check byte alone is never good. -/
theorem not_fcsGood_append_lo {block : List Byte} (hne : block ≠ []) :
    ¬ FcsGood (block ++ [lo (fcsOf (block.drop 1) ^^^ 0xffff#16)]) := by
  intro hgood
  have hpos : 1 ≤ block.length := List.length_pos_iff.mpr hne
  rw [FcsGood, List.drop_append_of_le_length hpos, fcsOf, crc_append, crc_cons, crc_nil] at hgood
  rw [show crc fcsEntry pppInitFcs16 (block.drop 1) = fcsOf (block.drop 1) from rfl, step, lo_xor_lo_compl] at hgood
  generalize fcsOf (block.drop 1) = r at hgood
  have hhigh : r >>> 8 = pppGoodFcs16 ^^^ fcsEntry 0xff#8 := by
    rw [← hgood, BitVec.xor_assoc, BitVec.xor_self, BitVec.xor_zero]
  have hentry : pppGoodFcs16 ^^^ fcsEntry 0xff#8 = 0xffc0#16 := by decide
  have hbit := congrArg (BitVec.getLsbD · 15) (hhigh.trans hentry)
  simp at hbit

/-- Without room for the checks and the end character no accepted frame is left. -/
theorem closeFrame_not_accepted (hsize : d.size = hplcDataMaxSize) (hfull : 1020 < d.dataSize)
    (hclose : closeFrame d 1 12 false = some (result, d')) : ¬ Accepted d' := by
  rintro ⟨hlen, haccept⟩
  have hend : putEach (skipTwo d) [0x16] = skipTwo d := by
    show (saveCharPointData (skipTwo d) (skipTwo d).dataSize [0x16] 1).2 = skipTwo d
    have hroom : ¬ ((skipTwo d).size : Int) > ((skipTwo d).dataSize : Nat) + 1 := by
      rw [skipTwo_size, hsize, hplcDataMaxSize, skipTwo]
      dsimp only
      omega
    rw [saveCharPointData, if_neg (by decide), if_neg hroom]
  simp only [closeFrame, hend, Bool.false_eq_true, false_and, if_false] at hclose
  rw [tryfcs16_eq _ 12 (by decide) (by decide)] at hclose
  simp only [Option.bind_eq_bind, Option.bind_some] at hclose
  rcases Nat.lt_or_ge d.dataSize 1023 with hlt | hge
  · rw [tryfcs16_eq _ d.dataSize (by omega) (by rw [hplcDataMaxSize]; omega)] at hclose
    simp only [Option.bind_some, Option.some.injEq, Prod.mk.injEq] at hclose
    generalize copyAt (((skipTwo d).priveData.setIfInBounds 1 _).setIfInBounds (1 + 1) _) 12 _ = bytes at hclose
    obtain ⟨-, hd'⟩ := hclose
    have hcont : d'.contents =
        front (copyAt bytes d.dataSize (check (fcsOf ((front bytes d.dataSize).drop 1)))) (d.dataSize + 2) := by
      rw [← hd']
      rfl
    rw [show d.dataSize + 2 = d.dataSize + (check (fcsOf ((front bytes d.dataSize).drop 1))).length from rfl,
      front_copyAt _ _ _ (show d.dataSize + 2 ≤ hplcDataMaxSize by rw [hplcDataMaxSize]; omega)] at hcont
    have hflen : (front bytes d.dataSize).length = d.dataSize := front_length (by rw [hplcDataMaxSize]; omega)
    have hclen : d'.contents.length = d.dataSize + 2 := by
      rw [hcont, List.length_append, hflen]
      rfl
    have hdata : d.dataSize = 1021 := by omega
    obtain ⟨r, rev', -, -, hrev, hanalysis⟩ := haccept rxStart _ (tracks_start zeroBuffer) []
    -- the analysis looks at all bytes but the last, which is the second check byte here
    have hrsize : r.rev.dataSize = 1023 := by
      have hrlen : r.rev.contents.length = 1023 := by rw [hrev, hclen, hdata]
      rw [CharPointDataManage.contents, front, List.length_take, Vector.length_toList, hplcDataMaxSize] at hrlen
      omega
    have hgood : FcsGood (front r.rev.priveData (r.rev.dataSize - 1)) := by
      rw [priveDataAnalysis_eq _ (by omega) (by rw [hplcDataMaxSize]; omega)] at hanalysis
      by_contra hbad
      rw [if_neg hbad] at hanalysis
      cases hanalysis
    have hblock : front r.rev.priveData (r.rev.dataSize - 1) =
        front bytes d.dataSize ++ [lo (fcsOf ((front bytes d.dataSize).drop 1) ^^^ 0xffff#16)] := by
      rw [← front_dropLast _ (by rw [hplcDataMaxSize]; omega), ← CharPointDataManage.contents, hrev, hcont,
        List.dropLast_append_of_ne_nil (by exact List.cons_ne_nil _ _)]
      rfl
    rw [hblock] at hgood
    refine not_fcsGood_append_lo ?_ hgood
    rw [← List.length_pos_iff, hflen]
    omega
  · rw [tryfcs16_eq_none _ (by rw [hplcDataMaxSize]; omega)] at hclose
    cases hclose

/-! ## The header stays in front -/

theorem HeadIn.puts {bs : List Byte} (h : HeadIn d) (hputs : Puts bs d d') : HeadIn d' := by
  have hheader := h.header
  obtain ⟨sa, hsa, hnibble⟩ := h.sa
  refine ⟨hputs.size.trans h.size, ?_, ⟨sa, ?_, hnibble⟩, Nat.le_trans hheader hputs.dataSize⟩
  · rw [hputs.cells 0 (by omega), h.head]
  · rw [hputs.cells 4 (by omega), hsa]

theorem HeadIn.put (h : HeadIn w.dataTx) (bytes : List Byte) : HeadIn (w.put bytes).dataTx :=
  h.puts (puts_putEach w.dataTx bytes)

theorem openResponse_headIn (hsize : d.size = hplcDataMaxSize) (control : Byte) {addr : Addr698} (haddr : addr.sAddrLen = 6)
    (hsa : addr.sa = 5) : HeadIn (openResponse 0x68 d control addr).1 := by
  obtain ⟨⟨g₁, g₂, g₃, g₄, hstored⟩, -, -⟩ := openResponse_stored 0x68 hsize control haddr
  have hlen : ([0x68, g₁, g₂, control, addr.sa] ++ addr.sAddr.toList.take 6 ++ [addr.ca, g₃, g₄]).length = 14 := by simp
  refine ⟨hstored.size, ?_, ⟨addr.sa, ?_, by rw [hsa]; decide⟩, ?_⟩
  · rw [hstored.getElem?_eq (by omega) (by omega)]
    rfl
  · rw [hstored.getElem?_eq (by omega) (by omega)]
    rfl
  · rw [hstored.dataSize_eq (by omega), hlen]

section Body

variable {H : Type} {env : Services} {afair : H × Office → Except Stop (H × Office)} {req : Request}

/-- The call of `check_afair_from_botom` leaves a header in front: whatever it builds starts with one. -/
def KeepsHead (afair : H × Office → Except Stop (H × Office)) : Prop :=
  ∀ h w h' w', afair (h, w) = .ok (h', w') → HeadIn w.dataTx → HeadIn w'.dataTx

theorem oiChargeStrategyPackage_puts (hok : oiChargeStrategyPackage w = .ok (result, w')) :
    Puts ([BitVec.ofNat 8 w.chargeStrategy698.length] ++ w.chargeStrategy698.flatMap planBytes) w.dataTx w'.dataTx ∧
      ∀ p ∈ w.chargeStrategy698, p.ucTimeSlotNum = 0 := by
  have hcount := puts_putEach w.dataTx [BitVec.ofNat 8 w.chargeStrategy698.length]
  simp only [oiChargeStrategyPackage, Office.put_dataTx] at hok
  split_ifs at hok with hempty
  · cases hok
    rw [Office.put, List.length_eq_zero_iff] at hempty
    rw [hempty] at hcount ⊢
    exact ⟨hcount, fun p hp => absurd hp List.not_mem_nil⟩
  · obtain ⟨d, hd, hok⟩ := bind_eq_ok hok
    cases hok
    obtain ⟨hplans, hslots⟩ := foldlM_chargeStrategyPackage_puts (orStop_eq_ok hd)
    exact ⟨hcount.trans hplans, hslots⟩

/-- The second pass for the plans stores them behind their object, as one array. -/
theorem putOutcome_plans_puts (hok : putOutcome .chgPlanIssueGet (w.putOad.setNeed .chgPlanIssueGet false) = .ok (result, w')) :
    Puts (w.oadOmd.bytes ++ [1, 1] ++ ([BitVec.ofNat 8 w.chargeStrategy698.length] ++ w.chargeStrategy698.flatMap planBytes))
      w.dataTx w'.dataTx ∧ ∀ p ∈ w.chargeStrategy698, p.ucTimeSlotNum = 0 := by
  have htag : Puts (w.oadOmd.bytes ++ [1, 1]) w.dataTx ((w.putOad.setNeed .chgPlanIssueGet false).put [1, 1]).dataTx := by
    rw [Office.put_dataTx, Office.setNeed_dataTx, Office.putOad, Office.put_dataTx]
    exact (puts_putEach _ w.oadOmd.bytes).each [1, 1]
  have hplans : ((w.putOad.setNeed .chgPlanIssueGet false).put [1, 1]).chargeStrategy698 = w.chargeStrategy698 := by
    rw [Office.put_chargeStrategy698, Office.setNeed_chargeStrategy698, Office.putOad, Office.put_chargeStrategy698]
  obtain ⟨hputs, hslots⟩ := oiChargeStrategyPackage_puts hok
  rw [hplans] at hputs hslots
  exact ⟨htag.trans hputs, hslots⟩

/-- What an object leaves: bytes stored behind those in use, or what `check_afair_from_botom` left. -/
theorem getResponseNormalOad_cases {h h' : H} (hok : getResponseNormalOad env afair req (h, w) = .ok (result, h', w')) :
    (∃ bs, Puts bs w.dataTx w'.dataTx ∧ w'.state = w.state) ∨
      ∃ w₁, afair (h, w.putOad) = .ok (h', w₁) ∧ w'.dataTx = w₁.dataTx ∧ w'.state = w₁.state := by
  by_cases hplan : w.oadOmd.IsPlan
  · rw [getResponseNormalOad_of_plan hplan] at hok
    obtain ⟨-, hput⟩ | ⟨-, -, w₁, hcall, hkeeping⟩ := askedCase_eq_ok hok
    · have hworks : Finishes (fun _ => True) (fun p => Works (w.putOad.setNeed .chgPlanIssueGet false) p.2)
          (putOutcome .chgPlanIssueGet (w.putOad.setNeed .chgPlanIssueGet false)) := putOutcome_finishes trivial _ _
      refine .inl ⟨_, (putOutcome_plans_puts hput).1, ?_⟩
      rw [(hworks.post_of_ok hput).state, (Works.setNeed _ _ _).state, Office.putOad, Office.put_state]
    · exact .inr ⟨w₁, hcall, hkeeping.dataTx, hkeeping.state⟩
  · rw [getResponseNormalOad_eq hplan] at hok
    cases hok
    have hputs := puts_foldl w.dataTx (oadRuns env w.state w.oadOmd)
    rw [← Office.storing_dataTx] at hputs
    exact .inl ⟨_, hputs, rfl⟩

theorem getResponseNormalOad_headIn (hafair : KeepsHead afair) {h h' : H} (hw : HeadIn w.dataTx)
    (hok : getResponseNormalOad env afair req (h, w) = .ok (result, h', w')) : HeadIn w'.dataTx := by
  obtain ⟨bs, hputs, -⟩ | ⟨w₁, hcall, hdata, -⟩ := getResponseNormalOad_cases hok
  · exact hw.puts hputs
  · rw [hdata]
    exact hafair _ _ _ _ hcall (hw.put _)

theorem oadLoop_headIn (hafair : KeepsHead afair) (n i : Nat) {result' : Int} {h h' : H} (hw : HeadIn w.dataTx)
    (hok : oadLoop env afair req n i (result, h, w) = .ok (result', h', w')) : HeadIn w'.dataTx := by
  induction n generalizing i result h w with
  | zero =>
    cases hok
    exact hw
  | succ n ih =>
    obtain ⟨oad, _, hok⟩ := bind_eq_ok hok
    obtain ⟨⟨r₁, h₁, w₁⟩, hone, hok⟩ := bind_eq_ok hok
    exact ih (i + 1) (getResponseNormalOad_headIn hafair (w := { w with oadOmd := oad }) hw hone) hok

theorem getBody_headIn (hafair : KeepsHead afair) {h h' : H} (hw : HeadIn w.dataTx)
    (hok : getBody env afair req (h, w) = .ok (result, h', w')) : HeadIn w'.dataTx := by
  obtain ⟨kind, _, hok⟩ := bind_eq_ok hok
  split_ifs at hok with hone hlist
  · obtain ⟨b₁, _, hok⟩ := bind_eq_ok hok
    obtain ⟨b₂, _, hok⟩ := bind_eq_ok hok
    obtain ⟨oad, _, hok⟩ := bind_eq_ok hok
    obtain ⟨⟨r₁, h₁, w₁⟩, hobject, hok⟩ := bind_eq_ok hok
    have hw₁ : HeadIn w₁.dataTx :=
      getResponseNormalOad_headIn hafair (w := { w.put [0x85, b₁, b₂] with oadOmd := oad }) (hw.put _) hobject
    dsimp only at hok
    split_ifs at hok with hzero
    · obtain ⟨flag, _, hok⟩ := bind_eq_ok hok
      split_ifs at hok with hflag
      · cases hok
        exact (hw₁.put _).put _
      · cases hok
        exact hw₁.put _
    · cases hok
      exact hw₁
  · obtain ⟨count, _, hok⟩ := bind_eq_ok hok
    obtain ⟨b₁, _, hok⟩ := bind_eq_ok hok
    obtain ⟨b₂, _, hok⟩ := bind_eq_ok hok
    obtain ⟨⟨r₁, h₁, w₁⟩, hloop, hok⟩ := bind_eq_ok hok
    have hw₁ : HeadIn w₁.dataTx := oadLoop_headIn hafair _ _ (hw.put _) hloop
    dsimp only at hok
    split_ifs at hok with hzero
    · cases hok
      exact hw₁.put _
    · cases hok
      exact hw₁
  · cases hok
    exact hw

/-! ## The answer -/

/-- The routine returns, without a write behind the end of an array, and returns something else than 0 or leaves an accepted
frame. -/
def AnswersWell (x : Except Stop (Int × H × Office)) : Prop :=
  ∃ result h w, x = .ok (result, h, w) ∧ (result ≠ 0 ∨ Accepted w.dataTx)

/-- The desk with the frame of an answer opened. -/
def Office.opened (w : Office) : Office :=
  { w with dataTx := (openResponse 0x68 w.dataTx (0xc0 ||| 0x03) (copiedAddr w.dataTx w.state.addr w.state.addr.ca)).1 }

theorem Office.opened_stored (hw : Sound w) : ∃ l, l.length = 14 ∧ Stored l w.opened.dataTx := by
  obtain ⟨⟨g₁, g₂, g₃, g₄, hstored⟩, -, -⟩ := openResponse_stored 0x68 hw.size (0xc0 ||| 0x03)
    (show (copiedAddr w.dataTx w.state.addr w.state.addr.ca).sAddrLen = 6 from hw.addr)
  exact ⟨_, by simp, hstored⟩

theorem inFrame_eq (hw : Sound w) (body : H × Office → Except Stop (Int × H × Office)) (h : H) :
    inFrame 0x68 body (h, w) = body (h, w.opened) >>= fun (result, h, w) =>
      if result = 0 then do
        let (result, d) ← orStop .outside (closeFrame w.dataTx 1 12 false)
        .ok (result, h, { w with dataTx := d })
      else .ok (result, h, w) := by
  obtain ⟨-, hpos, -⟩ := openResponse_stored 0x68 hw.size (0xc0 ||| 0x03)
    (show (copiedAddr w.dataTx w.state.addr w.state.addr.ca).sAddrLen = 6 from hw.addr)
  simp only [inFrame, hpos]
  rfl

/-- The bytes used for a list without the plan are known from the lengths of the runs alone. -/
theorem getBody_list_dataSize {oads : List Oad698} {count piid : Byte} (hlists : Lists req oads piid count) (h : H) (hw : Sound w)
    (hlast : lastResult env w.state 1 oads = 0) :
    ∃ w₁, getBody env afair req (h, w.opened) = .ok (0, h, w₁) ∧ w₁.dataTx.size = hplcDataMaxSize ∧
      w₁.dataTx.dataSize =
        usedAfter 14 ((single [0x85, 2, piid, count] ++ oads.flatMap (oadRuns env w.state) ++ single [0, 0]).map List.length) := by
  obtain ⟨l, hlen, hstored⟩ := Office.opened_stored hw
  obtain ⟨w₁, hok, hdata⟩ : ∃ w₁, getBody env afair req (h, w.opened) = .ok (0, h, w₁) ∧ _ := getBody_list hlists h w.opened hlast
  have hruns := hstored.runs (by omega)
    (single [0x85, 2, piid, count] ++ oads.flatMap (oadRuns env w.state) ++ single [0, 0])
  have hw₁ : Stored (storeRuns l (single [0x85, 2, piid, count] ++ oads.flatMap (oadRuns env w.state) ++ single [0, 0]))
      w₁.dataTx := by
    rw [hdata]
    exact hruns
  refine ⟨w₁, hok, hw₁.size, ?_⟩
  rw [hw₁.dataSize_eq (storeRuns_length_le (by omega) _), storeRuns_length, hlen]

end Body

/-! ## Two lists of the total energy -/

/-- Quantities that are all zero, and a security chip that has not answered. -/
def zeroValues : Values where
  analog := ⟨0, 0, 0, 0, 0, 0⟩
  systemTime := ⟨0, 0, 0, 0, 0, 0, 0⟩
  esam := fun _ _ => zeroEsam.comm

/-- The total active energy. -/
def energyOad : Oad698 := ⟨0x00, 0x10, 0x02, 0x00⟩

/-- A request for the total active energy, `n` times. -/
def energyList (n : Nat) : Request :=
  ⟨0x68, [0x05, 0x02, 0x01, BitVec.ofNat 8 n] ++ (List.replicate n energyOad.bytes).flatten ++ [0x00], 4 * n + 5, false, 0⟩

theorem sound_powerUpOffice : Sound powerUpOffice := ⟨rfl, rfl⟩

/-- The bytes such an answer uses: each object takes 32 of them. -/
theorem energyList_dataSize {n : Nat} (hn : n = 1 ∨ n = 32) {H : Type} (afair : H × Office → Except Stop (H × Office)) (h : H) :
    ∃ w₁, getBody (bareServices.withValues zeroValues) afair (energyList n) (h, powerUpOffice.opened) = .ok (0, h, w₁) ∧
      w₁.dataTx.size = hplcDataMaxSize ∧ w₁.dataTx.dataSize = if n = 1 then 52 else 1023 := by
  have hpackage : ∀ k < n, oadPackage (energyList n).usrData (4 + 4 * k) = some energyOad := by
    rcases hn with rfl | rfl <;> decide
  have hlists : Lists (energyList n) (List.replicate n energyOad) 1 (BitVec.ofNat 8 n) := by
    refine ⟨?_, ?_, ?_, ?_, fun k o ho => ?_⟩
    iterate 4 rcases hn with rfl | rfl <;> rfl
    rw [List.getElem?_replicate] at ho
    split_ifs at ho with hk
    cases ho
    exact ⟨hpackage k hk, by decide⟩
  have hlast : lastResult (bareServices.withValues zeroValues) powerUpOffice.state 1 (List.replicate n energyOad) = 0 := by
    rcases hn with rfl | rfl <;> rfl
  have hused : usedAfter 14 ((single [0x85, 2, 1, BitVec.ofNat 8 n] ++ (List.replicate n energyOad).flatMap
      (oadRuns (bareServices.withValues zeroValues) powerUpOffice.state) ++ single [0, 0]).map List.length) =
        if n = 1 then 52 else 1023 := by
    rcases hn with rfl | rfl <;> decide +kernel
  obtain ⟨w₁, hok, hsize, hdata⟩ := getBody_list_dataSize hlists h sound_powerUpOffice hlast
  exact ⟨w₁, hok, hsize, hdata.trans hused⟩

/-- A call of `check_afair_from_botom` with nothing to do. -/
def nothingToDo : Unit × Office → Except Stop (Unit × Office) := fun st => .ok st

theorem keepsHead_nothingToDo : KeepsHead nothingToDo := by
  intro h w h' w' hok hw
  cases hok
  exact hw

end EnergyRouter
