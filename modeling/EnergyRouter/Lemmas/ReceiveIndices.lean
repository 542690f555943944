import EnergyRouter.Lemmas.ReceiveRun

/-!
# The cells the receiver uses

One byte makes the loop use cells of its buffer only, unless it ends a header that fails its check: then the loop clears the buffer,
goes on, and takes the cell in front of the buffer for the last byte of the frame.
-/

namespace EnergyRouter

open Buffer

variable {seg : List Byte} {rev rev' : CharPointDataManage} {rx rx' : RxState} {b : Byte}

/-- Indices of the buffer. -/
def InBuffer (is : List Int) : Prop := ∀ i ∈ is, 0 ≤ i ∧ i ≤ 1023

theorem inBuffer_nil : InBuffer [] := by
  intro i hi
  cases hi

theorem inBuffer_append {is js : List Int} : InBuffer (is ++ js) ↔ InBuffer is ∧ InBuffer js := by
  simp only [InBuffer, List.mem_append]
  grind

/-! ## Each part of the loop -/

theorem inBuffer_saveIndices (h : Stored seg rev) :
    InBuffer (saveIndices rev) := by
  intro i hi
  have hsize := h.size
  rw [hplcDataMaxSize] at hsize
  rw [saveIndices] at hi
  split_ifs at hi
  · simp only [List.mem_singleton] at hi
    omega
  · cases hi

theorem inBuffer_clearIndices (h : rev.size = hplcDataMaxSize) : InBuffer (clearIndices rev) := by
  intro i hi
  simp only [clearIndices, h, hplcDataMaxSize, List.mem_map, List.mem_range] at hi
  omega

theorem inBuffer_addr645Indices (rev : CharPointDataManage) : InBuffer (addr645Indices rev) := by
  intro i hi
  rw [addr645Indices] at hi
  split_ifs at hi
  · simp only [List.mem_cons, List.not_mem_nil, or_false] at hi
    omega
  · cases hi

theorem inBuffer_lengthIndices (h : rev.size = hplcDataMaxSize) : InBuffer (lengthIndices rev) := by
  rw [lengthIndices]
  split_ifs
  · exact inBuffer_append.mpr ⟨by simp [InBuffer], inBuffer_clearIndices h⟩
  · exact inBuffer_append.mpr ⟨by simp [InBuffer], inBuffer_nil⟩
  · exact inBuffer_nil

theorem inBuffer_headerIndices (h : rev.size = hplcDataMaxSize) (hsa : rx.lenSa ≤ 16) : InBuffer (headerIndices false rx rev) := by
  have hclear := inBuffer_clearIndices h
  have h645 := inBuffer_addr645Indices rev
  have hcheck : InBuffer ((List.range (7 + rx.lenSa).toNat).map (fun i : Nat => (1 : Int) + i)) := by
    intro i hi
    simp only [List.mem_map, List.mem_range] at hi
    obtain ⟨k, hk, rfl⟩ := hi
    omega
  rw [headerIndices]
  simp only [Bool.false_eq_true, if_false]
  split_ifs
  · exact inBuffer_append.mpr ⟨hcheck, inBuffer_nil⟩
  · exact inBuffer_append.mpr ⟨hcheck, inBuffer_append.mpr ⟨h645, inBuffer_nil⟩⟩
  · exact inBuffer_append.mpr ⟨hcheck, inBuffer_append.mpr ⟨h645, hclear⟩⟩
  · exact inBuffer_nil
  · exact inBuffer_append.mpr ⟨by simp [InBuffer], inBuffer_nil⟩
  · exact inBuffer_append.mpr ⟨by simp [InBuffer], hclear⟩
  · exact inBuffer_append.mpr ⟨by simp [InBuffer], by simp [InBuffer]⟩
  · exact inBuffer_nil

/-- The last byte is looked for in the buffer as long as there is one. -/
theorem inBuffer_countIndices (rx : RxState) (h : Stored seg rev) (hne : seg ≠ []) :
    InBuffer (countIndices rx rev) := by
  have hpos := List.length_pos_iff.mpr hne
  have hdata := h.dataSize
  rw [kept_length] at hdata
  have hlast : InBuffer [(rev.dataSize : Int) - 1] := by
    intro i hi
    simp only [List.mem_singleton] at hi
    omega
  rw [countIndices]
  split_ifs
  · exact inBuffer_append.mpr ⟨hlast, inBuffer_clearIndices h.size⟩
  · exact hlast
  · exact inBuffer_nil

/-- A cleared receiver that goes on takes the cell in front of the buffer for the last byte. -/
theorem not_inBuffer_countIndices (rx : RxState) (rev : CharPointDataManage) :
    ¬ InBuffer (countIndices (clearData rx rev).1 (clearData rx rev).2) := by
  intro h
  have hmem : (-1 : Int) ∈ countIndices (clearData rx rev).1 (clearData rx rev).2 := by
    simp [countIndices, clearData]
  have := h _ hmem
  omega

/-! ## One byte -/

theorem collect_badHeader (h3 : 3 ≤ seg.length) :
    collect seg b = .badHeader ↔
      5 < (seg ++ [b]).length ∧ (seg ++ [b]).length = headEnd (seg ++ [b]) ∧ ¬ FcsGood (seg ++ [b]) ∧
        ¬ Is645 (seg ++ [b]) := by
  rw [collect_of_three_le b h3]
  split_ifs with h1 h2 h4 h5 h6
  · exact iff_of_false nofun (by omega)
  · exact iff_of_false nofun (fun hc => hc.2.2.2 h4)
  · exact iff_of_true rfl ⟨h2.1, h2.2.1, h2.2.2, h4⟩
  all_goals exact iff_of_false nofun (fun hc => h2 ⟨hc.1, hc.2.1, hc.2.2.1⟩)

theorem collect_ne_badHeader (b : Byte) (h3 : seg.length < 3) : collect seg b ≠ .badHeader := by
  have hlen : (seg ++ [b]).length = seg.length + 1 := by simp
  rw [collect]
  split_ifs with h1 h2
  · simp
  · simp
  · simp only
    split_ifs
    all_goals first | omega | simp

/-- What the header part hands on: the buffer as it is, or a cleared receiver when the check failed. -/
theorem headerByte_next (h : headerByte false rx rev = some (.next rx' rev')) :
    rev' = rev ∨ (rx.usartRxSta &&& 0x10000000 ≠ 0 ∧ (rev.dataSize : Int) = 8 + rx.lenSa ∧
      hcs698 rev.priveData 1 (7 + rx.lenSa) 0 ≠ some 0 ∧ hplc645AddrReceive rev ≠ 1) := by
  by_cases haddr : rx.usartRxSta &&& 0x10000000 ≠ 0
  · rw [headerByte, if_pos haddr] at h
    by_cases hend : (rev.dataSize : Int) = 8 + rx.lenSa
    · simp only [if_pos hend, Bool.false_eq_true, if_false, Option.bind_eq_bind, Option.bind_eq_some_iff] at h
      obtain ⟨hcs, hval, h⟩ := h
      split_ifs at h with hneg h645
      · cases h
      · refine Or.inr ⟨haddr, hend, ?_, h645⟩
        rw [hval, ne_eq, Option.some_inj]
        omega
      · cases h
        exact Or.inl rfl
    · rw [if_neg hend] at h
      cases h
      exact Or.inl rfl
  · rw [headerByte, if_neg haddr] at h
    left
    by_cases h5 : rev.dataSize = 5
    · simp only [if_pos h5] at h
      split_ifs at h
      · cases h
        rfl
      · cases h
      · cases h
        rfl
    · rw [if_neg h5] at h
      cases h
      rfl

/-- The header part over a header that fails its check: the receiver is cleared and goes on. -/
theorem headerByte_badHeader (hs : Stored seg rev) (haddr : rx.usartRxSta &&& 0x10000000 ≠ 0) (hsa : rx.lenSa = addrLen seg)
    (hend : seg.length = headEnd seg) (hbad : ¬ FcsGood seg) (h645 : ¬ Is645 seg) :
    headerByte false rx rev = some (.cleared { rx with usartRxSta := rx.usartRxSta ||| 0x08000000 } rev) := by
  have hbounds := headEnd_bounds seg
  have hdata : (rev.dataSize : Int) = 8 + rx.lenSa := by
    rw [hs.dataSize, kept_length, hsa, hend, headEnd]
    rw [headEnd] at hbounds
    omega
  have hcheck := hcs698_stored hs (addrLen seg) (by rw [hend, headEnd]) (by omega)
  rw [if_neg hbad] at hcheck
  rw [headerByte, if_pos haddr, if_pos hdata]
  simp only [Bool.false_eq_true, if_false, hsa, hcheck, Option.bind_eq_bind, Option.bind_some]
  rw [if_pos (by omega), if_neg (fun hc => h645 ((hplc645AddrReceive_iff hs (by omega)).mp hc))]

/-- A byte of a header uses cells of the buffer unless it ends a header that fails its check. -/
theorem headerIndices_inBuffer (h : Tracks seg rx rev) (b : Byte) (h3 : 3 ≤ seg.length) (hhead : seg.length < headEnd seg) :
    InBuffer (headerIndices false rx (saveHplcData rev rev.dataSize b).2 ++
        match headerByte false rx (saveHplcData rev rev.dataSize b).2 with
        | some (.next rx rev) => countIndices rx rev
        | _ => []) ↔ collect seg b ≠ .badHeader := by
  have hbounds := headEnd_bounds seg
  have hs := h.toStored.save b
  have hlen : (seg ++ [b]).length = seg.length + 1 := by simp
  have hne : seg ++ [b] ≠ [] := by simp
  have haddrs := addrLen_bounds seg
  have hsa : rx.lenSa ≤ 16 := by
    rw [h.lenSa]
    split_ifs <;> omega
  have hheader := inBuffer_headerIndices hs.size hsa
  rw [inBuffer_append]
  simp only [hheader, true_and]
  constructor
  · -- a header that fails leaves a cleared receiver, which looks in front of the buffer
    intro hin hbad
    obtain ⟨h5, hend, hfcs, h645⟩ := (collect_badHeader h3).mp hbad
    have hsa' : rx.lenSa = addrLen (seg ++ [b]) := by
      rw [h.lenSa, if_neg (by omega), addrLen_append [b] (by omega)]
    rw [headerByte_badHeader hs (h.addrKnown.mpr (by omega)) hsa' hend hfcs h645] at hin
    exact not_inBuffer_countIndices _ _ hin
  · intro hbad
    split
    · rename_i rx' rev' hnext
      rcases headerByte_next hnext with rfl | ⟨haddr, hend, hcheck, h645⟩
      · exact inBuffer_countIndices rx' hs hne
      · -- the only way to a cleared receiver is a header that fails
        exfalso
        have h5 := h.addrKnown.mp haddr
        have hsa' : rx.lenSa = addrLen (seg ++ [b]) := by
          rw [h.lenSa, if_neg (by omega), addrLen_append [b] h5]
        have hend' : (seg ++ [b]).length = headEnd (seg ++ [b]) := by
          rw [hs.dataSize, kept_length, hsa', hlen] at hend
          rw [headEnd, hlen]
          omega
        have hgood := hcs698_stored hs (addrLen (seg ++ [b])) (by rw [hend', headEnd]) (by omega)
        rw [hsa', hgood] at hcheck
        apply hbad
        refine (collect_badHeader h3).mpr ⟨by omega, hend', ?_, ?_⟩
        · intro hfcs
          rw [if_pos hfcs] at hcheck
          exact hcheck rfl
        · intro his
          exact h645 ((hplc645AddrReceive_iff hs (by omega)).mpr his)
    · exact inBuffer_nil

/-- One byte makes the loop use cells of the buffer unless it ends a header that fails its check. -/
theorem byteIndices_inBuffer (h : Tracks seg rx rev) (b : Byte) :
    InBuffer (byteIndices false rx rev b) ↔ collect seg b ≠ .badHeader := by
  have hsave := inBuffer_saveIndices h.toStored
  have hs := h.toStored.save b
  rw [byteIndices]
  by_cases hnil : seg = []
  · rw [if_neg (fun hc => h.started.mp hc hnil)]
    refine iff_of_true ?_ (collect_ne_badHeader b (by rw [hnil]; simp))
    split_ifs
    · exact hsave
    · exact inBuffer_nil
  rw [if_pos (h.started.mpr hnil), inBuffer_append]
  simp only [hsave, true_and]
  by_cases h3 : seg.length < 3
  · rw [if_neg (fun hc => absurd (h.lengthKnown.mp hc) (by omega))]
    exact iff_of_true (inBuffer_lengthIndices hs.size) (collect_ne_badHeader b h3)
  rw [if_pos (h.lengthKnown.mpr (by omega))]
  by_cases hhead : seg.length < headEnd seg
  · rw [if_pos (h.unchecked.mpr hhead)]
    exact headerIndices_inBuffer h b (by omega) hhead
  · rw [if_neg (fun hc => hhead (h.unchecked.mp hc))]
    refine iff_of_true (inBuffer_countIndices rx hs (by simp)) ?_
    intro hbad
    have hend := ((collect_badHeader (by omega)).mp hbad).2.1
    rw [headEnd_append [b] (by have := headEnd_bounds seg; omega), List.length_append, List.length_singleton] at hend
    omega

/-! ## A whole call -/

/-- A frame completed behind its header leaves the mark that the header was checked. -/
theorem receiveByte_complete_checked (h : Tracks seg rx rev) (hhead : headEnd seg ≤ seg.length)
    (hflow : receiveByte false rx rev b = some (.complete rx' rev')) :
    rx'.usartRxSta &&& 0x08000000 ≠ 0 := by
  have hbounds := headEnd_bounds seg
  have hchecked : ¬ (rx.usartRxSta &&& 0x08000000 = 0) := fun hc => absurd (h.unchecked.mp hc) (by omega)
  rw [receiveByte_of_started (h.started.mpr (List.length_pos_iff.mp (by omega))), if_pos (h.lengthKnown.mpr (by omega)),
    if_neg hchecked, countByte] at hflow
  simp only at hflow
  split_ifs at hflow
  · cases hflow
  · cases hflow
    intro hzero
    apply hchecked
    have hor : (rx.usartRxSta ||| 0x04000000) &&& 0x08000000 = rx.usartRxSta &&& 0x08000000 := by
      rw [BitVec.and_comm, BitVec.and_or_distrib_left, BitVec.and_comm]
      exact BitVec.or_zero
    rw [← hor]
    exact hzero
  · cases hflow

theorem Completed.header_eq (hc : Completed seg) (hs : Stored seg rev) :
    headEnd rev.contents = headEnd seg ∧ wantLen rev.contents = wantLen seg := by
  have hlen := hc.length
  have hwant := hc.want
  have hkept := kept_length seg
  have hsplit : seg = kept seg ++ seg.drop (hplcDataMaxSize - 1) := (List.take_append_drop _ _).symm
  rw [hs.contents]
  constructor
  · conv_rhs => rw [hsplit]
    rw [headEnd_append _ (by omega)]
  · conv_rhs => rw [hsplit]
    rw [wantLen_append _ (by omega)]

/-- The header of a returned frame was checked exactly when the frame announces room enough. -/
theorem headerChecked_iff (h : Tracks seg rx rev) (hg : Growing seg) (hverdict : collect seg b = .complete (seg ++ [b]))
    (hs : Stored (seg ++ [b]) rev') (hflow : receiveByte false rx rev b = some (.complete rx' rev')) :
    HeaderChecked rx' rev' ↔ headEnd (seg ++ [b]) + 3 ≤ wantLen (seg ++ [b]) := by
  obtain ⟨_, hc⟩ := collect_complete h.opened hverdict
  obtain ⟨hhead, hwant⟩ := hc.header_eq hs
  have hlen : (seg ++ [b]).length = seg.length + 1 := by simp
  have hcount := hc.length
  have hbounds := headEnd_bounds (seg ++ [b])
  constructor
  · intro hchecked
    have := hchecked.room
    omega
  · intro hroom
    refine ⟨?_, ?_, by omega⟩
    · have hend := headEnd_append [b] (by omega : 5 ≤ seg.length)
      exact receiveByte_complete_checked h (by omega) hflow
    · have hgood := (hg.complete hverdict).headerGood (by omega)
      have hkept : rev'.contents.take (headEnd (seg ++ [b])) = (seg ++ [b]).take (headEnd (seg ++ [b])) := by
        rw [hs.contents, kept, List.take_take, Nat.min_eq_left (by rw [hplcDataMaxSize]; omega)]
      rw [hhead, hkept]
      exact hgood

/-- The run lemma: every cell used is in the buffer and a frame returned has a checked header exactly when the call is sound. -/
theorem receiveLoop_sound {W : Type} (checkAfairFromBotom : W → W) (reads : List (Option Byte)) (times : Nat) (w : W)
    (h : Tracks seg rx rev) (hg : Growing seg) :
    (InBuffer (loopIndices false reads times rx rev) ∧
      ∀ r, receiveLoop checkAfairFromBotom false reads times rx rev w = some r → r.result = 0 → HeaderChecked r.rx r.rev) ↔
    SoundCall reads times seg := by
  -- induction on the port, the segment collected so far being the invariant
  induction reads generalizing times seg rx rev w with
  | nil => exact iff_of_true ⟨inBuffer_nil, fun r hr => by cases hr⟩ trivial
  | cons read reads ih =>
    cases read with
    | none =>
      rw [loopIndices, receiveLoop, SoundCall]
      by_cases htimes : times + 1 = 30
      · rw [if_pos htimes, if_pos htimes, if_pos htimes]
        refine iff_of_true ⟨inBuffer_clearIndices h.size, ?_⟩ trivial
        intro r hr hzero
        cases hr
        cases hzero
      · rw [if_neg htimes, if_neg htimes, if_neg htimes]
        exact ih (times + 1) (checkAfairFromBotom w) h hg
    | some b =>
      obtain ⟨flow, hflow, hshows⟩ := receiveByte_shows h b
      have hbyte := byteIndices_inBuffer h b
      rw [loopIndices, receiveLoop, SoundCall, hflow, inBuffer_append]
      cases hverdict : collect seg b with
      | more seg' =>
        obtain ⟨rx', rev', rfl, ht, _⟩ := Shows.of_more (hverdict ▸ hshows)
        rw [hverdict] at hbyte
        simp only [hbyte, ne_eq, reduceCtorEq, not_false_eq_true, true_and]
        exact ih 0 w ht (hg.more hverdict)
      | reject =>
        obtain ⟨rx', rev', rfl, _⟩ := Shows.of_reject (hverdict ▸ hshows)
        refine iff_of_true ⟨⟨hbyte.mpr (by simp [hverdict]), inBuffer_nil⟩, ?_⟩ trivial
        intro r hr hzero
        cases hr
        cases hzero
      | badHeader => exact iff_of_false (fun hc => hbyte.mp hc.1.1 hverdict) id
      | is645 =>
        obtain ⟨rx', rev', rfl, _⟩ := Shows.of_is645 (hverdict ▸ hshows)
        refine iff_of_true ⟨⟨hbyte.mpr (by simp [hverdict]), inBuffer_nil⟩, ?_⟩ trivial
        intro r hr hzero
        cases hr
        cases hzero
      | complete seg' =>
        obtain ⟨rx', rev', rfl, hs, _⟩ := Shows.of_complete (hverdict ▸ hshows)
        obtain ⟨rfl, _⟩ := collect_complete h.opened hverdict
        have hchecked := headerChecked_iff h hg hverdict hs hflow
        constructor
        · intro hc
          exact hchecked.mp (hc.2 _ rfl rfl)
        · intro hroom
          refine ⟨⟨hbyte.mpr (by simp [hverdict]), inBuffer_nil⟩, ?_⟩
          intro r hr _
          cases hr
          exact hchecked.mpr hroom

end EnergyRouter
