import EnergyRouter.Collect

/-!
# The receiver shows what it collects

The step lemma `receiveByte_shows`: one byte does what `collect` says of the segment that is tracked. The proof goes by how far the
segment has come: no byte, no length field, no address, an unchecked header, a checked header.
-/

namespace EnergyRouter

open Buffer

variable {seg : List Byte} {i : Nat} {rev : CharPointDataManage} {rx : RxState} {below : Byte} {flow : Flow}

/-! ## Segments that grow -/

theorem getD_append_of_lt (q : List Byte) (h : i < seg.length) :
    (seg ++ q).getD i 0 = seg.getD i 0 := by
  rw [List.getD_eq_getElem?_getD, List.getD_eq_getElem?_getD, List.getElem?_append_left h]

theorem wantLen_append (q : List Byte) (h : 3 ≤ seg.length) : wantLen (seg ++ q) = wantLen seg := by
  rw [wantLen, wantLen, getD_append_of_lt q (by omega), getD_append_of_lt q (by omega)]

theorem escaped_append (q : List Byte) (h : 3 ≤ seg.length) : Escaped (seg ++ q) ↔ Escaped seg := by
  rw [Escaped, Escaped, getD_append_of_lt q (by omega), getD_append_of_lt q (by omega)]

theorem addrLen_append (q : List Byte) (h : 5 ≤ seg.length) : addrLen (seg ++ q) = addrLen seg := by
  simp only [addrLen, escaped_append q (by omega : 3 ≤ seg.length), getD_append_of_lt q (by omega : 4 < seg.length)]

theorem headEnd_append (q : List Byte) (h : 5 ≤ seg.length) : headEnd (seg ++ q) = headEnd seg := by
  rw [headEnd, headEnd, addrLen_append q h]

theorem addrLen_bounds (seg : List Byte) : 1 ≤ addrLen seg ∧ addrLen seg ≤ 16 := by
  have hmask : (seg.getD 4 0 &&& 0x0f#8).toNat ≤ 15 := by
    rw [BitVec.toNat_and]
    exact Nat.and_le_right
  rw [addrLen]
  split_ifs <;> omega

theorem headEnd_bounds (seg : List Byte) : 9 ≤ headEnd seg ∧ headEnd seg ≤ 24 := by
  have := addrLen_bounds seg
  rw [headEnd]
  omega

/-! ## The buffer -/

theorem kept_length (seg : List Byte) : (kept seg).length = min seg.length 1023 := by
  rw [kept, List.length_take, hplcDataMaxSize, Nat.min_comm]

theorem kept_of_le (h : seg.length ≤ 1023) : kept seg = seg := List.take_of_length_le h

/-- A byte that finds room is kept behind the others; one that does not is dropped. -/
theorem kept_append (seg : List Byte) (b : Byte) :
    kept (seg ++ [b]) = if seg.length < 1023 then kept seg ++ [b] else kept seg := by
  split_ifs with h
  · rw [kept_of_le (by simp; omega), kept_of_le (by omega)]
  · rw [kept, kept, List.take_append_of_le_length (by rw [hplcDataMaxSize]; omega)]

/-- Storing a byte that was read keeps the buffer in step with the segment. -/
theorem Stored.save (h : Stored seg rev) (b : Byte) :
    Stored (seg ++ [b]) (saveHplcData rev rev.dataSize b).2 := by
  obtain ⟨hsize, hdata, hcont⟩ := h
  have hlen := kept_length seg
  rw [saveHplcData, saveCharPointData, if_neg (by omega)]
  have hkept := kept_append seg b
  by_cases hroom : seg.length < 1023
  · rw [if_pos (by rw [hsize, hplcDataMaxSize]; omega)]
    rw [if_pos hroom] at hkept
    refine ⟨hsize, ?_, ?_⟩
    · rw [hkept, List.length_append, ← hdata]
      rfl
    · have hcopy := front_copyAt rev.priveData rev.dataSize [b] (by simp [hplcDataMaxSize]; omega)
      rw [hkept, ← hcont]
      exact hcopy
  · rw [if_neg (by rw [hsize, hplcDataMaxSize]; omega)]
    rw [if_neg hroom] at hkept
    exact ⟨hsize, by rw [hkept]; exact hdata, by rw [hkept]; exact hcont⟩

@[simp] theorem saveHplcData_below (rev : CharPointDataManage) (position : Nat) (b : Byte) :
    (saveHplcData rev position b).2.below = rev.below := by
  rw [saveHplcData, saveCharPointData]
  split_ifs <;> rfl

theorem Stored.at_eq (h : Stored seg rev) (hi : i < (kept seg).length) : rev.at i = seg.getD i 0 := by
  have hlen := kept_length seg
  have hin : i < rev.dataSize := h.dataSize ▸ hi
  rw [CharPointDataManage.at, if_neg (by omega), Int.toNat_natCast, getD_front rev.priveData 0 hin,
    ← CharPointDataManage.contents, h.contents, List.getD_eq_getElem?_getD, kept,
    List.getElem?_take_of_lt (by rw [hplcDataMaxSize]; omega), List.getD_eq_getElem?_getD]

theorem Stored.at_last (h : Stored seg rev) (hne : seg ≠ []) :
    (rev.at ((rev.dataSize : Int) - 1) = 0x16) ↔ (kept seg).getLast? = some 0x16 := by
  have hpos : 0 < (kept seg).length := by
    rw [kept_length]
    have := List.length_pos_iff.mpr hne
    omega
  have hlast : (kept seg).getLast? = some (seg.getD ((kept seg).length - 1) 0) := by
    have hin : (kept seg).length - 1 < seg.length := by rw [kept_length] at hpos ⊢; omega
    rw [List.getLast?_eq_getElem?, List.getD_eq_getElem?_getD, kept,
      List.getElem?_take_of_lt (by rw [← kept, kept_length, hplcDataMaxSize]; omega), ← kept,
      List.getElem?_eq_getElem hin, Option.getD_some]
  rw [h.dataSize, show (((kept seg).length : Nat) : Int) - 1 = (((kept seg).length - 1 : Nat) : Int) by omega,
    h.at_eq (by omega), hlast, Option.some_inj]

theorem tracks_clearData (rx : RxState) (h : rev.size = hplcDataMaxSize) :
    Tracks [] (clearData rx rev).1 (clearData rx rev).2 := by
  refine ⟨⟨h, rfl, ?_⟩, ⟨by simp, by simp, by simp⟩, rfl, rfl, rfl, rfl⟩
  simp [CharPointDataManage.contents, clearData, kept]

/-- The cell in front of the end of a cleared buffer is the byte in front of the buffer. -/
theorem clearData_at_last (rx : RxState) (rev : CharPointDataManage) :
    (clearData rx rev).2.at (((clearData rx rev).2.dataSize : Int) - 1) = rev.below := rfl

/-! ## The flags -/

theorem staOf_started (seg : List Byte) : staOf seg &&& 0x40000000 ≠ 0 ↔ seg ≠ [] := by
  rw [← List.length_pos_iff, staOf]
  generalize seg.length = n
  split_ifs <;> simp <;> omega

theorem staOf_length (seg : List Byte) : staOf seg &&& 0x20000000 ≠ 0 ↔ 3 ≤ seg.length := by
  rw [staOf]
  split_ifs <;> simp <;> omega

theorem staOf_addr (seg : List Byte) : staOf seg &&& 0x10000000 ≠ 0 ↔ 5 ≤ seg.length := by
  rw [staOf]
  split_ifs <;> simp <;> omega

theorem staOf_unchecked (seg : List Byte) : staOf seg &&& 0x08000000 = 0 ↔ seg.length < headEnd seg := by
  have := headEnd_bounds seg
  rw [staOf]
  split_ifs <;> simp <;> omega

theorem Tracks.started (h : Tracks seg rx rev) :
    rx.usartRxSta &&& 0x40000000 ≠ 0 ↔ seg ≠ [] := by
  rw [h.sta]
  exact staOf_started seg

theorem Tracks.lengthKnown (h : Tracks seg rx rev) :
    rx.usartRxSta &&& 0x20000000 ≠ 0 ↔ 3 ≤ seg.length := by
  rw [h.sta]
  exact staOf_length seg

theorem Tracks.addrKnown (h : Tracks seg rx rev) :
    rx.usartRxSta &&& 0x10000000 ≠ 0 ↔ 5 ≤ seg.length := by
  rw [h.sta]
  exact staOf_addr seg

theorem Tracks.unchecked (h : Tracks seg rx rev) :
    rx.usartRxSta &&& 0x08000000 = 0 ↔ seg.length < headEnd seg := by
  rw [h.sta]
  exact staOf_unchecked seg

/-! ## One byte, by how far the segment has come -/

/-- Counting a byte of a frame of known length. `rx` already carries the flags of the longer segment. -/
theorem countByte_shows (hs : Stored seg rev) (hopen : seg.length < wantLen seg → Opened seg) (h3 : 3 < seg.length)
    (hle : seg.length ≤ wantLen seg) (hsta : rx.usartRxSta = staOf seg) (hall : rx.lenAll = wantLen seg)
    (hleft : rx.lenLeft - 1 = (wantLen seg : Int) - seg.length)
    (hsa : rx.lenSa = if seg.length < 5 then 0 else (addrLen seg : Int)) :
    Shows rev.below
      (if 3 < seg.length ∧ seg.length = wantLen seg then
        if (kept seg).getLast? = some 0x16 then .complete seg else .reject
       else .more seg)
      (countByte rx rev) := by
  have hne : seg ≠ [] := by
    rw [← List.length_pos_iff]
    omega
  have hlast := hs.at_last hne
  simp only [countByte, hleft]
  by_cases hend : seg.length = wantLen seg
  · rw [if_pos ⟨h3, hend⟩, if_pos (show (wantLen seg : Int) - seg.length ≤ 0 by omega)]
    by_cases h16 : (kept seg).getLast? = some 0x16
    · rw [if_pos h16, if_neg (not_not.mpr (hlast.mpr h16))]
      exact ⟨hs, rfl⟩
    · rw [if_neg h16, if_pos (fun h => h16 (hlast.mp h))]
      exact ⟨rfl, tracks_clearData _ hs.size, rfl⟩
  · rw [if_neg (fun h => hend h.2), if_neg (show ¬ (wantLen seg : Int) - seg.length ≤ 0 by omega)]
    refine ⟨⟨hs, hopen (by omega), hsta, ?_, ?_, hsa⟩, rfl⟩
    · rw [if_neg (by omega)]
      exact hall
    · rw [if_neg (by omega)]

/-- After the start character every byte is stored first; the flags say what looks at it then. -/
theorem receiveByte_of_started (h : rx.usartRxSta &&& 0x40000000 ≠ 0) (rev : CharPointDataManage) (b : Byte) :
    receiveByte false rx rev b =
      if rx.usartRxSta &&& 0x20000000 ≠ 0 then
        if rx.usartRxSta &&& 0x08000000 = 0 then
          (headerByte false rx (saveHplcData rev rev.dataSize b).2).map Flow.thenCount
        else some (countByte rx (saveHplcData rev rev.dataSize b).2)
      else some (lengthByte rx (saveHplcData rev rev.dataSize b).2) := by
  rw [receiveByte, if_pos h]
  simp only [saveHplcData, Int.lt_irrefl, if_false]

theorem receiveByte_idle (h : Tracks [] rx rev) (b : Byte) :
    ∃ flow, receiveByte false rx rev b = some flow ∧ Shows rev.below (collect [] b) flow := by
  have hflag : ¬ (rx.usartRxSta &&& 0x40000000 ≠ 0) := by
    rw [h.sta, staOf_started]
    simp
  rw [receiveByte, if_neg hflag, collect, if_pos rfl]
  by_cases hb : b = 0x68
  · rw [if_pos hb, if_pos hb]
    refine ⟨_, rfl, ⟨h.toStored.save b, ?_, ?_, ?_, ?_, ?_⟩, ?_⟩
    · exact ⟨fun _ => by simp [hb], by simp, by simp⟩
    · show rx.usartRxSta ||| 0x40000000 = staOf [b]
      rw [h.sta]
      rfl
    · exact h.lenAll
    · exact h.lenLeft
    · exact h.lenSa
    · exact saveHplcData_below rev rev.dataSize b
  · rw [if_neg hb, if_neg hb]
    exact ⟨_, rfl, h, rfl⟩

theorem receiveByte_length (h : Tracks seg rx rev) (b : Byte) (hne : seg ≠ []) (h3 : seg.length < 3) :
    ∃ flow, receiveByte false rx rev b = some flow ∧ Shows rev.below (collect seg b) flow := by
  have hstart := h.started.mpr hne
  have hlen : ¬ (rx.usartRxSta &&& 0x20000000 ≠ 0) := fun hc => absurd (h.lengthKnown.mp hc) (by omega)
  have hpos := List.length_pos_iff.mpr hne
  have hs := h.toStored.save b
  have hsize : (saveHplcData rev rev.dataSize b).2.dataSize = seg.length + 1 := by
    rw [hs.dataSize, kept_length, List.length_append, List.length_singleton]
    omega
  have hbelow := saveHplcData_below rev rev.dataSize b
  refine ⟨_, by rw [receiveByte_of_started hstart, if_neg hlen], ?_⟩
  generalize hrev : (saveHplcData rev rev.dataSize b).2 = rev' at hs hsize hbelow ⊢
  rw [← hbelow, collect, if_neg hne]
  simp only [List.length_append, List.length_singleton, lengthByte, hsize]
  have hhead : (seg ++ [b]).head? = some 0x68 := by
    rw [List.head?_append_of_ne_nil _ hne]
    exact h.opened.head hne
  by_cases h2 : seg.length + 1 < 3
  · rw [if_pos h2, if_neg (by omega)]
    have hlen2 : (seg ++ [b]).length = 2 := by simp; omega
    refine ⟨⟨hs, ⟨fun _ => hhead, by omega, by omega⟩, ?_, ?_, ?_, ?_⟩, rfl⟩
    · rw [h.sta, staOf, staOf, hlen2, if_neg (by omega), if_pos h3]
      rfl
    · rw [h.lenAll, hlen2, if_pos h3]
      rfl
    · rw [h.lenLeft, hlen2, if_pos h3]
      rfl
    · rw [h.lenSa, hlen2, if_pos (by omega)]
      rfl
  · have hlen3 : (seg ++ [b]).length = 3 := by simp; omega
    have hwant : ((rev'.at 2).toNat : Int) * 256 + (rev'.at 1).toNat + 2 = wantLen (seg ++ [b]) := by
      have hk : (kept (seg ++ [b])).length = 3 := by rw [kept_length, hlen3]; rfl
      have h1 := hs.at_eq (i := 1) (by omega)
      have h2 := hs.at_eq (i := 2) (by omega)
      simp only [Nat.cast_one, Nat.cast_ofNat] at h1 h2
      rw [wantLen, h1, h2]
      omega
    have h23 : seg.length + 1 = 3 := by omega
    rw [if_neg h2, if_pos h23]
    simp only [hwant, h23, true_and]
    by_cases h12 : wantLen (seg ++ [b]) < 12
    · rw [if_pos h12, if_pos (by omega)]
      exact ⟨rfl, tracks_clearData _ hs.size, rfl⟩
    · rw [if_neg h12, if_neg (by omega), if_neg (by omega), if_neg (by omega), if_neg (by omega)]
      refine ⟨⟨hs, ⟨fun _ => hhead, by omega, by omega⟩, ?_, ?_, ?_, ?_⟩, rfl⟩
      · simp only [h.sta, staOf, hlen3]
        rw [if_neg (by omega), if_pos h3]
        rfl
      · rw [if_neg (by omega)]
      · rw [if_neg (by omega), hlen3]
        rfl
      · rw [if_pos (by omega)]
        exact h.lenSa.trans (if_pos (by omega))

theorem collect_of_three_le (b : Byte) (h3 : 3 ≤ seg.length) :
    collect seg b =
      if (seg ++ [b]).length = 5 ∧ ¬ Escaped (seg ++ [b]) ∧ wantLen (seg ++ [b]) > hplcDataMaxSize then .reject
      else if 5 < (seg ++ [b]).length ∧ (seg ++ [b]).length = headEnd (seg ++ [b]) ∧ ¬ FcsGood (seg ++ [b]) then
        if Is645 (seg ++ [b]) then .is645 else .badHeader
      else if 3 < (seg ++ [b]).length ∧ (seg ++ [b]).length = wantLen (seg ++ [b]) then
        if (kept (seg ++ [b])).getLast? = some 0x16 then .complete (seg ++ [b]) else .reject
      else .more (seg ++ [b]) := by
  have hne : seg ≠ [] := by
    rw [← List.length_pos_iff]
    omega
  have hlen : (seg ++ [b]).length = seg.length + 1 := by simp
  rw [collect, if_neg hne]
  simp only
  rw [if_neg (show ¬ (seg ++ [b]).length < 3 by omega), if_neg (fun h => absurd h.1 (by omega))]

/-- A frame of known length that is not complete stays opened with one more byte. -/
theorem Opened.append (h : Opened seg) (b : Byte) (h3 : 3 ≤ seg.length)
    (hfits : 5 ≤ (seg ++ [b]).length → Escaped (seg ++ [b]) ∨ wantLen (seg ++ [b]) ≤ hplcDataMaxSize)
    (hlt : (seg ++ [b]).length < wantLen (seg ++ [b])) : Opened (seg ++ [b]) := by
  have hne : seg ≠ [] := by
    rw [← List.length_pos_iff]
    omega
  refine ⟨fun _ => ?_, fun _ => ⟨?_, hlt⟩, hfits⟩
  · rw [List.head?_append_of_ne_nil _ hne]
    exact h.head hne
  · rw [wantLen_append [b] h3]
    exact (h.want h3).1

theorem hplc645AddrReceive_iff (h : Stored seg rev) (hle : seg.length ≤ 1023) : hplc645AddrReceive rev = 1 ↔ Is645 seg := by
  have hk := kept_of_le hle
  have hsize := h.dataSize
  rw [hk] at hsize
  have hat : ∀ i : Nat, i < seg.length → rev.at i = seg.getD i 0 := by
    intro i hi
    exact h.at_eq (by rw [hk]; exact hi)
  rw [hplc645AddrReceive, Is645, hsize]
  by_cases h12 : 12 ≤ seg.length
  · have h0 := hat 0 (by omega)
    have h1 := hat 1 (by omega)
    have h7 := hat 7 (by omega)
    have h8 := hat 8 (by omega)
    have h10 := hat 10 (by omega)
    have h11 := hat 11 (by omega)
    simp only [Nat.cast_zero, Nat.cast_one, Nat.cast_ofNat] at h0 h1 h7 h8 h10 h11
    rw [if_pos h12, h0, h1, h7, h8, h10, h11]
    split_ifs <;> simp_all
  · rw [if_neg h12]
    simp [h12]

/-- Counting the byte `b` after `seg`, once the header part has set the flags and the address length. -/
theorem Tracks.count (h : Tracks seg rx rev) (b : Byte) (h3 : 3 ≤ seg.length) (rx' : RxState)
    (hsta : rx'.usartRxSta = staOf (seg ++ [b])) (hall : rx'.lenAll = rx.lenAll) (hleft : rx'.lenLeft = rx.lenLeft)
    (hsa : rx'.lenSa = if (seg ++ [b]).length < 5 then 0 else (addrLen (seg ++ [b]) : Int))
    (hfits : 5 ≤ (seg ++ [b]).length → Escaped (seg ++ [b]) ∨ wantLen (seg ++ [b]) ≤ hplcDataMaxSize) :
    Shows rev.below
      (if 3 < (seg ++ [b]).length ∧ (seg ++ [b]).length = wantLen (seg ++ [b]) then
        if (kept (seg ++ [b])).getLast? = some 0x16 then .complete (seg ++ [b]) else .reject
       else .more (seg ++ [b]))
      (countByte rx' (saveHplcData rev rev.dataSize b).2) := by
  have hlen : (seg ++ [b]).length = seg.length + 1 := by simp
  have hwant := wantLen_append [b] h3
  have hlt := (h.opened.want h3).2
  have hle3 : ¬ seg.length < 3 := by omega
  rw [← saveHplcData_below rev rev.dataSize b]
  refine countByte_shows (h.toStored.save b) (h.opened.append b h3 hfits) (by omega) (by omega) hsta ?_ ?_ hsa
  · rw [hall, h.lenAll, if_neg hle3, hwant]
  · rw [hleft, h.lenLeft, if_neg hle3, hwant, hlen]
    omega

theorem receiveByte_addr (h : Tracks seg rx rev) (b : Byte) (h3 : 3 ≤ seg.length) (h5 : seg.length < 5) :
    ∃ flow, receiveByte false rx rev b = some flow ∧ Shows rev.below (collect seg b) flow := by
  have hbounds := headEnd_bounds seg
  have hstart := h.started.mpr (List.length_pos_iff.mp (by omega))
  have hlength := h.lengthKnown.mpr h3
  have haddr : ¬ (rx.usartRxSta &&& 0x10000000 ≠ 0) := fun hc => absurd (h.addrKnown.mp hc) (by omega)
  have hunchecked := h.unchecked.mpr (by omega)
  have hlen : (seg ++ [b]).length = seg.length + 1 := by simp
  have hs := h.toStored.save b
  have hsize : (saveHplcData rev rev.dataSize b).2.dataSize = seg.length + 1 := by
    rw [hs.dataSize, kept_length, hlen]
    omega
  have hcount := h.count b h3
  have hsta60 : rx.usartRxSta = 0x60000000 := by
    rw [h.sta, staOf, if_neg (by omega), if_neg (by omega), if_pos h5]
  have hflow := receiveByte_of_started hstart rev b
  rw [if_pos hlength, if_pos hunchecked, headerByte, if_neg haddr, hsize] at hflow
  have hcol := collect_of_three_le b h3
  by_cases h4 : seg.length + 1 = 5
  · have hat : ∀ i : Nat, i < 5 → (saveHplcData rev rev.dataSize b).2.at i = (seg ++ [b]).getD i 0 := by
      intro i hi
      exact hs.at_eq (by rw [kept_length, hlen]; omega)
    have h1 := hat 1 (by omega)
    have h2 := hat 2 (by omega)
    have h4' := hat 4 (by omega)
    simp only [Nat.cast_one, Nat.cast_ofNat] at h1 h2 h4'
    have hsta70 : rx.usartRxSta ||| 0x10000000 = staOf (seg ++ [b]) := by
      have := headEnd_bounds (seg ++ [b])
      rw [hsta60, staOf, if_neg (by omega), if_neg (by omega), if_neg (by omega), if_pos (by omega)]
      rfl
    have hall : rx.lenAll = wantLen (seg ++ [b]) := by
      rw [h.lenAll, if_neg (by omega), wantLen_append [b] h3]
    rw [if_pos h4, h1, h2, h4'] at hflow
    by_cases hesc : Escaped (seg ++ [b])
    · rw [if_neg (fun hc => hc.2.1 hesc), if_neg (fun hc => absurd hc.1 (by omega))] at hcol
      have hcells : (seg ++ [b]).getD 1 0 = 0xaa ∧ (seg ++ [b]).getD 2 0 = 0xaa := hesc
      simp only [if_pos hcells] at hflow
      rw [hflow, hcol]
      refine ⟨_, rfl, hcount _ hsta70 rfl rfl ?_ (fun _ => Or.inl hesc)⟩
      rw [if_neg (by omega), addrLen, if_pos hesc]
      rfl
    · have hcells : ¬ ((seg ++ [b]).getD 1 0 = 0xaa ∧ (seg ++ [b]).getD 2 0 = 0xaa) := hesc
      simp only [if_neg hcells] at hflow
      by_cases hbig : wantLen (seg ++ [b]) > hplcDataMaxSize
      · rw [if_pos ⟨hlen.trans h4, hesc, hbig⟩] at hcol
        rw [if_pos (show rx.lenAll > (hplcDataMaxSize : Int) by omega)] at hflow
        rw [hflow, hcol]
        exact ⟨_, rfl, rfl, tracks_clearData _ hs.size, saveHplcData_below rev rev.dataSize b⟩
      · rw [if_neg (fun hc => hbig hc.2.2), if_neg (fun hc => absurd hc.1 (by omega))] at hcol
        rw [if_neg (show ¬ rx.lenAll > (hplcDataMaxSize : Int) by omega)] at hflow
        rw [hflow, hcol]
        refine ⟨_, rfl, hcount _ hsta70 rfl rfl ?_ (fun _ => Or.inr (by omega))⟩
        rw [if_neg (by omega), addrLen, if_neg hesc]
        rfl
  · rw [if_neg h4] at hflow
    rw [if_neg (fun hc => h4 (hlen.symm.trans hc.1)), if_neg (fun hc => absurd hc.1 (by omega))] at hcol
    rw [hflow, hcol]
    refine ⟨_, rfl, hcount _ ?_ rfl rfl ?_ (by omega)⟩
    · rw [hsta60, staOf, if_neg (by omega), if_neg (by omega), if_pos (by omega)]
    · rw [if_pos (by omega), h.lenSa, if_pos h5]

/-- The header check over the buffer is the check of a segment that ends where the header does. -/
theorem hcs698_stored (h : Stored seg rev) (len : Nat) (hlen : seg.length = 8 + len) (hle : seg.length ≤ 1023) :
    hcs698 rev.priveData 1 (7 + (len : Int)) 0 = some (if FcsGood seg then 0 else -1) := by
  have hfront : front rev.priveData (7 + len + 1) = seg := by
    have hcont := h.contents
    rw [CharPointDataManage.contents, h.dataSize, kept_of_le hle, hlen] at hcont
    rw [show 7 + len + 1 = 8 + len by omega]
    exact hcont
  have hcheck := goodFcs_front (-1) rev.priveData (7 + len) (by rw [hplcDataMaxSize]; omega)
  rw [hfront] at hcheck
  rw [hcs698, ← hcheck]
  congr 1

theorem receiveByte_header (h : Tracks seg rx rev) (b : Byte) (h5 : 5 ≤ seg.length) (hhead : seg.length < headEnd seg) :
    ∃ flow, receiveByte false rx rev b = some flow ∧ Shows rev.below (collect seg b) flow := by
  have hbounds := headEnd_bounds seg
  have hstart := h.started.mpr (List.length_pos_iff.mp (by omega))
  have hlength := h.lengthKnown.mpr (by omega)
  have haddr := h.addrKnown.mpr h5
  have hunchecked := h.unchecked.mpr hhead
  have hlen : (seg ++ [b]).length = seg.length + 1 := by simp
  have hs := h.toStored.save b
  have hbelow := saveHplcData_below rev rev.dataSize b
  have hsize : (saveHplcData rev rev.dataSize b).2.dataSize = seg.length + 1 := by
    rw [hs.dataSize, kept_length, hlen]
    omega
  have hend := headEnd_append [b] h5
  have haddrLen := addrLen_append [b] h5
  have hsa : rx.lenSa = addrLen seg := by rw [h.lenSa, if_neg (by omega)]
  have hsta70 : rx.usartRxSta = 0x70000000 := by
    rw [h.sta, staOf, if_neg (by omega), if_neg (by omega), if_neg (by omega), if_pos hhead]
  have hfits : 5 ≤ (seg ++ [b]).length → Escaped (seg ++ [b]) ∨ wantLen (seg ++ [b]) ≤ hplcDataMaxSize := by
    intro _
    rw [escaped_append [b] (by omega), wantLen_append [b] (by omega)]
    exact h.opened.fits h5
  have hcount := h.count b (by omega)
  have hflow := receiveByte_of_started hstart rev b
  rw [if_pos hlength, if_pos hunchecked, headerByte, if_pos haddr, hsize, hsa] at hflow
  have hcol := collect_of_three_le b (by omega : 3 ≤ seg.length)
  rw [if_neg (fun hc => absurd hc.1 (by omega)), hend] at hcol
  by_cases hdone : seg.length + 1 = headEnd seg
  · have hgood := hcs698_stored hs (addrLen seg) (by rw [hlen, hdone, headEnd]) (by omega)
    rw [if_pos (by rw [headEnd] at hdone; omega)] at hflow
    simp only [Bool.false_eq_true, if_false, hgood, Option.bind_eq_bind, Option.bind_some] at hflow
    by_cases hfcs : FcsGood (seg ++ [b])
    · rw [if_neg (fun hc => hc.2.2 hfcs)] at hcol
      simp only [if_pos hfcs, Int.lt_irrefl, if_false, Option.map_some] at hflow
      rw [hflow, hcol]
      refine ⟨_, rfl, hcount _ ?_ rfl rfl ?_ hfits⟩
      · show rx.usartRxSta ||| 0x08000000 = _
        rw [hsta70, staOf, if_neg (by omega), if_neg (by omega), if_neg (by omega), if_neg (by omega)]
        rfl
      · rw [if_neg (by omega), haddrLen]
    · rw [if_pos ⟨by omega, by omega, hfcs⟩] at hcol
      rw [if_neg hfcs, if_pos (by omega)] at hflow
      have h645 := hplc645AddrReceive_iff hs (by omega)
      by_cases his : Is645 (seg ++ [b])
      · rw [if_pos his] at hcol
        rw [if_pos (h645.mpr his)] at hflow
        rw [hflow, hcol]
        exact ⟨_, rfl, rfl, hs.size, hbelow⟩
      · rw [if_neg his] at hcol
        rw [if_neg (fun hc => his (h645.mp hc))] at hflow
        rw [hflow, hcol]
        -- the cleared receiver counts the byte once more and looks in front of the buffer
        refine ⟨_, rfl, ?_⟩
        simp only [Flow.cleared, Flow.thenCount, countByte, clearData_at_last, hbelow]
        by_cases h16 : rev.below = 0x16
        · rw [if_pos (by simp [clearData]), if_neg (not_not.mpr h16)]
          exact ⟨h16, rfl⟩
        · rw [if_pos (by simp [clearData]), if_pos h16]
          exact ⟨rfl, h16, tracks_clearData _ hs.size, hbelow⟩
  · rw [if_neg (by rw [headEnd] at hdone; omega)] at hflow
    rw [if_neg (fun hc => hdone (by omega))] at hcol
    rw [hflow, hcol]
    refine ⟨_, rfl, hcount _ ?_ rfl rfl ?_ hfits⟩
    · rw [hsta70, staOf, if_neg (by omega), if_neg (by omega), if_neg (by omega), if_pos (by omega)]
    · rw [if_neg (by omega), haddrLen]
      exact hsa

theorem receiveByte_body (h : Tracks seg rx rev) (b : Byte) (hhead : headEnd seg ≤ seg.length) :
    ∃ flow, receiveByte false rx rev b = some flow ∧ Shows rev.below (collect seg b) flow := by
  have hbounds := headEnd_bounds seg
  have hstart := h.started.mpr (List.length_pos_iff.mp (by omega))
  have hlength := h.lengthKnown.mpr (by omega)
  have hchecked : ¬ (rx.usartRxSta &&& 0x08000000 = 0) := fun hc => absurd (h.unchecked.mp hc) (by omega)
  have hlen : (seg ++ [b]).length = seg.length + 1 := by simp
  have hend := headEnd_append [b] (by omega : 5 ≤ seg.length)
  have hcol := collect_of_three_le b (by omega : 3 ≤ seg.length)
  rw [if_neg (fun hc => absurd hc.1 (by omega)), if_neg (fun hc => absurd hc.2.1 (by omega))] at hcol
  rw [receiveByte_of_started hstart, if_pos hlength, if_neg hchecked, hcol]
  refine ⟨_, rfl, h.count b (by omega) rx ?_ rfl rfl ?_ ?_⟩
  · rw [h.sta, staOf, staOf, if_neg (by omega), if_neg (by omega), if_neg (by omega), if_neg (by omega),
      if_neg (by omega), if_neg (by omega), if_neg (by omega), if_neg (by omega)]
  · rw [if_neg (by omega), h.lenSa, if_neg (by omega), addrLen_append [b] (by omega)]
  · intro _
    rw [escaped_append [b] (by omega), wantLen_append [b] (by omega)]
    exact h.opened.fits (by omega)

/-- The step lemma: a receiver that tracks a segment does with a byte what `collect` says. -/
theorem receiveByte_shows (h : Tracks seg rx rev) (b : Byte) :
    ∃ flow, receiveByte false rx rev b = some flow ∧ Shows rev.below (collect seg b) flow := by
  by_cases hne : seg = []
  · subst hne
    exact receiveByte_idle h b
  by_cases h3 : seg.length < 3
  · exact receiveByte_length h b hne h3
  by_cases h5 : seg.length < 5
  · exact receiveByte_addr h b (by omega) h5
  by_cases hhead : seg.length < headEnd seg
  · exact receiveByte_header h b (by omega) hhead
  · exact receiveByte_body h b (by omega)

/-! ## How a verdict shows -/

theorem Shows.of_more (h : Shows below (.more seg) flow) :
    ∃ rx rev, flow = .next rx rev ∧ Tracks seg rx rev ∧ rev.below = below := by
  cases flow with
  | next rx rev => exact ⟨rx, rev, rfl, h⟩
  | ret result rx rev => exact h.elim
  | complete rx rev => exact h.elim

theorem Shows.tracks {verdict : Verdict} (h : Shows below verdict (.next rx rev)) : ∃ seg, Tracks seg rx rev := by
  cases verdict with
  | more seg => exact ⟨seg, h.1⟩
  | reject => exact h.elim
  | badHeader => exact h.elim
  | is645 => exact h.elim
  | complete seg => exact h.elim

theorem Shows.of_reject (h : Shows below .reject flow) :
    ∃ rx rev, flow = .ret (-1) rx rev ∧ Tracks [] rx rev ∧ rev.below = below := by
  cases flow with
  | next rx rev => exact h.elim
  | ret result rx rev =>
    obtain ⟨rfl, ht⟩ := h
    exact ⟨rx, rev, rfl, ht⟩
  | complete rx rev => exact h.elim

theorem Shows.of_badHeader (h : Shows below .badHeader flow) :
    (∃ rx rev, flow = .ret (-1) rx rev ∧ Tracks [] rx rev ∧ rev.below = below) ∨
      ∃ rx rev, flow = .complete rx rev ∧ below = 0x16 ∧ rev.dataSize = 0 := by
  cases flow with
  | next rx rev => exact h.elim
  | ret result rx rev =>
    obtain ⟨rfl, _, ht⟩ := h
    exact Or.inl ⟨rx, rev, rfl, ht⟩
  | complete rx rev => exact Or.inr ⟨rx, rev, rfl, h⟩

theorem Shows.of_is645 (h : Shows below .is645 flow) :
    ∃ rx rev, flow = .ret 1 rx rev ∧ rev.size = hplcDataMaxSize ∧ rev.below = below := by
  cases flow with
  | next rx rev => exact h.elim
  | ret result rx rev =>
    obtain ⟨rfl, hrev⟩ := h
    exact ⟨rx, rev, rfl, hrev⟩
  | complete rx rev => exact h.elim

theorem Shows.of_complete (h : Shows below (.complete seg) flow) :
    ∃ rx rev, flow = .complete rx rev ∧ Stored seg rev ∧ rev.below = below := by
  cases flow with
  | next rx rev => exact h.elim
  | ret result rx rev => exact h.elim
  | complete rx rev => exact ⟨rx, rev, rfl, h⟩

end EnergyRouter
