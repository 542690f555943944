import EnergyRouter.Lemmas.Resync

/-!
# The address of a frame and the address of the device

An address of up to eight bytes is copied over the bytes an earlier frame left; a longer one leaves them all. The device then
compares as many bytes as its own address has, however many the frame brought.
-/

namespace EnergyRouter

open Buffer

variable {frame : List Byte} {rx : RxState} {flow : Flow}

/-- The length of the server address a frame announces. -/
def nibbleLen (frame : List Byte) : Nat := (frame.getD 4 0 &&& 0x0f#8).toNat + 1

theorem nibbleLen_bounds (frame : List Byte) : 1 ≤ nibbleLen frame ∧ nibbleLen frame ≤ 16 := by
  have hmask : (frame.getD 4 0 &&& 0x0f#8).toNat ≤ 15 := by
    rw [BitVec.toNat_and]
    exact Nat.and_le_right
  rw [nibbleLen]
  omega

/-- A byte of an address passes: it is the byte that stands for any, or the device's own. -/
def Passes (mine other : Byte) : Prop := other = 0xaa ∨ mine = other
deriving Decidable

theorem judgeMeterNoFrom_eq (own addr : Addr698) (i left : Nat) (h : i + left ≤ 8) :
    judgeMeterNoFrom own addr i left =
      some (if ∀ k < left, Passes (own.sAddr.getD (i + k) 0) (addr.sAddr.getD (i + k) 0) then 0 else -1) := by
  induction left generalizing i with
  | zero => simp [judgeMeterNoFrom]
  | succ left ih =>
    have hcell : ∀ v : Vector Byte 8, v[i]? = some (v.getD i 0) := by
      intro v
      rw [Vector.getD, Array.getD_eq_getD_getElem?, Vector.getElem?_toArray, Vector.getElem?_eq_getElem (by omega)]
      rfl
    rw [judgeMeterNoFrom, hcell own.sAddr, hcell addr.sAddr]
    show (if Passes (own.sAddr.getD i 0) (addr.sAddr.getD i 0) then judgeMeterNoFrom own addr (i + 1) left else some (-1)) = _
    by_cases hfirst : Passes (own.sAddr.getD i 0) (addr.sAddr.getD i 0)
    · rw [if_pos hfirst, ih (i + 1) (by omega)]
      congr 1
      refine if_congr ?_ rfl rfl
      constructor
      · intro hall k hk
        cases k with
        | zero => exact hfirst
        | succ k =>
          have := hall k (by omega)
          rwa [show i + 1 + k = i + (k + 1) by omega] at this
      · intro hall k hk
        have := hall (k + 1) (by omega)
        rwa [show i + (k + 1) = i + 1 + k by omega] at this
    · rw [if_neg hfirst, if_neg (fun hall => hfirst (hall 0 (by omega)))]

theorem judgeMeterNo_eq {own : Addr698} (h : own.sAddrLen = 6) (rev : CharPointDataManage) :
    judgeMeterNo own rev =
      some (if ∀ k < 6, Passes (own.sAddr.getD k 0) (rev.frame698.addr.sAddr.getD k 0) then 0 else -1) := by
  rw [judgeMeterNo, h, judgeMeterNoFrom_eq own _ 0 _ (by decide)]
  simp only [Nat.zero_add]
  rfl

/-! ## What unpacking reports -/

/-- An error, or the fields of the layout an address of `n` bytes gives. -/
def LayoutOf (data : Vector Byte hplcDataMaxSize) (size : Int) (n : Nat) (out : Int × Frame698) : Prop :=
  out.1 ≠ 0 ∨
    (out.2.addr.sAddrLen = n ∧ out.2.hcs0 = data.getD (6 + n) 0 ∧ out.2.hcs1 = data.getD (7 + n) 0 ∧ out.2.usrData = 8 + n ∧
      out.2.usrDataLen = size - 11 - n)

theorem unPackage698_of_zero {data : Vector Byte hplcDataMaxSize} {frame : Frame698} {size : Int}
    (h : (unPackage698 data frame size).1 = 0) :
    (unPackage698 data frame size).2.addr = { (addressUnPackage data frame.addr 4).2 with sAddrLen := 6 } ∧
      (unPackage698 data frame size).2.hcs0 = data.getD 12 0 ∧ (unPackage698 data frame size).2.hcs1 = data.getD 13 0 ∧
      (unPackage698 data frame size).2.usrData = 14 ∧ (unPackage698 data frame size).2.usrDataLen = size - 11 - 6 := by
  unfold unPackage698 at h ⊢
  simp only at h ⊢
  split_ifs at h ⊢ with h1 h2
  · cases h
  · cases h
  · exact ⟨rfl, rfl, rfl, rfl, rfl⟩

/-- Unpacking reports the layout of an address of `n` bytes exactly when it fails or `n` is six. -/
theorem layoutOf_iff (data : Vector Byte hplcDataMaxSize) (frame : Frame698) (size : Int) (n : Nat) :
    LayoutOf data size n (unPackage698 data frame size) ↔ n = 6 ∨ (unPackage698 data frame size).1 ≠ 0 := by
  constructor
  · rintro (herror | ⟨hlen, _⟩)
    · exact Or.inr herror
    · by_cases hzero : (unPackage698 data frame size).1 = 0
      · rw [(unPackage698_of_zero hzero).1] at hlen
        have hsix : (6 : Int) = n := hlen
        exact Or.inl (by omega)
      · exact Or.inr hzero
  · rintro (rfl | herror)
    · by_cases hzero : (unPackage698 data frame size).1 = 0
      · obtain ⟨haddr, hcs0, hcs1, husr, hlen⟩ := unPackage698_of_zero hzero
        exact Or.inr ⟨by rw [haddr]; rfl, hcs0, hcs1, husr, hlen⟩
      · exact Or.inl hzero
    · exact Or.inl herror

/-! ## What unpacking leaves of the address -/

/-- The cells of the server address after a frame was unpacked: its own, if they fit, and behind them those of an earlier frame. -/
theorem unPackage698_sAddr {rev : CharPointDataManage} (hs : Stored frame rev) (hle : frame.length ≤ 1023)
    (h17 : 17 ≤ frame.length) (hok : (unPackage698 rev.priveData rev.frame698 rev.dataSize).1 = 0) (k : Nat) :
    (unPackage698 rev.priveData rev.frame698 rev.dataSize).2.addr.sAddr.getD k 0 =
      if nibbleLen frame ≤ 8 ∧ k < nibbleLen frame then frame.getD (5 + k) 0 else rev.frame698.addr.sAddr.getD k 0 := by
  obtain ⟨hsize, hfront⟩ := hs.front_eq hle
  have hcell : ∀ i, i < frame.length → rev.priveData.getD i 0 = frame.getD i 0 := by
    intro i hi
    rw [getD_front rev.priveData 0 hi, hfront]
  have hnibble : (rev.priveData.getD 4 0 &&& 0x0f#8).toNat + 1 = nibbleLen frame := by
    rw [hcell 4 (by omega), nibbleLen]
  rw [(unPackage698_of_zero hok).1]
  simp only [addressUnPackage, hnibble]
  by_cases h8 : nibbleLen frame ≤ 8
  · -- the cells copied are those of the frame: its address lies inside it
    have hcopied : (rev.priveData.toList.drop (4 + 1)).take (nibbleLen frame) = (frame.drop 5).take (nibbleLen frame) := by
      have hlong : frame.drop 5 = (rev.priveData.toList.drop 5).take (frame.length - 5) := by
        rw [← hfront, front, List.drop_take]
        congr 1
        rw [List.length_take, Vector.length_toList, hplcDataMaxSize]
        omega
      rw [hlong, List.take_take, Nat.min_eq_left (by omega)]
    have hlen : ((frame.drop 5).take (nibbleLen frame)).length = nibbleLen frame := by
      rw [List.length_take, List.length_drop]
      omega
    rw [if_neg (by omega)]
    simp only [hcopied]
    by_cases hk : k < nibbleLen frame
    · rw [if_pos ⟨h8, hk⟩, getD_copyAt_zero _ _ 0 (by omega) (by omega), List.getD_eq_getElem?_getD,
        List.getElem?_take_of_lt hk, List.getElem?_drop, List.getD_eq_getElem?_getD]
    · rw [if_neg (fun hc => hk hc.2), getD_copyAt _ _ _ _ (by omega)]
  · rw [if_pos (by omega), if_neg (fun hc => h8 hc.1)]

/-! ## The receiver leaves the unpacked fields alone -/

/-- The buffer a part of the loop hands on. -/
def Flow.rev : Flow → CharPointDataManage
  | .next _ rev => rev
  | .ret _ _ rev => rev
  | .complete _ rev => rev

theorem saveHplcData_frame698 (rev : CharPointDataManage) (position : Nat) (b : Byte) :
    (saveHplcData rev position b).2.frame698 = rev.frame698 := by
  rw [saveHplcData, saveCharPointData]
  split_ifs <;> rfl

theorem countByte_frame698 (rx : RxState) (rev : CharPointDataManage) : (countByte rx rev).rev.frame698 = rev.frame698 := by
  rw [countByte]
  simp only
  split_ifs <;> rfl

theorem lengthByte_frame698 (rx : RxState) (rev : CharPointDataManage) : (lengthByte rx rev).rev.frame698 = rev.frame698 := by
  rw [lengthByte]
  split_ifs with h
  · simp only
    split_ifs <;> rfl
  · rfl

theorem thenCount_frame698 (flow : Flow) : flow.thenCount.rev.frame698 = flow.rev.frame698 := by
  cases flow with
  | next rx rev => exact countByte_frame698 rx rev
  | ret result rx rev => rfl
  | complete rx rev => rfl

theorem headerByte_frame698 {rev : CharPointDataManage} (h : headerByte false rx rev = some flow) :
    flow.rev.frame698 = rev.frame698 := by
  rw [headerByte] at h
  by_cases haddr : rx.usartRxSta &&& 0x10000000 ≠ 0
  · rw [if_pos haddr] at h
    by_cases hend : (rev.dataSize : Int) = 8 + rx.lenSa
    · simp only [if_pos hend, Bool.false_eq_true, if_false, Option.bind_eq_bind, Option.bind_eq_some_iff] at h
      obtain ⟨hcs, _, h⟩ := h
      split_ifs at h <;> cases h <;> rfl
    · rw [if_neg hend] at h
      cases h
      rfl
  · rw [if_neg haddr] at h
    by_cases h5 : rev.dataSize = 5
    · simp only [if_pos h5] at h
      split_ifs at h <;> cases h <;> rfl
    · rw [if_neg h5] at h
      cases h
      rfl

theorem receiveByte_frame698 {rev : CharPointDataManage} {b : Byte} (h : receiveByte false rx rev b = some flow) :
    flow.rev.frame698 = rev.frame698 := by
  have hsaved := saveHplcData_frame698 rev rev.dataSize b
  by_cases hstart : rx.usartRxSta &&& 0x40000000 ≠ 0
  · rw [receiveByte_of_started hstart] at h
    split_ifs at h
    · rw [Option.map_eq_some_iff] at h
      obtain ⟨part, hpart, rfl⟩ := h
      rw [thenCount_frame698, headerByte_frame698 hpart, hsaved]
    · cases h
      rw [countByte_frame698, hsaved]
    · cases h
      rw [lengthByte_frame698, hsaved]
  · rw [receiveByte, if_neg hstart] at h
    by_cases hb : b = 0x68
    · rw [if_pos hb] at h
      cases h
      exact hsaved
    · rw [if_neg hb] at h
      cases h
      rfl

section

variable {W : Type} (checkAfairFromBotom : W → W)

theorem receiveLoop_frame698 (reads : List (Option Byte)) (times : Nat) {rev : CharPointDataManage} (w : W) {r : Received W}
    (hr : receiveLoop checkAfairFromBotom false reads times rx rev w = some r) :
    r.rev.frame698 = rev.frame698 := by
  induction reads generalizing times rx rev w with
  | nil => simp [receiveLoop] at hr
  | cons read reads ih =>
    cases read with
    | none =>
      rw [receiveLoop] at hr
      split_ifs at hr
      · cases hr
        rfl
      · exact ih _ _ hr
    | some b =>
      rw [receiveLoop] at hr
      cases hflow : receiveByte false rx rev b with
      | none => rw [hflow] at hr; cases hr
      | some flow =>
        have hkeep := receiveByte_frame698 hflow
        rw [hflow] at hr
        cases flow with
        | next rx' rev' => exact (ih _ _ hr).trans hkeep
        | ret result rx' rev' =>
          cases hr
          exact hkeep
        | complete rx' rev' =>
          cases hr
          exact hkeep

variable (answer645 : CharPointDataManage → W → W) (service : Service W)

/-- The turn of the thread over a well-formed frame: the frame is unpacked and served. -/
theorem hplcThreadTurn_wellFormed (h : WellFormed frame) (h17 : 17 ≤ frame.length) (tail : List (Option Byte))
    {rev : CharPointDataManage} (w : W) (ht : Tracks [] rx rev) :
    ∃ rev₀ w₀ s, Stored frame rev₀ ∧
      hplcThreadTurn checkAfairFromBotom false answer645 service (frame.map some ++ tail) rx rev w = some s ∧ s.reads = tail ∧
      s.rev.frame698 =
        (service (unPackage698 rev₀.priveData rev₀.frame698 rev₀.dataSize).2 rev₀.priveData w₀).1 := by
  obtain ⟨r, hr, hzero, hstored, htail⟩ := getSingleFrame_after_pause checkAfairFromBotom h 0 (by decide) tail w ht
  rw [List.replicate_zero, List.nil_append] at hr
  have hok := priveDataAnalysis_wellFormed h hstored h17
  have hturn : ∃ s, hplcThreadTurn checkAfairFromBotom false answer645 service (frame.map some ++ tail) rx rev w = some s ∧
      s.reads = r.reads ∧
      s.rev.frame698 = (service (unPackage698 r.rev.priveData r.rev.frame698 r.rev.dataSize).2 r.rev.priveData r.world).1 := by
    simp only [hplcThreadTurn, hr, Option.bind_eq_bind, Option.bind_some]
    rw [if_neg (not_not.mpr hzero), hok, Option.bind_some, if_pos rfl]
    exact ⟨_, rfl, rfl, rfl⟩
  obtain ⟨s, hs, hreads, hframe⟩ := hturn
  exact ⟨r.rev, r.world, s, hstored, hs, hreads.trans htail, hframe⟩

end

end EnergyRouter
