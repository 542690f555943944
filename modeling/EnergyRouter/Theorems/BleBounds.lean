import EnergyRouter.Theorems.BleReception

/-!
# Bounds of the reception over Bluetooth

The indices of the callback, the scan and the decoder come from the length field and the address nibble of what was received. The
main result says over every run when all accesses stay inside of their arrays. The four slots are one array, so that the bounds of a
single slot are stated apart.
-/

namespace EnergyRouter

open Buffer Reader Runs

variable {bytes f buf : List Byte} {fs : List (List Byte)} {i n lenth : Nat} {rxData : Vector Byte 1024}
  {s s' s₀ s₁ : BleReceiver} {respond : Nat → Ble698Frame → Ble698Frame}

/-! ## Steps -/

/-- Bytes come over the UART, the thread looks at them in transparent mode, or it takes a turn in AT mode. `dataRxLen` is what was
read last. -/
inductive ReceiverOp
  | recv (bytes : List Byte)
  | look (respond : Nat → Ble698Frame → Ble698Frame)
  | atTurn (dataRxLen : Nat) (noted : Bool)

def receiverStep (s : BleReceiver) : ReceiverOp → Option BleReceiver
  | .recv bytes => bleUartDataRecv bytes s
  | .look respond => bleTransRecv respond s
  | .atTurn dataRxLen noted => bleATCmdRecv dataRxLen noted s

/-- The slot the reader stands at. -/
def BleReceiver.slot (s : BleReceiver) : List Byte := (s.dataBuf.toList.drop (s.rxRead * bleSlot)).take bleSlot

/-- In `n` turns of the loop over the ring the decoder reads inside of its slot. -/
def DrainWithin (respond : Nat → Ble698Frame → Ble698Frame) : Nat → BleReceiver → Prop
  | 0, _ => True
  | n + 1, s => s.rxWrite ≠ s.rxRead → (ble698DataUnPackage s.frame s.slot).isSome ∧
      ∀ s', bleAnalyse respond s = some s' → DrainWithin respond n s'

/-- A step stays inside of all arrays, copies and reads of a slot inside of the slot. The turn in AT mode has no part in this. -/
def Within (s : BleReceiver) : ReceiverOp → Prop
  | .recv bytes => (bleUartDataRecv bytes s).isSome
  | .look respond => (bleTransRecv respond s).isSome ∧ ∀ res s₁, bleCheckDataToBuf s = some (res, s₁) →
      (∀ f ∈ newlyEnqueued s s₁, f.length ≤ bleSlot) ∧ (res = .eok → DrainWithin respond 4 s₁)
  | .atTurn .. => True

/-! ## What the steps have to find -/

/-- The length field at a place. -/
def bleLenthAt (bytes : List Byte) (i : Nat) : Nat := (bytes.getD (i + 2) 0).toNat * 256 + (bytes.getD (i + 1) 0).toNat

/-- The address nibble at a place. -/
def bleNibbleAt (bytes : List Byte) (i : Nat) : Nat := (bytes.getD (i + 4) 0 &&& 0x0f#8).toNat

/-- With a start character at the place, the length field and the end it points to are inside, and with an end character there, the
header. -/
def Testable (bytes : List Byte) (i : Nat) : Prop :=
  bytes[i]? = some 0x68 → i + 2 < bytes.length ∧ i + bleLenthAt bytes i + 1 < bytes.length ∧
    (bytes[i + bleLenthAt bytes i + 1]? = some 0x16 → i + bleNibbleAt bytes i + 9 ≤ bytes.length)
deriving Decidable

/-- The address has room in the record, and the frame is not shorter than its header and its checks. -/
def Decodable (f : List Byte) : Prop := addrLenthOf (f.getD 4 0) ≤ 6 ∧ addrLenthOf (f.getD 4 0) + 12 ≤ f.length
deriving Decidable

/-- Of the frames copied to the ring, those the writer did not leave behind by going around. -/
def leftInRing (fs : List (List Byte)) : List (List Byte) := fs.drop (fs.length - fs.length % 4)

/-- All places received can be tested, every frame found fits its slot, and those left in the ring can be decoded. -/
def BufferMet (bytes : List Byte) (n : Nat) : Prop :=
  (∀ i < n, Testable bytes i) ∧ (∀ f ∈ freshFrames bytes n 0, f.length ≤ bleSlot) ∧
    ∀ f ∈ leftInRing (freshFrames bytes n 0), Decodable f

instance (bytes : List Byte) (n : Nat) : Decidable (BufferMet bytes n) := inferInstanceAs (Decidable (_ ∧ _ ∧ _))

/-- A reading is not longer than the buffer, which is as it has to be when the thread looks, unless a request from AT mode is put in
front. -/
def ReceptionMet (s : BleReceiver) : ReceiverOp → Prop
  | .recv bytes => bytes.length ≤ 1024
  | .look _ => s.recv698InAT = true ∨ BufferMet s.rxData.toList s.rxPtr
  | .atTurn .. => True

instance (s : BleReceiver) (op : ReceiverOp) : Decidable (ReceptionMet s op) :=
  match op with
  | .recv bytes => inferInstanceAs (Decidable (bytes.length ≤ 1024))
  | .look _ => inferInstanceAs (Decidable (_ ∨ _))
  | .atTurn .. => inferInstanceAs (Decidable True)

/-! ## Places of the buffer -/

theorem pppfcs16Loop_isSome (fcs : BitVec 16) (cp : List Byte) (len : Nat) :
    (pppfcs16Loop fcs cp len).isSome ↔ len ≤ cp.length := by
  induction len generalizing fcs cp with
  | zero => cases cp <;> simp [pppfcs16Loop]
  | succ len ih =>
    cases cp with
    | nil => simp [pppfcs16Loop]
    | cons b cp => rw [pppfcs16Loop, ih, List.length_cons, Nat.succ_le_succ_iff]

theorem goodWithin_isSome (bytes : List Byte) (i n : Nat) : (goodWithin bytes i n).isSome ↔ n ≤ bytes.length - i := by
  rw [goodWithin, Option.isSome_map, pppfcs16Loop_isSome, List.length_drop]

/-- The tests at a place have an outcome when what they look at is inside. -/
theorem freshFrameAt_isSome_iff (hi : i < bytes.length) : (freshFrameAt bytes i).isSome ↔ Testable bytes i := by
  have hcell {k : Nat} (hk : k < bytes.length) : bytes[k]? = some (bytes.getD k 0) := by simp [hk]
  unfold freshFrameAt Testable
  rw [hcell hi, Option.bind_eq_bind, Option.bind_some, Option.some_inj]
  by_cases hstart : bytes.getD i 0 = 0x68
  · rw [if_neg (not_not.mpr hstart)]
    simp only [hstart, true_imp_iff]
    constructor
    · intro h
      obtain ⟨high, hhigh, h⟩ := isSome_bind_iff.mp h
      obtain ⟨low, hlow, h⟩ := isSome_bind_iff.mp h
      obtain ⟨last, hlast, h⟩ := isSome_bind_iff.mp h
      have hlenth : bleLenthAt bytes i = high.toNat * 256 + low.toNat := by simp [bleLenthAt, hhigh, hlow]
      rw [← hlenth] at hlast h
      refine ⟨(List.getElem?_eq_some_iff.mp hhigh).1, (List.getElem?_eq_some_iff.mp hlast).1, fun hchar => ?_⟩
      rw [if_neg (not_not.mpr (Option.some.inj (hlast.symm.trans hchar)))] at h
      -- the header check
      obtain ⟨sa, hsa, h⟩ := isSome_bind_iff.mp h
      obtain ⟨hcs, hhcs, -⟩ := isSome_bind_iff.mp h
      have hroom := (goodWithin_isSome ..).mp (Option.isSome_iff_exists.mpr ⟨hcs, hhcs⟩)
      have hnibble : bleNibbleAt bytes i = (sa &&& 0x0f#8).toNat := by simp [bleNibbleAt, hsa]
      omega
    · rintro ⟨hfield, hend, hheader⟩
      refine isSome_bind (hcell hfield) (isSome_bind (hcell (by omega)) (isSome_bind (hcell hend) ?_))
      split_ifs with hchar
      · rfl
      have hroom := hheader ((hcell hend).trans (congrArg some (not_not.mp hchar)))
      have hgood (k : Nat) (hk : k ≤ bytes.length - (i + 1)) : ∃ good, goodWithin bytes (i + 1) k = some good :=
        Option.isSome_iff_exists.mp ((goodWithin_isSome bytes (i + 1) k).mpr hk)
      obtain ⟨hcs, hhcs⟩ := hgood (bleNibbleAt bytes i + 8) (by omega)
      refine isSome_bind (hcell (by omega)) (isSome_bind hhcs ?_)
      split_ifs
      · rfl
      obtain ⟨fcs, hfcs⟩ := hgood (bleLenthAt bytes i) (by omega)
      refine isSome_bind hfcs ?_
      split_ifs <;> rfl
  · rw [if_pos hstart]
    exact iff_of_true rfl fun h => absurd h hstart

theorem bleFrameAt_isSome_iff (hi : i < 1024) : (bleFrameAt rxData i).isSome ↔ Testable rxData.toList i := by
  rw [bleFrameAt_eq]
  exact freshFrameAt_isSome_iff (by rwa [Vector.length_toList])

/-! ## Frames that were found -/

/-- A frame as the scan copies it: it begins with the start character and is as long as its length field says. -/
structure FoundFrame (f : List Byte) : Prop where
  head : f[0]? = some 0x68
  length : ∃ low high, f[1]? = some low ∧ f[2]? = some high ∧ f.length = ullenthOf low high + 2

theorem found_of_bleFrameAt (h : bleFrameAt rxData i = some (some lenth)) : FoundFrame ((rxData.toList.drop i).take (lenth + 2)) := by
  have hpos := bleFrameAt_pos h
  obtain ⟨hhead, ⟨high, low, hhigh, hlow, hlenth⟩, -⟩ := bleFrameAt_inv h
  refine ⟨getElem?_found (by omega) hhead, low, high, getElem?_found (by omega) hlow, getElem?_found (by omega) hhigh, ?_⟩
  rw [length_found h, hlenth, ullenthOf]

theorem found_of_mem_freshFrames (h : f ∈ freshFrames rxData.toList n i) : FoundFrame f := by
  induction n generalizing i with
  | zero => cases h
  | succ n ih =>
    rw [freshFrames] at h
    split at h
    · next lenth hfound =>
      rcases List.mem_cons.mp h with rfl | hrest
      · exact found_of_bleFrameAt ((bleFrameAt_eq rxData i).trans hfound)
      · exact ih hrest
    · exact ih h

theorem getElem?_of_isPrefix (hf : f <+: buf) (hi : i < f.length) : buf[i]? = f[i]? := by
  obtain ⟨rest, rfl⟩ := hf
  exact List.getElem?_append_left hi

/-- The decoder reads a frame that can be decoded, wherever the frame stands in front. -/
theorem unPackage_of_decodable (hfound : FoundFrame f) (hdec : Decodable f) (hshort : f.length ≤ bleSlot) (hf : f <+: buf)
    (devRecv : Ble698Frame) : (ble698DataUnPackage devRecv buf).isSome := by
  obtain ⟨haddr, hlong⟩ := hdec
  obtain ⟨low, high, hlow, hhigh, hlength⟩ := hfound.length
  have hslot : bleSlot = 255 := rfl
  have hcell {k : Nat} (hk : k < f.length) : buf[k]? = some (f.getD k 0) := by
    rw [getElem?_of_isPrefix hf hk, List.getD_eq_getElem?_getD, List.getElem?_eq_getElem hk, Option.getD_some]
  have hle := hf.length_le
  have hhead : buf[0]? = some 0x68 := (getElem?_of_isPrefix hf (by omega)).trans hfound.head
  have hlow : buf[1]? = some low := (getElem?_of_isPrefix hf (by omega)).trans hlow
  have hhigh : buf[2]? = some high := (getElem?_of_isPrefix hf (by omega)).trans hhigh
  have hblit {m : Nat} (v : Vector Byte m) {k len : Nat} (hm : len ≤ m) (hk : k + len ≤ f.length) :
      ∃ v', blit v 0 (buf.drop k) len = some v' := by
    refine ⟨_, if_pos ⟨by omega, ?_⟩⟩
    rw [List.length_drop]
    omega
  refine isSome_bind hhead ?_
  rw [if_neg (not_not.mpr rfl)]
  refine isSome_bind hlow (isSome_bind hhigh (isSome_bind (hcell (by omega)) (isSome_bind (hcell (by omega)) ?_)))
  have happ := apduLenthOf_of_le hlong
  rw [← hlength]
  generalize addrLenthOf (f.getD 4 0) = addrLenth at haddr hlong happ
  dsimp only
  rw [happ]
  obtain ⟨addr, haddr⟩ := hblit devRecv.addr haddr (show 5 + addrLenth ≤ f.length by omega)
  obtain ⟨apduData, hdata⟩ := hblit devRecv.apduData (show f.length - addrLenth - 12 ≤ 512 by omega)
    (show 9 + addrLenth + (f.length - addrLenth - 12) ≤ f.length by omega)
  refine isSome_bind haddr (isSome_bind (hcell (by omega)) (isSome_bind (hcell (by omega)) (isSome_bind (hcell (by omega)) ?_)))
  refine isSome_bind (hcell (by omega)) (isSome_bind hdata ?_)
  exact isSome_bind (hcell (by omega)) (isSome_bind (hcell (by omega)) (isSome_bind (hcell (by omega)) rfl))

/-- The copies of the decoder fit for frames that can be decoded only. -/
theorem decodable_of_unPackage (hfound : FoundFrame f) (hf : f <+: buf) {devRecv : Ble698Frame}
    (h : (ble698DataUnPackage devRecv buf).isSome) : Decodable f := by
  obtain ⟨low, high, hlow, hhigh, hlength⟩ := hfound.length
  obtain ⟨⟨res, d⟩, hd⟩ := Option.isSome_iff_exists.mp h
  have hcell {k : Nat} {b : Byte} (hk : f[k]? = some b) : buf[k]? = some b :=
    (getElem?_of_isPrefix hf (List.getElem?_eq_some_iff.mp hk).1).trans hk
  rcases ble698DataUnPackage_inv hd with ⟨-, hrefused⟩ | ⟨-, hfrom⟩
  · exact absurd (hcell hfound.head) hrefused
  · have hlow' : low = d.uclenth0 := Option.some.inj ((hcell hlow).symm.trans hfrom.uclenth0)
    have hhigh' : high = d.uclenth1 := Option.some.inj ((hcell hhigh).symm.trans hfrom.uclenth1)
    have haddr := hfrom.addr
    have happ := hfrom.apdu
    rw [← hlow', ← hhigh', ← hlength] at happ
    -- a shorter frame has a number of bytes of user data that wrapped
    have hlong : addrLenthOf d.sa + 12 ≤ f.length := by
      unfold apduLenthOf sub32 at happ
      split_ifs at happ <;> omega
    have hsa : f.getD 4 0 = d.sa := by
      rw [List.getD_eq_getElem?_getD, ← getElem?_of_isPrefix hf (by omega), hfrom.sa, Option.getD_some]
    rw [Decodable, hsa]
    exact ⟨haddr, hlong⟩

/-! ## The ring -/

/-- A turn of the loop over the ring takes the oldest frame out of it. -/
theorem bleAnalyse_slotRing (respond : Nat → Ble698Frame → Ble698Frame) (hr : SlotRing s.dataBuf s.rxRead s.rxWrite (f :: fs))
    (hroom : fs.length ≤ 2) (hfound : FoundFrame f) (hdec : Decodable f) :
    ∃ s', bleAnalyse respond s = some s' ∧ SlotRing s'.dataBuf s'.rxRead s'.rxWrite fs := by
  have hshort := hr.short f List.mem_cons_self
  obtain ⟨out, hout⟩ := Option.isSome_iff_exists.mp (unPackage_of_decodable hfound hdec hshort (hr.oldest hroom) s.frame)
  obtain ⟨zeros, hzeros, hanalyse⟩ := bleAnalyse_unpacked respond hr.read hout
  refine ⟨_, hanalyse, ?_⟩
  obtain ⟨res, d⟩ := out
  cases res <;> exact hr.pop hroom hzeros

/-- The loop over the ring has an outcome when all frames in it can be decoded, and then reads inside of the slots. -/
theorem bleDrain_isSome_iff (respond : Nat → Ble698Frame → Ble698Frame) (hr : SlotRing s.dataBuf s.rxRead s.rxWrite fs)
    (hroom : fs.length ≤ 3) (hfound : ∀ f ∈ fs, FoundFrame f) (hn : fs.length ≤ n) :
    ((bleDrain respond n s).isSome ↔ ∀ f ∈ fs, Decodable f) ∧ ((∀ f ∈ fs, Decodable f) → DrainWithin respond n s) := by
  induction fs generalizing s n with
  | nil =>
    have hempty := hr.write_eq_read
    have hnil : ∀ f ∈ ([] : List (List Byte)), Decodable f := List.forall_mem_nil _
    cases n with
    | zero => exact ⟨iff_of_true (by rw [bleDrain, if_pos hempty]; rfl) hnil, fun _ => trivial⟩
    | succ n => exact ⟨iff_of_true (by rw [bleDrain, if_pos hempty]; rfl) hnil, fun _ hpending => absurd hempty hpending⟩
  | cons f fs ih =>
    rw [List.length_cons] at hroom hn
    obtain ⟨n, rfl⟩ : ∃ m, n = m + 1 := ⟨n - 1, by omega⟩
    obtain ⟨hf, hfound⟩ := List.forall_mem_cons.mp hfound
    have holdest := hr.oldest (by omega)
    have hshort := hr.short f List.mem_cons_self
    rw [bleDrain, if_neg (hr.write_ne_read (by omega)), List.forall_mem_cons]
    refine ⟨⟨?_, ?_⟩, ?_⟩
    · intro h
      obtain ⟨s₁, hanalyse, h⟩ := isSome_bind_iff.mp h
      obtain ⟨out, hout, -⟩ := Option.bind_eq_some_iff.mp hanalyse
      have hdec := decodable_of_unPackage hf holdest (Option.isSome_iff_exists.mpr ⟨out, hout⟩)
      obtain ⟨s₂, hanalyse', hr₂⟩ := bleAnalyse_slotRing respond hr (by omega) hf hdec
      cases hanalyse.symm.trans hanalyse'
      exact ⟨hdec, (ih hr₂ (by omega) hfound (by omega)).1.mp h⟩
    · rintro ⟨hdec, hrest⟩
      obtain ⟨s₁, hanalyse, hr₁⟩ := bleAnalyse_slotRing respond hr (by omega) hf hdec
      exact isSome_bind hanalyse ((ih hr₁ (by omega) hfound (by omega)).1.mpr hrest)
    · rintro ⟨hdec, hrest⟩ -
      refine ⟨unPackage_of_decodable hf hdec hshort (List.prefix_take_iff.mpr ⟨holdest, hshort⟩) s.frame, fun s' hanalyse => ?_⟩
      obtain ⟨s₁, hanalyse', hr₁⟩ := bleAnalyse_slotRing respond hr (by omega) hf hdec
      cases hanalyse.symm.trans hanalyse'
      exact (ih hr₁ (by omega) hfound (by omega)).2 hrest

/-! ## A look of the thread -/

/-- A receiver with nothing in the ring. Its buffers hold anything. -/
structure BleReceiver.Settled (s : BleReceiver) : Prop where
  pre : s.rxPre = 0
  ptr : s.rxPtr ≤ 1024
  read : s.rxRead < 4
  write : s.rxWrite = s.rxRead

/-- The request from AT mode meets the condition, whatever stands behind it. -/
theorem bufferMet_getAddr (rest : List Byte) : BufferMet (ble698GetAddr ++ rest) ble698GetAddr.length := by
  have hself : SelfContained ble698GetAddr := by decide
  have hframes : freshFrames (ble698GetAddr ++ rest) ble698GetAddr.length 0 = [ble698GetAddr] := by
    rw [freshFrames_append hself rest (Nat.le_of_eq (Nat.zero_add _))]
    decide
  refine ⟨fun i hi => ?_, ?_, ?_⟩
  · obtain ⟨found, hfound⟩ := Option.isSome_iff_exists.mp (hself i hi)
    have hlonger := (freshFrameAt_local i).append hfound rest
    refine (freshFrameAt_isSome_iff ?_).mp (Option.isSome_iff_exists.mpr ⟨found, hlonger⟩)
    rw [List.length_append]
    omega
  · rw [hframes]
    decide
  · rw [hframes]
    decide

/-- The look begins with the request in front of the buffer, or with the buffer as it is. -/
theorem bleTakeGetAddr_settled (respond : Nat → Ble698Frame → Ble698Frame) (hs : s.Settled) :
    ∃ s₀, bleTakeGetAddr s = some s₀ ∧ s₀.Settled ∧ s₀.enqueued = s.enqueued ∧
      (ReceptionMet s (.look respond) ↔ BufferMet s₀.rxData.toList s₀.rxPtr) := by
  unfold bleTakeGetAddr ReceptionMet
  cases hat : s.recv698InAT with
  | true =>
    have hlen : ble698GetAddr.length ≤ 1024 := by decide
    have hfront := front_copyAt_zero s.rxData ble698GetAddr hlen
    have hmet : BufferMet (copyAt s.rxData 0 ble698GetAddr).toList ble698GetAddr.length := by
      rw [toList_of_front hfront]
      exact bufferMet_getAddr _
    have hblit : blit s.rxData s.rxPre ble698GetAddr ble698GetAddr.length = some (copyAt s.rxData 0 ble698GetAddr) := by
      rw [hs.pre]
      exact blit_of_length rfl (by omega)
    rw [if_pos rfl, hblit]
    generalize copyAt s.rxData 0 ble698GetAddr = rxData at hmet
    exact ⟨_, rfl, ⟨hs.pre, hlen, hs.read, hs.write⟩, rfl, iff_of_true (.inl rfl) hmet⟩
  | false =>
    rw [if_neg Bool.false_ne_true]
    refine ⟨s, rfl, hs, rfl, ?_⟩
    simp

theorem bleCheckDataToBuf_inv (htake : bleTakeGetAddr s = some s₀) (hs₀ : s₀.Settled) {res : RtErr}
    (h : bleCheckDataToBuf s = some (res, s₁)) :
    bleScan s₀.rxPtr 0 s₀ = some (true, s₁) ∧ res = if s₁.rxWrite ≠ s₁.rxRead then .eok else .error := by
  unfold bleCheckDataToBuf at h
  rw [htake, Option.bind_eq_bind, Option.bind_some] at h
  obtain ⟨⟨ended, s₂⟩, hscan, h⟩ := Option.bind_eq_some_iff.mp h
  rw [hs₀.pre, Nat.sub_zero] at hscan
  have hptr := hs₀.ptr
  obtain ⟨rfl, -⟩ := bleScan_inv (by omega) hscan
  cases h
  refine ⟨hscan, ?_⟩
  simp only [true_and]

/-- A look stays inside exactly when the buffer it begins with is as it has to be. -/
theorem look_within_iff (htake : bleTakeGetAddr s = some s₀) (hs₀ : s₀.Settled) (hsame : s₀.enqueued = s.enqueued) :
    Within s (.look respond) ↔ BufferMet s₀.rxData.toList s₀.rxPtr := by
  have hptr := hs₀.ptr
  have hplaces : (∀ j, 0 ≤ j → j < 0 + s₀.rxPtr → (bleFrameAt s₀.rxData j).isSome) ↔
      ∀ i < s₀.rxPtr, Testable s₀.rxData.toList i := by
    constructor
    · intro h i hi
      exact (bleFrameAt_isSome_iff (by omega)).mp (h i (Nat.zero_le i) (by omega))
    · intro h j _ hj
      exact (bleFrameAt_isSome_iff (by omega)).mpr (h j (by omega))
  have hnew {s₁ : BleReceiver} (hscan : bleScan s₀.rxPtr 0 s₀ = some (true, s₁)) :
      newlyEnqueued s s₁ = freshFrames s₀.rxData.toList s₀.rxPtr 0 := by
    rw [newlyEnqueued, (bleScan_inv (by omega) hscan).2.2, hsame, List.drop_left]
  have hfound (f : List Byte) (hf : f ∈ leftInRing (freshFrames s₀.rxData.toList s₀.rxPtr 0)) : FoundFrame f :=
    found_of_mem_freshFrames (List.mem_of_mem_drop hf)
  have hroom : (leftInRing (freshFrames s₀.rxData.toList s₀.rxPtr 0)).length ≤ 3 := by
    rw [leftInRing, List.length_drop]
    omega
  constructor
  · rintro ⟨houtcome, hwithin⟩
    obtain ⟨⟨res, s₁⟩, hcheck, -⟩ := isSome_bind_iff.mp houtcome
    obtain ⟨hscan, rfl⟩ := bleCheckDataToBuf_inv htake hs₀ hcheck
    have hshort := (hwithin _ _ hcheck).1
    rw [hnew hscan] at hshort
    have hinside := (bleScan_inv (by omega) hscan).2.1
    obtain ⟨s₂, hscan₂, hring⟩ := bleScan_slotRing (slotRing_nil _ hs₀.read hs₀.write) (by omega) hinside hshort
    cases hscan.symm.trans hscan₂
    rw [List.nil_append] at hring
    rw [bleTransRecv_of_check hcheck, Option.isSome_map] at houtcome
    have hdrain := bleDrain_isSome_iff respond hring.pending hroom hfound (Nat.le_succ_of_le hroom)
    exact ⟨hplaces.mp hinside, hshort, hdrain.1.mp houtcome⟩
  · rintro ⟨htestable, hshort, hdec⟩
    obtain ⟨s₁, hscan, hring⟩ := bleScan_slotRing (slotRing_nil _ hs₀.read hs₀.write) (by omega) (hplaces.mpr htestable) hshort
    rw [List.nil_append] at hring
    have hcheck := bleCheckDataToBuf_of_scan htake hs₀.pre hscan
    have hdrain := bleDrain_isSome_iff respond hring.pending hroom hfound (Nat.le_succ_of_le hroom)
    refine ⟨?_, fun res s₂ hcheck₂ => ?_⟩
    · rw [bleTransRecv_of_check hcheck, Option.isSome_map]
      exact hdrain.1.mpr hdec
    · cases hcheck.symm.trans hcheck₂
      rw [hnew hscan]
      exact ⟨hshort, fun _ => hdrain.2 hdec⟩

/-! ## Runs -/

/-- A reading is stored inside of the buffer when it is not longer than the buffer. -/
theorem recv_within_iff (hs : s.Settled) : (bleUartDataRecv bytes s).isSome ↔ bytes.length ≤ 1024 := by
  have hptr := hs.ptr
  unfold bleUartDataRecv
  rw [isSome_bind_and fun _ => iff_of_true rfl trivial, and_true, blit]
  split_ifs <;> simp <;> omega

theorem withinBounds_iff (hs : s.Settled) (op : ReceiverOp) : Within s op ↔ ReceptionMet s op := by
  cases op with
  | recv bytes => exact recv_within_iff hs
  | look respond =>
    obtain ⟨s₀, htake, hs₀, hsame, hmet⟩ := bleTakeGetAddr_settled respond hs
    rw [look_within_iff htake hs₀ hsame, hmet]
  | atTurn dataRxLen noted => exact Iff.rfl

/-- A look that has an outcome leaves nothing in the ring. -/
theorem look_settled (hs : s.Settled) (h : bleTransRecv respond s = some s') : s'.Settled := by
  obtain ⟨s₀, htake, hs₀, -⟩ := bleTakeGetAddr_settled respond hs
  obtain ⟨⟨res, s₁⟩, hcheck, -⟩ := Option.bind_eq_some_iff.mp h
  obtain ⟨hscan, rfl⟩ := bleCheckDataToBuf_inv htake hs₀ hcheck
  rw [bleTransRecv_of_check hcheck] at h
  obtain ⟨s₂, hdrain, rfl⟩ := Option.map_eq_some_iff.mp h
  have hread : s₁.rxRead < 4 := (bleScan_sameReader hscan).rxRead ▸ hs₀.read
  have hturn (t t' : BleReceiver) (ht : t.rxRead < 4) (hanalyse : bleAnalyse respond t = some t') : t'.rxRead < 4 := by
    rw [(bleAnalyse_inv hanalyse).2, nextSlot_eq ht]
    exact Nat.mod_lt _ (by decide)
  obtain ⟨hread₂, hwrite₂⟩ := bleDrain_keeps hturn hread hdrain
  exact ⟨rfl, Nat.zero_le _, hread₂, hwrite₂⟩

theorem receiverStep_settled (hs : s.Settled) {op : ReceiverOp} (h : receiverStep s op = some s') : s'.Settled := by
  cases op with
  | recv bytes =>
    obtain ⟨rxData, hblit, h⟩ := Option.bind_eq_some_iff.mp h
    cases h
    generalize (if 1024 ≤ s.rxPtr + bytes.length then 0 else s.rxPtr) = rxPtr at hblit ⊢
    rw [blit] at hblit
    split_ifs at hblit with hfits
    exact ⟨hs.pre, hfits.1, hs.read, hs.write⟩
  | look respond => exact look_settled hs h
  | atTurn dataRxLen noted =>
    obtain ⟨rxData, -, h⟩ := Option.bind_eq_some_iff.mp h
    cases h
    exact ⟨rfl, Nat.zero_le _, hs.read, hs.write⟩

/-- Over every run: all indices stay inside of the receive buffer, the slots and the record exactly when each step finds what it has
to. -/
theorem reception_within_iff (s : BleReceiver) (hs : s.Settled) (ops : List ReceiverOp) :
    Meets receiverStep Within s ops ↔ Meets receiverStep ReceptionMet s ops :=
  meets_congr (fun _ op hs => withinBounds_iff hs op) (fun _ _ _ hs _ h => receiverStep_settled hs h) hs ops

/-- A request is received and looked at. -/
theorem reception_within_get_addr :
    zeroReceiver.Settled ∧ Meets receiverStep Within zeroReceiver [.recv ble698GetAddr, .look fun _ d => d] := by
  have hzero : zeroReceiver.Settled := ⟨rfl, by decide, by decide, rfl⟩
  exact ⟨hzero, (reception_within_iff zeroReceiver hzero _).mpr (by decide +kernel)⟩

/-- A frame with sixteen bytes of address. -/
def wideAddrFrame : List Byte :=
  [0x68, 0x1B, 0x00, 0x43, 0x4F] ++ List.replicate 16 0xAA ++ [0x10, 0x70, 0x72, 0x05, 0x01, 0xEF, 0x93, 0x16]

/-- Three bytes send the tests out of the receive buffer, and a valid frame the decoder out of the address of the record. -/
theorem reception_out_of_bounds :
    ¬ Meets receiverStep Within zeroReceiver [.recv [0x68, 0xFF, 0xFF], .look fun _ d => d] ∧
      ¬ Meets receiverStep Within zeroReceiver [.recv wideAddrFrame, .look fun _ d => d] := by
  have hzero : zeroReceiver.Settled := ⟨rfl, by decide, by decide, rfl⟩
  have hmet (ops : List ReceiverOp) (h : Meets receiverStep Within zeroReceiver ops) :
      Meets receiverStep ReceptionMet zeroReceiver ops :=
    h.imp_of_inv (fun _ _ _ hs _ h => receiverStep_settled hs h) (fun _ op hs h => (withinBounds_iff hs op).mp h) hzero
  exact ⟨fun h => absurd (hmet _ h) (by decide +kernel), fun h => absurd (hmet _ h) (by decide +kernel)⟩

end EnergyRouter
