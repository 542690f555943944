import EnergyRouter.BleReceive
import EnergyRouter.Lemmas.BleFrame

/-!
# The scan and the ring

What the scan does at a frame and at a place it refuses, and what the ring holds between the scan and the analysis.
-/

namespace EnergyRouter

open Buffer

variable {n i k lenth : Nat} {rest zeros : List Byte} {rxData : Vector Byte 1024} {s s' : BleReceiver}
    {respond : Nat → Ble698Frame → Ble698Frame}

/-! ## Places of the buffer -/

/-- The comparison of a receiver over a good block, wherever it stands in the buffer. -/
theorem goodFcs_of_drop (bad : Int) {v : Vector Byte n} {block : List Byte} (h : v.toList.drop i = block ++ rest)
    (hgood : FcsGood block) (hlen : block.length = k + 1) : goodFcs bad v (i + 1 : Nat) k = some 0 := by
  have hdrop : v.toList.drop (i + 1) = block.drop 1 ++ rest := by
    rw [← List.drop_drop, h, List.drop_append_of_le_length (by omega)]
  have htake : (block.drop 1 ++ rest).take k = block.drop 1 := by
    rw [List.take_left' (by rw [List.length_drop]; omega)]
  rw [goodFcs, if_neg (by omega), Int.toNat_natCast, hdrop, pppfcs16_eq _ _ _ (by simp; omega), htake]
  exact if_pos hgood

/-- A frame the decoder can read: its address has room, it has user data, and its length field has no reserved bit set. -/
structure Parts698.Readable (p : Parts698) : Prop where
  addr : p.sAddr.length ≤ 6
  apdu : p.apdu ≠ []
  reserved : p.ReservedClear

instance (p : Parts698) : Decidable p.Readable :=
  decidable_of_iff (p.sAddr.length ≤ 6 ∧ p.apdu ≠ [] ∧ p.ReservedClear)
    ⟨fun ⟨h₁, h₂, h₃⟩ => ⟨h₁, h₂, h₃⟩, fun ⟨h₁, h₂, h₃⟩ => ⟨h₁, h₂, h₃⟩⟩

theorem Parts698.Valid.ullenth {p : Parts698} (hp : p.Valid) (hclear : p.ReservedClear) :
    ullenthOf p.length0 p.length1 + 2 = p.bytes.length := by
  have hmod : p.length1.toNat % 64 = p.length1.toNat := Nat.mod_eq_of_lt hclear
  rw [← hp.length, toNat_lengthMask, hmod, ullenthOf]

theorem bleFrameAt_frame {p : Parts698} (hp : p.Valid) (hclear : p.ReservedClear) (h : rxData.toList.drop i = p.bytes ++ rest) :
    bleFrameAt rxData i = some (some (p.bytes.length - 2)) := by
  have hcell (k : Nat) : rxData[i + k]? = (p.bytes ++ rest)[k]? := by
    rw [← h, List.getElem?_drop, Vector.getElem?_toList]
  have hlen := p.bytes_length
  have hlenth : p.length1.toNat * 256 + p.length0.toNat = p.bytes.length - 2 := Nat.eq_sub_of_add_eq (hp.ullenth hclear)
  have h0 : rxData[i]? = some 0x68 := hcell 0
  have h1 : rxData[i + 1]? = some p.length0 := hcell 1
  have h2 : rxData[i + 2]? = some p.length1 := hcell 2
  have h4 : rxData[i + 4]? = some p.sa := hcell 4
  have hend : rxData[i + (p.bytes.length - 2) + 1]? = some 0x16 := by
    have hlast : p.bytes.length - 2 + 1 = (p.header ++ p.apdu).length + 2 := by
      rw [List.length_append, p.header_length]
      omega
    rw [Nat.add_assoc, hcell, List.getElem?_append_left (by omega), hlast, Parts698.bytes,
      List.getElem?_append_right (Nat.le_add_right _ _), Nat.add_sub_cancel_left]
    rfl
  have hhcs : hcs698 rxData (i + 1 : Nat) ((p.sa &&& 0x0f#8).toNat + 8 : Nat) 0 = some 0 := by
    have hdrop : rxData.toList.drop i = p.header ++ (p.apdu ++ [p.fcs0, p.fcs1, 0x16] ++ rest) := by
      rw [h, Parts698.bytes]
      simp only [List.append_assoc]
    refine goodFcs_of_drop (-1) hdrop hp.hcs ?_
    rw [p.header_length, hp.addr]
    omega
  have hfcs : fcs698 rxData (i + 1 : Nat) (p.bytes.length - 2 : Nat) 0 = some 0 := by
    have hne : p.bytes ≠ [] := by
      rw [← List.length_pos_iff]
      omega
    have hdrop : rxData.toList.drop i = p.bytes.dropLast ++ ([p.bytes.getLast hne] ++ rest) := by
      rw [← List.append_assoc, List.dropLast_append_getLast, h]
    refine goodFcs_of_drop (-2) hdrop hp.fcs ?_
    rw [List.length_dropLast]
    omega
  simp only [bleFrameAt, h0, h1, h2, h4, hlenth, hend, hhcs, hfcs, Option.bind_eq_bind, Option.bind_some, ne_eq, not_true_eq_false,
    if_false]

/-- The check of `n` bytes from a place on, inside of a list. -/
def goodWithin (bytes : List Byte) (i n : Nat) : Option Bool :=
  (pppfcs16Loop pppInitFcs16 (bytes.drop i) n).map fun fcs => decide (fcs = pppGoodFcs16)

/-- The tests for a frame on the bytes received alone: without outcome when they would look at others. -/
def freshFrameAt (bytes : List Byte) (i : Nat) : Option (Option Nat) := do
  let head ← bytes[i]?
  if head ≠ 0x68 then some none
  else
    let high ← bytes[i + 2]?
    let low ← bytes[i + 1]?
    let lenth := high.toNat * 256 + low.toNat
    let last ← bytes[i + lenth + 1]?
    if last ≠ 0x16 then some none
    else
      let sa ← bytes[i + 4]?
      let hcs ← goodWithin bytes (i + 1) ((sa &&& 0x0f#8).toNat + 8)
      if hcs = false then some none
      else
        let fcs ← goodWithin bytes (i + 1) lenth
        if fcs = false then some none else some (some lenth)

theorem goodFcs_eq_goodWithin (bad : Int) (hbad : bad ≠ 0) (v : Vector Byte 1024) (i n : Nat) {β : Type} (f g : Option β) :
    ((goodFcs bad v (i : Nat) n).bind fun res => if res ≠ 0 then f else g) =
      (goodWithin v.toList i n).bind fun good => if good = false then f else g := by
  rw [goodFcs, if_neg (by omega), goodWithin, pppfcs16, if_neg (by omega), Int.toNat_natCast, Int.toNat_natCast]
  cases pppfcs16Loop pppInitFcs16 (v.toList.drop i) n with
  | none => rfl
  | some fcs =>
    by_cases hgood : fcs = pppGoodFcs16
    · simp [hgood]
    · simp [hgood, hbad]

/-- The tests of the source are these on the whole buffer. -/
theorem bleFrameAt_eq (rxData : Vector Byte 1024) (i : Nat) : bleFrameAt rxData i = freshFrameAt rxData.toList i := by
  have hhcs := goodFcs_eq_goodWithin (-1) (by decide) rxData (i + 1) (β := Option Nat)
  have hfcs := goodFcs_eq_goodWithin (-2) (by decide) rxData (i + 1) (β := Option Nat)
  simp only [bleFrameAt, freshFrameAt, Vector.getElem?_toList, Option.bind_eq_bind, hcs698, fcs698, hhcs, hfcs]

theorem freshFrameAt_inv {bytes : List Byte} (h : freshFrameAt bytes i = some (some lenth)) :
    bytes[i]? = some 0x68 ∧ (∃ high low, bytes[i + 2]? = some high ∧ bytes[i + 1]? = some low ∧
      lenth = high.toNat * 256 + low.toNat) ∧ bytes[i + lenth + 1]? = some 0x16 := by
  unfold freshFrameAt at h
  obtain ⟨head, hhead, h⟩ := Option.bind_eq_some_iff.mp h
  split_ifs at h with hstart
  · cases h
  obtain ⟨high, hhigh, h⟩ := Option.bind_eq_some_iff.mp h
  obtain ⟨low, hlow, h⟩ := Option.bind_eq_some_iff.mp h
  obtain ⟨last, hlast, h⟩ := Option.bind_eq_some_iff.mp h
  split_ifs at h with hend
  · cases h
  obtain ⟨sa, -, h⟩ := Option.bind_eq_some_iff.mp h
  obtain ⟨hcs, -, h⟩ := Option.bind_eq_some_iff.mp h
  split_ifs at h with hbad
  · cases h
  obtain ⟨fcs, -, h⟩ := Option.bind_eq_some_iff.mp h
  split_ifs at h with hbad'
  · cases h
  cases h
  rw [not_not.mp hstart] at hhead
  rw [not_not.mp hend] at hlast
  exact ⟨hhead, ⟨high, low, hhigh, hlow, rfl⟩, hlast⟩

theorem bleFrameAt_inv (h : bleFrameAt rxData i = some (some lenth)) :
    rxData[i]? = some 0x68 ∧ (∃ high low, rxData[i + 2]? = some high ∧ rxData[i + 1]? = some low ∧
      lenth = high.toNat * 256 + low.toNat) ∧ rxData[i + lenth + 1]? = some 0x16 := by
  rw [bleFrameAt_eq] at h
  simpa only [Vector.getElem?_toList] using freshFrameAt_inv h

/-- With the length 0 the end character would be the length itself. -/
theorem bleFrameAt_pos (h : bleFrameAt rxData i = some (some lenth)) : 1 ≤ lenth := by
  obtain ⟨-, ⟨high, low, -, hlow, hlenth⟩, hlast⟩ := bleFrameAt_inv h
  by_contra hzero
  have hnil : lenth = 0 := by omega
  rw [hnil, Nat.add_zero, hlow] at hlast
  rw [Option.some.inj hlast] at hlenth
  have hchar : (0x16 : Byte).toNat = 22 := rfl
  omega

theorem getElem?_found {b : Byte} (hk : k < lenth + 2) (hb : rxData[i + k]? = some b) :
    ((rxData.toList.drop i).take (lenth + 2))[k]? = some b := by
  rw [List.getElem?_take_of_lt hk, List.getElem?_drop, Vector.getElem?_toList, hb]

/-! ## The ring -/

theorem nextSlot_eq {slot : Nat} (h : slot < 4) : nextSlot slot = (slot + 1) % 4 := by
  unfold nextSlot
  split_ifs <;> omega

/-- What was copied to the slots since writer and reader stood together, oldest first: the last four are still there. -/
structure SlotRing (dataBuf : Vector Byte 1020) (rxRead rxWrite : Nat) (fs : List (List Byte)) : Prop where
  read : rxRead < 4
  write : rxWrite = (rxRead + fs.length) % 4
  short : ∀ f ∈ fs, f.length ≤ bleSlot
  slots : ∀ k f, fs[k]? = some f → fs.length ≤ k + 4 → f <+: dataBuf.toList.drop ((rxRead + k) % 4 * bleSlot)

section Ring

variable {dataBuf : Vector Byte 1020} {rxRead rxWrite : Nat} {fs : List (List Byte)} {f : List Byte}

/-- A frame goes to the next slot, over the fourth one before it. -/
theorem SlotRing.push (hr : SlotRing dataBuf rxRead rxWrite fs) (hshort : f.length ≤ bleSlot) :
    SlotRing (copyAt dataBuf (rxWrite * bleSlot) f) rxRead (nextSlot rxWrite) (fs ++ [f]) := by
  have hslot : bleSlot = 255 := rfl
  have hread := hr.read
  have hwrite := hr.write
  refine ⟨hread, ?_, ?_, ?_⟩
  · rw [nextSlot_eq (by omega), hwrite, List.length_append, List.length_singleton]
    omega
  · intro g hmem
    rcases List.mem_append.mp hmem with hold | hnew
    · exact hr.short g hold
    · rw [List.mem_singleton.mp hnew]
      exact hshort
  · intro k g hk hlast
    rw [List.length_append, List.length_singleton] at hlast
    rcases Nat.lt_or_ge k fs.length with hold | hnew
    · -- one of the three before stands in another slot
      rw [List.getElem?_append_left hold] at hk
      have hgshort := hr.short g (List.mem_of_getElem? hk)
      refine prefix_copyAt_of_disjoint (hr.slots k g hk (by omega)) _ _ ?_
      rw [hwrite, hslot]
      omega
    · rw [List.getElem?_append_right hnew, List.getElem?_singleton] at hk
      split_ifs at hk with hzero
      rw [← Option.some.inj hk, show (rxRead + k) % 4 = rxWrite by rw [hwrite]; congr 1; omega]
      refine prefix_copyAt_self dataBuf _ _ ?_
      rw [hslot]
      omega

theorem SlotRing.pop (hr : SlotRing dataBuf rxRead rxWrite (f :: fs)) (hroom : fs.length ≤ 2) (hzeros : zeros.length = bleSlot) :
    SlotRing (copyAt dataBuf (rxRead * bleSlot) zeros) (nextSlot rxRead) rxWrite fs := by
  have hslot : bleSlot = 255 := rfl
  have hread := hr.read
  have hwrite := hr.write
  rw [List.length_cons] at hwrite
  rw [nextSlot_eq hread]
  refine ⟨by omega, by omega, fun g hmem => hr.short g (List.mem_cons_of_mem f hmem), ?_⟩
  intro k g hk _
  have hgk : (f :: fs)[k + 1]? = some g := by rw [List.getElem?_cons_succ, hk]
  have hklt : k < fs.length := (List.getElem?_eq_some_iff.mp hk).1
  have hgshort := hr.short g (List.mem_of_getElem? hgk)
  rw [show ((rxRead + 1) % 4 + k) % 4 = (rxRead + (k + 1)) % 4 by omega]
  refine prefix_copyAt_of_disjoint (hr.slots (k + 1) g hgk (by rw [List.length_cons]; omega)) _ _ ?_
  rw [hzeros, hslot]
  omega

/-- When the writer went around, what it wrote before that is out of the ring. -/
theorem SlotRing.pending (hr : SlotRing dataBuf rxRead rxWrite fs) :
    SlotRing dataBuf rxRead rxWrite (fs.drop (fs.length - fs.length % 4)) := by
  have hread := hr.read
  refine ⟨hread, ?_, fun f hmem => hr.short f (List.mem_of_mem_drop hmem), ?_⟩
  · rw [hr.write, List.length_drop]
    omega
  · intro k f hk _
    rw [List.getElem?_drop] at hk
    have hslots := hr.slots _ f hk (by omega)
    rwa [show (rxRead + (fs.length - fs.length % 4 + k)) % 4 = (rxRead + k) % 4 by omega] at hslots

theorem slotRing_nil (dataBuf : Vector Byte 1020) (hread : rxRead < 4) (hwrite : rxWrite = rxRead) :
    SlotRing dataBuf rxRead rxWrite [] := by
  refine ⟨hread, ?_, nofun, nofun⟩
  rw [hwrite, List.length_nil, Nat.add_zero, Nat.mod_eq_of_lt hread]

theorem SlotRing.write_eq_read (hr : SlotRing dataBuf rxRead rxWrite []) : rxWrite = rxRead := by
  rw [hr.write, List.length_nil, Nat.add_zero, Nat.mod_eq_of_lt hr.read]

theorem SlotRing.write_ne_read (hr : SlotRing dataBuf rxRead rxWrite (f :: fs)) (hroom : fs.length ≤ 2) : rxWrite ≠ rxRead := by
  have hread := hr.read
  have hwrite := hr.write
  rw [List.length_cons] at hwrite
  omega

theorem SlotRing.oldest (hr : SlotRing dataBuf rxRead rxWrite (f :: fs)) (hroom : fs.length ≤ 2) :
    f <+: dataBuf.toList.drop (rxRead * bleSlot) := by
  have hfirst := hr.slots 0 f rfl (by rw [List.length_cons]; omega)
  rwa [Nat.add_zero, Nat.mod_eq_of_lt hr.read] at hfirst

end Ring

/-- What the scan leaves alone. -/
structure SameReader (s s' : BleReceiver) : Prop where
  rxData : s'.rxData = s.rxData
  rxRead : s'.rxRead = s.rxRead
  inAT : s'.recv698InAT = s.recv698InAT
  analysed : s'.analysed = s.analysed

theorem SameReader.refl (s : BleReceiver) : SameReader s s := ⟨rfl, rfl, rfl, rfl⟩

theorem bleEnqueue_slotRing {fs : List (List Byte)} (hr : SlotRing s.dataBuf s.rxRead s.rxWrite fs) {f : List Byte}
    (h : s.rxData.toList.drop i = f ++ rest) (hlen : f.length = lenth + 2) (hshort : f.length ≤ bleSlot) :
    ∃ s', bleEnqueue i lenth s = some s' ∧ SameReader s s' ∧ SlotRing s'.dataBuf s'.rxRead s'.rxWrite (fs ++ [f]) ∧
      s'.enqueued = s.enqueued ++ [f] := by
  have hslot : bleSlot = 255 := rfl
  have hread := hr.read
  have hwrite := hr.write
  have hfits : s.rxWrite * bleSlot + f.length ≤ 1020 := by
    rw [hslot]
    omega
  have hle : f.length ≤ (f ++ rest).length := by
    rw [List.length_append]
    exact Nat.le_add_right _ _
  have hblit : blit s.dataBuf (s.rxWrite * bleSlot) (f ++ rest) f.length = some (copyAt s.dataBuf (s.rxWrite * bleSlot) f) := by
    rw [blit, if_pos ⟨hfits, hle⟩, List.take_left]
  have hpush := hr.push hshort
  unfold bleEnqueue
  rw [← hlen, h, hblit, List.take_left]
  generalize copyAt s.dataBuf (s.rxWrite * bleSlot) f = dataBuf at hpush
  generalize nextSlot s.rxWrite = rxWrite at hpush
  refine ⟨_, rfl, ?_, ?_, rfl⟩
  · exact ⟨rfl, rfl, rfl, rfl⟩
  · exact hpush

/-! ## The analysis -/

/-- The header of a record that was unpacked from a buffer, and the room its two copies needed. -/
structure Ble698Frame.UnpackedFrom (buf : List Byte) (devRecv : Ble698Frame) : Prop where
  head : devRecv.head = 0x68
  uclenth0 : buf[1]? = some devRecv.uclenth0
  uclenth1 : buf[2]? = some devRecv.uclenth1
  sa : buf[4]? = some devRecv.sa
  addr : addrLenthOf devRecv.sa ≤ 6
  apdu : apduLenthOf (ullenthOf devRecv.uclenth0 devRecv.uclenth1 + 2) (addrLenthOf devRecv.sa) ≤ 512
  endChar : buf[ullenthOf devRecv.uclenth0 devRecv.uclenth1 + 1]? = some devRecv.endChar

theorem ble698DataUnPackage_inv {old devRecv : Ble698Frame} {buf : List Byte} {res : RtErr}
    (h : ble698DataUnPackage old buf = some (res, devRecv)) :
    (res = .error ∧ buf[0]? ≠ some 0x68) ∨ (res = .eok ∧ devRecv.UnpackedFrom buf) := by
  unfold ble698DataUnPackage at h
  obtain ⟨head, hhead, h⟩ := Option.bind_eq_some_iff.mp h
  split_ifs at h with hstart
  · obtain ⟨rfl, -⟩ := Prod.mk.inj (Option.some.inj h)
    refine .inl ⟨rfl, fun hsome => hstart ?_⟩
    rw [hhead] at hsome
    exact Option.some.inj hsome
  obtain ⟨uclenth0, hlow, h⟩ := Option.bind_eq_some_iff.mp h
  obtain ⟨uclenth1, hhigh, h⟩ := Option.bind_eq_some_iff.mp h
  obtain ⟨ucControl, -, h⟩ := Option.bind_eq_some_iff.mp h
  obtain ⟨sa, hsa, h⟩ := Option.bind_eq_some_iff.mp h
  obtain ⟨addr, haddr, h⟩ := Option.bind_eq_some_iff.mp h
  obtain ⟨ca, -, h⟩ := Option.bind_eq_some_iff.mp h
  obtain ⟨ucHcs0, -, h⟩ := Option.bind_eq_some_iff.mp h
  obtain ⟨ucHcs1, -, h⟩ := Option.bind_eq_some_iff.mp h
  obtain ⟨apduCmd, -, h⟩ := Option.bind_eq_some_iff.mp h
  obtain ⟨apduData, hdata, h⟩ := Option.bind_eq_some_iff.mp h
  obtain ⟨ucFcs0, -, h⟩ := Option.bind_eq_some_iff.mp h
  obtain ⟨ucFcs1, -, h⟩ := Option.bind_eq_some_iff.mp h
  obtain ⟨endChar, hend, h⟩ := Option.bind_eq_some_iff.mp h
  obtain ⟨rfl, rfl⟩ := Prod.mk.inj (Option.some.inj h)
  rw [blit, Nat.zero_add] at haddr hdata
  split_ifs at haddr with hroom
  split_ifs at hdata with hroom'
  exact .inr ⟨rfl, ⟨not_not.mp hstart, hlow, hhigh, hsa, hroom.1, hroom'.1, hend⟩⟩

/-- The fields of a record that was unpacked. -/
def Ble698Frame.parts (d : Ble698Frame) : Parts698 where
  length0 := d.uclenth0
  length1 := d.uclenth1
  control := d.ucControl
  sa := d.sa
  sAddr := d.addr.toList.take (addrLenthOf d.sa)
  ca := d.ca
  hcs0 := d.ucHcs0
  hcs1 := d.ucHcs1
  apdu := d.apduCmd :: d.apduData.toList.take (apduLenthOf (ullenthOf d.uclenth0 d.uclenth1 + 2) (addrLenthOf d.sa))
  fcs0 := d.ucFcs0
  fcs1 := d.ucFcs1

theorem ble698DataUnPackage_readable {p : Parts698} (hp : p.Valid) (hreadable : p.Readable) (hshort : p.bytes.length ≤ bleSlot)
    (devRecv : Ble698Frame) (rest : List Byte) :
    ∃ d, ble698DataUnPackage devRecv (p.bytes ++ rest) = some (.eok, d) ∧ d.parts = p := by
  have hlen := p.bytes_length
  have hslot : bleSlot = 255 := rfl
  have haddr := hreadable.addr
  have hnibble : p.sAddr.length = addrLenthOf p.sa := hp.addr
  have htotal := hp.ullenth hreadable.reserved
  obtain ⟨cmd, params, happ⟩ := List.exists_cons_of_ne_nil hreadable.apdu
  have hparams : p.apdu.length = params.length + 1 := by rw [happ, List.length_cons]
  refine ⟨_, ble698DataUnPackage_parts devRecv rest hnibble haddr happ (by omega) htotal, ?_⟩
  have hsAddr : (copyAt devRecv.addr 0 p.sAddr).toList.take p.sAddr.length = p.sAddr := mid_copyAt devRecv.addr 0 p.sAddr (by omega)
  have hdata : (copyAt devRecv.apduData 0 params).toList.take params.length = params :=
    mid_copyAt devRecv.apduData 0 params (by omega)
  have hcount : apduLenthOf p.bytes.length p.sAddr.length = params.length := by
    rw [apduLenthOf_of_le (by omega)]
    omega
  show Parts698.mk p.length0 p.length1 p.control p.sa ((copyAt devRecv.addr 0 p.sAddr).toList.take (addrLenthOf p.sa))
    p.ca p.hcs0 p.hcs1
    (cmd :: (copyAt devRecv.apduData 0 params).toList.take (apduLenthOf (ullenthOf p.length0 p.length1 + 2) (addrLenthOf p.sa)))
    p.fcs0 p.fcs1 = p
  rw [htotal, ← hnibble, hcount, hsAddr, hdata, ← happ]

/-- A turn whose slot was unpacked hands the record over, clears the slot and goes on to the next. -/
theorem bleAnalyse_unpacked (respond : Nat → Ble698Frame → Ble698Frame) (hread : s.rxRead < 4) {out : RtErr × Ble698Frame}
    (h : ble698DataUnPackage s.frame (s.dataBuf.toList.drop (s.rxRead * bleSlot)) = some out) :
    ∃ zeros : List Byte, zeros.length = bleSlot ∧ bleAnalyse respond s = some { bleHand respond s out with
      dataBuf := copyAt s.dataBuf (s.rxRead * bleSlot) zeros, rxRead := nextSlot s.rxRead } := by
  have hslot : bleSlot = 255 := rfl
  have hzeros : (List.replicate bleSlot (0 : Byte)).length = bleSlot := List.length_replicate
  refine ⟨List.replicate bleSlot 0, hzeros, ?_⟩
  unfold bleAnalyse
  rw [h]
  generalize List.replicate bleSlot (0 : Byte) = zeros at hzeros
  have hfits : s.rxRead * bleSlot + bleSlot ≤ 1020 := by
    rw [hslot]
    omega
  have hblit := blit_of_length (v := s.dataBuf) hzeros hfits
  rcases out with ⟨res, d⟩
  cases res <;> simp only [Option.bind_eq_bind, Option.bind_some, bleHand, hblit]

/-- What a turn of the loop over the ring does apart from the record, whatever is in the slot. -/
theorem bleAnalyse_inv (h : bleAnalyse respond s = some s') :
    s'.recv698InAT = s.recv698InAT ∧ s'.rxRead = nextSlot s.rxRead := by
  obtain ⟨⟨res, d⟩, -, h⟩ := Option.bind_eq_some_iff.mp h
  obtain ⟨dataBuf, -, h⟩ := Option.bind_eq_some_iff.mp h
  cases res <;> (cases h; exact ⟨rfl, rfl⟩)

/-- The loop ends with nothing in the ring, and keeps what every turn keeps. -/
theorem bleDrain_keeps {inv : BleReceiver → Prop} (hturn : ∀ s s', inv s → bleAnalyse respond s = some s' → inv s') (hs : inv s)
    (h : bleDrain respond n s = some s') : inv s' ∧ s'.rxWrite = s'.rxRead := by
  induction n generalizing s with
  | zero =>
    rw [bleDrain] at h
    split_ifs at h with hempty
    cases h
    exact ⟨hs, hempty⟩
  | succ n ih =>
    rw [bleDrain] at h
    split_ifs at h with hempty
    · cases h
      exact ⟨hs, hempty⟩
    · obtain ⟨s₁, hanalyse, h⟩ := Option.bind_eq_some_iff.mp h
      exact ih (hturn s s₁ hs hanalyse) h

theorem bleAnalyse_readable (respond : Nat → Ble698Frame → Ble698Frame) {p : Parts698} {fs : List (List Byte)}
    (hr : SlotRing s.dataBuf s.rxRead s.rxWrite (p.bytes :: fs)) (hroom : fs.length ≤ 2) (hp : p.Valid) (hreadable : p.Readable) :
    ∃ s', bleAnalyse respond s = some s' ∧ SlotRing s'.dataBuf s'.rxRead s'.rxWrite fs ∧ s'.rxData = s.rxData ∧
      s'.recv698InAT = s.recv698InAT ∧ s'.analysed.map Ble698Frame.parts = s.analysed.map Ble698Frame.parts ++ [p] := by
  obtain ⟨rest, hrest⟩ := hr.oldest hroom
  obtain ⟨d, hd, hparts⟩ := ble698DataUnPackage_readable hp hreadable (hr.short _ (List.mem_cons_self ..)) s.frame rest
  rw [hrest] at hd
  obtain ⟨zeros, hzeros, hanalyse⟩ := bleAnalyse_unpacked respond hr.read hd
  refine ⟨_, hanalyse, hr.pop hroom hzeros, rfl, rfl, ?_⟩
  rw [bleHand, List.map_append, List.map_singleton, hparts]

/-- The loop over the ring analyses the frames in it, each once and in their order. -/
theorem bleDrain_readable (respond : Nat → Ble698Frame → Ble698Frame) {ps : List Parts698}
    (hr : SlotRing s.dataBuf s.rxRead s.rxWrite (ps.map Parts698.bytes)) (hroom : ps.length ≤ 3)
    (hps : ∀ p ∈ ps, p.Valid ∧ p.Readable) (hn : ps.length ≤ n) :
    ∃ s', bleDrain respond n s = some s' ∧ SlotRing s'.dataBuf s'.rxRead s'.rxWrite [] ∧ s'.rxData = s.rxData ∧
      s'.recv698InAT = s.recv698InAT ∧ s'.analysed.map Ble698Frame.parts = s.analysed.map Ble698Frame.parts ++ ps := by
  induction ps generalizing s n with
  | nil =>
    refine ⟨s, ?_, hr, rfl, rfl, (List.append_nil _).symm⟩
    cases n <;> exact if_pos hr.write_eq_read
  | cons p ps ih =>
    rw [List.length_cons] at hroom hn
    obtain ⟨n, rfl⟩ : ∃ m, n = m + 1 := ⟨n - 1, by omega⟩
    have hshort : (ps.map Parts698.bytes).length ≤ 2 := by rw [List.length_map]; omega
    obtain ⟨hp, hreadable⟩ := hps p (List.mem_cons_self ..)
    obtain ⟨s₁, hanalyse, hr₁, hdata₁, hat₁, hanalysed₁⟩ := bleAnalyse_readable respond hr hshort hp hreadable
    obtain ⟨s₂, hdrain, hr₂, hdata₂, hat₂, hanalysed₂⟩ :=
      ih hr₁ (by omega) (fun q hmem => hps q (List.mem_cons_of_mem p hmem)) (Nat.le_of_succ_le_succ hn)
    refine ⟨s₂, ?_, hr₂, hdata₂.trans hdata₁, hat₂.trans hat₁, ?_⟩
    · rw [bleDrain, if_neg (hr.write_ne_read hshort), hanalyse, Option.bind_some, hdrain]
    · rw [hanalysed₂, hanalysed₁, List.append_assoc, List.singleton_append]

/-! ## A look -/

/-- What the thread leaves of the receiver when it has looked. -/
def BleReceiver.looked (s : BleReceiver) : BleReceiver :=
  { s with
    atMode := s.atMode || decide (bleDisconn <:+: s.rxData.toList.takeWhile (· ≠ 0))
    rxBeg := false
    rxPtr := 0
    rxPre := 0 }

/-- A scan that comes to its end finds something when there is something in the ring. -/
theorem bleCheckDataToBuf_of_scan {s₀ s₁ : BleReceiver} (htake : bleTakeGetAddr s = some s₀) (hpre : s₀.rxPre = 0)
    (hscan : bleScan s₀.rxPtr 0 s₀ = some (true, s₁)) :
    bleCheckDataToBuf s = some (if s₁.rxWrite ≠ s₁.rxRead then .eok else .error, s₁) := by
  simp only [bleCheckDataToBuf, htake, Option.bind_eq_bind, Option.bind_some, hpre, Nat.sub_zero, hscan, true_and]

/-- An empty ring is left alone, which is what the loop over it would do. -/
theorem bleTransRecv_of_check {s₁ : BleReceiver}
    (hcheck : bleCheckDataToBuf s = some (if s₁.rxWrite ≠ s₁.rxRead then .eok else .error, s₁)) :
    bleTransRecv respond s = (bleDrain respond 4 s₁).map BleReceiver.looked := by
  unfold bleTransRecv
  simp only [hcheck, Option.bind_eq_bind, Option.bind_some]
  by_cases hempty : s₁.rxWrite = s₁.rxRead
  · rw [bleDrain, if_pos hempty, if_neg (not_not.mpr hempty)]
    rfl
  · rw [if_pos hempty, if_pos rfl]
    cases bleDrain respond 4 s₁ <;> rfl

end EnergyRouter
