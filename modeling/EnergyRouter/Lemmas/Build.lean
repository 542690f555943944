import EnergyRouter.Build
import EnergyRouter.Lemmas.Resync

/-!
# What the builders leave in the buffer

`frameOf` is the frame around user data, as one list. The builders, which write gaps and patch them, leave exactly such a frame
(`openFrame_stored`, `closeFrame_stored`), and it is well-formed.
-/

namespace EnergyRouter

open Buffer TableCrc

variable {l sAddr apdu bs bs' : List Byte} {d d' d'' : CharPointDataManage} {addr : Addr698} {sa : Byte}

/-! ## Writing to the end of a buffer -/

theorem Stored.frame (h : Stored l d) (f : Frame698) :
    Stored l { d with frame698 := f } := ⟨h.size, h.dataSize, h.contents⟩

theorem Stored.put (h : Stored l d) (bs : List Byte) (hle : l.length + bs.length ≤ 1023) : Stored (l ++ bs) (putBytes d bs) := by
  obtain ⟨hsize, hdata, hcont⟩ := h
  rw [kept_of_le (by omega)] at hdata hcont
  have hcopy := front_copyAt d.priveData d.dataSize bs (by rw [hplcDataMaxSize]; omega)
  rw [putBytes, saveCharPointData, if_neg (by omega), if_pos (by rw [hsize, hplcDataMaxSize]; omega)]
  refine ⟨hsize, ?_, ?_⟩
  · rw [kept_of_le (by rw [List.length_append]; omega), List.length_append, ← hdata]
    rfl
  · rw [kept_of_le (by rw [List.length_append]; omega), ← hcont, CharPointDataManage.contents, CharPointDataManage.contents,
      ← hcopy]
    simp

theorem Stored.skip (h : Stored l d) (hle : l.length + 2 ≤ 1023) :
    ∃ x y, Stored (l ++ [x, y]) (skipTwo d) := by
  obtain ⟨hsize, hdata, hcont⟩ := h
  rw [kept_of_le (by omega)] at hdata hcont
  have hadd := front_add d.priveData d.dataSize 2
  have hlen : ((d.priveData.toList.drop d.dataSize).take 2).length = 2 := by
    rw [List.length_take, List.length_drop, Vector.length_toList, hplcDataMaxSize]
    omega
  obtain ⟨x, y, hxy⟩ := List.length_eq_two.mp hlen
  refine ⟨x, y, hsize, ?_, ?_⟩
  · rw [kept_of_le (by simp; omega), List.length_append, ← hdata]
    rfl
  · rw [kept_of_le (by simp; omega), CharPointDataManage.contents]
    show front d.priveData (d.dataSize + 2) = _
    rw [hadd, hxy, ← hcont, CharPointDataManage.contents]

/-- What storing `bs` behind the bytes in use does, a run at a time: runs that find no room are left out. -/
structure Puts (bs : List Byte) (d d' : CharPointDataManage) : Prop where
  size : d'.size = d.size
  frame698 : d'.frame698 = d.frame698
  dataSize : d.dataSize ≤ d'.dataSize
  dataSize_le : d'.dataSize ≤ d.dataSize + bs.length
  bounded : d.size = hplcDataMaxSize → d'.dataSize ≤ max d.dataSize 1023
  cells : ∀ i < d.dataSize, d'.priveData[i]? = d.priveData[i]?
  stored : ∀ {l : List Byte}, Stored l d → l.length + bs.length ≤ 1023 → Stored (l ++ bs) d'

theorem puts_nil (d : CharPointDataManage) : Puts [] d d := by
  refine ⟨rfl, rfl, Nat.le_refl _, Nat.le_refl _, fun _ => Nat.le_max_left _ _, fun _ _ => rfl, ?_⟩
  intro l h _
  rw [List.append_nil]
  exact h

theorem Puts.trans (h : Puts bs d d') (h' : Puts bs' d' d'') : Puts (bs ++ bs') d d'' := by
  have hlow := h.dataSize_le
  have hlow' := h'.dataSize_le
  refine ⟨h'.size.trans h.size, h'.frame698.trans h.frame698, Nat.le_trans h.dataSize h'.dataSize, ?_, ?_, ?_, ?_⟩
  · rw [List.length_append]
    omega
  · intro hsize
    have hmax := h.bounded hsize
    have hmax' := h'.bounded (h.size.trans hsize)
    omega
  · exact fun i hi => (h'.cells i (Nat.lt_of_lt_of_le hi h.dataSize)).trans (h.cells i hi)
  · intro l hl hle
    rw [List.length_append] at hle
    rw [← List.append_assoc]
    exact h'.stored (h.stored hl (by omega)) (by rw [List.length_append]; omega)

theorem puts_putBytes (d : CharPointDataManage) (bs : List Byte) : Puts bs d (putBytes d bs) := by
  refine ⟨?_, ?_, ?_, ?_, fun hsize => ?_, fun i hi => ?_, fun h => h.put bs⟩ <;> rw [putBytes, saveCharPointData] <;>
    split_ifs with hneg hroom
  any_goals rfl
  any_goals exact Nat.le_add_right _ _
  any_goals exact Nat.le_max_left _ _
  · rw [hsize, hplcDataMaxSize] at hroom
    dsimp only
    omega
  · exact getElem?_copyAt _ _ _ (.inl hi)

theorem Puts.put (h : Puts bs d d') (bs' : List Byte) : Puts (bs ++ bs') d (putBytes d' bs') := h.trans (puts_putBytes d' bs')

theorem puts_foldl (d : CharPointDataManage) (runs : List (List Byte)) : Puts runs.flatten d (runs.foldl putBytes d) := by
  induction runs generalizing d with
  | nil => exact puts_nil d
  | cons run runs ih => exact (puts_putBytes d run).trans (ih _)

theorem puts_putEach (d : CharPointDataManage) (bs : List Byte) : Puts bs d (putEach d bs) := by
  induction bs generalizing d with
  | nil => exact puts_nil d
  | cons b bs ih => exact (puts_putBytes d [b]).trans (ih _)

theorem Puts.each (h : Puts bs d d') (bs' : List Byte) : Puts (bs ++ bs') d (putEach d' bs') := h.trans (puts_putEach d' bs')

theorem Stored.each (h : Stored l d) (bs : List Byte) (hle : l.length + bs.length ≤ 1023) : Stored (l ++ bs) (putEach d bs) :=
  (puts_putEach d bs).stored h hle

theorem stored_contents (hsize : d.size = hplcDataMaxSize) (hle : d.dataSize ≤ 1023) :
    d.contents.length = d.dataSize ∧ Stored d.contents d := by
  have hlen : d.contents.length = d.dataSize := front_length (by rw [hplcDataMaxSize]; omega)
  have hkept : kept d.contents = d.contents := kept_of_le (by omega)
  exact ⟨hlen, hsize, by rw [hkept, hlen], hkept.symm⟩

theorem Puts.contents (h : Puts bs d d') (hsize : d.size = hplcDataMaxSize) (hfits : d.dataSize + bs.length ≤ 1023) :
    d'.contents = d.contents ++ bs := by
  obtain ⟨hlen, hstored⟩ := stored_contents hsize (by omega)
  rw [(h.stored hstored (by omega)).contents, kept_of_le (by rw [List.length_append]; omega)]

/-! ## The state of a charge plan -/

/-- Five tagged values as bytes. -/
def valueBytes (values : Vector (BitVec 32) 5) : List Byte :=
  [1, 5] ++ values.toList.flatMap fun v => 5 :: bytesOf32 v

/-- The state of a charge plan as bytes. -/
def exeStateBytes (p : ChargeExeState) : List Byte :=
  [2#8, 12, 9, 16] ++ p.cRequestNO.toList.take 16 ++ [10#8, 22] ++ p.cAssetNO.toList.take 22 ++ [22#8, p.exeState] ++
    valueBytes p.ulEleActualValue ++ valueBytes p.ulEleActualValue ++ valueBytes p.ucChargeEle ++
    6#8 :: bytesOf32 p.ucChargeTime ++ 5#8 :: bytesOf32 p.ucPlanPower ++ 5#8 :: bytesOf32 p.ucActualPower ++
    [1#8, 1, 18, ((p.ucVoltage &&& 0xff00#16) >>> 8).setWidth 8, (p.ucVoltage &&& 0x00ff#16).setWidth 8] ++
    [1#8, 1, 5] ++ bytesOf32 p.ucCurrent ++ [22#8, p.chgPileState]

theorem bytesOf32_length (v : BitVec 32) : (bytesOf32 v).length = 4 := rfl

theorem flatMap_length (vs : List (BitVec 32)) : (vs.flatMap fun v => 5 :: bytesOf32 v).length = 5 * vs.length := by
  induction vs with
  | nil => rfl
  | cons v vs ih =>
    rw [List.flatMap_cons, List.length_append, ih, List.length_cons, List.length_cons, bytesOf32_length]
    omega

theorem valueBytes_length (values : Vector (BitVec 32) 5) : (valueBytes values).length = 27 := by
  rw [valueBytes, List.length_append, flatMap_length, Vector.length_toList]
  rfl

theorem exeStateBytes_length (p : ChargeExeState) : (exeStateBytes p).length = 156 := by
  simp [exeStateBytes, valueBytes_length, bytesOf32_length]

theorem puts_putValues (d : CharPointDataManage) (values : Vector (BitVec 32) 5) : Puts (valueBytes values) d (putValues d values) := by
  have hfold : ∀ (vs : List (BitVec 32)) (d : CharPointDataManage),
      Puts (vs.flatMap fun v => 5 :: bytesOf32 v) d (vs.foldl (fun d v => putEach d (5 :: bytesOf32 v)) d) := by
    intro vs
    induction vs with
    | nil => exact puts_nil
    | cons v vs ih => exact fun d => (puts_putEach d (5 :: bytesOf32 v)).trans (ih _)
  exact (puts_putEach d [1, 5]).trans (hfold _ _)

theorem Puts.values (h : Puts bs d d') (values : Vector (BitVec 32) 5) : Puts (bs ++ valueBytes values) d (putValues d' values) :=
  h.trans (puts_putValues d' values)

theorem puts_chargeExeStatePackage (p : ChargeExeState) (d : CharPointDataManage) :
    Puts (exeStateBytes p) d (chargeExeStatePackage p d) := by
  rw [exeStateBytes, List.append_assoc _ [1#8, 1, 5]]
  exact (puts_putEach d [2, 12, 9, 16]).put _ |>.each _ |>.put _ |>.each _ |>.values _ |>.values _ |>.values _ |>.each _ |>.each _
    |>.each _ |>.each _ |>.each _ |>.each _

/-! ## Frames as lists -/

/-- The header of a frame, without its check: `len` is the number of bytes between the start and the end character. -/
def headerOf (control sa : Byte) (sAddr : List Byte) (ca : Byte) (len : Nat) : List Byte :=
  [0x68, BitVec.ofNat 8 (len % 256), BitVec.ofNat 8 (len / 256), control, sa] ++ sAddr ++ [ca]

/-- The bytes of a frame up to its frame check. -/
def bodyOf (control sa : Byte) (sAddr : List Byte) (ca : Byte) (apdu : List Byte) : List Byte :=
  let header := headerOf control sa sAddr ca (apdu.length + 15)
  header ++ check (fcsOf (header.drop 1)) ++ apdu

/-- The frame around a piece of user data, for a server address of six bytes. -/
def frameOf (control sa : Byte) (sAddr : List Byte) (ca : Byte) (apdu : List Byte) : List Byte :=
  let body := bodyOf control sa sAddr ca apdu
  body ++ check (fcsOf (body.drop 1)) ++ [0x16]

theorem saveCharPointData_take (d : CharPointDataManage) (l : List Byte) {k : Nat} (h : k ≤ l.length) :
    (saveCharPointData d d.dataSize l k).2 = putBytes d (l.take k) := by
  rw [putBytes, saveCharPointData, saveCharPointData, List.length_take_of_le h, Int.toNat_natCast, List.take_take,
    Nat.min_self]

theorem Stored.dataSize_eq (h : Stored l d) (hle : l.length ≤ 1023) :
    d.dataSize = l.length := by
  rw [h.dataSize, kept_of_le hle]

/-- The first part of an answer with a server address of six bytes, the gaps holding what the buffer held. -/
theorem openResponse_stored (head : Byte) (hsize : d.size = hplcDataMaxSize) (control : Byte) (haddr : addr.sAddrLen = 6) :
    (∃ g₁ g₂ g₃ g₄, Stored ([head, g₁, g₂, control, addr.sa] ++ addr.sAddr.toList.take 6 ++ [addr.ca, g₃, g₄])
      (openResponse head d control addr).1) ∧
    (openResponse head d control addr).2 = (1, 12) ∧ (openResponse head d control addr).1.frame698.usrData = 14 := by
  have hempty : Stored [] { d with dataSize := 0 } := by
    refine ⟨hsize, rfl, ?_⟩
    simp [CharPointDataManage.contents, kept]
  have hstart := hempty.each [head] (by simp)
  obtain ⟨g₁, g₂, hgap⟩ := hstart.skip (by simp)
  have hctrl := hgap.each [control, addr.sa] (by simp)
  have haddress := hctrl.put (addr.sAddr.toList.take 6) (by simp)
  have hca := haddress.each [addr.ca] (by simp)
  obtain ⟨g₃, g₄, hhead⟩ := hca.skip (by simp)
  have hlenPos := hstart.dataSize_eq (by simp)
  have hhcsPos := hca.dataSize_eq (by simp)
  have hsave := saveCharPointData_take (putEach (skipTwo (putEach { d with dataSize := 0 } [head])) [control, addr.sa])
    addr.sAddr.toList (by simp : 6 ≤ addr.sAddr.toList.length)
  rw [show ((6 : Nat) : Int) = addr.sAddrLen from haddr.symm] at hsave
  simp only [openResponse]
  rw [hsave, hlenPos, hhcsPos, haddr]
  refine ⟨⟨g₁, g₂, g₃, g₄, ?_⟩, ?_, rfl⟩
  · have hlist : [head] ++ [g₁, g₂] ++ [control, addr.sa] ++ addr.sAddr.toList.take 6 ++ [addr.ca] ++ [g₃, g₄] =
        [head, g₁, g₂, control, addr.sa] ++ addr.sAddr.toList.take 6 ++ [addr.ca, g₃, g₄] := by simp
    rw [← hlist]
    exact hhead.frame _
  · simp

theorem openFrame_stored (hsize : d.size = hplcDataMaxSize) (control : Byte) (haddr : addr.sAddrLen = 6) :
    (∃ g₁ g₂ g₃ g₄, Stored ([0x68, g₁, g₂, control, addr.sa] ++ addr.sAddr.toList.take 6 ++ [addr.ca, g₃, g₄])
      (openFrame d control addr).1) ∧
    (openFrame d control addr).2 = (1, 12) ∧ (openFrame d control addr).1.frame698.usrData = 14 := by
  have hsame : openFrame d control addr = openResponse 0x68 d control addr := by
    simp only [openFrame, openResponse]
  rw [hsame]
  exact openResponse_stored 0x68 hsize control haddr

theorem headerOf_length (control sa : Byte) (ca : Byte) (len : Nat) (h : sAddr.length = 6) :
    (headerOf control sa sAddr ca len).length = 12 := by
  simp [headerOf, h]

theorem bodyOf_length (control sa : Byte) (ca : Byte) (apdu : List Byte) (h : sAddr.length = 6) :
    (bodyOf control sa sAddr ca apdu).length = 14 + apdu.length := by
  simp only [bodyOf, List.length_append, headerOf_length control sa ca _ h]
  rfl

theorem frameOf_length (control sa : Byte) (ca : Byte) (apdu : List Byte) (h : sAddr.length = 6) :
    (frameOf control sa sAddr ca apdu).length = apdu.length + 17 := by
  simp only [frameOf, List.length_append, bodyOf_length control sa ca apdu h]
  show 14 + apdu.length + 2 + 1 = _
  omega

theorem closeFrame_result {lenPosition hcsPosition : Nat} {result : Int}
    (h : closeFrame d lenPosition hcsPosition false = some (result, d')) : result = 0 := by
  simp only [closeFrame, Bool.false_eq_true, false_and, if_false, Option.bind_eq_bind, Option.bind_eq_some_iff] at h
  obtain ⟨_, _, ⟨result', bytes⟩, htry, h⟩ := h
  cases h
  exact tryfcs16_result htry

/-- Closing a frame around user data patches the gaps: what is left is the frame as a list. -/
theorem closeFrame_stored {control ca g₁ g₂ g₃ g₄ : Byte}
    (hs : Stored ([0x68, g₁, g₂, control, sa] ++ sAddr ++ [ca, g₃, g₄] ++ apdu) d) (haddr : sAddr.length = 6)
    (hlen : apdu.length + 17 ≤ 1023) (checksSize : Bool) :
    ∃ d', closeFrame d 1 12 checksSize = some (0, d') ∧ Stored (frameOf control sa sAddr ca apdu) d' ∧
      d'.frame698.usrData = d.frame698.usrData ∧ d'.frame698.usrDataLen = apdu.length := by
  have hsize := hs.dataSize_eq (by simp [haddr]; omega)
  obtain ⟨c₁, c₂, hgap⟩ := hs.skip (by simp [haddr]; omega)
  have hend := hgap.each [0x16] (by simp [haddr]; omega)
  have hn := hend.dataSize_eq (by simp [haddr]; omega)
  simp only [List.length_append, List.length_cons, List.length_nil, haddr] at hsize hn
  have hn' : (putEach (skipTwo d) [0x16]).dataSize = apdu.length + 17 := by omega
  have hfront : front (putEach (skipTwo d) [0x16]).priveData (apdu.length + 17) =
      [0x68, g₁, g₂, control, sa] ++ sAddr ++ [ca, g₃, g₄] ++ apdu ++ [c₁, c₂] ++ [0x16] := by
    have := hend.contents
    rw [CharPointDataManage.contents, hn', kept_of_le (by simp [haddr]; omega)] at this
    exact this
  generalize hbytes : (putEach (skipTwo d) [0x16]).priveData = bytes at hfront
  -- the length field
  have hlength : front ((bytes.setIfInBounds 1 (BitVec.ofNat 8 ((apdu.length + 15) % 256))).setIfInBounds (1 + 1)
      (BitVec.ofNat 8 ((apdu.length + 15) / 256))) (apdu.length + 17) =
      headerOf control sa sAddr ca (apdu.length + 15) ++ [g₃, g₄] ++ (apdu ++ [c₁, c₂, 0x16]) := by
    rw [front_set, front_set, hfront]
    simp [headerOf]
  generalize hbytes₀ : (bytes.setIfInBounds 1 (BitVec.ofNat 8 ((apdu.length + 15) % 256))).setIfInBounds (1 + 1)
      (BitVec.ofNat 8 ((apdu.length + 15) / 256)) = bytes₀ at hlength
  -- the header check
  have hhead := headerOf_length control sa ca (apdu.length + 15) haddr
  have hheader : front bytes₀ 12 = headerOf control sa sAddr ca (apdu.length + 15) := by
    rw [List.append_assoc] at hlength
    have := front_of_append hlength (by omega)
    rw [hhead] at this
    exact this
  have hhcs := tryfcs16_eq bytes₀ 12 (by omega) (by rw [hplcDataMaxSize]; omega)
  have hbody := front_copyAt_mid bytes₀ (apdu.length + 17) _ [g₃, g₄] (apdu ++ [c₁, c₂, 0x16])
    (check (fcsOf ((headerOf control sa sAddr ca (apdu.length + 15)).drop 1))) hlength rfl
  rw [hhead] at hbody
  rw [hheader] at hhcs
  generalize hbytes₁ : copyAt bytes₀ 12 (check (fcsOf ((headerOf control sa sAddr ca (apdu.length + 15)).drop 1))) = bytes₁
    at hhcs hbody
  -- the frame check
  have hblen := bodyOf_length control sa ca apdu haddr
  have hbody' : front bytes₁ (apdu.length + 17) = bodyOf control sa sAddr ca apdu ++ [c₁, c₂] ++ [0x16] := by
    rw [hbody, bodyOf]
    simp
  have hfull : front bytes₁ (14 + apdu.length) = bodyOf control sa sAddr ca apdu := by
    rw [List.append_assoc] at hbody'
    have := front_of_append hbody' (by omega)
    rw [hblen] at this
    exact this
  have hfcs := tryfcs16_eq bytes₁ (14 + apdu.length) (by omega) (by rw [hplcDataMaxSize]; omega)
  have hframe := front_copyAt_mid bytes₁ (apdu.length + 17) _ [c₁, c₂] [0x16]
    (check (fcsOf ((bodyOf control sa sAddr ca apdu).drop 1))) hbody' rfl
  rw [hblen] at hframe
  rw [hfull] at hfcs
  generalize hbytes₂ : copyAt bytes₁ (14 + apdu.length) (check (fcsOf ((bodyOf control sa sAddr ca apdu).drop 1))) = bytes₂
    at hfcs hframe
  have hfcsPos : d.dataSize = 14 + apdu.length := by omega
  have hlen2 : apdu.length + 17 - 2 = apdu.length + 15 := by omega
  simp only [closeFrame, hn', hbytes, hlen2, hbytes₀, hfcsPos]
  rw [if_neg (by rw [hplcDataMaxSize]; omega)]
  simp only [hhcs, hfcs, Option.bind_eq_bind, Option.bind_some]
  have hkept : kept (frameOf control sa sAddr ca apdu) = frameOf control sa sAddr ca apdu :=
    kept_of_le (by rw [frameOf_length control sa ca apdu haddr]; omega)
  refine ⟨_, rfl, ⟨hend.size, ?_, ?_⟩, rfl, ?_⟩
  · rw [hkept, frameOf_length control sa ca apdu haddr]
  · rw [hkept]
    exact hframe
  · show ((14 + apdu.length : Nat) : Int) - (12 : Nat) - 2 = apdu.length
    omega

/-! ## The frame is well-formed -/

theorem frameOf_eq_cons (control sa : Byte) (sAddr : List Byte) (ca : Byte) (apdu : List Byte) :
    ∃ rest, frameOf control sa sAddr ca apdu =
      0x68 :: BitVec.ofNat 8 ((apdu.length + 15) % 256) :: BitVec.ofNat 8 ((apdu.length + 15) / 256) :: control :: sa :: rest := by
  simp only [frameOf, bodyOf, headerOf, List.cons_append, List.nil_append]
  exact ⟨_, rfl⟩

theorem frameOf_wellFormed (control : Byte) (ca : Byte) (haddr : sAddr.length = 6) (hsa : sa &&& 0x0f#8 = 5)
    (hlen : apdu.length + 17 ≤ 1023) :
    WellFormed (frameOf control sa sAddr ca apdu) := by
  have hflen := frameOf_length control sa ca apdu haddr
  obtain ⟨rest, hcons⟩ := frameOf_eq_cons control sa sAddr ca apdu
  have hlo : (BitVec.ofNat 8 ((apdu.length + 15) % 256)).toNat = (apdu.length + 15) % 256 := by
    rw [BitVec.toNat_ofNat]
    omega
  have hhi : (BitVec.ofNat 8 ((apdu.length + 15) / 256)).toNat = (apdu.length + 15) / 256 := by
    rw [BitVec.toNat_ofNat]
    omega
  have hesc : ¬ Escaped (frameOf control sa sAddr ca apdu) := by
    rintro ⟨_, h2⟩
    rw [hcons] at h2
    have h2' : (BitVec.ofNat 8 ((apdu.length + 15) / 256)).toNat = 0xaa := congrArg BitVec.toNat h2
    omega
  have hhead : headEnd (frameOf control sa sAddr ca apdu) = 14 := by
    have hnibble : (frameOf control sa sAddr ca apdu).getD 4 0 &&& 0x0f#8 = 5 := by
      rw [hcons]
      exact hsa
    rw [headEnd, addrLen, if_neg hesc, hnibble]
    rfl
  have hhlen := headerOf_length control sa ca (apdu.length + 15) haddr
  have hne : ∀ l : List Byte, 0 < l.length → l ≠ [] := fun l h => List.length_pos_iff.mp h
  refine ⟨by rw [hcons]; rfl, ?_, by omega, by omega, ?_, ?_, ?_⟩
  · rw [hflen, hcons, wantLen]
    show (BitVec.ofNat 8 ((apdu.length + 15) / 256)).toNat * 256 + (BitVec.ofNat 8 ((apdu.length + 15) % 256)).toNat + 2 = _
    omega
  · have htake : (frameOf control sa sAddr ca apdu).take 14 = headerOf control sa sAddr ca (apdu.length + 15) ++
        check (fcsOf ((headerOf control sa sAddr ca (apdu.length + 15)).drop 1)) := by
      rw [frameOf, bodyOf, List.append_assoc, List.append_assoc]
      exact List.take_left' (by rw [List.length_append, hhlen]; rfl)
    rw [hhead, htake]
    exact fcsGood_append_check (hne _ (by omega))
  · have hdrop : (frameOf control sa sAddr ca apdu).dropLast = bodyOf control sa sAddr ca apdu ++
        check (fcsOf ((bodyOf control sa sAddr ca apdu).drop 1)) := by
      rw [frameOf]
      exact List.dropLast_concat
    rw [hdrop]
    exact fcsGood_append_check (hne _ (by rw [bodyOf_length control sa ca apdu haddr]; omega))
  · rw [frameOf, List.getLast?_concat]

theorem frameOf_apdu (control sa : Byte) (ca : Byte) (apdu : List Byte) (haddr : sAddr.length = 6) :
    ((frameOf control sa sAddr ca apdu).drop 14).take apdu.length = apdu := by
  have hhlen := headerOf_length control sa ca (apdu.length + 15) haddr
  rw [frameOf, bodyOf, List.append_assoc, List.append_assoc,
    List.drop_left' (by rw [List.length_append, hhlen]; rfl), List.append_assoc, List.take_left]

end EnergyRouter
