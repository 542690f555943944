import EnergyRouter.Lemmas.BleReceive

/-!
# Two decoders for one frame

`_698_unPackage` counts the server address as six bytes whatever its length says; `BLE_698_Data_UnPackage` cannot read a frame
without user data, and takes the reserved bits of the length field for a part of it.
-/

namespace EnergyRouter

open Buffer

/-! ## What the decoders make of it -/

/-- The receive buffer holds the frame, and `_698_unPackage` takes its fields from it. -/
def HplcExtracts (data : Vector Byte hplcDataMaxSize) (frame : Frame698) (p : Parts698) : Prop :=
  let (result, f) := unPackage698 data frame p.bytes.length
  result = 0 ∧ f.addr.sAddr.toList.take f.addr.sAddrLen.toNat = p.sAddr ∧ f.addr.ca = p.ca ∧ f.control = p.control ∧
    (data.toList.drop f.usrData).take f.usrDataLen.toNat = p.apdu

instance (data : Vector Byte hplcDataMaxSize) (frame : Frame698) (p : Parts698) : Decidable (HplcExtracts data frame p) :=
  match h : unPackage698 data frame p.bytes.length with
  | (result, f) =>
    decidable_of_iff (result = 0 ∧ f.addr.sAddr.toList.take f.addr.sAddrLen.toNat = p.sAddr ∧ f.addr.ca = p.ca ∧
      f.control = p.control ∧ (data.toList.drop f.usrData).take f.usrDataLen.toNat = p.apdu) (by rw [HplcExtracts, h])

/-- `BLE_698_Data_UnPackage` takes the fields of the frame from the buffer. -/
def BleExtracts (devRecv : Ble698Frame) (buf : List Byte) (p : Parts698) : Prop :=
  ∃ d, ble698DataUnPackage devRecv buf = some (.eok, d) ∧ d.addr.toList.take (addrLenthOf d.sa) = p.sAddr ∧ d.ca = p.ca ∧
    d.ucControl = p.control ∧
    d.apduCmd :: d.apduData.toList.take (apduLenthOf (ullenthOf d.uclenth0 d.uclenth1 + 2) (addrLenthOf d.sa)) = p.apdu

/-! ## The HPLC side -/

theorem hplcExtracts_iff {p : Parts698} (hp : p.Valid) (haddr : p.sAddr.length ≤ 6) (hapdu : p.apdu.length ≤ 200)
    {data : Vector Byte hplcDataMaxSize} (hdata : front data p.bytes.length = p.bytes) (frame : Frame698) :
    HplcExtracts data frame p ↔ p.sAddr.length = 6 := by
  have hlen := p.bytes_length
  have hlist := toList_of_front hdata
  generalize data.toList.drop p.bytes.length = rest at hlist
  have hget (i : Nat) : data.getD i 0 = ((p.bytes ++ rest)[i]?).getD 0 := by
    rw [← hlist, Vector.getElem?_toList, Vector.getD, Array.getD_eq_getD_getElem?, Vector.getElem?_toArray]
  have h1 : data.getD 1 0 = p.length0 := hget 1
  have h2 : data.getD 2 0 = p.length1 := hget 2
  have h3 : data.getD 3 0 = p.control := hget 3
  have h4 : data.getD 4 0 = p.sa := hget 4
  have hca : data.getD (4 + 1 + p.sAddr.length) 0 = p.ca := by
    rw [hget, p.getElem?_behind_addr rest (j := 0) (by omega)]
    rfl
  have hlength := hp.length
  have hnibble : (p.sa &&& 0x0f#8).toNat + 1 = p.sAddr.length := hp.addr.symm
  have hsAddr : (data.toList.drop (4 + 1)).take p.sAddr.length = p.sAddr := by
    rw [hlist, p.drop_addr rest, List.take_left]
  have hunpack : (addressUnPackage data frame.addr 4).2 =
      ⟨p.sa, copyAt frame.addr.sAddr 0 p.sAddr, p.ca, p.sAddr.length⟩ := by
    simp only [addressUnPackage, h4, hnibble, hca, hsAddr]
    rw [if_neg (by omega)]
  unfold HplcExtracts unPackage698
  simp only [h1, h2, h3, hunpack]
  rw [if_neg (by omega)]
  by_cases hshort : p.bytes.length < 17
  · rw [if_pos (by omega)]
    constructor
    · rintro ⟨hresult, _⟩
      exact absurd (show (-1 : Int) = 0 from hresult) (by decide)
    · omega
  · rw [if_neg (by omega)]
    constructor
    · rintro ⟨_, _, _, _, hsame⟩
      have hsize := congrArg List.length hsame
      have hmax : hplcDataMaxSize = 1024 := rfl
      rw [List.length_take, List.length_drop, Vector.length_toList] at hsize
      dsimp only at hsize
      omega
    · intro hsix
      refine ⟨rfl, ?_, rfl, rfl, ?_⟩
      · have hcopy := front_copyAt_zero frame.addr.sAddr p.sAddr (by omega)
        rw [hsix] at hcopy
        exact hcopy
      · have hrest : ((p.bytes.length : Int) - 11 - 6).toNat = p.apdu.length := by omega
        dsimp only
        rw [hlist, p.drop_apdu rest (by omega), hrest, List.take_left]

/-! ## The Bluetooth side -/

theorem bleExtracts_iff {p : Parts698} (hp : p.Valid) (haddr : p.sAddr.length ≤ 6) (hapdu : p.apdu.length ≤ 200)
    (devRecv : Ble698Frame) (rest : List Byte) :
    BleExtracts devRecv (p.bytes ++ rest) p ↔ p.apdu ≠ [] ∧ p.ReservedClear := by
  have hlen := p.bytes_length
  constructor
  · rintro ⟨d, hd, _, _, _, hsame⟩
    refine ⟨?_, ?_⟩
    · rw [← hsame]
      exact List.cons_ne_nil _ _
    · rcases ble698DataUnPackage_inv hd with ⟨herror, -⟩ | ⟨-, hunpacked⟩
      · cases herror
      have hfits := hunpacked.apdu
      rw [← Option.some.inj hunpacked.uclenth0, ← Option.some.inj hunpacked.uclenth1, ← Option.some.inj hunpacked.sa] at hfits
      have hnibble : p.sAddr.length = addrLenthOf p.sa := hp.addr
      have hlength := hp.length
      rw [toNat_lengthMask] at hlength
      -- with a reserved bit set the length field says more than the array of the user data has
      by_contra hlong
      rw [Parts698.ReservedClear] at hlong
      rw [ullenthOf, apduLenthOf_of_le (by omega)] at hfits
      omega
  · rintro ⟨hne, hclear⟩
    have hslot : bleSlot = 255 := rfl
    obtain ⟨d, hd, hparts⟩ := ble698DataUnPackage_readable hp ⟨haddr, hne, hclear⟩ (by omega) devRecv rest
    rw [← hparts]
    exact ⟨d, by rwa [hparts], rfl, rfl, rfl, rfl⟩

/-- Both decoders take the fields of a valid frame from it exactly when its address has six bytes, it has user data and the reserved
bits of its length field are clear. -/
theorem decoders_agree_iff {p : Parts698} (hp : p.Valid) (haddr : p.sAddr.length ≤ 6) (hapdu : p.apdu.length ≤ 200)
    {data : Vector Byte hplcDataMaxSize} (hdata : front data p.bytes.length = p.bytes) (frame : Frame698) (devRecv : Ble698Frame)
    (rest : List Byte) :
    HplcExtracts data frame p ∧ BleExtracts devRecv (p.bytes ++ rest) p ↔
      p.sAddr.length = 6 ∧ p.apdu ≠ [] ∧ p.ReservedClear := by
  rw [hplcExtracts_iff hp haddr hapdu hdata frame, bleExtracts_iff hp haddr hapdu devRecv rest]

/-- The receive buffer with a frame in it. -/
def holding (l : List Byte) : Vector Byte hplcDataMaxSize := copyAt (Vector.replicate hplcDataMaxSize 0) 0 l

theorem decoders_agree_getAddr :
    HplcExtracts (holding getAddrParts.bytes) zeroBuffer.frame698 getAddrParts ∧
      BleExtracts zeroBleFrame (getAddrParts.bytes ++ List.replicate 230 0) getAddrParts :=
  (decoders_agree_iff getAddrParts_valid (by decide) (by decide) (by decide +kernel) _ _ _).mpr (by decide)

/-- The same request with a server address of five bytes. -/
def fiveByteParts : Parts698 :=
  { getAddrParts with length0 := 0x16, sa := 0x44, sAddr := List.replicate 5 0xAA, hcs0 := 0x39, hcs1 := 0x51 }

/-- A frame without user data. -/
def emptyParts : Parts698 :=
  { getAddrParts with length0 := 0x0f, hcs0 := 0x35, hcs1 := 0x92, apdu := [], fcs0 := 0x47, fcs1 := 0x0f }

/-- One decoder misses the fields behind an address of five bytes, the other copies without end when there are no user data. -/
theorem decoders_disagree :
    fiveByteParts.Valid ∧ ¬ HplcExtracts (holding fiveByteParts.bytes) zeroBuffer.frame698 fiveByteParts ∧
      emptyParts.Valid ∧ ble698DataUnPackage zeroBleFrame (emptyParts.bytes ++ List.replicate 238 0) = none :=
  ⟨⟨by decide, by decide, by decide, by decide⟩, by decide +kernel,
    ⟨by decide, by decide, by decide, by decide +kernel⟩, by decide +kernel⟩

end EnergyRouter
