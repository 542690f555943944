import EnergyRouter.Theorems.Builders
import EnergyRouter.Theorems.Readings

/-!
# The report of a charge plan

In the structure of `charge_exe_state_package` a reader of tagged data finds every element where the record has it, except for the
meter reading at the start of the charge: the present reading stands in its place.
-/

namespace EnergyRouter

open Buffer

variable {t n : Byte} {bytes rest tail : List Byte} {depth : Nat}

/-! ## Reading tagged data -/

/-- A value that was read: an array or a structure, a string, or a number. -/
inductive Datum
  | group (t : Byte) (values : List Datum)
  | text (t : Byte) (bytes : List Byte)
  | number (t : Byte) (value : Nat)

/-- A number of values, one behind the other. -/
def readValues (read : List Byte → Option (Datum × List Byte)) : Nat → List Byte → Option (List Datum × List Byte)
  | 0, bytes => some ([], bytes)
  | n + 1, bytes => do
    let (value, rest) ← read bytes
    let (values, rest) ← readValues read n rest
    some (value :: values, rest)

instance : DecidablePred IsString := fun t => inferInstanceAs (Decidable (t = 4 ∨ t = 9 ∨ t = 10 ∨ t = 12))

/-- The value in front, whose parts are nested at most `depth` deep, and what stands behind it. Numbers have their high byte first. -/
def readDatum : Nat → List Byte → Option (Datum × List Byte)
  | 0, _ => none
  | _ + 1, [] => none
  | depth + 1, t :: rest =>
    match fixedSize t, rest with
    | some size, rest => if size ≤ rest.length then some (.number t (bigEndian (rest.take size)), rest.drop size) else none
    | none, [] => none
    | none, n :: rest =>
      if IsString t then
        if n.toNat ≤ rest.length then some (.text t (rest.take n.toNat), rest.drop n.toNat) else none
      else if t = 1 ∨ t = 2 then do
        let (values, rest) ← readValues (readDatum depth) n.toNat rest
        some (.group t values, rest)
      else none

theorem readDatum_number (bytes : List Byte) (hsize : fixedSize t = some bytes.length) :
    readDatum (depth + 1) (t :: (bytes ++ rest)) = some (.number t (bigEndian bytes), rest) := by
  simp [readDatum, hsize]

theorem readDatum_text (ht : t = 9 ∨ t = 10) (hlen : bytes.length = n.toNat) :
    readDatum (depth + 1) (t :: n :: (bytes ++ rest)) = some (.text t bytes, rest) := by
  have hfixed : fixedSize t = none := by rcases ht with rfl | rfl <;> rfl
  have hstring : IsString t := .inr (ht.imp_right .inl)
  simp [readDatum, hfixed, hstring, ← hlen]

theorem readDatum_group (ht : t = 1 ∨ t = 2) {values : List Datum}
    (h : readValues (readDatum depth) n.toNat bytes = some (values, rest)) :
    readDatum (depth + 1) (t :: n :: bytes) = some (.group t values, rest) := by
  have hfixed : fixedSize t = none := by rcases ht with rfl | rfl <;> rfl
  have hstring : ¬ IsString t := by rcases ht with rfl | rfl <;> decide
  simp only [readDatum, hfixed, if_neg hstring, if_pos ht, h, Option.bind_eq_bind, Option.bind_some]

theorem readValues_cons {read : List Byte → Option (Datum × List Byte)} {k : Nat} {value : Datum} {values : List Datum}
    (h : read bytes = some (value, rest)) (hrest : readValues read k rest = some (values, tail)) :
    readValues read (k + 1) bytes = some (value :: values, tail) := by
  simp [readValues, h, hrest]

/-! ## The elements -/

theorem bigEndian_bytesOf32 (v : BitVec 32) : bigEndian (bytesOf32 v) = v.toNat := bigEndian_maskedBytes v 0

theorem bigEndian_bytesOf16 (v : BitVec 16) :
    bigEndian [((v &&& 0xff00#16) >>> 8).setWidth 8, (v &&& 0x00ff#16).setWidth 8] = v.toNat := by
  have hlt := v.isLt
  have hones : ∀ i : Fin 8, (0xff00#16).getLsbD (8 + i) = true := by decide
  have h₈ : (((v &&& 0xff00#16) >>> 8).setWidth 8 : Byte) = (v >>> 8).setWidth 8 := by
    ext i hi
    simp [hones ⟨i, hi⟩]
  have h₀ : ((v &&& 0x00ff#16).setWidth 8 : Byte) = v.setWidth 8 := by
    rw [BitVec.setWidth_and, show (0x00ff#16).setWidth 8 = BitVec.allOnes 8 by decide, BitVec.and_allOnes]
  rw [h₈, h₀]
  simp only [bigEndian, List.foldl_cons, List.foldl_nil, BitVec.toNat_setWidth, BitVec.toNat_ushiftRight, Nat.shiftRight_eq_div_pow]
  omega

theorem readDatum_long (ht : t = 5 ∨ t = 6) (v : BitVec 32) :
    readDatum (depth + 1) (t :: (bytesOf32 v ++ rest)) = some (.number t v.toNat, rest) := by
  rw [readDatum_number (bytesOf32 v) (by rcases ht with rfl | rfl <;> rfl), bigEndian_bytesOf32]

theorem readDatum_enum (b : Byte) : readDatum (depth + 1) (22 :: b :: rest) = some (.number 22 b.toNat, rest) := by
  rw [show b :: rest = [b] ++ rest from rfl, readDatum_number [b] rfl]
  simp [bigEndian]

/-- The array of the total and the four tariffs. -/
def energies (values : Vector (BitVec 32) 5) : Datum := .group 1 (values.toList.map fun v => .number 5 v.toNat)

theorem readDatum_valueBytes (values : Vector (BitVec 32) 5) :
    readDatum (depth + 2) (valueBytes values ++ rest) = some (energies values, rest) := by
  have hvalues : ∀ vs : List (BitVec 32), readValues (readDatum (depth + 1)) vs.length
      ((vs.flatMap fun v => 5 :: bytesOf32 v) ++ rest) = some (vs.map fun v => .number 5 v.toNat, rest) := by
    intro vs
    induction vs with
    | nil => rfl
    | cons v vs ih =>
      rw [List.flatMap_cons, List.append_assoc]
      exact readValues_cons (readDatum_long (.inl rfl) v) ih
  have hfive := hvalues values.toList
  rw [Vector.length_toList] at hfive
  exact readDatum_group (.inl rfl) hfive

/-- The record as a structure of twelve elements, with the given array for the reading at the start of the charge. -/
def ChargeExeState.datum (p : ChargeExeState) (bottom : Vector (BitVec 32) 5) : Datum :=
  .group 2 [.text 9 (p.cRequestNO.toList.take 16), .text 10 (p.cAssetNO.toList.take 22), .number 22 p.exeState.toNat,
    energies bottom, energies p.ulEleActualValue, energies p.ucChargeEle, .number 6 p.ucChargeTime.toNat,
    .number 5 p.ucPlanPower.toNat, .number 5 p.ucActualPower.toNat, .group 1 [.number 18 p.ucVoltage.toNat],
    .group 1 [.number 5 p.ucCurrent.toNat], .number 22 p.chgPileState.toNat]

theorem readDatum_exeStateBytes (p : ChargeExeState) :
    readDatum 3 (exeStateBytes p) = some (p.datum p.ulEleActualValue, []) := by
  have hrequest : (p.cRequestNO.toList.take 16).length = (16#8).toNat := by simp
  have hasset : (p.cAssetNO.toList.take 22).length = (22#8).toNat := by simp
  have hvoltage : ∀ rest, readDatum 2 ([1#8, 1, 18, ((p.ucVoltage &&& 0xff00#16) >>> 8).setWidth 8,
      (p.ucVoltage &&& 0x00ff#16).setWidth 8] ++ rest) = some (.group 1 [.number 18 p.ucVoltage.toNat], rest) := by
    intro rest
    refine readDatum_group (.inl rfl) (readValues_cons (readDatum_number [_, _] rfl) rfl) |>.trans ?_
    rw [bigEndian_bytesOf16]
  have hcurrent : ∀ rest, readDatum 2 ([1#8, 1, 5] ++ (bytesOf32 p.ucCurrent ++ rest)) =
      some (.group 1 [.number 5 p.ucCurrent.toNat], rest) := fun rest =>
    readDatum_group (.inl rfl) (readValues_cons (readDatum_long (.inl rfl) p.ucCurrent) rfl)
  simp only [exeStateBytes, List.append_assoc, List.cons_append]
  -- the elements in the order in which they stand
  refine readDatum_group (.inr rfl) (show readValues _ 12 _ = _ from ?_)
  refine readValues_cons (readDatum_text (.inl rfl) hrequest) ?_
  refine readValues_cons (readDatum_text (.inr rfl) hasset) ?_
  refine readValues_cons (readDatum_enum p.exeState) ?_
  refine readValues_cons (readDatum_valueBytes p.ulEleActualValue) ?_
  refine readValues_cons (readDatum_valueBytes p.ulEleActualValue) ?_
  refine readValues_cons (readDatum_valueBytes p.ucChargeEle) ?_
  refine readValues_cons (readDatum_long (.inr rfl) p.ucChargeTime) ?_
  refine readValues_cons (readDatum_long (.inl rfl) p.ucPlanPower) ?_
  refine readValues_cons (readDatum_long (.inl rfl) p.ucActualPower) ?_
  refine readValues_cons (hvoltage _) ?_
  refine readValues_cons (hcurrent _) ?_
  exact readValues_cons (readDatum_enum p.chgPileState) rfl

theorem ChargeExeState.datum_inj (p : ChargeExeState) {a b : Vector (BitVec 32) 5} : p.datum a = p.datum b ↔ a = b := by
  refine ⟨fun h => ?_, fun h => by rw [h]⟩
  have henergies : energies a = energies b := by simpa [datum] using h
  have hnumber : Function.Injective fun v : BitVec 32 => Datum.number 5 v.toNat := fun v w hvw =>
    BitVec.eq_of_toNat_eq (Datum.number.inj hvw).2
  exact Vector.toList_inj.mp (List.map_injective_iff.mpr hnumber (Datum.group.inj henergies).2)

/-! ## The report -/

/-- What is appended to the bytes in use reads as the record. -/
def FullyReported (p : ChargeExeState) (d : CharPointDataManage) : Prop :=
  ∃ bytes, (chargeExeStatePackage p d).contents = d.contents ++ bytes ∧ readDatum 3 bytes = some (p.datum p.ulEleBottomValue, [])

theorem reported_eq (p : ChargeExeState) {d : CharPointDataManage} (hsize : d.size = hplcDataMaxSize)
    (hroom : d.dataSize + 156 < hplcDataMaxSize) : FullyReported p d ↔ p.datum p.ulEleActualValue = p.datum p.ulEleBottomValue := by
  have hroom' : d.dataSize + 156 < 1024 := hroom
  have hcontents := (puts_chargeExeStatePackage p d).contents hsize (by rw [exeStateBytes_length]; omega)
  constructor
  · rintro ⟨bytes, hbytes, hread⟩
    rw [hcontents] at hbytes
    rw [← List.append_cancel_left hbytes, readDatum_exeStateBytes] at hread
    exact (Prod.ext_iff.mp (Option.some.inj hread)).1
  · intro h
    exact ⟨exeStateBytes p, hcontents, by rw [readDatum_exeStateBytes, h]⟩

/-- With room for it, the report reads as the record exactly when the meter stands where it stood at the start of the charge. -/
theorem reported_iff (p : ChargeExeState) (d : CharPointDataManage) (hsize : d.size = hplcDataMaxSize)
    (hroom : d.dataSize + 156 < hplcDataMaxSize) : FullyReported p d ↔ p.ulEleBottomValue = p.ulEleActualValue := by
  rw [reported_eq p hsize hroom, p.datum_inj]
  exact eq_comm

/-- A plan with nothing in it. -/
theorem reported_zero : FullyReported zeroExeState { zeroBuffer with size := hplcDataMaxSize } :=
  (reported_iff zeroExeState { zeroBuffer with size := hplcDataMaxSize } rfl (by decide)).mpr rfl

/-- A charge that started at one hundredth of a kilowatt-hour. -/
theorem bottom_not_reported :
    ¬ FullyReported { zeroExeState with ulEleBottomValue := Vector.replicate 5 1 } { zeroBuffer with size := hplcDataMaxSize } := by
  rw [reported_eq _ rfl (by decide), ChargeExeState.datum_inj]
  decide

end EnergyRouter
