import EnergyRouter.Lemmas.Answers
import EnergyRouter.Theorems.PlanRoundTrip

/-!
# Results of a get request

A result is an error code behind a zero, or a value behind a one. The types from 80 on are written by no handler and left out. A
handler gives a result for the objects it knows and nothing for the others.
-/

namespace EnergyRouter

open Buffer

/-! ## Values -/

/-- The number of bytes behind the tag of a type of fixed length. -/
def fixedSize (t : Byte) : Option Nat :=
  if t = 0 then some 0
  else if t = 3 ∨ t = 15 ∨ t = 17 ∨ t = 22 then some 1
  else if t = 16 ∨ t = 18 then some 2
  else if t = 27 then some 3
  else if t = 5 ∨ t = 6 ∨ t = 23 then some 4
  else if t = 26 then some 5
  else if t = 28 then some 7
  else if t = 20 ∨ t = 21 ∨ t = 24 then some 8
  else if t = 25 then some 10
  else none

/-- The types whose values have their length in front: strings of bits, octets and characters. A bit takes a byte. -/
def IsString (t : Byte) : Prop := t = 4 ∨ t = 9 ∨ t = 10 ∨ t = 12

/-- One value with its tag. -/
inductive IsData : List Byte → Prop
  | fixed {t : Byte} {bytes : List Byte} : fixedSize t = some bytes.length → IsData (t :: bytes)
  | string {t len : Byte} {bytes : List Byte} : IsString t → bytes.length = len.toNat → IsData (t :: len :: bytes)
  /-- An array or a structure. -/
  | group {t count : Byte} {values : List (List Byte)} :
      t = 1 ∨ t = 2 → values.length = count.toNat → (∀ d ∈ values, IsData d) → IsData (t :: count :: values.flatten)

/-- What stands behind an OAD: an error, or data. -/
def IsResult (r : List Byte) : Prop := (∃ dar, r = [0, dar]) ∨ ∃ d, IsData d ∧ r = 1 :: d

theorem not_isResult_nil : ¬ IsResult [] := by
  rintro (⟨dar, h⟩ | ⟨d, -, h⟩)
  · cases h
  · cases h

theorem isResult_dar (dar : Byte) : IsResult [0, dar] := .inl ⟨dar, rfl⟩

theorem isResult_cons_one_iff (d : List Byte) : IsResult (1 :: d) ↔ IsData d := by
  constructor
  · rintro (⟨dar, h⟩ | ⟨d', hd', h⟩)
    · cases h
    · cases h
      exact hd'
  · exact fun h => .inr ⟨d, h, rfl⟩

theorem isData_string_iff {t : Byte} (ht : IsString t) (len : Byte) (bytes : List Byte) :
    IsData (t :: len :: bytes) ↔ bytes.length = len.toNat := by
  have hfixed : fixedSize t = none := by rcases ht with rfl | rfl | rfl | rfl <;> rfl
  constructor
  · intro h
    cases h with
    | fixed h =>
      rw [hfixed] at h
      cases h
    | string _ h => exact h
    | group hgroup _ _ => rcases ht with rfl | rfl | rfl | rfl <;> rcases hgroup with h | h <;> cases h
  · exact .string ht

theorem isData_long {t : Byte} (ht : t = 5 ∨ t = 6) (b₀ b₁ b₂ b₃ : Byte) : IsData [t, b₀, b₁, b₂, b₃] := by
  rcases ht with rfl | rfl <;> exact .fixed rfl

theorem isResult_energyTable (tempArray : List Byte) : IsResult (energyTable tempArray).flatten := by
  have hnumber (i : Nat) :
      IsData [6, tempArray.getD i 0, tempArray.getD (i + 1) 0, tempArray.getD (i + 2) 0, tempArray.getD (i + 3) 0] :=
    isData_long (.inr rfl) _ _ _ _
  have hgroup : IsData (1 :: 5 :: ([0, 4, 8, 12, 16].map fun i =>
      [6, tempArray.getD i 0, tempArray.getD (i + 1) 0, tempArray.getD (i + 2) 0, tempArray.getD (i + 3) 0]).flatten) := by
    refine .group (.inl rfl) rfl fun d hd => ?_
    obtain ⟨i, -, rfl⟩ := List.mem_map.mp hd
    exact hnumber i
  exact .inr ⟨_, hgroup, rfl⟩

/-! ## The objects that are served -/

/-- A handler gives a result. -/
def Gives (answer : Int × List (List Byte)) : Prop := IsResult answer.2.flatten

theorem not_gives_nil (result : Int) : ¬ Gives (result, []) := not_isResult_nil

theorem gives_ite {c : Prop} [Decidable c] (x y : Int × List (List Byte)) :
    Gives (if c then x else y) ↔ c ∧ Gives x ∨ ¬ c ∧ Gives y := by
  by_cases hc : c
  · rw [if_pos hc]
    exact ⟨fun h => .inl ⟨hc, h⟩, fun h => h.elim And.right fun h => absurd hc h.1⟩
  · rw [if_neg hc]
    exact ⟨fun h => .inr ⟨hc, h⟩, fun h => h.elim (fun h => absurd h.1 hc) And.right⟩

theorem gives_guard {c : Prop} [Decidable c] (x : Int × List (List Byte)) : Gives (if c then x else (-1, [])) ↔ c ∧ Gives x := by
  rw [gives_ite]
  simp only [not_gives_nil, and_false, or_false]

theorem gives_electrical_iff (o : Oad698) :
    Gives (getResponseElectricalOia o) ↔
      o.oi0 &&& 0x0f = 0 ∧ ((o.oi1 &&& 0xf0) >>> 4 = 1 ∨ (o.oi1 &&& 0xf0) >>> 4 = 2) ∧ o.attributeId = 2 := by
  have hlow : ∀ b : Byte, (b &&& 0x0f) >>> 4 = 0 := by decide +kernel
  have htable (tempArray : List Byte) : Gives (0, energyTable tempArray) := isResult_energyTable tempArray
  have hne : (1 : Byte) ≠ 2 := by decide
  simp only [getResponseElectricalOia, oiElectricalOibSum, oiElectricalPap, oiElectricalRap, if_pos (hlow o.oi1), gives_ite,
    not_gives_nil, htable, and_false, or_false, and_true]
  generalize (o.oi1 &&& 0xf0) >>> 4 = phase
  tauto

theorem gives_variable_iff (analog : MeterAnalog) (o : Oad698) :
    Gives (getResponseVariableOia analog o) ↔
      o.oi0 &&& 0x0f = 0 ∧ (o.oi1 = 0x00 ∨ o.oi1 = 0x01 ∨ o.oi1 = 0x04) ∧ o.attributeId = 2 := by
  have hvoltage (b₀ b₁ : Byte) : Gives (0, classRuns 1 ++ single [1, 18, b₀, b₁]) := by
    have hgroup : IsData (1 :: 1 :: [[18, b₀, b₁]].flatten) :=
      .group (.inl rfl) rfl fun d hd => by rw [List.mem_singleton.mp hd]; exact .fixed rfl
    exact .inr ⟨_, hgroup, rfl⟩
  have hcurrent : Gives (0, classRuns 1 ++ single ([1, 5] ++ [3, 2, 1, 0].map (maskedByte analog.ulCur))) := by
    have hgroup : IsData (1 :: 1 :: [5 :: [3, 2, 1, 0].map (maskedByte analog.ulCur)].flatten) :=
      .group (.inl rfl) rfl fun d hd => by rw [List.mem_singleton.mp hd]; exact isData_long (.inl rfl) _ _ _ _
    exact .inr ⟨_, hgroup, rfl⟩
  have hpower : Gives (0, classRuns 1 ++ single [2] ++ [7, 6, 5, 4, 3, 2, 1, 0].flatMap fun i =>
      single ((if (i + 1) % 4 = 0 then [5] else []) ++ [maskedByte analog.ulAcPwr i])) := by
    have hgroup : IsData (1 :: 2 :: [5 :: [7, 6, 5, 4].map (maskedByte analog.ulAcPwr),
        5 :: [3, 2, 1, 0].map (maskedByte analog.ulAcPwr)].flatten) := by
      refine .group (.inl rfl) rfl fun d hd => ?_
      rcases List.mem_cons.mp hd with rfl | hd
      · exact isData_long (.inl rfl) _ _ _ _
      · rw [List.mem_singleton.mp hd]
        exact isData_long (.inl rfl) _ _ _ _
    exact .inr ⟨_, hgroup, rfl⟩
  simp only [getResponseVariableOia, oiVariableOibMeterage, gives_ite, not_gives_nil, hvoltage, hcurrent, hpower, and_false,
    or_false, and_true]
  tauto

theorem gives_parameter_iff (t : SystemTime) {s : State698} (haddr : s.addr.sAddrLen = 6) (o : Oad698) :
    Gives (getResponseParameterOia t s o) ↔ o.oi0 &&& 0x0f = 0 ∧ (o.oi1 = 0 ∨ o.oi1 = 1) ∧ o.attributeId = 2 := by
  have htime : Gives (0, classRuns 28 ++ [getDateTimeS t]) := by
    have hdata : IsData (28 :: getDateTimeS t) := .fixed rfl
    refine .inr ⟨_, hdata, ?_⟩
    simp [classRuns]
  have haddress : Gives (0, classRuns 9 ++ single [BitVec.ofInt 8 s.addr.sAddrLen] ++
      [s.addr.sAddr.toList.take s.addr.sAddrLen.toNat]) := by
    rw [haddr]
    have hdata : IsData (9 :: BitVec.ofInt 8 6 :: s.addr.sAddr.toList.take (6 : Int).toNat) :=
      .string (.inr (.inl rfl)) (by simp)
    refine .inr ⟨_, hdata, ?_⟩
    simp [classRuns]
  simp only [getResponseParameterOia, oiParameterOibGeneral, gives_ite, not_gives_nil, htime, haddress, and_false, or_false,
    and_true]
  tauto

/-! ## Objects out of the security chip -/

/-- What the chip has to reply for an attribute to be served: to the first request already, and not more than a length byte can say.
-/
def ChipServed (comm : Nat → ScmEsamComm) (attributeId : Byte) : Prop :=
  match esamAttribute attributeId with
  | none => True
  | some attr =>
    if (comm 0).dataRxLen < 12 then Gives (esamLoopRuns attr comm 5 0) else attr = .counters ∨ (comm 0).dataRxLen ≤ 260

theorem ScmEsamComm.rx_length (comm : ScmEsamComm) : comm.rx.length = 1024 := by rw [ScmEsamComm.rx, Vector.length_toList]

theorem gives_octets_iff {comm : ScmEsamComm} (hlen : 12 ≤ comm.dataRxLen) (n : Fin 12) :
    Gives (0, (EsamAttribute.runs comm (.octets n)).2) ↔ comm.dataRxLen ≤ 260 := by
  have hflat : (EsamAttribute.runs comm (.octets n)).2.flatten =
      1 :: 9 :: BitVec.ofInt 8 ((comm.dataRxLen : Int) - 5) :: (comm.rx.drop 4).take (comm.dataRxLen - 5) := by
    simp [EsamAttribute.runs, if_neg (show ¬ comm.dataRxLen < 12 by omega), classRuns]
  rw [Gives, hflat, isResult_cons_one_iff, isData_string_iff (.inr (.inl rfl)), List.length_take, List.length_drop,
    comm.rx_length, BitVec.toNat_ofInt]
  omega

theorem gives_counters {comm : ScmEsamComm} (hlen : 12 ≤ comm.dataRxLen) : Gives (0, (EsamAttribute.runs comm .counters).2) := by
  have hnumber (i : Nat) (hi : i ≤ 16) : IsData (6 :: (comm.rx.drop i).take 4) := by
    refine .fixed ?_
    rw [List.length_take, List.length_drop, comm.rx_length, Nat.min_eq_left (by omega)]
    rfl
  have hgroup : IsData (2 :: 4 :: ([4, 8, 12, 16].map fun i => 6 :: (comm.rx.drop i).take 4).flatten) := by
    refine .group (.inr rfl) rfl fun d hd => ?_
    obtain ⟨i, hi, rfl⟩ := List.mem_map.mp hd
    refine hnumber i ?_
    simp only [List.mem_cons, List.not_mem_nil, or_false] at hi
    omega
  refine .inr ⟨_, hgroup, ?_⟩
  simp [EsamAttribute.runs, if_neg (show ¬ comm.dataRxLen < 12 by omega), classRuns]

theorem gives_esam_iff (comm : Nat → ScmEsamComm) (o : Oad698) :
    Gives (getResponseEsamOia comm o) ↔ o.oi0 &&& 0x0f = 1 ∧ o.oi1 = 0 ∧ ChipServed comm o.attributeId := by
  rw [getResponseEsamOia, gives_guard, esamOibRuns, gives_guard]
  refine and_congr_right fun _ => and_congr_right fun _ => ?_
  rw [ChipServed]
  cases hattr : esamAttribute o.attributeId with
  | none => exact iff_of_true (isResult_dar 6) trivial
  | some attr =>
    dsimp only
    by_cases hshort : (comm 0).dataRxLen < 12
    · rw [if_pos hshort]
    · rw [if_neg hshort]
      have hfirst : esamLoopRuns attr comm 5 0 = (0, (attr.runs (comm 0)).2) := by
        have hanswered : (attr.runs (comm 0)).1 = true := by
          cases attr <;> simp only [EsamAttribute.runs, if_neg hshort]
        rw [esamLoopRuns, if_pos hanswered]
      rw [hfirst]
      cases attr with
      | octets n =>
        rw [gives_octets_iff (by omega)]
        exact ⟨.inr, fun h => h.resolve_left fun heq => by cases heq⟩
      | counters => exact iff_of_true (gives_counters (by omega)) (.inl rfl)

/-- The objects but the plan for which a result is given. -/
def ObjectServed (v : Values) (o : Oad698) : Prop :=
  (o.oi0 = 0x00 ∧ (o.oi1 &&& 0xf0 = 0x10 ∨ o.oi1 &&& 0xf0 = 0x20) ∧ o.attributeId = 2) ∨
    (o.oi0 = 0x20 ∧ (o.oi1 = 0x00 ∨ o.oi1 = 0x01 ∨ o.oi1 = 0x04) ∧ o.attributeId = 2) ∨
    (o.oi0 = 0x40 ∧ (o.oi1 = 0x00 ∨ o.oi1 = 0x01) ∧ o.attributeId = 2) ∨
    (o.oi0 = 0x90 ∧ (o.oi1 = 0x08 ∧ o.attributeId = 2) ∧ IsData (1 :: (oiEsamInfoPackage (v.esam o 0)).2.flatten)) ∨
    (o.oi0 = 0xf1 ∧ o.oi1 = 0x00 ∧ ChipServed (v.esam o) o.attributeId)

/-- What is stored behind the OAD of an object is a result exactly for these. -/
theorem gives_objectRuns_iff (env : Services) (v : Values) {s : State698} (haddr : s.addr.sAddrLen = 6) (o : Oad698) :
    Gives (objectRuns (env.withValues v) s o) ↔ ObjectServed v o := by
  have hcharge : Gives (chargeRuns (env.withValues v) s o) ↔
      (o.oi1 = 0x08 ∧ o.attributeId = 2) ∧ IsData (1 :: (oiEsamInfoPackage (v.esam o 0)).2.flatten) := by
    rw [chargeRuns, gives_guard]
    refine and_congr_right fun _ => ?_
    rw [Gives, List.flatten_append, single_flatten]
    exact isResult_cons_one_iff _
  have hphase : ∀ b : Byte, ((b &&& 0xf0) >>> 4 = 1 ↔ b &&& 0xf0 = 0x10) ∧ ((b &&& 0xf0) >>> 4 = 2 ↔ b &&& 0xf0 = 0x20) := by
    decide
  have hoi : ∀ b : Byte,
      (b = 0x00 ↔ (b &&& 0xf0) >>> 4 = 0 ∧ b &&& 0x0f = 0) ∧ (b = 0x20 ↔ (b &&& 0xf0) >>> 4 = 2 ∧ b &&& 0x0f = 0) ∧
      (b = 0x40 ↔ (b &&& 0xf0) >>> 4 = 4 ∧ b &&& 0x0f = 0) ∧ (b = 0x90 ↔ (b &&& 0xf0) >>> 4 = 9 ∧ b &&& 0x0f = 0) ∧
      (b = 0xf1 ↔ (b &&& 0xf0) >>> 4 = 0xf ∧ b &&& 0x0f = 1) := by
    decide +kernel
  obtain ⟨h00, h20, h40, h90, hf1⟩ := hoi o.oi0
  have helectrical := gives_electrical_iff o
  rw [(hphase o.oi1).1, (hphase o.oi1).2] at helectrical
  simp only [objectRuns, gives_ite, not_gives_nil, hcharge, and_false, or_false]
  rw [ObjectServed, h00, h20, h40, h90, hf1]
  rw [show (env.withValues v).object = v.object from rfl]
  simp only [Values.object, helectrical, gives_variable_iff, gives_parameter_iff v.systemTime haddr, gives_esam_iff]
  generalize (o.oi0 &&& 0xf0) >>> 4 = cls
  by_cases h0 : cls = 0
  · simp [h0]
  by_cases h2 : cls = 2
  · simp [h2]
  by_cases h4 : cls = 4
  · simp [h4]
  by_cases h9 : cls = 9
  · simp [h9]
  by_cases hf : cls = 0xf
  · simp [hf]
  · simp only [h0, h2, h4, h9, hf, false_and, and_false, or_false]

end EnergyRouter
