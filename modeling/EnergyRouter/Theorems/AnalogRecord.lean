import EnergyRouter.MeterFiles

/-!
# The measured values are not read back

`Meter_Anolag_Storage` reads as many bytes as the string has that was in the new buffer by chance, and stores each value at the
address that the value before it makes.
-/

namespace EnergyRouter

open Memory

section Analogue

variable {addr : BitVec 32} {m : AnalogMemory}

/-- The values are written, and read into the caller's structure with no store outside of it. -/
def AnalogReturned (clock : SystemTime) (m : AnalogMemory) (file : File) (addr : BitVec 32) (leftover : List Char)
    (dest : AnalogMemory) : Prop :=
  ∃ file', meterAnolagWrite clock m file = some (0, file') ∧ meterAnolagRead addr leftover dest file' = some (0, m)

/-- Taken for addresses, the values in the structure are outside of it. -/
def PointsOutside (addr : BitVec 32) (m : AnalogMemory) : Prop :=
  ∀ f ∈ analogFields, ¬(addr.toNat ≤ (wordAt m f.2).toNat ∧ (wordAt m f.2).toNat + 4 ≤ addr.toNat + 24)

theorem readAnalog_outside {name fpoint fpoint' : List Char} {off : Nat} {m' : AnalogMemory}
    (hout : ¬(addr.toNat ≤ (wordAt m off).toNat ∧ (wordAt m off).toNat + 4 ≤ addr.toNat + 24))
    (h : readAnalog addr name off fpoint m = some (fpoint', m')) : m' = m := by
  obtain ⟨⟨fpname, fpoint₁⟩, -, h⟩ := Option.bind_eq_some_iff.mp h
  dsimp only at h
  split_ifs at h with hname
  · obtain ⟨⟨value, fpoint₂⟩, -, h⟩ := Option.bind_eq_some_iff.mp h
    cases h
  · exact (Prod.mk.inj (Option.some.inj h)).2.symm

theorem readAnalogs_outside {fields : List (List Char × Nat)} {fpoint fpoint' : List Char} {m' : AnalogMemory}
    (hout : ∀ f ∈ fields, ¬(addr.toNat ≤ (wordAt m f.2).toNat ∧ (wordAt m f.2).toNat + 4 ≤ addr.toNat + 24))
    (h : readAnalogs addr fields fpoint m = some (fpoint', m')) : m' = m := by
  induction fields generalizing fpoint with
  | nil => exact (Prod.mk.inj (Option.some.inj h)).2.symm
  | cons f fields ih =>
    rw [List.forall_mem_cons] at hout
    obtain ⟨⟨fpoint₁, m₁⟩, hstep, hrest⟩ := Option.bind_eq_some_iff.mp h
    dsimp only at hrest
    rw [readAnalog_outside hout.1 hstep] at hrest
    exact ih hout.2 hrest

/-- A read into a structure that points outside returns the structure, if it returns. -/
theorem meterAnolagRead_outside (hout : PointsOutside addr m) {leftover : List Char} {file : File} {result : Int} {m' : AnalogMemory}
    (h : meterAnolagRead addr leftover m file = some (result, m')) : m' = m := by
  cases file with
  | none => cases h
  | some content =>
    rw [meterAnolagRead] at h
    split_ifs at h with hlen
    obtain ⟨⟨fpoint, m₁⟩, hread, h⟩ := Option.bind_eq_some_iff.mp h
    cases h
    exact readAnalogs_outside hout hread

theorem wordAt_replicate (b : Byte) {off : Nat} (h : off + 4 ≤ 24) :
    wordAt (Vector.replicate 24 b : AnalogMemory) off = b ++ b ++ b ++ b := by
  have hbyte : ∀ q < 24, byteAt (Vector.replicate 24 b : AnalogMemory) q = b := by
    intro q hq
    simp [byteAt, Vector.getD, hq]
  rw [wordAt, hbyte _ (by omega), hbyte _ (by omega), hbyte _ (by omega), hbyte _ (by omega)]

/-- There is such a structure that does not hold the values already. -/
theorem exists_pointsOutside (addr : BitVec 32) (m : AnalogMemory) : ∃ dest, PointsOutside addr dest ∧ dest ≠ m := by
  have hpick : ∀ b : Byte, ¬(addr.toNat ≤ (b ++ b ++ b ++ b).toNat ∧ (b ++ b ++ b ++ b).toNat + 4 ≤ addr.toNat + 24) →
      (b ++ b ++ b ++ b).toNat ≠ (wordAt m 0).toNat → ∃ dest, PointsOutside addr dest ∧ dest ≠ m := by
    intro b hout hne
    refine ⟨Vector.replicate 24 b, ?_, ?_⟩
    · intro f hf
      have hoff : f.2 + 4 ≤ 24 := by
        have hall : ∀ off ∈ analogFields.map Prod.snd, off + 4 ≤ 24 := by simp [analogFields]
        exact hall f.2 (List.mem_map_of_mem hf)
      rw [wordAt_replicate b hoff]
      exact hout
    · rintro rfl
      exact hne (by rw [wordAt_replicate b (by decide)])
  have hvalues : ((0 : Byte) ++ (0 : Byte) ++ (0 : Byte) ++ (0 : Byte)).toNat = 0 ∧
      ((1 : Byte) ++ (1 : Byte) ++ (1 : Byte) ++ (1 : Byte)).toNat = 0x01010101 ∧
      ((2 : Byte) ++ (2 : Byte) ++ (2 : Byte) ++ (2 : Byte)).toNat = 0x02020202 := by decide
  obtain ⟨hzero, hone, htwo⟩ := hvalues
  have hcases : (¬(addr.toNat ≤ 0 ∧ 0 + 4 ≤ addr.toNat + 24) ∧ 0 ≠ (wordAt m 0).toNat) ∨
      (¬(addr.toNat ≤ 0x01010101 ∧ 0x01010101 + 4 ≤ addr.toNat + 24) ∧ 0x01010101 ≠ (wordAt m 0).toNat) ∨
      (¬(addr.toNat ≤ 0x02020202 ∧ 0x02020202 + 4 ≤ addr.toNat + 24) ∧ 0x02020202 ≠ (wordAt m 0).toNat) := by omega
  rcases hcases with ⟨hout, hne⟩ | ⟨hout, hne⟩ | ⟨hout, hne⟩
  · exact hpick 0 (by rwa [hzero]) (by rwa [hzero])
  · exact hpick 1 (by rwa [hone]) (by rwa [hone])
  · exact hpick 2 (by rwa [htwo]) (by rwa [htwo])

theorem meterAnolagRead_empty (addr : BitVec 32) (dest : AnalogMemory) (content : List Char) :
    meterAnolagRead addr [] dest (some content) = some (0, dest) := by
  have hend : ∀ fields : List (List Char × Nat), (∀ f ∈ fields, f.1 ≠ []) → readAnalogs addr fields [] dest = some ([], dest) := by
    intro fields hnames
    induction fields with
    | nil => rfl
    | cons f fields ih =>
      rw [List.forall_mem_cons] at hnames
      have hstep : readAnalog addr f.1 f.2 [] dest = some ([], dest) := by
        have hname : getName [] = some ([], []) := rfl
        rw [readAnalog, hname, Option.bind_eq_bind, Option.bind_some]
        exact if_neg (Ne.symm hnames.1)
      rw [readAnalogs, hstep]
      exact ih hnames.2
  have hnames : ∀ f ∈ analogFields, f.1 ≠ [] := by simp [analogFields, ascii]
  have hread := hend analogFields hnames
  have hshort : ([] : List Char).length < maxMallocNum := by decide
  rw [meterAnolagRead, if_pos hshort, List.length_nil, List.take_zero, show CString.cString [] = [] from rfl, hread]
  rfl

/-- No measured values are read back whatever the new buffer and the caller's structure hold: for every content of the buffer there
is a structure, and for every structure that does not hold the values already there is a content, with which they are not. -/
theorem analogue_record_not_returned (clock : SystemTime) (m : AnalogMemory) (file : File) (addr : BitVec 32) :
    (∀ leftover, ∃ dest, ¬AnalogReturned clock m file addr leftover dest) ∧
      ∀ dest, dest ≠ m → ∃ leftover, leftover.length < maxMallocNum ∧ ¬AnalogReturned clock m file addr leftover dest := by
  refine ⟨?_, ?_⟩
  · intro leftover
    obtain ⟨dest, hout, hne⟩ := exists_pointsOutside addr m
    refine ⟨dest, ?_⟩
    rintro ⟨file', -, hread⟩
    exact hne (meterAnolagRead_outside hout hread).symm
  · intro dest hne
    refine ⟨[], by decide, ?_⟩
    rintro ⟨file', hwrite, hread⟩
    cases file' with
    | none => cases hread
    | some content =>
      rw [meterAnolagRead_empty] at hread
      exact hne (Prod.mk.inj (Option.some.inj hread)).2

/-- A cleared structure does not get the values. -/
theorem analogue_record_not_returned_cleared :
    (∀ leftover, ∃ dest, ¬AnalogReturned ⟨0, 0, 0, 1, 4, 8, 0x19⟩ (Vector.replicate 24 1) none 0x20000000 leftover dest) ∧
      ∃ leftover, leftover.length < maxMallocNum ∧
        ¬AnalogReturned ⟨0, 0, 0, 1, 4, 8, 0x19⟩ (Vector.replicate 24 1) none 0x20000000 leftover (Vector.replicate 24 0) := by
  obtain ⟨hleft, hdest⟩ := analogue_record_not_returned ⟨0, 0, 0, 1, 4, 8, 0x19⟩ (Vector.replicate 24 1) none 0x20000000
  exact ⟨hleft, hdest (Vector.replicate 24 0) (by decide)⟩

/-- With a long string in the new buffer the voltage is stored at the address 0 that a cleared structure holds; with an empty one the
structure stays cleared. -/
theorem analogue_record_lost :
    ∃ file', meterAnolagWrite ⟨0, 0, 0, 1, 4, 8, 0x19⟩ (Vector.replicate 24 1) none = some (0, file') ∧
      meterAnolagRead 0x20000000 (List.replicate 200 'x') (Vector.replicate 24 0) file' = none ∧
      meterAnolagRead 0x20000000 [] (Vector.replicate 24 0) file' = some (0, Vector.replicate 24 0) := by
  refine ⟨some (analogText ⟨0, 0, 0, 1, 4, 8, 0x19⟩ (Vector.replicate 24 1)), ?_, ?_, meterAnolagRead_empty _ _ _⟩
  · decide +kernel
  · decide +kernel

end Analogue

end EnergyRouter
