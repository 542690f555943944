import EnergyRouter.Lib.Buffer

/-!
# Records in memory

A record is the vector of its bytes. Stores go to the offsets of the fields whatever the fields there are: a word stored at a field
of one byte runs on into the three bytes behind it.
-/

namespace Memory

open Buffer

variable {bs : List (BitVec 8)} {q : Nat} {v : BitVec 32}

variable {n : Nat}

/-- The byte at an offset. -/
def byteAt (m : Vector (BitVec 8) n) (off : Nat) : BitVec 8 := m.getD off 0

/-- The bytes from an offset on. -/
def bytesAt (m : Vector (BitVec 8) n) (off len : Nat) : List (BitVec 8) := (List.range len).map fun i => byteAt m (off + i)

/-- The word at an offset. -/
def wordAt (m : Vector (BitVec 8) n) (off : Nat) : BitVec 32 :=
  byteAt m (off + 3) ++ byteAt m (off + 2) ++ byteAt m (off + 1) ++ byteAt m off

/-- The bytes of a word in the order they stand in memory. -/
def wordBytes (v : BitVec 32) : List (BitVec 8) :=
  [v.extractLsb' 0 8, v.extractLsb' 8 8, v.extractLsb' 16 8, v.extractLsb' 24 8]

/-- A store of bytes. -/
def storeBytes (off : Nat) (bs : List (BitVec 8)) (m : Vector (BitVec 8) n) : Vector (BitVec 8) n := copyAt m off bs

/-- A store of a word. -/
def storeWord (off : Nat) (v : BitVec 32) (m : Vector (BitVec 8) n) : Vector (BitVec 8) n :=
  storeBytes off (wordBytes v) m

@[simp] theorem length_bytesAt (m : Vector (BitVec 8) n) (off len : Nat) : (bytesAt m off len).length = len := by simp [bytesAt]

theorem byteAt_storeBytes {m : Vector (BitVec 8) n} {off i : Nat} (hi : i < bs.length) (h : off + bs.length ≤ n) :
    byteAt (storeBytes off bs m) (off + i) = bs.getD i 0 := by
  have hmid := mid_copyAt m off bs h
  have hcell : ((copyAt m off bs).toList.drop off).take bs.length = bs := hmid
  rw [byteAt, storeBytes, Vector.getD, Array.getD_eq_getD_getElem?, Vector.getElem?_toArray, ← Vector.getElem?_toList,
    ← List.getElem?_drop, List.getD_eq_getElem?_getD]
  conv_rhs => rw [← hcell, List.getElem?_take_of_lt hi]

theorem byteAt_storeBytes_of_disjoint {m : Vector (BitVec 8) n} {off : Nat} (h : q < off ∨ off + bs.length ≤ q) :
    byteAt (storeBytes off bs m) q = byteAt m q :=
  getD_copyAt m off bs 0 h

theorem byteAt_storeWord_of_disjoint {m : Vector (BitVec 8) n} {off : Nat} (h : q < off ∨ off + 4 ≤ q) :
    byteAt (storeWord off v m) q = byteAt m q := by
  rw [storeWord, byteAt_storeBytes_of_disjoint h]

theorem byteAt_storeWord {m : Vector (BitVec 8) n} {off : Nat} (h : off + 4 ≤ n) :
    byteAt (storeWord off v m) off = v.setWidth 8 := by
  have hlow : byteAt (storeBytes off (wordBytes v) m) (off + 0) = (wordBytes v).getD 0 0 :=
    byteAt_storeBytes (by simp [wordBytes]) h
  rw [Nat.add_zero] at hlow
  rw [storeWord, hlow]
  exact (BitVec.setWidth_eq_extractLsb' (by decide)).symm

theorem wordBytes_append (v : BitVec 32) :
    v.extractLsb' 24 8 ++ v.extractLsb' 16 8 ++ v.extractLsb' 8 8 ++ v.extractLsb' 0 8 = v := by
  ext i hi
  simp only [BitVec.getElem_append, BitVec.getElem_extractLsb']
  split_ifs <;> rw [← BitVec.getLsbD_eq_getElem hi] <;> congr 1 <;> omega

theorem wordAt_storeWord {m : Vector (BitVec 8) n} {off : Nat} (h : off + 4 ≤ n) :
    wordAt (storeWord off v m) off = v := by
  have hbyte : ∀ i < 4, byteAt (storeWord off v m) (off + i) = (wordBytes v).getD i 0 := by
    intro i hi
    rw [storeWord, byteAt_storeBytes hi h]
  have hzero := hbyte 0 (by decide)
  rw [Nat.add_zero] at hzero
  rw [wordAt, hzero, hbyte 1 (by decide), hbyte 2 (by decide), hbyte 3 (by decide)]
  exact wordBytes_append v

/-- The second record has the bytes of the first at the offsets of a set. -/
def SameOn (p : Nat → Prop) (m m' : Vector (BitVec 8) n) : Prop := ∀ q, p q → byteAt m' q = byteAt m q

section SameOn

variable {p p' : Nat → Prop} {m m' : Vector (BitVec 8) n} {off : Nat}

theorem SameOn.storeBytes_of_disjoint (h : SameOn p m m') (hp : ∀ q, p' q → p q ∧ (q < off ∨ off + bs.length ≤ q)) :
    SameOn p' m (storeBytes off bs m') := by
  intro q hq
  obtain ⟨hpq, hout⟩ := hp q hq
  rw [byteAt_storeBytes_of_disjoint hout, h q hpq]

theorem SameOn.storeBytes (h : SameOn p m m') {len : Nat} (hn : off + len ≤ n)
    (hp : ∀ q, p' q → (off ≤ q ∧ q < off + len) ∨ (p q ∧ (q < off ∨ off + len ≤ q))) :
    SameOn p' m (Memory.storeBytes off (bytesAt m off len) m') := by
  intro q hq
  rcases hp q hq with ⟨hle, hlt⟩ | ⟨hpq, hout⟩
  · obtain ⟨i, rfl⟩ := Nat.exists_eq_add_of_le hle
    rw [byteAt_storeBytes (by rw [length_bytesAt]; omega) (by rw [length_bytesAt]; exact hn)]
    simp [bytesAt, List.getElem?_range (show i < len by omega)]
  · rw [byteAt_storeBytes_of_disjoint (by rwa [length_bytesAt]), h q hpq]

/-- A word stored at a field of one byte: the field is added, the three bytes behind it are lost. -/
theorem SameOn.storeWord_byte (h : SameOn p m m') (hn : off + 4 ≤ n)
    (hp : ∀ q, p' q → q = off ∨ (p q ∧ (q < off ∨ off + 4 ≤ q))) :
    SameOn p' m (storeWord off ((byteAt m off).setWidth 32) m') := by
  intro q hq
  rcases hp q hq with rfl | ⟨hpq, hout⟩
  · rw [byteAt_storeWord hn, BitVec.setWidth_setWidth_of_le _ (by decide), BitVec.setWidth_eq]
  · rw [byteAt_storeWord_of_disjoint hout, h q hpq]

theorem wordBytes_wordAt (m : Vector (BitVec 8) n) (off : Nat) : wordBytes (wordAt m off) = bytesAt m off 4 := by
  have hcut : ∀ a b c d : BitVec 8, wordBytes (a ++ b ++ c ++ d) = [d, c, b, a] := by
    intro a b c d
    simp only [wordBytes, List.cons.injEq, and_true]
    refine ⟨?_, ?_, ?_, ?_⟩
    · rw [BitVec.extractLsb'_append_eq_of_add_le (by decide), BitVec.extractLsb'_eq_self]
    · rw [BitVec.extractLsb'_append_eq_of_le (by decide), BitVec.extractLsb'_append_eq_of_add_le (by decide),
        BitVec.extractLsb'_eq_self]
    · rw [BitVec.extractLsb'_append_eq_of_le (by decide), BitVec.extractLsb'_append_eq_of_le (by decide),
        BitVec.extractLsb'_append_eq_of_add_le (by decide), BitVec.extractLsb'_eq_self]
    · rw [BitVec.extractLsb'_append_eq_of_le (by decide), BitVec.extractLsb'_append_eq_of_le (by decide),
        BitVec.extractLsb'_append_eq_of_le (by decide), BitVec.extractLsb'_eq_self]
  rw [wordAt, hcut]
  rfl

theorem SameOn.storeWord_word (h : SameOn p m m') (hn : off + 4 ≤ n)
    (hp : ∀ q, p' q → (off ≤ q ∧ q < off + 4) ∨ (p q ∧ (q < off ∨ off + 4 ≤ q))) :
    SameOn p' m (storeWord off (wordAt m off) m') := by
  rw [storeWord, wordBytes_wordAt]
  exact h.storeBytes hn hp

theorem SameOn.wordAt_eq (h : SameOn p m m') (hp : ∀ i < 4, p (q + i)) : wordAt m' q = wordAt m q := by
  have hzero := h q (hp 0 (by decide))
  rw [wordAt, wordAt, hzero, h _ (hp 1 (by decide)), h _ (hp 2 (by decide)), h _ (hp 3 (by decide))]

end SameOn

end Memory
