import Mathlib.Algebra.Order.BigOperators.Group.Finset
import Mathlib.Data.Fintype.BigOperators

/-!
# Tallies of registers

The exact sum of a vector of machine words, and what overwriting one of the words does to it.
-/

namespace Tally

variable {n w : Nat}

/-- The sum of the words, as a number. -/
def tally (v : Vector (BitVec w) n) : Nat := ∑ i : Fin n, v[i].toNat

theorem getElem_set (v : Vector (BitVec w) n) (i j : Fin n) (x : BitVec w) :
    (v.setIfInBounds i x)[j] = if j = i then x else v[j] := by
  simp only [Fin.getElem_fin, Vector.getElem_setIfInBounds, Fin.ext_iff, eq_comm]

theorem tally_set (v : Vector (BitVec w) n) (i : Fin n) (x : BitVec w) :
    tally (v.setIfInBounds i x) + v[i].toNat = tally v + x.toNat := by
  have hothers : ∑ j ∈ Finset.univ.erase i, (v.setIfInBounds i x)[j].toNat = ∑ j ∈ Finset.univ.erase i, v[j].toNat := by
    refine Finset.sum_congr rfl ?_
    intro j hj
    rw [getElem_set, if_neg (Finset.ne_of_mem_erase hj)]
  rw [tally, tally, ← Finset.add_sum_erase _ _ (Finset.mem_univ i), hothers, getElem_set, if_pos rfl,
    ← Finset.add_sum_erase _ (fun j : Fin n => v[j].toNat) (Finset.mem_univ i)]
  omega

theorem tally_eq_zero_iff (v : Vector (BitVec w) n) : tally v = 0 ↔ ∀ i : Fin n, v[i] = 0 := by
  rw [tally, Finset.sum_eq_zero_iff]
  constructor
  · intro h i
    exact BitVec.eq_of_toNat_eq (by simpa using h i (Finset.mem_univ i))
  · intro h i _
    rw [h i]
    exact BitVec.toNat_zero

/-- After an overwrite the tally is zero exactly when the new word and all the others are. -/
theorem tally_set_eq_zero_iff (v : Vector (BitVec w) n) (i : Fin n) (x : BitVec w) :
    tally (v.setIfInBounds i x) = 0 ↔ x = 0 ∧ ∀ j : Fin n, j ≠ i → v[j] = 0 := by
  rw [tally_eq_zero_iff]
  constructor
  · intro h
    refine ⟨?_, ?_⟩
    · simpa only [getElem_set, if_true] using h i
    · intro j hj
      simpa only [getElem_set, if_neg hj] using h j
  · rintro ⟨hx, hothers⟩ j
    rw [getElem_set]
    split_ifs with hj
    · exact hx
    · exact hothers j hj

theorem le_tally (v : Vector (BitVec w) n) (i : Fin n) : v[i].toNat ≤ tally v :=
  Finset.single_le_sum (f := fun j : Fin n => v[j].toNat) (fun _ _ => Nat.zero_le _) (Finset.mem_univ i)

end Tally
