import Mathlib.Data.BitVec

/-!
# Events kept as bits of a mask

Posting an event sets its bit and serving it clears the bit, so a mask cannot count: `Balanced` says that every event posted was
either served or is the one its bit still stands for.
-/

namespace EventMask

variable {w : Nat}

/-- Testing a bit the way C does. -/
theorem and_bit_ne_zero (m : BitVec w) (i : Nat) : m &&& 1#w <<< i ≠ 0 ↔ m.getLsbD i = true := by
  rw [← BitVec.twoPow_eq, BitVec.and_twoPow]
  split_ifs with h
  · simp only [h, iff_true]
    intro hzero
    have hi := BitVec.lt_of_getLsbD h
    have := congrArg (fun v => v.getLsbD i) hzero
    simp [hi] at this
  · simp [h]

theorem getLsbD_or_bit_self (m : BitVec w) {i : Nat} (hi : i < w) : (m ||| 1#w <<< i).getLsbD i = true := by
  rw [BitVec.getLsbD_or, ← BitVec.twoPow_eq, BitVec.getLsbD_twoPow]
  simp [hi]

theorem getLsbD_or_bit_of_ne (m : BitVec w) {i j : Nat} (h : i ≠ j) : (m ||| 1#w <<< i).getLsbD j = m.getLsbD j := by
  rw [BitVec.getLsbD_or, ← BitVec.twoPow_eq, BitVec.getLsbD_twoPow]
  simp [h]

theorem getLsbD_and_not_bit_self (m : BitVec w) (i : Nat) : (m &&& ~~~(1#w <<< i)).getLsbD i = false := by
  rw [BitVec.getLsbD_and, BitVec.getLsbD_not, ← BitVec.twoPow_eq, BitVec.getLsbD_twoPow]
  by_cases hi : i < w
  · simp [hi]
  · simp [hi]

theorem getLsbD_and_not_bit_of_ne (m : BitVec w) {i j : Nat} (h : i ≠ j) :
    (m &&& ~~~(1#w <<< i)).getLsbD j = m.getLsbD j := by
  rw [BitVec.getLsbD_and, BitVec.getLsbD_not, ← BitVec.twoPow_eq, BitVec.getLsbD_twoPow]
  by_cases hj : j < w
  · simp [hj, h]
  · rw [BitVec.getLsbD_of_ge m j (by omega), Bool.false_and]

variable {E : Type} [DecidableEq E]

/-- Every event posted was served, except for one of each kind whose bit is still set. -/
def Balanced (posted served : List E) (pending : E → Bool) : Prop :=
  ∀ e, posted.count e = served.count e + (pending e).toNat

variable {posted served : List E} {pending pending' : E → Bool} {e : E}

/-- Posting an event keeps the balance exactly when it was not pending. -/
theorem balanced_post_iff (h : Balanced posted served pending) (hself : pending' e = true)
    (hother : ∀ d, d ≠ e → pending' d = pending d) :
    Balanced (posted ++ [e]) served pending' ↔ pending e = false := by
  have he := h e
  constructor
  · intro hpost
    have := hpost e
    rw [List.count_append, List.count_singleton_self, hself, Bool.toNat_true] at this
    cases hpending : pending e with
    | false => rfl
    | true =>
      rw [hpending, Bool.toNat_true] at he
      omega
  · intro hpending d
    by_cases hd : d = e
    · subst hd
      rw [List.count_append, List.count_singleton_self, hself, he, hpending]
      rfl
    · rw [List.count_append, List.count_singleton, if_neg (by simpa using Ne.symm hd), hother d hd, Nat.add_zero]
      exact h d

/-- Serving a pending event and clearing its bit keeps the balance. -/
theorem Balanced.serve (h : Balanced posted served pending) (hpending : pending e = true) (hself : pending' e = false)
    (hother : ∀ d, d ≠ e → pending' d = pending d) : Balanced posted (served ++ [e]) pending' := by
  intro d
  by_cases hd : d = e
  · subst hd
    rw [List.count_append, List.count_singleton_self, hself, h d, hpending]
    rfl
  · rw [List.count_append, List.count_singleton, if_neg (by simpa using Ne.symm hd), hother d hd, Nat.add_zero]
    exact h d

/-- Clearing the bit of an event that is not served breaks the balance, unless it was not pending. -/
theorem Balanced.of_dropped (h : Balanced posted served pending) (h' : Balanced posted served pending')
    (hself : pending' e = false) : pending e = false := by
  have he := h e
  have he' := h' e
  rw [hself] at he'
  cases hpending : pending e with
  | false => rfl
  | true =>
    rw [hpending] at he
    simp only [Bool.toNat_true, Bool.toNat_false] at he he'
    omega

end EventMask
