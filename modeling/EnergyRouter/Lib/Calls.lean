import Mathlib.Tactic.Common

/-!
# Calls that may stop

A call ends with a value, or stops for a reason. `Finishes fine post` says that the value has the property `post` and that the
reason is one that is tolerated.
-/

namespace Calls

variable {ε α β : Type} {fine : ε → Prop}

/-- The call ends with a value that has the property, or stops for a tolerated reason. -/
def Finishes (fine : ε → Prop) (post : α → Prop) : Except ε α → Prop
  | .ok a => post a
  | .error e => fine e

variable {post : α → Prop}

theorem Finishes.post_of_ok {x : Except ε α} {a : α} (h : Finishes fine post x) (hx : x = .ok a) : post a := by
  rw [hx] at h
  exact h

theorem Finishes.fine_of_error {x : Except ε α} {e : ε} (h : Finishes fine post x) (hx : x = .error e) : fine e := by
  rw [hx] at h
  exact h

/-- The rule for a call followed by another. -/
theorem Finishes.bind {post' : β → Prop} {x : Except ε α} {f : α → Except ε β} (hx : Finishes fine post x)
    (hf : ∀ a, x = .ok a → post a → Finishes fine post' (f a)) : Finishes fine post' (x >>= f) := by
  cases x with
  | ok a => exact hf a rfl hx
  | error e => exact hx

theorem Finishes.map {post' : β → Prop} {x : Except ε α} {f : α → β} (hx : Finishes fine post x) (hf : ∀ a, post a → post' (f a)) :
    Finishes fine post' (x.map f) := by
  cases x with
  | ok a => exact hf a hx
  | error e => exact hx

theorem Finishes.imp {post' : α → Prop} {x : Except ε α} (hx : Finishes fine post x) (himp : ∀ a, post a → post' a) :
    Finishes fine post' x := by
  cases x with
  | ok a => exact himp a hx
  | error e => exact hx

/-- The rule for a branch. -/
theorem Finishes.ite {c : Prop} [Decidable c] {x y : Except ε α} (hx : c → Finishes fine post x) (hy : ¬ c → Finishes fine post y) :
    Finishes fine post (if c then x else y) := by
  by_cases hc : c
  · rw [if_pos hc]
    exact hx hc
  · rw [if_neg hc]
    exact hy hc

theorem Finishes.post_of_toOption {x : Except ε α} {a : α} (h : Finishes fine post x) (hx : x.toOption = some a) : post a := by
  cases x with
  | ok b =>
    cases hx
    exact h
  | error e => cases hx

theorem bind_eq_ok {x : Except ε α} {f : α → Except ε β} {b : β} (h : x >>= f = .ok b) : ∃ a, x = .ok a ∧ f a = .ok b := by
  cases x with
  | ok a => exact ⟨a, rfl, h⟩
  | error e => cases h

theorem ok_bind (a : α) (f : α → Except ε β) : (Except.ok a >>= f) = f a := rfl

end Calls
