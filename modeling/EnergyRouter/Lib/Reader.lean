import Mathlib.Tactic.Common

/-!
# Readers of a list

A reader takes elements of a list by their places and has no outcome when one is missing. What it found does not depend on what
stands behind the list.
-/

namespace Reader

variable {α β γ : Type} {read other : List α → Option β} {next : β → List α → Option γ}

/-- A reader that has an outcome has the same one on every longer list. -/
structure Local (read : List α → Option β) : Prop where
  append : ∀ {l out}, read l = some out → ∀ behind, read (l ++ behind) = some out

theorem local_some (out : Option β) : Local fun _ : List α => out := ⟨fun h _ => h⟩

theorem local_getElem (i : Nat) : Local fun l : List α => l[i]? := by
  refine ⟨fun h behind => ?_⟩
  exact (List.getElem?_append_left (List.getElem?_eq_some_iff.mp h).1).trans h

theorem Local.bind (hread : Local read) (hnext : ∀ b, Local (next b)) : Local fun l => read l >>= fun b => next b l := by
  refine ⟨fun {l out} h behind => ?_⟩
  obtain ⟨b, hb, h⟩ := Option.bind_eq_some_iff.mp h
  exact Option.bind_eq_some_iff.mpr ⟨b, hread.append hb behind, (hnext b).append h behind⟩

theorem Local.map (hread : Local read) (f : β → γ) : Local fun l => (read l).map f := by
  refine ⟨fun {l out} h behind => ?_⟩
  obtain ⟨b, hb, rfl⟩ := Option.map_eq_some_iff.mp h
  exact Option.map_eq_some_iff.mpr ⟨b, hread.append hb behind, rfl⟩

theorem Local.drop (hread : Local read) (i : Nat) : Local fun l => read (l.drop i) := by
  refine ⟨fun {l out} h behind => ?_⟩
  rw [List.drop_append]
  exact hread.append h _

theorem Local.ite {c : Prop} [Decidable c] (hread : Local read) (hother : Local other) :
    Local fun l => if c then read l else other l := by
  refine ⟨fun {l out} h behind => ?_⟩
  split_ifs at h ⊢
  · exact hread.append h behind
  · exact hother.append h behind

theorem local_slice (i n : Nat) (c : Prop) [Decidable c] (f : List α → β) :
    Local fun l => if i + n ≤ l.length ∧ c then some (f ((l.drop i).take n)) else none := by
  refine ⟨fun {l out} h behind => ?_⟩
  split_ifs at h with hfits
  have hlong : i + n ≤ (l ++ behind).length := by
    rw [List.length_append]
    omega
  rw [if_pos ⟨hlong, hfits.2⟩, List.drop_append_of_le_length (by omega),
    List.take_append_of_le_length (by rw [List.length_drop]; omega)]
  exact h

/-! ## Whether there is an outcome -/

variable {x : Option α} {a : α} {f : α → Option β}

theorem isSome_bind_iff : (x >>= f).isSome ↔ ∃ a, x = some a ∧ (f a).isSome := by
  cases x with
  | none => exact iff_of_false Bool.false_ne_true fun ⟨_, h, _⟩ => nomatch h
  | some a => exact ⟨fun h => ⟨a, rfl, h⟩, fun ⟨_, h, hf⟩ => Option.some.inj h ▸ hf⟩

theorem isSome_bind (hx : x = some a) (hf : (f a).isSome) : (x >>= f).isSome := isSome_bind_iff.mpr ⟨a, hx, hf⟩

/-- Whether there is an outcome depends on each step alone when it does not depend on the value of the first. -/
theorem isSome_bind_and {q : Prop} (hf : ∀ a, (f a).isSome ↔ q) : (x >>= f).isSome ↔ x.isSome ∧ q := by
  rw [isSome_bind_iff, Option.isSome_iff_exists]
  simp only [hf, exists_and_right]

end Reader
