import Mathlib.Data.List.Induction

/-!
# Records kept by key

A list of records with at most one for each key, where a new record takes the place of the old one with its key and goes to the end
when there is none.
-/

namespace Keyed

variable {α κ : Type} [DecidableEq κ] (key : α → κ)

/-- Put a record in the place of the one with its key. -/
def put (r : α) : List α → List α
  | [] => [r]
  | e :: book => if key e = key r then r :: book else e :: put r book

/-- The record with a key. -/
def get (book : List α) (k : κ) : Option α := book.find? fun e => key e = k

/-- The records after some puts. -/
def putAll (rs : List α) : List α := rs.foldl (fun book r => put key r book) []

/-- What a put does: it adds a record, or replaces the first one with the key. -/
theorem put_cases (r : α) (book : List α) :
    ((∀ e ∈ book, key e ≠ key r) ∧ put key r book = book ++ [r]) ∨
      ∃ pre e post, book = pre ++ e :: post ∧ (∀ x ∈ pre, key x ≠ key r) ∧ key e = key r ∧ put key r book = pre ++ r :: post := by
  induction book with
  | nil => exact .inl ⟨by simp, rfl⟩
  | cons e book ih =>
    by_cases he : key e = key r
    · exact .inr ⟨[], e, book, rfl, by simp, he, by rw [put, if_pos he, List.nil_append]⟩
    · have hput : put key r (e :: book) = e :: put key r book := by rw [put, if_neg he]
      rcases ih with ⟨hnone, happend⟩ | ⟨pre, x, post, rfl, hpre, hx, hreplace⟩
      · exact .inl ⟨List.forall_mem_cons.mpr ⟨he, hnone⟩, by rw [hput, happend, List.cons_append]⟩
      · exact .inr ⟨e :: pre, x, post, rfl, List.forall_mem_cons.mpr ⟨he, hpre⟩, hx, by rw [hput, hreplace, List.cons_append]⟩

theorem put_ne_nil (r : α) (book : List α) : put key r book ≠ [] := by
  rcases put_cases key r book with ⟨-, hadd⟩ | ⟨pre, e, post, -, -, -, hreplace⟩
  · simp [hadd]
  · simp [hreplace]

theorem mem_put {r e : α} {book : List α} (h : e ∈ put key r book) : e = r ∨ e ∈ book := by
  rcases put_cases key r book with ⟨-, hadd⟩ | ⟨pre, old, post, rfl, -, -, hreplace⟩
  · rw [hadd, List.mem_append, List.mem_singleton] at h
    exact h.symm
  · rw [hreplace, List.mem_append, List.mem_cons] at h
    rw [List.mem_append, List.mem_cons]
    tauto

/-- What a lookup finds: nothing, or the first record with the key. -/
theorem get_cases (book : List α) (k : κ) :
    (get key book k = none ∧ ∀ e ∈ book, key e ≠ k) ∨
      ∃ pre e post, get key book k = some e ∧ book = pre ++ e :: post ∧ (∀ x ∈ pre, key x ≠ k) ∧ key e = k := by
  cases h : get key book k with
  | none => exact .inl ⟨rfl, by simpa [get] using h⟩
  | some e =>
    obtain ⟨he, pre, post, hbook, hpre⟩ := List.find?_eq_some_iff_append.mp h
    exact .inr ⟨pre, e, post, rfl, hbook, by simpa using hpre, by simpa using he⟩

theorem get_put (r : α) (book : List α) (k : κ) : get key (put key r book) k = if key r = k then some r else get key book k := by
  induction book with
  | nil => by_cases hk : key r = k <;> simp [put, get, hk]
  | cons e book ih =>
    rw [get] at ih
    by_cases he : key e = key r
    · rw [put, if_pos he, get, get, List.find?_cons, List.find?_cons, he]
      split_ifs with hk <;> simp [hk]
    · rw [put, if_neg he, get, get, List.find?_cons, List.find?_cons, ih, get]
      by_cases hk : key e = k
      · simp [hk, show key r ≠ k from fun h => he (hk.trans h.symm)]
      · simp [hk]

theorem putAll_append (rs : List α) (r : α) : putAll key (rs ++ [r]) = put key r (putAll key rs) := by
  simp [putAll]

theorem get_putAll (rs : List α) (k : κ) : get key (putAll key rs) k = rs.reverse.find? fun r => key r = k := by
  induction rs using List.reverseRecOn with
  | nil => rfl
  | append_singleton rs r ih =>
    rw [putAll_append, get_put, ih, List.reverse_append, List.reverse_singleton, List.singleton_append, List.find?_cons]
    split_ifs with h <;> simp [h]

end Keyed
