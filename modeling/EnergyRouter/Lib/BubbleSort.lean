import Mathlib.Data.List.Sort

/-!
# Bubble sort

Pass `i` over `n` elements makes `n - i - 1` comparisons of neighbours and carries the least of them to their end. The sort of a
list without duplicates is the one list in decreasing order with its elements.
-/

namespace BubbleSort

variable {α : Type} [LinearOrder α]

/-- A pass of `k` comparisons from the front of the list. -/
def pass : Nat → List α → List α
  | k + 1, a :: b :: l => if a < b then b :: pass k (a :: l) else a :: pass k (b :: l)
  | _, l => l

/-- The passes, each one comparison shorter than the one before. -/
def sort (l : List α) : List α := (List.range (l.length - 1)).foldl (fun l i => pass (l.length - i - 1) l) l

theorem pass_perm (k : Nat) (l : List α) : (pass k l).Perm l := by
  induction k, l using pass.induct with
  | case1 k a b l hlt ih =>
    rw [pass, if_pos hlt]
    exact (ih.cons b).trans (List.Perm.swap a b l)
  | case2 k a b l hnot ih =>
    rw [pass, if_neg hnot]
    exact ih.cons a
  | case3 k l hshort =>
    rw [pass]
    exact hshort

/-- A pass over a part of the list carries its least element to its end, and leaves what is behind. -/
theorem pass_append (a : α) (l back : List α) :
    ∃ front m, pass l.length (a :: (l ++ back)) = front ++ m :: back ∧ (front ++ [m]).Perm (a :: l) ∧ ∀ x ∈ a :: l, m ≤ x := by
  induction l generalizing a with
  | nil => exact ⟨[], a, rfl, List.Perm.refl _, by simp⟩
  | cons b l ih =>
    by_cases hlt : a < b
    · obtain ⟨front, m, hpass, hperm, hleast⟩ := ih a
      refine ⟨b :: front, m, ?_, ?_, ?_⟩
      · rw [List.length_cons, List.cons_append, pass, if_pos hlt, hpass, List.cons_append]
      · rw [List.cons_append]
        exact (hperm.cons b).trans (List.Perm.swap a b l)
      · rw [List.forall_mem_cons] at hleast
        exact List.forall_mem_cons.mpr ⟨hleast.1, List.forall_mem_cons.mpr ⟨hleast.1.trans hlt.le, hleast.2⟩⟩
    · obtain ⟨front, m, hpass, hperm, hleast⟩ := ih b
      refine ⟨a :: front, m, ?_, ?_, ?_⟩
      · rw [List.length_cons, List.cons_append, pass, if_neg hlt, hpass, List.cons_append]
      · rw [List.cons_append]
        exact hperm.cons a
      · exact List.forall_mem_cons.mpr ⟨(hleast b List.mem_cons_self).trans (not_lt.mp hlt), hleast⟩

/-- After some passes as many elements stand in their places behind the others. -/
theorem passes_sorted (l : List α) {i : Nat} (hi : i ≤ l.length - 1) :
    ∃ front back, (List.range i).foldl (fun l i => pass (l.length - i - 1) l) l = front ++ back ∧ back.length = i ∧
      (front ++ back).Perm l ∧ back.Pairwise (· ≥ ·) ∧ ∀ x ∈ front, ∀ y ∈ back, y ≤ x := by
  induction i with
  | zero => exact ⟨l, [], by simp, rfl, by simp, List.Pairwise.nil, by simp⟩
  | succ i ih =>
    obtain ⟨front, back, hpasses, hlen, hperm, hback, hcross⟩ := ih (by omega)
    have htotal := hperm.length_eq
    rw [List.length_append, hlen] at htotal
    cases front with
    | nil =>
      rw [List.length_nil] at htotal
      omega
    | cons a front =>
      obtain ⟨front', m, hpass, hperm', hleast⟩ := pass_append a front back
      have hmem : ∀ x ∈ front' ++ [m], x ∈ a :: front := fun x hx => hperm'.mem_iff.mp hx
      have hcount : (a :: front ++ back).length - i - 1 = front.length := by
        rw [List.length_append, List.length_cons, hlen]
        omega
      refine ⟨front', m :: back, ?_, by rw [List.length_cons, hlen], ?_, ?_, ?_⟩
      · rw [List.range_succ, List.foldl_append, hpasses, List.foldl_cons, List.foldl_nil, hcount, List.cons_append, hpass]
      · have hjoin : front' ++ m :: back = (front' ++ [m]) ++ back := by simp
        rw [hjoin]
        exact (hperm'.append_right back).trans hperm
      · exact List.pairwise_cons.mpr ⟨fun y hy => hcross m (hmem m (by simp)) y hy, hback⟩
      · intro x hx y hy
        rcases List.mem_cons.mp hy with rfl | hy
        · exact hleast x (hmem x (List.mem_append_left _ hx))
        · exact hcross x (hmem x (List.mem_append_left _ hx)) y hy

theorem sort_perm_pairwise (l : List α) : (sort l).Perm l ∧ (sort l).Pairwise (· ≥ ·) := by
  obtain ⟨front, back, hpasses, hlen, hperm, hback, hcross⟩ := passes_sorted l (Nat.le_refl (l.length - 1))
  have htotal := hperm.length_eq
  rw [List.length_append, hlen] at htotal
  rw [sort, hpasses]
  refine ⟨hperm, ?_⟩
  -- At most one element is left before those in their places.
  cases front with
  | nil => exact hback
  | cons a front =>
    have hnil : front = [] := by
      rw [List.length_cons] at htotal
      exact List.length_eq_zero_iff.mp (by omega)
    rw [hnil, List.singleton_append, List.pairwise_cons]
    exact ⟨fun y hy => hcross a List.mem_cons_self y hy, hback⟩

/-- The sort is the list in decreasing order that has the same elements. -/
theorem sort_eq {l s : List α} (hperm : l.Perm s) (hs : s.Pairwise (· > ·)) : sort l = s := by
  obtain ⟨hsort, hpairwise⟩ := sort_perm_pairwise l
  exact (hsort.trans hperm).eq_of_pairwise' hpairwise (hs.imp fun h => le_of_lt h)

end BubbleSort
