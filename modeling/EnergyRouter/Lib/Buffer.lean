import Mathlib.Data.BitVec

/-!
# Fixed buffers filled from the front

A buffer is a vector of which the first elements are in use. `copyAt` is the copy loop that stores a run at a position, and the
lemmas say how the front and single cells read afterwards.
-/

namespace Buffer

variable {k m i : Nat}

variable {α : Type} {n : Nat}

/-- Store the elements of a list one after another from position `pos` on; stores past the end change nothing. -/
def copyAt (v : Vector α n) (pos : Nat) : List α → Vector α n
  | [] => v
  | x :: xs => copyAt (v.setIfInBounds pos x) (pos + 1) xs

theorem copyAt_append (v : Vector α n) (pos : Nat) (a b : List α) :
    copyAt v pos (a ++ b) = copyAt (copyAt v pos a) (pos + a.length) b := by
  induction a generalizing v pos with
  | nil => rfl
  | cons x a ih =>
    rw [List.cons_append, copyAt, ih, copyAt, List.length_cons, show pos + 1 + a.length = pos + (a.length + 1) by omega]

/-- A copy of the first `len` elements of a list to position `pos`, without outcome when it leaves the list or the buffer. -/
def blit (v : Vector α n) (pos : Nat) (src : List α) (len : Nat) : Option (Vector α n) :=
  if pos + len ≤ n ∧ len ≤ src.length then some (copyAt v pos (src.take len)) else none

theorem blit_of_length {v : Vector α n} {pos len : Nat} {src : List α} (hlen : src.length = len) (h : pos + len ≤ n) :
    blit v pos src len = some (copyAt v pos src) := by
  rw [blit, if_pos ⟨h, by omega⟩, List.take_of_length_le (by omega)]

/-- The first `k` elements of a buffer. -/
def front (v : Vector α n) (k : Nat) : List α := v.toList.take k

@[simp] theorem front_zero (v : Vector α n) : front v 0 = [] := by simp [front]

theorem front_length {v : Vector α n} (h : k ≤ n) : (front v k).length = k := by
  simp [front, h]

theorem front_of_le (v : Vector α n) (h : k ≤ m) : front v k = (front v m).take k := by
  rw [front, front, List.take_take, Nat.min_eq_left h]

theorem front_dropLast (v : Vector α n) (h : k ≤ n) : (front v k).dropLast = front v (k - 1) := by
  rw [List.dropLast_eq_take, front_length h, ← front_of_le v (Nat.sub_le k 1)]

theorem front_of_append {v : Vector α n} {a b : List α} (h : front v m = a ++ b) (hle : a.length ≤ m) :
    front v a.length = a := by
  rw [front_of_le v hle, h, List.take_left]

/-- A store inside the buffer, right after its front, extends the front by the element stored. -/
theorem front_set_succ (v : Vector α n) (x : α) (h : k < n) :
    front (v.setIfInBounds k x) (k + 1) = front v k ++ [x] := by
  have hk : k < v.toList.length := by simpa using h
  rw [front, Vector.toList_setIfInBounds, List.set_eq_take_append_cons_drop, if_pos hk]
  rw [List.take_append, List.length_take_of_le (by omega), List.take_of_length_le (by simp)]
  simp [front]

/-- From the cell that was stored to, the buffer reads as the element and what stood behind it. -/
theorem drop_setIfInBounds (v : Vector α n) (x : α) (h : k < n) :
    (v.setIfInBounds k x).toList.drop k = x :: v.toList.drop (k + 1) := by
  have hk : k < v.toList.length := by simpa using h
  rw [Vector.toList_setIfInBounds, List.drop_set, if_neg (Nat.lt_irrefl k), List.drop_eq_getElem_cons hk, Nat.sub_self,
    List.set_cons_zero]

/-- A run copied right after the front of the buffer extends the front by the run. -/
theorem front_copyAt (v : Vector α n) (k : Nat) (xs : List α) (h : k + xs.length ≤ n) :
    front (copyAt v k xs) (k + xs.length) = front v k ++ xs := by
  induction xs generalizing v k with
  | nil => simp [copyAt]
  | cons x xs ih =>
    simp only [List.length_cons] at h ⊢
    have hrest := ih (v.setIfInBounds k x) (k + 1) (by omega)
    rw [copyAt, show k + (xs.length + 1) = k + 1 + xs.length by omega, hrest, front_set_succ v x (by omega)]
    simp

theorem front_copyAt_zero (v : Vector α n) (xs : List α) (h : xs.length ≤ n) : front (copyAt v 0 xs) xs.length = xs := by
  have hfront := front_copyAt v 0 xs (by omega)
  rwa [Nat.zero_add, front_zero, List.nil_append] at hfront

theorem front_copyAt_copyAt (v : Vector α n) (a b : List α) (h : a.length + b.length ≤ n) :
    front (copyAt (copyAt v 0 a) a.length b) (a.length + b.length) = a ++ b := by
  rw [front_copyAt _ _ _ h, front_copyAt_zero v a (by omega)]

/-- A copied run changes no cell outside of it. -/
theorem getElem?_copyAt (v : Vector α n) (pos : Nat) (xs : List α) (h : i < pos ∨ pos + xs.length ≤ i) :
    (copyAt v pos xs)[i]? = v[i]? := by
  induction xs generalizing v pos with
  | nil => rfl
  | cons x xs ih =>
    simp only [List.length_cons] at h
    rw [copyAt, ih _ _ (by omega), Vector.getElem?_setIfInBounds, if_neg (by omega)]

theorem getD_copyAt (v : Vector α n) (pos : Nat) (xs : List α) (d : α) (h : i < pos ∨ pos + xs.length ≤ i) :
    (copyAt v pos xs).getD i d = v.getD i d := by
  have hcell := getElem?_copyAt v pos xs h
  rw [Vector.getD, Vector.getD, Array.getD_eq_getD_getElem?, Array.getD_eq_getD_getElem?, Vector.getElem?_toArray,
    Vector.getElem?_toArray, hcell]

/-- Widening the front by `j` cells that were not written appends what those cells happened to hold. -/
theorem front_add (v : Vector α n) (k j : Nat) : front v (k + j) = front v k ++ (v.toList.drop k).take j := by
  rw [front, front, List.take_add]

/-- A store in the front of the buffer is a store in the list it holds. -/
theorem front_set (v : Vector α n) (k i : Nat) (x : α) : front (v.setIfInBounds i x) k = (front v k).set i x := by
  rw [front, Vector.toList_setIfInBounds, List.take_set, front]

/-- A run copied over a part of the front replaces that part. -/
theorem front_copyAt_mid (v : Vector α n) (k : Nat) (a b c xs : List α) (h : front v k = a ++ b ++ c)
    (hlen : b.length = xs.length) : front (copyAt v a.length xs) k = a ++ xs ++ c := by
  induction xs generalizing v a b with
  | nil =>
    rw [List.length_nil, List.length_eq_zero_iff] at hlen
    rw [copyAt, h, hlen]
  | cons x xs ih =>
    cases b with
    | nil => simp at hlen
    | cons y b =>
      have hset : front (v.setIfInBounds a.length x) k = (a ++ [x]) ++ b ++ c := by
        rw [front_set, h]
        simp
      have hrest := ih (v.setIfInBounds a.length x) (a ++ [x]) b hset (by simpa using hlen)
      rw [List.length_append, List.length_singleton] at hrest
      rw [copyAt, hrest]
      simp

theorem mid_copyAt (v : Vector α n) (pos : Nat) (xs : List α) (h : pos + xs.length ≤ n) :
    ((copyAt v pos xs).toList.drop pos).take xs.length = xs := by
  have hfront := front_copyAt v pos xs h
  have hdrop : ((copyAt v pos xs).toList.take (pos + xs.length)).drop pos = xs := by
    rw [← front, hfront, List.drop_left' (front_length (by omega))]
  rw [List.drop_take, Nat.add_sub_cancel_left] at hdrop
  exact hdrop

theorem prefix_copyAt_self (v : Vector α n) (pos : Nat) (xs : List α) (h : pos + xs.length ≤ n) :
    xs <+: (copyAt v pos xs).toList.drop pos :=
  List.prefix_iff_eq_take.mpr (mid_copyAt v pos xs h).symm

/-- What stands at a place of the buffer is still there after a run was copied to another. -/
theorem prefix_copyAt_of_disjoint {v : Vector α n} {q : Nat} {l : List α} (h : l <+: v.toList.drop q) (pos : Nat) (xs : List α)
    (hout : q + l.length ≤ pos ∨ pos + xs.length ≤ q) : l <+: (copyAt v pos xs).toList.drop q := by
  rw [List.prefix_iff_getElem?] at h ⊢
  intro i hi
  have hcell := h i hi
  rw [List.getElem?_drop, Vector.getElem?_toList] at hcell ⊢
  rw [getElem?_copyAt v pos xs (by omega), hcell]

theorem front_getElem? (v : Vector α n) (h : i < k) : (front v k)[i]? = v[i]? := by
  rw [front, List.getElem?_take_of_lt h, Vector.getElem?_toList]

theorem getD_front (v : Vector α n) (d : α) (h : i < k) : v.getD i d = (front v k).getD i d := by
  rw [List.getD_eq_getElem?_getD, front_getElem? v h, Vector.getD, Array.getD_eq_getD_getElem?, Vector.getElem?_toArray]

theorem getD_copyAt_zero (v : Vector α n) (xs : List α) (d : α) (hlen : xs.length ≤ n) (h : i < xs.length) :
    (copyAt v 0 xs).getD i d = xs.getD i d := by
  rw [getD_front _ d h, front_copyAt_zero v xs hlen]

theorem drop_add_of_append {l a b : List α} {n : Nat} (h : l.drop i = a ++ b) (hn : a.length = n) :
    l.drop (i + n) = b := by
  rw [← List.drop_drop, h]
  exact List.drop_left' hn

theorem getElem?_of_drop {l rest : List α} {x : α} (h : l.drop i = x :: rest) : l[i]? = some x := by
  have : (l.drop i)[0]? = some x := by rw [h, List.getElem?_cons_zero]
  rwa [List.getElem?_drop, Nat.add_zero] at this

end Buffer
