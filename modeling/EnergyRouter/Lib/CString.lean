import Mathlib.Data.Char
import Mathlib.Data.List.Infix
import Mathlib.Data.List.Lex

/-!
# Strings with a terminator

Memory is a list of characters, and a string in it ends at the first terminator. A search (`strstr`) over a text that is cut by a
character the needle does not have goes over the parts one after the other.
-/

namespace CString

/-- A property of the characters of a text is decided along the text, not over all characters there are. -/
instance (priority := high) decidableText (text : List Char) (p : Char → Prop) [DecidablePred p] : Decidable (∀ c ∈ text, p c) :=
  List.decidableBAll p text

/-- The characters of a text before its terminator. -/
def cString (text : List Char) : List Char := text.takeWhile (· ≠ '\x00')

/-- A text without a terminator in it. -/
def Unbroken (text : List Char) : Prop := ∀ c ∈ text, c ≠ '\x00'
deriving Decidable

/-- `strstr`: the first place of the needle before the terminator. A search that leaves the memory without having met either has no
outcome. -/
def strstr (needle : List Char) : List Char → Nat → Option (Option Nat)
  | [], _ => none
  | c :: memory, i =>
    if needle.isPrefixOf (c :: memory) then some (some i)
    else if c = '\x00' then some none
    else strstr needle memory (i + 1)

/-- `strcmp`: negative when the first string is the smaller one, positive when it is the greater one. -/
def strcmp : List Char → List Char → Int
  | [], [] => 0
  | [], _ :: _ => -1
  | _ :: _, [] => 1
  | c :: a, d :: b => if c = d then strcmp a b else c.toNat - d.toNat

section Order

theorem toNat_lt_toNat {c d : Char} : c.toNat < d.toNat ↔ c < d := Iff.rfl

theorem strcmp_neg {a b : List Char} : strcmp a b < 0 ↔ a < b := by
  induction a generalizing b with
  | nil => cases b <;> simp [strcmp]
  | cons c a ih =>
    cases b with
    | nil => simp [strcmp]
    | cons d b =>
      rw [strcmp, List.cons_lt_cons_iff]
      by_cases heq : c = d
      · rw [if_pos heq, ih, heq]
        simp
      · rw [if_neg heq, ← toNat_lt_toNat]
        simp only [heq, false_and, or_false]
        omega

theorem strcmp_swap (a b : List Char) : strcmp b a = -strcmp a b := by
  induction a generalizing b with
  | nil => cases b <;> rfl
  | cons c a ih =>
    cases b with
    | nil => rfl
    | cons d b =>
      rw [strcmp, strcmp]
      by_cases heq : c = d
      · rw [if_pos heq, if_pos heq.symm, ih]
      · rw [if_neg heq, if_neg (Ne.symm heq)]
        omega

theorem strcmp_pos {a b : List Char} : 0 < strcmp a b ↔ b < a := by
  rw [← strcmp_neg, strcmp_swap a b]
  omega

/-- A difference in parts of the same length decides. -/
theorem append_lt_append {a b : List Char} (hlen : a.length = b.length) (h : a < b) (x y : List Char) : a ++ x < b ++ y := by
  induction a generalizing b with
  | nil =>
    rw [List.length_nil, eq_comm, List.length_eq_zero_iff] at hlen
    rw [hlen] at h
    exact absurd h (lt_irrefl _)
  | cons c a ih =>
    cases b with
    | nil => cases hlen
    | cons d b =>
      rw [List.cons_lt_cons_iff] at h
      rw [List.cons_append, List.cons_append, List.cons_lt_cons_iff]
      rcases h with hlt | ⟨heq, hlt⟩
      · exact .inl hlt
      · exact .inr ⟨heq, ih (Nat.succ.inj hlen) hlt⟩

end Order

section Unbroken

theorem unbroken_append {a b : List Char} : Unbroken (a ++ b) ↔ Unbroken a ∧ Unbroken b := List.forall_mem_append

theorem unbroken_cons {c : Char} {a : List Char} : Unbroken (c :: a) ↔ c ≠ '\x00' ∧ Unbroken a := List.forall_mem_cons

theorem unbroken_nil : Unbroken [] := by simp [Unbroken]

theorem unbroken_flatMap {α : Type} {l : List α} {f : α → List Char} (h : ∀ a ∈ l, Unbroken (f a)) : Unbroken (l.flatMap f) := by
  intro c hc
  obtain ⟨a, ha, hca⟩ := List.mem_flatMap.mp hc
  exact h a ha c hca

theorem cString_append {a : List Char} (h : Unbroken a) (b : List Char) : cString (a ++ b) = a ++ cString b :=
  List.takeWhile_append_of_pos (by simpa [Unbroken] using h)

theorem cString_terminated {a : List Char} (h : Unbroken a) (b : List Char) : cString (a ++ '\x00' :: b) = a := by
  rw [cString_append h, cString, List.takeWhile_cons_of_neg (by decide), List.append_nil]

end Unbroken

section Search

variable {needle a b : List Char} {c : Char}

/-- A needle that starts in a part and does not have the character behind it lies in the part. -/
theorem prefix_of_prefix_append (hc : c ∉ needle) (h : needle <+: a ++ c :: b) : needle <+: a := by
  rcases List.prefix_or_prefix_of_prefix h (List.prefix_append a (c :: b)) with hle | ⟨t, rfl⟩
  · exact hle
  · rw [List.prefix_append_right_inj] at h
    cases t with
    | nil => simp
    | cons x t =>
      obtain ⟨rfl, -⟩ := List.cons_prefix_cons.mp h
      simp at hc

/-- A needle in a text cut by a character it does not have lies in one of the parts. -/
theorem infix_of_infix_append (hc : c ∉ needle) (hne : needle ≠ []) (h : needle <:+: a ++ c :: b) :
    needle <:+: a ∨ needle <:+: b := by
  induction a with
  | nil =>
    rcases List.infix_cons_iff.mp h with hhead | hrest
    · exact absurd (List.prefix_nil.mp (prefix_of_prefix_append (a := []) hc hhead)) hne
    · exact .inr hrest
  | cons x a ih =>
    rcases List.infix_cons_iff.mp h with hhead | hrest
    · exact .inl (prefix_of_prefix_append (a := x :: a) hc hhead).isInfix
    · rcases ih hrest with hleft | hright
      · exact .inl (List.infix_cons hleft)
      · exact .inr hright

/-- A part without the needle is passed over, with the character behind it. -/
theorem strstr_pass (hc : c ∉ needle) (hne : needle ≠ []) (hterm : c ≠ '\x00') (ha : Unbroken a) (hnot : ¬needle <:+: a) (i : Nat) :
    strstr needle (a ++ c :: b) i = strstr needle b (i + a.length + 1) := by
  induction a generalizing i with
  | nil =>
    have hhead : ¬needle.isPrefixOf (c :: b) = true := by
      rw [List.isPrefixOf_iff_prefix]
      intro h
      exact hne (List.prefix_nil.mp (prefix_of_prefix_append (a := []) hc h))
    rw [List.nil_append, strstr, if_neg hhead, if_neg hterm, List.length_nil, Nat.add_zero]
  | cons x a ih =>
    have hhead : ¬needle.isPrefixOf (x :: (a ++ c :: b)) = true := by
      rw [List.isPrefixOf_iff_prefix]
      intro h
      exact hnot (prefix_of_prefix_append (a := x :: a) hc h).isInfix
    rw [unbroken_cons] at ha
    rw [List.cons_append, strstr, if_neg hhead, if_neg ha.1, ih ha.2 (fun h => hnot (List.infix_cons h)), List.length_cons]
    congr 1
    omega

theorem strstr_here (hne : needle ≠ []) (i : Nat) : strstr needle (needle ++ b) i = some (some i) := by
  obtain ⟨x, needle, rfl⟩ := List.exists_cons_of_ne_nil hne
  rw [List.cons_append, strstr, if_pos]
  rw [List.isPrefixOf_iff_prefix, ← List.cons_append]
  exact List.prefix_append _ _

/-- A search that finds nothing finds nothing wherever it counts from. -/
theorem strstr_none_of_none {i : Nat} (h : strstr needle b i = some none) (j : Nat) : strstr needle b j = some none := by
  induction b generalizing i j with
  | nil => exact absurd h (by simp [strstr])
  | cons c b ih =>
    rw [strstr] at h ⊢
    split_ifs at h ⊢
    · cases Option.some.inj h
    · rfl
    · exact ih h (j + 1)

end Search

end CString
