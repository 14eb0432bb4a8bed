import Mathlib.Data.List.Basic

/-!
# Texts told apart by what stands between them

A text can be told from what follows it, if it ends at a character that is not in it. Lines are
told apart by their line breaks in this way, and numbers by any character that is not a digit.
-/

namespace TreeListing.Text

theorem separated_inj {c : Char} {a b x y : List Char} (ha : c ∉ a) (hb : c ∉ b)
    (h : a ++ c :: x = b ++ c :: y) : a = b ∧ x = y := by
  induction a generalizing b with
  | nil =>
    cases b with
    | nil => exact ⟨rfl, (List.cons.inj h).2⟩
    | cons d b =>
      have same : c = d := (List.cons.inj h).1
      subst same
      exact absurd List.mem_cons_self hb
  | cons d a ih =>
    rw [List.mem_cons, not_or] at ha
    cases b with
    | nil =>
      have same : d = c := (List.cons.inj h).1
      exact absurd same.symm ha.1
    | cons e b =>
      rw [List.mem_cons, not_or] at hb
      obtain ⟨same, h⟩ := List.cons.inj h
      obtain ⟨before, after⟩ := ih ha.2 hb.2 h
      rw [same, before]
      exact ⟨rfl, after⟩

theorem lines_inj {a b : List (List Char)} (ha : ∀ line ∈ a, '\n' ∉ line)
    (hb : ∀ line ∈ b, '\n' ∉ line)
    (h : a.flatMap (· ++ ['\n']) = b.flatMap (· ++ ['\n'])) : a = b := by
  induction a generalizing b with
  | nil =>
    cases b with
    | nil => rfl
    | cons line b => simp at h
  | cons line a ih =>
    cases b with
    | nil => simp at h
    | cons line' b =>
      rw [List.forall_mem_cons] at ha hb
      simp only [List.flatMap_cons, List.append_assoc, List.singleton_append] at h
      obtain ⟨first, rest⟩ := separated_inj ha.1 hb.1 h
      rw [first, ih ha.2 hb.2 rest]

@[simp] theorem toList_toString (n : Nat) :
    (toString n).toList = Nat.toDigits 10 n := Nat.toList_repr

theorem not_mem_toString {c : Char} (h : c.isDigit = false) (n : Nat) :
    c ∉ (toString n).toList := by
  rw [toList_toString]
  intro mem
  have digit : c.isDigit = true := Nat.isDigit_of_mem_toDigits (by decide) (by decide) mem
  rw [h] at digit
  cases digit

theorem toString_append_inj {m n : Nat} {c : Char} (h : c.isDigit = false) {a b : List Char}
    (same : (toString m).toList ++ c :: a = (toString n).toList ++ c :: b) : m = n ∧ a = b := by
  obtain ⟨digits, after⟩ := separated_inj (not_mem_toString h m) (not_mem_toString h n) same
  rw [toList_toString, toList_toString] at digits
  have value (k : Nat) : Nat.ofDigitChars 10 (Nat.toDigits 10 k) 0 = k :=
    Nat.ofDigitChars_toDigits (by decide) (by decide)
  have number : m = n := by
    rw [← value m, digits, value n]
  exact ⟨number, after⟩

end TreeListing.Text
