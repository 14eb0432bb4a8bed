import Mathlib.Data.List.DropRight
import Mathlib.Data.String.Basic
import TreeListing.Record.Lead
import TreeListing.Text

/-!
# Reading the lead of a line back

A field's name without blank characters can be told from the indentation before it, as long as
that ends with a blank character, which it does on every level but the first. What is read as the
indentation of the first line may fall short of it, and is never longer.
-/

namespace TreeListing

def Text.Unblank (text : String) : Prop := ∀ c ∈ text.toList, isBlank c = false

instance (text : String) : Decidable (Text.Unblank text) :=
  List.decidableBAll (Text.isBlank · = false) text.toList

theorem Indent.size_levels (level : Nat) :
    (String.ofList (levels level)).utf8ByteSize = 2 * level := by
  rw [String.utf8ByteSize_ofList]
  induction level with
  | zero => rfl
  | succ level ih =>
    simp only [levels, unit, List.cons_append, List.nil_append, String.utf8Len_cons, ih]
    rfl

namespace Lead

def trim (text : String) : String :=
  String.ofList (text.toList.rdropWhile (!Text.isBlank ·))

theorem size_trim_le (text : String) : (trim text).utf8ByteSize ≤ text.utf8ByteSize := by
  rw [trim, String.utf8ByteSize_ofList, ← String.utf8Len_toList text]
  exact String.utf8Len_le_of_prefix (List.rdropWhile_prefix _ _)

theorem trim_append_of_unblank (text : String) {name : String} (h : Text.Unblank name) :
    trim (text ++ name) = trim text := by
  have all : ∀ c ∈ name.toList.reverse, (!Text.isBlank c) = true := by
    intro c hc
    simp [h c (by simpa using hc)]
  unfold trim List.rdropWhile
  rw [String.toList_append, List.reverse_append, List.dropWhile_append_of_pos all]

theorem stripReversed?_append_separator (front : String) :
    stripReversed? (front ++ separator) = some front.toList.reverse := by
  rw [stripReversed?_eq_some_iff]
  simp

theorem stripReversed?_of_ne {lead : String} (h : ∀ front, lead ≠ front ++ separator) :
    stripReversed? lead = none := by
  refine Option.eq_none_iff_forall_ne_some.2 fun rest hrest => ?_
  rw [stripReversed?_eq_some_iff] at hrest
  refine h (String.ofList rest.reverse) ?_
  rw [← String.toList_inj, hrest]
  simp

@[simp] theorem indent_append_separator (front : String) :
    indent (front ++ separator) = trim front := by
  rw [indent, stripReversed?_append_separator]
  rfl

theorem indent_of_ne {lead : String} (h : ∀ front, lead ≠ front ++ separator) :
    indent lead = lead := by
  rw [indent, stripReversed?_of_ne h]

theorem size_indent_le (lead : String) : (indent lead).utf8ByteSize ≤ lead.utf8ByteSize := by
  by_cases h : ∃ front, lead = front ++ separator
  · obtain ⟨front, rfl⟩ := h
    rw [indent_append_separator, String.utf8ByteSize_append]
    exact Nat.le_add_right_of_le (size_trim_le front)
  · rw [indent_of_ne fun front eq => h ⟨front, eq⟩]

section

variable (base : String) {field : Option String}
  (plain : ∀ name, field = some name → Text.Unblank name)
include plain

theorem size_indent_make_le : (indent (make base field)).utf8ByteSize ≤ base.utf8ByteSize := by
  cases field with
  | none => exact size_indent_le base
  | some name =>
    rw [make, indent_append_separator, trim_append_of_unblank base (plain name rfl)]
    exact size_trim_le base

/-- Below the first level the indentation is read back as it is, whatever it starts with. -/
theorem indent_make_deeper (level : Nat) :
    indent (make (base ++ String.ofList (Indent.levels (level + 1))) field) =
      base ++ String.ofList (Indent.levels (level + 1)) := by
  have ends : (base ++ String.ofList (Indent.levels (level + 1))).toList =
      (base.toList ++ Indent.levels level ++ [' ']) ++ [' '] := by
    rw [Indent.levels_add]
    simp [Indent.levels, Indent.unit]
  generalize base ++ String.ofList (Indent.levels (level + 1)) = deeper at ends
  cases field with
  | none =>
    refine indent_of_ne fun front eq => ?_
    rw [make] at eq
    have := congrArg List.reverse (eq ▸ ends)
    simp [separator] at this
  | some name =>
    rw [make, indent_append_separator, trim_append_of_unblank deeper (plain name rfl), trim, ends,
      List.rdropWhile_concat_neg _ _ _ (by decide), ← ends, String.ofList_toList]

end

end Lead

end TreeListing
