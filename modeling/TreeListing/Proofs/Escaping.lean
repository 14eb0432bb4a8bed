import Mathlib.Logic.Function.Iterate
import Mathlib.Order.Monotone.Basic
import TreeListing.Proofs.Markup

/-!
# Escaping more than once

Reading the entities back undoes one escaping, and so it undoes any number of them. A text with a
character that is written as an entity grows by escaping and has an ampersand afterwards, so that
it grows again with every further escaping. Any other text stays as it is.
-/

namespace TreeListing.Markup

def HasSpecial (text : String) : Prop := ∃ c ∈ text.toList, c ∈ special

theorem length_add_countP_le (text : List Char) :
    text.length + text.countP (· ∈ special) ≤ (escapeChars text).length := by
  induction text with
  | nil => exact Nat.zero_le _
  | cons c rest ih =>
    simp only [escapeChars_cons, List.length_cons, List.length_append]
    by_cases h : c ∈ special
    · have two : 2 ≤ (entity c).length := by
        rcases eq_of_mem_special h with rfl | rfl | rfl | rfl | rfl <;> decide
      have count : (c :: rest).countP (· ∈ special) = rest.countP (· ∈ special) + 1 :=
        List.countP_cons_of_pos (by simpa using h)
      omega
    · have count : (c :: rest).countP (· ∈ special) = rest.countP (· ∈ special) :=
        List.countP_cons_of_neg (by simpa using h)
      simp only [entity_of_not_mem h, List.length_singleton]
      omega

variable {text : String}

theorem HasSpecial.length_lt (h : HasSpecial text) : text.length < (escape text).length := by
  have pos : 0 < text.toList.countP (· ∈ special) := by
    simpa [List.countP_pos_iff, HasSpecial] using h
  have grown := length_add_countP_le text.toList
  simp only [escape, String.length_ofList, String.length_toList] at grown ⊢
  omega

theorem escape_eq_self (h : ¬ HasSpecial text) : escape text = text := by
  have plain : ∀ pass ∈ entities, pass.1 ∉ text.toList := by
    intro pass hp mem
    exact h ⟨pass.1, mem, List.mem_map_of_mem hp⟩
  have same : escapeChars text.toList = text.toList :=
    (run_eq_flatMap ordered_entities _).trans (flatMap_substituted_eq_self plain)
  simp [escape, same]

@[simp] theorem escape_eq_self_iff : escape text = text ↔ ¬ HasSpecial text := by
  constructor
  · intro same special
    exact absurd (congrArg String.length same) (Nat.ne_of_gt special.length_lt)
  · exact escape_eq_self

theorem hasSpecial_escape (h : HasSpecial text) : HasSpecial (escape text) := by
  obtain ⟨c, mem, hc⟩ := h
  have begins : '&' ∈ entity c := by
    rcases eq_of_mem_special hc with rfl | rfl | rfl | rfl | rfl <;> decide
  refine ⟨'&', ?_, by decide⟩
  simpa [escape, escapeChars_eq_flatMap] using ⟨c, mem, begins⟩

theorem hasSpecial_iterate (h : HasSpecial text) (n : ℕ) : HasSpecial (escape^[n] text) := by
  induction n with
  | zero => exact h
  | succ n ih =>
    rw [Function.iterate_succ_apply']
    exact hasSpecial_escape ih

theorem strictMono_length_iterate (h : HasSpecial text) :
    StrictMono fun n => (escape^[n] text).length := by
  apply strictMono_nat_of_lt_succ
  intro n
  rw [Function.iterate_succ_apply']
  exact (hasSpecial_iterate h n).length_lt

/-- A text that is escaped any number of times is read back by as many readings. Escaped text holds
no character that delimits a tag or the value of an attribute. Escaping changes a text exactly if it
holds a character that is written as an entity, and then no two numbers of escapings give the same
text. -/
theorem iterate_escape (text : String) :
    (∀ n, unescape^[n] (escape^[n] text) = text) ∧
    ('<' ∉ (escape text).toList ∧ '>' ∉ (escape text).toList ∧ '"' ∉ (escape text).toList ∧
      '\'' ∉ (escape text).toList) ∧
    (escape text = text ↔ ¬ HasSpecial text) ∧
    (Function.Injective (fun n => escape^[n] text) ↔ HasSpecial text) := by
  refine ⟨fun n => Function.LeftInverse.iterate unescape_escape n text, ?_, escape_eq_self_iff, ?_⟩
  · simpa [escape] using not_mem_escapeChars text.toList
  · constructor
    · intro injective
      by_contra plain
      have same : escape^[0] text = escape^[1] text := (escape_eq_self plain).symm
      exact absurd (injective same) Nat.zero_ne_one
    · intro special m n same
      exact (strictMono_length_iterate special).injective (congrArg String.length same)

end TreeListing.Markup
