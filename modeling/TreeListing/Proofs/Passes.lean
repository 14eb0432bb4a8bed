import Mathlib.Data.List.Basic
import Mathlib.Data.List.Induction
import TreeListing.Markup

/-!
# Passes over a text

Characters replaced in one pass after the other come out as they do in a single pass, provided that
no pass writes a character that a later one replaces. For the entities of markup that holds because
the ampersand, which each of them begins with, is replaced first. To say that no pass touches what
an earlier one has written, the characters of the text are told from those that were written.
-/

namespace TreeListing.Markup

def run (passes : List (Char × String)) (text : List Char) : List Char :=
  passes.foldl (fun text (c, written) => replace c written text) text

theorem escapeChars_eq_run (text : List Char) : escapeChars text = run entities text := rfl

/-- No pass writes a character that a later one replaces. -/
def Ordered (passes : List (Char × String)) : Prop :=
  passes.Pairwise fun earlier later => later.1 ∉ earlier.2.toList

instance (passes : List (Char × String)) : Decidable (Ordered passes) :=
  inferInstanceAs (Decidable (passes.Pairwise _))

theorem ordered_entities : Ordered entities := by decide

def substituted (passes : List (Char × String)) (c : Char) : List Char :=
  match passes.lookup c with
  | some written => written.toList
  | none => [c]

@[simp] theorem substituted_cons_self (c : Char) (written : String) (rest : List (Char × String)) :
    substituted ((c, written) :: rest) c = written.toList := by
  simp [substituted]

theorem substituted_cons_of_ne {c x : Char} (h : x ≠ c) (written : String)
    (rest : List (Char × String)) :
    substituted ((c, written) :: rest) x = substituted rest x := by
  simp [substituted, List.lookup_cons, beq_false_of_ne h]

theorem substituted_of_not_mem {passes : List (Char × String)} {c : Char}
    (h : ∀ pass ∈ passes, c ≠ pass.1) : substituted passes c = [c] := by
  induction passes with
  | nil => rfl
  | cons pass rest ih =>
    obtain ⟨x, written⟩ := pass
    have other : c ≠ x := h (x, written) List.mem_cons_self
    rw [substituted_cons_of_ne other]
    exact ih fun pass hp => h pass (List.mem_cons_of_mem _ hp)

theorem flatMap_substituted_eq_self {passes : List (Char × String)} {text : List Char}
    (h : ∀ pass ∈ passes, pass.1 ∉ text) : text.flatMap (substituted passes) = text := by
  induction text with
  | nil => rfl
  | cons c text ih =>
    have first : substituted passes c = [c] := by
      apply substituted_of_not_mem
      rintro pass hp rfl
      exact h pass hp List.mem_cons_self
    have rest := ih fun pass hp mem => h pass hp (List.mem_cons_of_mem _ mem)
    simp [first, rest]

/-- Ordered passes come to a single one, in which each character is replaced on its own. -/
theorem run_eq_flatMap {passes : List (Char × String)} (ordered : Ordered passes)
    (text : List Char) : run passes text = text.flatMap (substituted passes) := by
  induction passes generalizing text with
  | nil => exact (List.flatMap_singleton' text).symm
  | cons pass rest ih =>
    obtain ⟨c, written⟩ := pass
    obtain ⟨kept, ordered⟩ := List.pairwise_cons.1 ordered
    calc run ((c, written) :: rest) text
        = (replace c written text).flatMap (substituted rest) := ih ordered _
      _ = text.flatMap (substituted ((c, written) :: rest)) := by
        rw [replace, List.flatMap_assoc]
        apply List.flatMap_congr
        intro x _
        by_cases same : x = c
        · -- What this pass writes is left alone by the rest of them.
          subst same
          rw [if_pos rfl, substituted_cons_self]
          exact flatMap_substituted_eq_self kept
        · rw [if_neg same, substituted_cons_of_ne same]
          exact List.flatMap_singleton ..

/-- With the ampersand replaced last, what is written for another character would be replaced
once more. -/
example : run [('<', "&lt;"), ('&', "&amp;")] ['<'] = "&amp;lt;".toList := by decide

/-- A character, and whether a pass has written it. -/
structure Traced where
  char : Char
  written : Bool

def Traced.replace (c : Char) (replacement : String) (text : List Traced) : List Traced :=
  text.flatMap fun x => if x.char = c then replacement.toList.map (⟨·, true⟩) else [x]

def trace (passes : List (Char × String)) (text : List Char) : List Traced :=
  passes.foldl (fun text (c, replacement) => Traced.replace c replacement text)
    (text.map (⟨·, false⟩))

@[simp] theorem map_char_replace (c : Char) (replacement : String) (text : List Traced) :
    (Traced.replace c replacement text).map (·.char) =
      replace c replacement (text.map (·.char)) := by
  simp only [Traced.replace, replace, List.map_flatMap, List.flatMap_map]
  apply List.flatMap_congr
  intro x _
  by_cases same : x.char = c <;> simp [same, Function.comp_def]

/-- Without the marks, the passes are what they were. -/
@[simp] theorem map_char_trace (passes : List (Char × String)) (text : List Char) :
    (trace passes text).map (·.char) = run passes text := by
  have all : ∀ marked : List Traced,
      (passes.foldl (fun text (c, replacement) => Traced.replace c replacement text) marked).map
        (·.char) = run passes (marked.map (·.char)) := by
    induction passes with
    | nil => exact fun _ => rfl
    | cons pass rest ih =>
      intro marked
      rw [List.foldl_cons, ih, map_char_replace]
      rfl
  simpa [trace, Function.comp_def] using all (text.map (⟨·, false⟩))

theorem mem_replace_of_written {c : Char} {replacement : String} {text : List Traced} {x : Traced}
    (h : x ∈ Traced.replace c replacement text) (marked : x.written = true) :
    x ∈ text ∨ x.char ∈ replacement.toList := by
  obtain ⟨y, hy, hx⟩ := List.mem_flatMap.1 h
  split at hx
  · obtain ⟨d, hd, rfl⟩ := List.mem_map.1 hx
    exact .inr hd
  · obtain rfl := List.mem_singleton.1 hx
    exact .inl hy

theorem exists_pass_of_written {passes : List (Char × String)} {text : List Char} {x : Traced}
    (h : x ∈ trace passes text) (marked : x.written = true) :
    ∃ pass ∈ passes, x.char ∈ pass.2.toList := by
  -- From the last pass back: a mark was set by that pass or was there before it.
  induction passes using List.reverseRecOn with
  | nil =>
    obtain ⟨c, _, rfl⟩ := List.mem_map.1 h
    cases marked
  | append_singleton passes pass ih =>
    rw [trace, List.foldl_append] at h
    rcases mem_replace_of_written h marked with before | now
    · obtain ⟨earlier, mem, wrote⟩ := ih before
      exact ⟨earlier, List.mem_append_left _ mem, wrote⟩
    · exact ⟨pass, by simp, now⟩

/-- A pass replaces nothing that an earlier one has written. -/
theorem written_eq_false_of_replaced {passes : List (Char × String)} (ordered : Ordered passes)
    {n : Nat} {pass : Char × String} (hn : passes[n]? = some pass) {text : List Char} {x : Traced}
    (h : x ∈ trace (passes.take n) text) (replaced : x.char = pass.1) : x.written = false := by
  cases marked : x.written with
  | false => rfl
  | true =>
    obtain ⟨earlier, before, wrote⟩ := exists_pass_of_written h marked
    have after : pass ∈ passes.drop n := List.mem_of_getElem? (i := 0) (by simpa using hn)
    rw [Ordered, ← List.take_append_drop n passes, List.pairwise_append] at ordered
    rw [replaced] at wrote
    exact absurd wrote (ordered.2.2 earlier before pass after)

def escaped : Char → String
  | '&' => "&amp;"
  | '<' => "&lt;"
  | '>' => "&gt;"
  | '"' => "&quot;"
  | '\'' => "&#039;"
  | c => c.toString

theorem substituted_entities (c : Char) : substituted entities c = (escaped c).toList := by
  unfold escaped
  split
  · rfl
  · rfl
  · rfl
  · rfl
  · rfl
  · next amp lt gt quote apostrophe =>
    have other : ∀ pass ∈ entities, c ≠ pass.1 := by
      simp only [entities, List.forall_mem_cons]
      exact ⟨amp, lt, gt, quote, apostrophe, List.forall_mem_nil _⟩
    simp [substituted_of_not_mem other]

/-- Escaping writes for each character on its own what stands for it, whatever is around it, and
none of its passes replaces a character that an earlier one has written. -/
theorem escape_eq_join :
    (∀ text, escape text = String.join (text.toList.map escaped)) ∧
    (∀ a b, escape (a ++ b) = escape a ++ escape b) ∧
    ∀ text, escape text = String.ofList ((trace entities text.toList).map (·.char)) ∧
      ∀ n pass, entities[n]? = some pass → ∀ x ∈ trace (entities.take n) text.toList,
        x.char = pass.1 → x.written = false := by
  have single : ∀ text, escape text = String.join (text.toList.map escaped) := by
    intro text
    rw [escape, escapeChars_eq_run, run_eq_flatMap ordered_entities, funext substituted_entities,
      ← String.toList_inj, String.toList_ofList, String.toList_join, List.flatMap_map]
  refine ⟨single, ?_, ?_⟩
  · intro a b
    simp [single]
  · intro text
    constructor
    · rw [map_char_trace, ← escapeChars_eq_run, escape]
    · intro n pass hn x hx replaced
      exact written_eq_false_of_replaced ordered_entities hn hx replaced

end TreeListing.Markup
