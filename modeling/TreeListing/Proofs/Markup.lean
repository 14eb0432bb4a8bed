import Mathlib.Data.List.Basic
import TreeListing.Proofs.Passes

/-!
# Reading markup back

The passes of escaping come to one pass in which each character is replaced on its own, and the
replacements are read back from left to right. What is escaped holds no character that delimits a
tag, so that the tags of a text, and what stands between them, are those that were written.
-/

namespace TreeListing.Markup

def special : List Char := entities.map (·.1)

def entity (c : Char) : List Char :=
  match entities.lookup c with
  | some written => written.toList
  | none => [c]

theorem eq_of_mem_special {c : Char} (h : c ∈ special) :
    c = '&' ∨ c = '<' ∨ c = '>' ∨ c = '"' ∨ c = '\'' := by
  simpa [special, entities] using h

theorem entity_of_not_mem {c : Char} (h : c ∉ special) : entity c = [c] := by
  change substituted entities c = [c]
  apply substituted_of_not_mem
  rintro pass hp rfl
  exact h (List.mem_map_of_mem hp)

theorem escapeChars_eq_flatMap (text : List Char) : escapeChars text = text.flatMap entity := by
  rw [escapeChars_eq_run, run_eq_flatMap ordered_entities]
  rfl

@[simp] theorem escapeChars_cons (c : Char) (rest : List Char) :
    escapeChars (c :: rest) = entity c ++ escapeChars rest := by
  simp only [escapeChars_eq_flatMap, List.flatMap_cons]

theorem eq_of_mem_escapeChars {c : Char} {text : List Char} (mem : c ∈ escapeChars text)
    (h : c ∈ special) : c = '&' := by
  rw [escapeChars_eq_flatMap, List.mem_flatMap] at mem
  obtain ⟨d, _, hc⟩ := mem
  by_cases hd : d ∈ special
  · have each : (entity d).all (fun x => x = '&' ∨ x ∉ special) := by
      rcases eq_of_mem_special hd with rfl | rfl | rfl | rfl | rfl <;> decide
    simpa [h] using List.all_eq_true.1 each c hc
  · rw [entity_of_not_mem hd, List.mem_singleton] at hc
    exact absurd (hc ▸ h) hd

theorem not_mem_escapeChars (text : List Char) :
    '<' ∉ escapeChars text ∧ '>' ∉ escapeChars text ∧ '"' ∉ escapeChars text ∧
      '\'' ∉ escapeChars text := by
  have absent : ∀ c ∈ special, c ≠ '&' → c ∉ escapeChars text :=
    fun c hc other mem => other (eq_of_mem_escapeChars mem hc)
  refine ⟨absent _ ?_ ?_, absent _ ?_ ?_, absent _ ?_ ?_, absent _ ?_ ?_⟩ <;> decide

def unescapeChars : List Char → List Char
  | '&' :: 'a' :: 'm' :: 'p' :: ';' :: rest => '&' :: unescapeChars rest
  | '&' :: 'l' :: 't' :: ';' :: rest => '<' :: unescapeChars rest
  | '&' :: 'g' :: 't' :: ';' :: rest => '>' :: unescapeChars rest
  | '&' :: 'q' :: 'u' :: 'o' :: 't' :: ';' :: rest => '"' :: unescapeChars rest
  | '&' :: '#' :: '0' :: '3' :: '9' :: ';' :: rest => '\'' :: unescapeChars rest
  | c :: rest => c :: unescapeChars rest
  | [] => []

def unescape (text : String) : String := String.ofList (unescapeChars text.toList)

theorem unescapeChars_cons_of_ne {c : Char} (h : c ≠ '&') (rest : List Char) :
    unescapeChars (c :: rest) = c :: unescapeChars rest := by
  rw [unescapeChars]
  all_goals
    intro _ same
    exact absurd same h

@[simp] theorem unescapeChars_entity (c : Char) (rest : List Char) :
    unescapeChars (entity c ++ rest) = c :: unescapeChars rest := by
  by_cases h : c ∈ special
  · rcases eq_of_mem_special h with rfl | rfl | rfl | rfl | rfl <;> rfl
  · have other : c ≠ '&' := by
      rintro rfl
      exact h (by decide)
    rw [entity_of_not_mem h]
    exact unescapeChars_cons_of_ne other rest

@[simp] theorem unescapeChars_escapeChars (text : List Char) :
    unescapeChars (escapeChars text) = text := by
  induction text with
  | nil => rfl
  | cons c rest ih => rw [escapeChars_cons, unescapeChars_entity, ih]

@[simp] theorem unescape_escape (text : String) : unescape (escape text) = text := by
  simp [unescape, escape, unescapeChars_escapeChars]

/-- A tag, and the text between it and the tag before it. -/
structure Piece where
  before : String
  tag : String

/-- The pieces of the rest of a markup. `text` has been read since the last tag; `opened` is what
has been read of a tag that is not closed yet, if there is one. -/
def piecesFrom (text : List Char) (opened : Option (List Char)) : List Char → List Piece
  | [] => []
  | c :: rest =>
    match opened with
    | none =>
      if c = '<' then piecesFrom text (some [c]) rest else piecesFrom (text ++ [c]) none rest
    | some tag =>
      if c = '>' then ⟨String.ofList text, String.ofList (tag ++ [c])⟩ :: piecesFrom [] none rest
      else piecesFrom text (some (tag ++ [c])) rest

/-- The markup cut at its tags, each of which goes from a `<` to the next `>`. -/
def pieces (markup : String) : List Piece := piecesFrom [] none markup.toList

def tags (markup : String) : List String := (pieces markup).map (·.tag)

/-- The texts that a closing tag of a span ends, each with the tag that it begins after. -/
def spanTextsOf : List Piece → List (String × String)
  | opening :: closing :: rest =>
    if closing.tag = "</span>" then
      (opening.tag, closing.before) :: spanTextsOf (closing :: rest)
    else spanTextsOf (closing :: rest)
  | _ => []

def spanTexts (markup : String) : List (String × String) := spanTextsOf (pieces markup)

def write (ps : List Piece) : String := String.join (ps.map fun p => p.before ++ p.tag)

@[simp] theorem write_nil : write [] = "" := String.join_nil

@[simp] theorem write_cons (p : Piece) (ps : List Piece) :
    write (p :: ps) = p.before ++ (p.tag ++ write ps) := by
  rw [write, List.map_cons, String.join_cons, String.append_assoc, write]

@[simp] theorem write_append (a b : List Piece) : write (a ++ b) = write a ++ write b := by
  rw [write, List.map_append, String.join_append, write, write]

def IsTag (tag : String) : Prop :=
  ∃ inside, tag.toList = '<' :: (inside ++ ['>']) ∧ '>' ∉ inside

/-- The delimiters stand around the tag and nowhere else. -/
structure Piece.Plain (p : Piece) : Prop where
  before : '<' ∉ p.before.toList
  tag : IsTag p.tag

theorem plain_mk {before tag : String} (hb : '<' ∉ before.toList) (ht : IsTag tag) :
    Piece.Plain ⟨before, tag⟩ := ⟨hb, ht⟩

theorem piecesFrom_text {more : List Char} (h : '<' ∉ more) (text rest : List Char) :
    piecesFrom text none (more ++ rest) = piecesFrom (text ++ more) none rest := by
  induction more generalizing text with
  | nil => rw [List.nil_append, List.append_nil]
  | cons c more ih =>
    rw [List.mem_cons, not_or] at h
    rw [List.cons_append, piecesFrom, if_neg (Ne.symm h.1), ih h.2, List.append_assoc]
    rfl

theorem piecesFrom_inside {more : List Char} (h : '>' ∉ more) (text tag rest : List Char) :
    piecesFrom text (some tag) (more ++ rest) = piecesFrom text (some (tag ++ more)) rest := by
  induction more generalizing tag with
  | nil => rw [List.nil_append, List.append_nil]
  | cons c more ih =>
    rw [List.mem_cons, not_or] at h
    rw [List.cons_append, piecesFrom, if_neg (Ne.symm h.1), ih h.2, List.append_assoc]
    rfl

theorem pieces_append {p : Piece} (h : p.Plain) (rest : String) :
    pieces (p.before ++ (p.tag ++ rest)) = p :: pieces rest := by
  obtain ⟨inside, delimited, plain⟩ := h.tag
  have split : (p.before ++ (p.tag ++ rest)).toList =
      p.before.toList ++ '<' :: (inside ++ '>' :: rest.toList) := by
    simp [delimited]
  have tag : String.ofList ('<' :: (inside ++ ['>'])) = p.tag := by
    rw [← delimited, String.ofList_toList]
  rw [pieces, split, piecesFrom_text h.before, piecesFrom, if_pos rfl, piecesFrom_inside plain,
    piecesFrom, if_pos rfl, List.nil_append, String.ofList_toList, List.singleton_append,
    List.cons_append, tag]
  rfl

theorem pieces_write {ps : List Piece} (h : ∀ p ∈ ps, p.Plain) (rest : String) :
    pieces (write ps ++ rest) = ps ++ pieces rest := by
  induction ps with
  | nil => rw [write_nil, String.empty_append, List.nil_append]
  | cons p ps ih =>
    rw [List.forall_mem_cons] at h
    simp [String.append_assoc, pieces_append h.1, ih h.2]

end TreeListing.Markup
