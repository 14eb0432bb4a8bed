import Mathlib.Data.List.Basic
import TreeListing.Proofs.Lead
import TreeListing.Proofs.Rows
import TreeListing.Proofs.Separated

/-!
# What a listing as text tells

A listing that shows all nodes and all fields has one line for each row of the tree. The parts of
a line are told apart from left to right: the indentation ends at the first character of a word,
a word at the space behind it, and a number at what is not a digit. Whether the first word is a
field is told by the number of spaces. So the lines determine the rows, and the rows the tree.
-/

namespace TreeListing

namespace Position

theorem spanText_inj {start start' stop stop' : Position}
    (h : (spanText start stop).toList = (spanText start' stop').toList) :
    start = start' ∧ stop = stop' := by
  have comma : ','.isDigit = false := by decide
  have bracket : ']'.isDigit = false := by decide
  have comma_eq : ", ".toList = [',', ' '] := rfl
  have bracket_eq : "]".toList = [']'] := rfl
  unfold spanText text at h
  simp only [String.toList_append, List.append_assoc, comma_eq, bracket_eq, List.cons_append,
    List.nil_append] at h
  have from_row := List.append_cancel_left (List.append_cancel_left h)
  obtain ⟨row, from_column⟩ := Text.toString_append_inj comma from_row
  obtain ⟨column, from_stop⟩ := Text.toString_append_inj bracket (List.cons.inj from_column).2
  have from_row' := List.append_cancel_left (List.append_cancel_left from_stop)
  obtain ⟨row', from_column'⟩ := Text.toString_append_inj comma from_row'
  obtain ⟨column', _⟩ := Text.toString_append_inj bracket (List.cons.inj from_column').2
  exact ⟨Position.ext row column, Position.ext row' column'⟩

theorem toList_spanText (start stop : Position) :
    (spanText start stop).toList = ' ' :: (start.text ++ " - " ++ stop.text).toList := by
  unfold spanText
  simp only [String.toList_append, List.append_assoc]
  rfl

@[simp] theorem count_space_text (p : Position) : p.text.toList.count ' ' = 1 := by
  have digits (n : Nat) : (toString n).toList.count ' ' = 0 :=
    List.count_eq_zero.2 (Text.not_mem_toString (by decide) n)
  unfold text
  simp only [String.toList_append, List.count_append, digits]
  rfl

@[simp] theorem count_space_spanText (start stop : Position) :
    (spanText start stop).toList.count ' ' = 5 := by
  unfold spanText
  simp only [String.toList_append, List.count_append, count_space_text]
  rfl

theorem newline_not_mem_spanText (start stop : Position) :
    '\n' ∉ (spanText start stop).toList := by
  have digits : ∀ n : Nat, '\n' ∉ (toString n).toList := Text.not_mem_toString (by decide)
  have literal : '\n' ∉ " ".toList ∧ '\n' ∉ "[".toList ∧ '\n' ∉ ", ".toList ∧ '\n' ∉ "]".toList ∧
      '\n' ∉ " - ".toList := by decide
  unfold spanText text
  simp only [String.toList_append, List.mem_append, digits, literal, or_self, not_false_eq_true]

end Position

def Text.IsWord (text : String) : Prop := text ≠ "" ∧ Unblank text

instance (text : String) : Decidable (Text.IsWord text) :=
  inferInstanceAs (Decidable (_ ∧ _))

namespace Text.IsWord

variable {word : String}

theorem not_mem {c : Char} (h : IsWord word) (blank : isBlank c = true) : c ∉ word.toList := by
  intro mem
  have unblank := h.2 c mem
  rw [blank] at unblank
  cases unblank

theorem count_space (h : IsWord word) : word.toList.count ' ' = 0 :=
  List.count_eq_zero.2 (h.not_mem (by decide))

theorem space_not_mem_colon (h : IsWord word) : ' ' ∉ word.toList ++ [':'] := by
  have blank : isBlank ' ' = true := by decide
  simp [h.not_mem blank]

theorem exists_cons (h : IsWord word) : ∃ c rest, word.toList = c :: rest ∧ c ≠ ' ' := by
  cases hw : word.toList with
  | nil => exact absurd (String.toList_eq_nil_iff.1 hw) h.1
  | cons c rest =>
    refine ⟨c, rest, rfl, ?_⟩
    rintro rfl
    exact h.not_mem (by decide) (hw ▸ List.mem_cons_self)

end Text.IsWord

theorem Indent.levels_append_inj {m n : Nat} {c d : Char} {a b : List Char} (hc : c ≠ ' ')
    (hd : d ≠ ' ') (h : levels m ++ c :: a = levels n ++ d :: b) :
    m = n ∧ c :: a = d :: b := by
  induction m generalizing n with
  | zero =>
    cases n with
    | zero => exact ⟨rfl, h⟩
    | succ n => exact absurd (List.cons.inj h).1 hc
  | succ m ih =>
    cases n with
    | zero => exact absurd (List.cons.inj h).1.symm hd
    | succ n =>
      have shorter : unit ++ (levels m ++ c :: a) = unit ++ (levels n ++ d :: b) := h
      obtain ⟨level, rest⟩ := ih (List.append_cancel_left shorter)
      rw [level]
      exact ⟨rfl, rest⟩

namespace Row

def text (indent : String) (r : Row) : String :=
  Lead.make (indent ++ String.ofList (Indent.levels r.depth)) r.field ++ r.kind ++
    Position.spanText r.start r.stop

def fieldText : Option String → List Char
  | none => []
  | some field => field.toList ++ Lead.separator.toList

/-- The colon belongs to what stands in front of the space, whether or not a name has colons. -/
theorem fieldText_some_append (field : String) (rest : List Char) :
    fieldText (some field) ++ rest = (field.toList ++ [':']) ++ ' ' :: rest := by
  simp only [fieldText, Lead.separator, List.append_assoc]
  rfl

def body (r : Row) : List Char :=
  fieldText r.field ++ r.kind.toList ++ (Position.spanText r.start r.stop).toList

theorem toList_text (indent : String) (r : Row) :
    (r.text indent).toList = indent.toList ++ (Indent.levels r.depth ++ r.body) := by
  unfold text body
  cases r.field <;>
    simp only [Lead.make, fieldText, String.toList_append, String.toList_ofList,
      List.append_assoc, List.nil_append]

/-- The kind is a word, and so is the field if there is one. -/
structure Plain (r : Row) : Prop where
  kind : Text.IsWord r.kind
  field : ∀ name, r.field = some name → Text.IsWord name

variable {r r' : Row}

theorem Plain.exists_body (h : r.Plain) : ∃ c rest, r.body = c :: rest ∧ c ≠ ' ' := by
  unfold body
  cases hf : r.field with
  | none =>
    obtain ⟨c, rest, word, hc⟩ := h.kind.exists_cons
    exact ⟨c, _, by rw [word]; rfl, hc⟩
  | some name =>
    obtain ⟨c, rest, word, hc⟩ := (h.field name hf).exists_cons
    exact ⟨c, _, by rw [fieldText, word]; rfl, hc⟩

theorem Plain.count_space_body (h : r.Plain) :
    r.body.count ' ' = if r.field = none then 5 else 6 := by
  unfold body
  rw [List.count_append, List.count_append, h.kind.count_space, Position.count_space_spanText]
  cases hf : r.field with
  | none => rfl
  | some name =>
    rw [fieldText, List.count_append, (h.field name hf).count_space]
    rfl

theorem kind_append_inj {kind kind' : String} {start start' stop stop' : Position}
    (word : Text.IsWord kind) (word' : Text.IsWord kind')
    (h : kind.toList ++ (Position.spanText start stop).toList =
      kind'.toList ++ (Position.spanText start' stop').toList) :
    kind = kind' ∧ start = start' ∧ stop = stop' := by
  have chars := h
  rw [Position.toList_spanText, Position.toList_spanText] at chars
  have blank : Text.isBlank ' ' = true := by decide
  obtain ⟨same, _⟩ := Text.separated_inj (word.not_mem blank) (word'.not_mem blank) chars
  rw [same] at h
  exact ⟨String.toList_inj.1 same, Position.spanText_inj (List.append_cancel_left h)⟩

theorem body_inj (h : r.Plain) (h' : r'.Plain) (same : r.body = r'.body) :
    r.field = r'.field ∧ r.kind = r'.kind ∧ r.start = r'.start ∧ r.stop = r'.stop := by
  -- the first word may be a field or the kind; the number of spaces tells which
  have spaces : r.body.count ' ' = r'.body.count ' ' := by rw [same]
  rw [h.count_space_body, h'.count_space_body] at spaces
  unfold body at same
  cases hf : r.field with
  | none =>
    cases hf' : r'.field with
    | none =>
      rw [hf, hf'] at same
      exact ⟨rfl, kind_append_inj h.kind h'.kind same⟩
    | some name' =>
      rw [hf, hf'] at spaces
      cases spaces
  | some name =>
    cases hf' : r'.field with
    | none =>
      rw [hf, hf'] at spaces
      cases spaces
    | some name' =>
      rw [hf, hf', List.append_assoc, List.append_assoc, fieldText_some_append,
        fieldText_some_append] at same
      obtain ⟨field, rest⟩ := Text.separated_inj (h.field name hf).space_not_mem_colon
        (h'.field name' hf').space_not_mem_colon same
      rw [String.toList_inj.1 (List.append_cancel_right field)]
      exact ⟨rfl, kind_append_inj h.kind h'.kind rest⟩

theorem text_inj {indent : String} (h : r.Plain) (h' : r'.Plain)
    (same : r.text indent = r'.text indent) : r = r' := by
  have chars := congrArg String.toList same
  rw [toList_text, toList_text] at chars
  have deeper := List.append_cancel_left chars
  obtain ⟨c, rest, body_eq, hc⟩ := h.exists_body
  obtain ⟨c', rest', body_eq', hc'⟩ := h'.exists_body
  rw [body_eq, body_eq'] at deeper
  obtain ⟨depth, words⟩ := Indent.levels_append_inj hc hc' deeper
  rw [← body_eq, ← body_eq'] at words
  obtain ⟨field, kind, start, stop⟩ := body_inj h h' words
  exact Row.ext depth field kind start stop

theorem Plain.newline_not_mem_text {indent : String} (h : r.Plain) (line : '\n' ∉ indent.toList) :
    '\n' ∉ (r.text indent).toList := by
  have blank : Text.isBlank '\n' = true := by decide
  have field : '\n' ∉ fieldText r.field := by
    cases hf : r.field with
    | none => exact List.not_mem_nil
    | some name =>
      have colon : '\n' ∉ Lead.separator.toList := by decide
      simp only [fieldText, List.mem_append, (h.field name hf).not_mem blank, colon, or_self,
        not_false_eq_true]
  have levels : '\n' ∉ Indent.levels r.depth := by
    rw [Indent.levels_eq_replicate]
    intro mem
    cases List.eq_of_mem_replicate mem
  rw [toList_text]
  unfold body
  simp only [List.mem_append, line, levels, field, h.kind.not_mem blank,
    Position.newline_not_mem_spanText, or_self, not_false_eq_true]

theorem map_text_inj {indent : String} {rows rows' : List Row} (h : ∀ r ∈ rows, r.Plain)
    (h' : ∀ r ∈ rows', r.Plain) (same : rows.map (text indent) = rows'.map (text indent)) :
    rows = rows' := by
  induction rows generalizing rows' with
  | nil => exact (List.map_eq_nil_iff.1 same.symm).symm
  | cons r rows ih =>
    cases rows' with
    | nil => cases same
    | cons r' rows' =>
      rw [List.forall_mem_cons] at h h'
      obtain ⟨first, rest⟩ := List.cons.inj same
      rw [text_inj h.1 h'.1 first, ih h.2 h'.2 rest]

end Row

theorem Record.toList_listing (records : List Record) :
    (listing records).toList = (records.map fun r => r.text.toList).flatMap (· ++ ['\n']) := by
  unfold listing
  induction records with
  | nil => rfl
  | cons r records ih =>
    rw [List.map_cons, String.join_cons, String.toList_append, ih, List.map_cons,
      List.flatMap_cons, String.toList_append]
    rfl

/-- All nodes are listed, and all fields are shown. -/
structure Options.ShowsAll (o : Options) : Prop where
  nodes : o.hideUnnamed = false
  fields : o.showFields = true

theorem Options.ShowsAll.shownField {o : Options} (h : o.ShowsAll) (field : Option String) :
    o.shownField field = field := by
  rw [Options.shownField, if_pos h.fields]

namespace Tree

open Node (number rowsAll)

theorem shownChildren_of_showsAll (t : Tree) {o : Options} (h : o.ShowsAll) (id : Nat) :
    t.shownChildren o id = t.children id := by
  refine List.filter_eq_self.2 fun slot _ => ?_
  rw [isShown, h.nodes]
  rfl

variable {t : Tree} {o : Options}

mutual
theorem Stores.map_text_visit (all : o.ShowsAll) (base : String) {id : Nat} {parent : Option Nat}
    (depth : Nat) (field : Option String) :
    ∀ {node : Node}, t.Stores id parent node →
      (t.visit o id (base ++ String.ofList (Indent.levels depth)) field).map Record.text =
        (node.rows depth field).map (Row.text base)
  | .mk kind start stop named below, h => by
    rw [visit_eq, h.get?, shownChildren_of_showsAll t all, h.children, Node.rows, indent_succ]
    simp only [List.map_cons]
    rw [h.all.map_text_flatMap_visit all base (depth + 1)]
    rfl

theorem StoresAll.map_text_flatMap_visit (all : o.ShowsAll) (base : String) {next parent : Nat}
    (depth : Nat) :
    ∀ {below : List (Option String × Node)}, t.StoresAll next parent below →
      ((number next below).flatMap fun slot =>
          t.visit o slot.2 (base ++ String.ofList (Indent.levels depth))
            (o.shownField slot.1)).map Record.text =
        (rowsAll depth below).map (Row.text base)
  | [], _ => rfl
  | (field, child) :: rest, h => by
    rw [number, List.flatMap_cons, List.map_append, rowsAll, List.map_append, all.shownField,
      h.head.map_text_visit all base depth field,
      h.tail.map_text_flatMap_visit all base depth]
end

theorem map_text_records (all : o.ShowsAll) (root : Node) :
    ((ofNode root).records o 0).map Record.text = (root.rows 0 none).map (Row.text o.indent) := by
  have base : o.indent = o.indent ++ String.ofList (Indent.levels 0) := String.append_empty.symm
  have field : o.shownField ((ofNode root).field? 0) = none := by
    rw [all.shownField, Tree.field?, parent?_root]
    rfl
  rw [records_eq, field]
  conv_lhs => rw [base]
  exact (stores_root root).map_text_visit all o.indent 0 none

theorem toList_listing_of_showsAll (all : o.ShowsAll) (root : Node) :
    ((ofNode root).listing o 0).toList =
      ((root.rows 0 none).map fun r => (r.text o.indent).toList).flatMap (· ++ ['\n']) := by
  have texts := congrArg (List.map String.toList) (map_text_records all root)
  rw [List.map_map, List.map_map] at texts
  rw [listing, Record.toList_listing]
  exact congrArg (List.flatMap (· ++ ['\n'])) texts

section

variable {root : Node} (plain : ∀ word ∈ root.words, Text.IsWord word)
include plain

theorem plain_of_mem_rows : ∀ r ∈ root.rows 0 none, r.Plain := by
  intro r hr
  obtain ⟨kind, field⟩ := Node.mem_words_of_mem_rows hr
  refine ⟨plain _ kind, fun name hn => ?_⟩
  rcases field name hn with missing | mem
  · cases missing
  · exact plain name mem

theorem newline_not_mem_texts {indent : String} (line : '\n' ∉ indent.toList) :
    ∀ chars ∈ (root.rows 0 none).map fun r => (r.text indent).toList, '\n' ∉ chars := by
  intro chars hc
  obtain ⟨r, hr, rfl⟩ := List.mem_map.1 hc
  exact (plain_of_mem_rows plain r hr).newline_not_mem_text line

end

/-- A listing that shows all nodes and all fields is the same for two trees exactly when these
differ at most in which nodes are named. -/
theorem listing_eq_iff {o o' : Options} {a b : Node} (all : o.ShowsAll) (all' : o'.ShowsAll)
    (indent : o'.indent = o.indent) (line : '\n' ∉ o.indent.toList)
    (plain : ∀ word ∈ a.words, Text.IsWord word) (plain' : ∀ word ∈ b.words, Text.IsWord word) :
    (ofNode a).listing o 0 = (ofNode b).listing o' 0 ↔ a.unflagged = b.unflagged := by
  rw [← Node.rows_eq_iff, ← String.toList_inj, toList_listing_of_showsAll all,
    toList_listing_of_showsAll all', indent]
  constructor
  · intro h
    have texts := Text.lines_inj (newline_not_mem_texts plain line)
      (newline_not_mem_texts plain' line) h
    have same : (a.rows 0 none).map (Row.text o.indent) =
        (b.rows 0 none).map (Row.text o.indent) := by
      apply List.map_injective_iff.2 fun _ _ => String.toList_inj.1
      rw [List.map_map, List.map_map]
      exact texts
    exact Row.map_text_inj (plain_of_mem_rows plain) (plain_of_mem_rows plain') same
  · intro h
    rw [h]

/-- A field and a kind that have colons themselves, and a kind that looks like a span. -/
def colons (named : Bool) : Node :=
  .mk "a:" ⟨0, 0⟩ ⟨10, 2⟩ named
    [(some "b:", .mk "::" ⟨0, 0⟩ ⟨0, 2⟩ named []), (none, .token "[0," ⟨0, 3⟩ ⟨10, 2⟩)]

/-- The two listings are made in different ways, and behind an indentation that ends with a
space. -/
theorem listing_eq_iff_colons :
    let o : Options := { showFields := true, hideUnnamed := false, indent := "> " }
    let o' := { o with traversal := .iterative, shape := .records }
    o.ShowsAll ∧ o'.ShowsAll ∧ '\n' ∉ o.indent.toList ∧
    (∀ word ∈ (colons true).words, Text.IsWord word) ∧
    (∀ word ∈ (colons false).words, Text.IsWord word) ∧
    ((ofNode (colons true)).listing o 0 = (ofNode (colons false)).listing o' 0 ↔
      (colons true).unflagged = (colons false).unflagged) := by
  intro o o'
  have all : o.ShowsAll := ⟨rfl, rfl⟩
  have all' : o'.ShowsAll := ⟨rfl, rfl⟩
  have line : '\n' ∉ o.indent.toList := by decide
  have plain : ∀ word ∈ (colons true).words, Text.IsWord word := by decide
  have plain' : ∀ word ∈ (colons false).words, Text.IsWord word := by decide
  exact ⟨all, all', line, plain, plain', listing_eq_iff all all' rfl line plain plain'⟩

end Tree

end TreeListing
