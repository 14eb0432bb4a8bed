import Mathlib.Data.List.Basic
import TreeListing.Markup
import TreeListing.Proofs.Markup
import TreeListing.Proofs.Separated

/-!
# What a listing as HTML tells

A listing is written as a row of plain pieces, in which the texts of the records stand only
between the tags. Cut at its tags, the listing gives these pieces back, so that the tags are the
same whatever the texts are, the texts can be read from between them, and two listings that are
written alike are the same.
-/

namespace TreeListing.Record

open Markup Text

def itemTag (id : Nat) (start stop : Position) : String :=
  "<li data-id=\"" ++ toString id ++
    "\" data-start=\"" ++ toString start.row ++ ":" ++ toString start.column ++
    "\" data-end=\"" ++ toString stop.row ++ ":" ++ toString stop.column ++ "\">"

def spanTag (name : String) : String := "<span class=\"" ++ name ++ "\">"

def spanPieces (name text : String) : List Piece :=
  [⟨"", spanTag name⟩, ⟨escape text, "</span>"⟩]

def itemPieces (r : Record) : List Piece :=
  ⟨"\n  ", itemTag r.id r.start r.stop⟩ :: spanPieces "prefix" r.lead ++
    spanPieces "name" r.name ++ spanPieces "span" r.suffix ++ [⟨"", "</li>"⟩]

/-- The pieces of a listing up to its last tag, behind which there is a line break. -/
def listPieces (records : List Record) : List Piece :=
  ⟨"", "<ul class=\"syntax-tree\">"⟩ :: records.flatMap itemPieces ++ [⟨"\n", "</ul>"⟩]

@[simp] theorem write_singleton (before tag : String) : write [⟨before, tag⟩] = before ++ tag := by
  simp

@[simp] theorem write_spanPieces (name text : String) :
    write (spanPieces name text) = htmlSpan name text := by
  unfold spanPieces spanTag htmlSpan
  rw [write_cons, write_singleton, String.empty_append, ← String.append_assoc]

theorem htmlItem_eq (r : Record) :
    htmlItem r = "  " ++ itemTag r.id r.start r.stop ++ htmlSpan "prefix" r.lead ++
      htmlSpan "name" r.name ++ htmlSpan "span" r.suffix ++ "</li>" ++ "\n" := by
  have before : "  <li data-id=\"" = "  " ++ "<li data-id=\"" := rfl
  have after : "</li>\n" = "</li>" ++ "\n" := rfl
  unfold htmlItem itemTag htmlPosition
  rw [before, after]
  simp only [String.append_assoc]

/-- The line break in front of an item belongs to its first piece, and the one at its end to
what follows. -/
theorem newline_htmlItem (r : Record) : "\n" ++ htmlItem r = write (itemPieces r) ++ "\n" := by
  have before : "\n  " = "\n" ++ "  " := rfl
  unfold itemPieces
  rw [htmlItem_eq, write_append, write_append, write_append, write_cons, write_spanPieces,
    write_spanPieces, write_spanPieces, write_singleton, String.empty_append, before]
  simp only [String.append_assoc]

theorem newline_items (records : List Record) :
    "\n" ++ String.join (records.map htmlItem) =
      write (records.flatMap itemPieces) ++ "\n" := by
  induction records with
  | nil => rw [List.map_nil, String.join_nil, List.flatMap_nil, write_nil]; rfl
  | cons r records ih =>
    rw [List.map_cons, String.join_cons, ← String.append_assoc, newline_htmlItem,
      String.append_assoc, ih, ← String.append_assoc, ← write_append, List.flatMap_cons]

theorem htmlList_eq_write (records : List Record) :
    htmlList records = write (listPieces records) ++ "\n" := by
  have first : "<ul class=\"syntax-tree\">\n" = "<ul class=\"syntax-tree\">" ++ "\n" := rfl
  have last : "</ul>\n" = "</ul>" ++ "\n" := rfl
  calc
    htmlList records = "<ul class=\"syntax-tree\">" ++
        ("\n" ++ String.join (records.map htmlItem)) ++ ("</ul>" ++ "\n") := by
      unfold htmlList
      rw [first, last]
      simp only [String.append_assoc]
    _ = "<ul class=\"syntax-tree\">" ++ write (records.flatMap itemPieces) ++ ("\n" ++ "</ul>") ++
        "\n" := by
      rw [newline_items]
      simp only [String.append_assoc]
    _ = write (listPieces records) ++ "\n" := by
      unfold listPieces
      rw [write_append, write_cons, write_singleton, String.empty_append]

theorem itemTag_inj {id id' : Nat} {start start' stop stop' : Position}
    (same : itemTag id start stop = itemTag id' start' stop') :
    id = id' ∧ start = start' ∧ stop = stop' := by
  have quote : '"'.isDigit = false := by decide
  have colon : ':'.isDigit = false := by decide
  have start_eq : "\" data-start=\"".toList = '"' :: " data-start=\"".toList := rfl
  have stop_eq : "\" data-end=\"".toList = '"' :: " data-end=\"".toList := rfl
  have colon_eq : ":".toList = [':'] := rfl
  have end_eq : "\">".toList = ['"', '>'] := rfl
  have chars := congrArg String.toList same
  unfold itemTag at chars
  simp only [String.toList_append, List.append_assoc, start_eq, stop_eq, colon_eq, end_eq,
    List.cons_append, List.nil_append] at chars
  -- from left to right, each number ends at the first character that is not a digit
  have from_id := List.append_cancel_left chars
  obtain ⟨id_eq, from_start⟩ := toString_append_inj quote from_id
  obtain ⟨start_row, from_column⟩ :=
    toString_append_inj colon (List.append_cancel_left from_start)
  obtain ⟨start_column, from_stop⟩ := toString_append_inj quote from_column
  obtain ⟨stop_row, from_column'⟩ :=
    toString_append_inj colon (List.append_cancel_left from_stop)
  obtain ⟨stop_column, _⟩ := toString_append_inj quote from_column'
  exact ⟨id_eq, Position.ext start_row start_column, Position.ext stop_row stop_column⟩

@[simp] theorem isTag_itemTag (id : Nat) (start stop : Position) :
    IsTag (itemTag id start stop) := by
  have start_eq : "<li data-id=\"".toList = '<' :: "li data-id=\"".toList := rfl
  have end_eq : "\">".toList = ['"', '>'] := rfl
  refine ⟨"li data-id=\"".toList ++ ((toString id).toList ++
    ("\" data-start=\"".toList ++ ((toString start.row).toList ++ (":".toList ++
      ((toString start.column).toList ++ ("\" data-end=\"".toList ++
        ((toString stop.row).toList ++ (":".toList ++
          ((toString stop.column).toList ++ ['"']))))))))), ?_, ?_⟩
  · unfold itemTag
    simp only [String.toList_append, List.append_assoc, start_eq, end_eq, List.cons_append,
      List.nil_append]
  · have digits : ∀ n : Nat, '>' ∉ (toString n).toList := not_mem_toString (by decide)
    have literal : '>' ∉ "li data-id=\"".toList ∧ '>' ∉ "\" data-start=\"".toList ∧
        '>' ∉ ":".toList ∧ '>' ∉ "\" data-end=\"".toList ∧ '>' ∉ ['"'] := by decide
    simp only [List.mem_append, digits, literal, or_self, not_false_eq_true]

@[simp] theorem isTag_spanTag {name : String} (h : '>' ∉ name.toList) : IsTag (spanTag name) := by
  have start_eq : "<span class=\"".toList = '<' :: "span class=\"".toList := rfl
  have end_eq : "\">".toList = ['"', '>'] := rfl
  refine ⟨"span class=\"".toList ++ (name.toList ++ ['"']), ?_, ?_⟩
  · unfold spanTag
    simp only [String.toList_append, List.append_assoc, start_eq, end_eq, List.cons_append,
      List.nil_append]
  · have literal : '>' ∉ "span class=\"".toList ∧ '>' ∉ ['"'] := by decide
    simp only [List.mem_append, literal, h, or_self, not_false_eq_true]

theorem plain_spanPieces {name : String} (h : '>' ∉ name.toList) (text : String) :
    ∀ p ∈ spanPieces name text, p.Plain := by
  have text_plain : '<' ∉ (escape text).toList := by
    unfold escape
    rw [String.toList_ofList]
    exact (not_mem_escapeChars text.toList).1
  have closing : IsTag "</span>" := ⟨"/span".toList, by decide, by decide⟩
  intro p hp
  rcases List.mem_pair.1 hp with rfl | rfl
  · exact plain_mk (by decide) (isTag_spanTag h)
  · exact plain_mk text_plain closing

theorem plain_itemPieces (r : Record) : ∀ p ∈ itemPieces r, p.Plain := by
  have closing : IsTag "</li>" := ⟨"/li".toList, by decide, by decide⟩
  intro p hp
  unfold itemPieces at hp
  simp only [List.mem_append, List.mem_cons, List.not_mem_nil, or_false] at hp
  rcases hp with (((rfl | hp) | hp) | hp) | rfl
  · exact plain_mk (by decide) (isTag_itemTag r.id r.start r.stop)
  · exact plain_spanPieces (by decide) r.lead p hp
  · exact plain_spanPieces (by decide) r.name p hp
  · exact plain_spanPieces (by decide) r.suffix p hp
  · exact plain_mk (by decide) closing

theorem plain_listPieces (records : List Record) : ∀ p ∈ listPieces records, p.Plain := by
  have opening : IsTag "<ul class=\"syntax-tree\">" :=
    ⟨"ul class=\"syntax-tree\"".toList, by decide, by decide⟩
  have closing : IsTag "</ul>" := ⟨"/ul".toList, by decide, by decide⟩
  intro p hp
  unfold listPieces at hp
  simp only [List.mem_append, List.mem_cons, List.not_mem_nil, or_false, List.mem_flatMap] at hp
  rcases hp with (rfl | ⟨r, _, hp⟩) | rfl
  · exact plain_mk (by decide) opening
  · exact plain_itemPieces r p hp
  · exact plain_mk (by decide) closing

/-- Cut at its tags, a listing falls into the pieces that it was written from. -/
@[simp] theorem pieces_htmlList (records : List Record) :
    pieces (htmlList records) = listPieces records := by
  rw [htmlList_eq_write, pieces_write (plain_listPieces records)]
  exact List.append_nil _

def itemTags (id : Nat) (start stop : Position) : List String :=
  [itemTag id start stop, spanTag "prefix", "</span>", spanTag "name", "</span>",
    spanTag "span", "</span>", "</li>"]

theorem tags_htmlList (records : List Record) :
    tags (htmlList records) = "<ul class=\"syntax-tree\">" ::
      records.flatMap (fun r => itemTags r.id r.start r.stop) ++ ["</ul>"] := by
  unfold tags
  rw [pieces_htmlList]
  unfold listPieces
  rw [List.map_append, List.map_cons, List.map_flatMap]
  rfl

theorem ne_closing_span {tag : String} {c : Char} (h : tag.toList[1]? = some c) (hc : c ≠ '/') :
    tag ≠ "</span>" := by
  have closing : "</span>".toList[1]? = some '/' := rfl
  rintro rfl
  exact hc (Option.some.inj (h.symm.trans closing))

theorem spanTag_ne (name : String) : spanTag name ≠ "</span>" := by
  have front : "<span class=\"".toList = '<' :: 's' :: "pan class=\"".toList := rfl
  have second : (spanTag name).toList[1]? = some 's' := by
    unfold spanTag
    simp only [String.toList_append, front, List.cons_append]
    rfl
  exact ne_closing_span second (by decide)

theorem itemTag_ne (id : Nat) (start stop : Position) : itemTag id start stop ≠ "</span>" := by
  have front : "<li data-id=\"".toList = '<' :: 'l' :: "i data-id=\"".toList := rfl
  have second : (itemTag id start stop).toList[1]? = some 'l' := by
    unfold itemTag
    simp only [String.toList_append, front, List.cons_append]
    rfl
  exact ne_closing_span second (by decide)

theorem spanTextsOf_closing (opening : Piece) (text : String) (rest : List Piece) :
    spanTextsOf (opening :: ⟨text, "</span>"⟩ :: rest) =
      (opening.tag, text) :: spanTextsOf (⟨text, "</span>"⟩ :: rest) := by
  rw [spanTextsOf, if_pos rfl]

theorem spanTextsOf_other {p : Piece} (h : p.tag ≠ "</span>") (before : Piece)
    (rest : List Piece) : spanTextsOf (before :: p :: rest) = spanTextsOf (p :: rest) := by
  rw [spanTextsOf, if_neg h]

def spansOf (r : Record) : List (String × String) :=
  [(spanTag "prefix", escape r.lead), (spanTag "name", escape r.name),
    (spanTag "span", escape r.suffix)]

theorem spanTextsOf_spanPieces (name text : String) (before : Piece) (rest : List Piece) :
    spanTextsOf (before :: (spanPieces name text ++ rest)) =
      (spanTag name, escape text) :: spanTextsOf (⟨escape text, "</span>"⟩ :: rest) := by
  unfold spanPieces
  rw [List.cons_append, List.cons_append, List.nil_append, spanTextsOf_other (spanTag_ne name),
    spanTextsOf_closing]

theorem spanTextsOf_itemPieces (r : Record) (before : Piece) (rest : List Piece) :
    spanTextsOf (before :: (itemPieces r ++ rest)) =
      spansOf r ++ spanTextsOf (⟨"", "</li>"⟩ :: rest) := by
  unfold itemPieces spansOf
  simp only [List.cons_append, List.append_assoc, List.nil_append]
  rw [spanTextsOf_other (itemTag_ne _ _ _), spanTextsOf_spanPieces, spanTextsOf_spanPieces,
    spanTextsOf_spanPieces, spanTextsOf_other (by decide)]

theorem spanTextsOf_items (records : List Record) (before : Piece) :
    spanTextsOf (before :: (records.flatMap itemPieces ++ [⟨"\n", "</ul>"⟩])) =
      records.flatMap spansOf := by
  induction records generalizing before with
  | nil =>
    rw [List.flatMap_nil, List.nil_append, spanTextsOf_other (by decide)]
    rfl
  | cons r records ih =>
    rw [List.flatMap_cons, List.append_assoc, spanTextsOf_itemPieces, ih, List.flatMap_cons]

theorem spanTexts_htmlList (records : List Record) :
    spanTexts (htmlList records) = records.flatMap spansOf := by
  unfold spanTexts
  rw [pieces_htmlList]
  exact spanTextsOf_items records _

theorem escape_inj {a b : String} (h : escape a = escape b) : a = b := by
  rw [← unescape_escape a, h, unescape_escape]

theorem itemPieces_inj {r r' : Record} (h : itemPieces r = itemPieces r') : r = r' := by
  unfold itemPieces spanPieces at h
  simp only [List.cons_append, List.nil_append, List.cons.injEq, Piece.mk.injEq, true_and,
    and_true] at h
  obtain ⟨tag, lead, name, suffix⟩ := h
  obtain ⟨id_eq, start_eq, stop_eq⟩ := itemTag_inj tag
  exact Record.ext id_eq start_eq stop_eq (escape_inj lead) (escape_inj name) (escape_inj suffix)

theorem length_itemPieces (r : Record) : (itemPieces r).length = 8 := by
  unfold itemPieces spanPieces
  simp only [List.cons_append, List.nil_append, List.length_cons, List.length_nil]

/-- All items have as many pieces, so that they come apart one by one. -/
theorem flatMap_itemPieces_inj {records others : List Record}
    (h : records.flatMap itemPieces = others.flatMap itemPieces) : records = others := by
  have nonempty (r : Record) (rest : List Piece) : itemPieces r ++ rest ≠ [] := by
    intro empty
    have length := length_itemPieces r
    rw [(List.append_eq_nil_iff.1 empty).1, List.length_nil] at length
    cases length
  induction records generalizing others with
  | nil =>
    cases others with
    | nil => rfl
    | cons r' others =>
      rw [List.flatMap_nil, List.flatMap_cons] at h
      exact absurd h.symm (nonempty r' _)
  | cons r records ih =>
    cases others with
    | nil =>
      rw [List.flatMap_nil, List.flatMap_cons] at h
      exact absurd h (nonempty r _)
    | cons r' others =>
      rw [List.flatMap_cons, List.flatMap_cons] at h
      obtain ⟨item, rest⟩ := List.append_inj h (by rw [length_itemPieces, length_itemPieces])
      rw [itemPieces_inj item, ih rest]

theorem htmlList_inj {records others : List Record} (h : htmlList records = htmlList others) :
    records = others := by
  have same : listPieces records = listPieces others := by
    rw [← pieces_htmlList, h, pieces_htmlList]
  unfold listPieces at same
  exact flatMap_itemPieces_inj (List.append_cancel_right (List.cons.inj same).2)

/-- The tags of a listing depend on the ids and the spans alone, the texts of the records can be
read from its spans, and no two lists of records give the same listing. -/
theorem htmlList_faithful (records : List Record) :
    tags (htmlList records) = "<ul class=\"syntax-tree\">" ::
        records.flatMap (fun r => itemTags r.id r.start r.stop) ++ ["</ul>"] ∧
      (spanTexts (htmlList records)).map (fun (tag, text) => (tag, unescape text)) =
        records.flatMap (fun r => [(spanTag "prefix", r.lead), (spanTag "name", r.name),
          (spanTag "span", r.suffix)]) ∧
      ∀ others, htmlList records = htmlList others ↔ records = others := by
  have decoded (r : Record) : (spansOf r).map (fun (tag, text) => (tag, unescape text)) =
      [(spanTag "prefix", r.lead), (spanTag "name", r.name), (spanTag "span", r.suffix)] := by
    simp only [spansOf, List.map_cons, List.map_nil, unescape_escape]
  refine ⟨tags_htmlList records, ?_, fun others => ⟨htmlList_inj, congrArg htmlList⟩⟩
  rw [spanTexts_htmlList, List.map_flatMap]
  exact congrArg records.flatMap (funext decoded)

end TreeListing.Record
