import Mathlib.Data.List.Basic
import TreeListing.Proofs.Disk
import TreeListing.Proofs.TomlDocuments
import TreeListing.Settings.Store

/-!
# Settings that are saved are loaded again

The document of settings is read, line by line, as the value that they are encoded as, and the value
is decoded to the same settings: whatever the aliases are, none is lost or changed, and no default
takes the place of a choice. Saving and loading go to the same file, so that what a file system
keeps is what is loaded.
-/

namespace TreeListing

namespace Dictionary

variable {α : Type}

theorem put_of_not_mem {name : String} {value : α} {entries : List (String × α)}
    (h : name ∉ entries.map Prod.fst) : put name value entries = entries ++ [(name, value)] := by
  induction entries with
  | nil => rfl
  | cons entry rest ih =>
    rw [List.map_cons, List.mem_cons, not_or] at h
    rw [put, if_neg (Ne.symm h.1), ih h.2]
    rfl

theorem entries_foldl_insert {entries : List (String × α)} {d : Dictionary α}
    (h : (d.entries.map Prod.fst ++ entries.map Prod.fst).Nodup) :
    (entries.foldl (fun d entry => d.insert entry.1 entry.2) d).entries = d.entries ++ entries := by
  induction entries generalizing d with
  | nil => simp
  | cons entry rest ih =>
    have absent : entry.1 ∉ d.entries.map Prod.fst := by
      intro mem
      rw [List.map_cons, List.nodup_append] at h
      exact h.2.2 entry.1 mem entry.1 List.mem_cons_self rfl
    have put_eq : (d.insert entry.1 entry.2).entries = d.entries ++ [entry] :=
      put_of_not_mem absent
    rw [List.foldl_cons, ih, put_eq]
    · simp
    · rw [put_eq]
      simpa using h

@[simp] theorem ofList_entries (d : Dictionary α) : ofList d.entries = d := by
  have fresh : ((empty : Dictionary α).entries.map Prod.fst ++ d.entries.map Prod.fst).Nodup :=
    d.distinct
  have entries : (ofList d.entries).entries = d.entries := entries_foldl_insert fresh
  obtain ⟨list, distinct⟩ := d
  generalize hd : ofList list = other at *
  obtain ⟨list', distinct'⟩ := other
  simp only at entries
  subst entries
  rfl

end Dictionary

namespace Settings

open Toml

def renderMembers (s : Settings) : List (String × Value) :=
  [("show_field_names", .bool s.showFields), ("hide_unnamed", .bool s.hideUnnamed),
    ("iterative", .bool s.iterative), ("format", .string s.format.name)]

def aliasMembers (aliases : Dictionary String) : List (String × Value) :=
  aliases.entries.map fun entry => (entry.1, .string entry.2)

@[simp] theorem decodeRender_encodeRender (c : Value.Conventions) (s : Settings) :
    decodeRender c s.encodeRender = some { s with aliases := .empty } := by
  have format : OutputFormat.decode c (.string s.format.name) = some s.format := by
    cases s.format <;> rfl
  simp [decodeRender, encodeRender, Value.structure?, Value.fieldOr?, List.lookup_cons,
    Value.bool?, format]

@[simp] theorem decodeAliases_encodeAliases (aliases : Dictionary String) :
    decodeAliases (encodeAliases aliases) = some aliases := by
  have members : (aliasMembers aliases).mapM decodeAlias = some aliases.entries := by
    unfold aliasMembers
    generalize aliases.entries = entries
    induction entries with
    | nil => rfl
    | cons entry rest ih =>
      rw [List.map_cons, List.mapM_cons, ih]
      rfl
  change ((aliasMembers aliases).mapM decodeAlias).map Dictionary.ofList = some aliases
  simp [members]

/-- Nothing of the settings is lost in their value, whatever notation it is written in. -/
@[simp] theorem decode_encode (c : Value.Conventions) (s : Settings) :
    decode c s.encode = some s := by
  have aliases : decodeLanguages c (.object [("aliases", encodeAliases s.aliases)]) =
      some s.aliases := by
    simp [decodeLanguages, Value.structure?, Value.fieldOr?, decodeAliases_encodeAliases]
  simp [decode, encode, Value.structure?, Value.fieldOr?, List.lookup_cons,
    decodeRender_encodeRender, aliases]

theorem states_bool (key : String) (b : Bool) :
    States (pairLine (writeKey key.toList) (boolWord b)) (.pair [] key (.bool b)) := by
  apply states_pair
  · cases b with
    | false => exact ⟨'f', _, rfl, by decide⟩
    | true => exact ⟨'t', _, rfl, by decide⟩
  · intro rest
    cases b <;> rfl

theorem states_string (key text : String) :
    States (pairLine (writeKey key.toList) (writeString text.toList))
      (.pair [] key (.string text)) := by
  have read (rest : List Char) :
      quoted? (writeString text.toList ++ '\n' :: rest) = some (text.toList, '\n' :: rest) :=
    quoted?_writeString (by rw [List.head?_cons]; decide) (by rw [List.head?_cons]; decide)
  have begins : ∃ c tail, writeString text.toList = c :: tail ∧ (c = '"' ∨ c = '\'') := by
    have alone : quoted? (writeString text.toList ++ []) = some (text.toList, []) :=
      quoted?_writeString (by decide) (by decide)
    rw [List.append_nil] at alone
    exact exists_of_quoted? alone
  obtain ⟨c, tail, written, quote⟩ := begins
  apply states_pair
  · refine ⟨c, tail, written, ?_⟩
    rcases quote with rfl | rfl <;> decide
  · intro rest
    rw [value_of_quoted? (read rest), String.ofList_toList]

def renderStatements (s : Settings) : List Statement :=
  .table [] "render" :: s.renderMembers.map pairStatement

def aliasStatements (s : Settings) : List Statement :=
  .table ["languages"] "aliases" :: (aliasMembers s.aliases).map pairStatement

def renderLines (s : Settings) : List (List Char) := s.documentLines.take 5

def aliasLines (s : Settings) : List (List Char) := s.documentLines.drop 6

theorem states_renderLines (s : Settings) :
    List.Forall₂ States s.renderLines s.renderStatements := by
  have header : States "[render]".toList (.table [] "render") := by
    have written : "[render]".toList = '[' :: (writePath [] "render" ++ [']']) := by decide
    rw [written]
    exact states_header (by decide)
  exact .cons header <| .cons (states_bool "show_field_names" s.showFields) <|
    .cons (states_bool "hide_unnamed" s.hideUnnamed) <|
    .cons (states_bool "iterative" s.iterative) <|
    .cons (states_string "format" s.format.name) .nil

theorem states_aliasLines (s : Settings) :
    List.Forall₂ States s.aliasLines s.aliasStatements := by
  have header : States "[languages.aliases]".toList (.table ["languages"] "aliases") := by
    have written : "[languages.aliases]".toList =
        '[' :: (writePath ["languages"] "aliases" ++ [']']) := by decide
    rw [written]
    exact states_header (by decide)
  have aliases : List.Forall₂ States (s.aliases.entries.map aliasLine)
      ((aliasMembers s.aliases).map pairStatement) := by
    rw [aliasMembers, List.map_map, List.forall₂_map_left_iff, List.forall₂_map_right_iff,
      List.forall₂_same]
    intro entry _
    exact states_string entry.1 entry.2
  exact .cons header aliases

theorem statements?_document (s : Settings) :
    statements? s.document.toList = some (s.renderStatements ++ s.aliasStatements) := by
  have lines : s.documentLines.flatMap (· ++ ['\n']) =
      s.renderLines.flatMap (· ++ ['\n']) ++
        '\n' :: (s.aliasLines.flatMap (· ++ ['\n']) ++ []) := by
    have parts : s.documentLines = s.renderLines ++ [] :: s.aliasLines := rfl
    rw [parts, List.flatMap_append, List.flatMap_cons, List.append_nil]
    rfl
  have finished : statements? [] = some [] := by
    rw [statements?]
    rfl
  rw [document, String.toList_ofList, lines, statements?_lines s.states_renderLines,
    statements?_blank, statements?_lines s.states_aliasLines, finished]
  simp

theorem opens_render : Opens ["render"] fun below => [("render", .table .header below)] := by
  intro below change
  simp [Members.within, Members.replace]

theorem opens_aliases (listing : Members) :
    Opens ["languages", "aliases"] fun below =>
      [("render", .table .header listing),
        ("languages", .table .path [("aliases", .table .header below)])] := by
  intro below change
  simp [Members.within, Members.replace, List.lookup_cons]
  rfl

theorem nodup_aliasMembers (aliases : Dictionary String) :
    ((aliasMembers aliases).map Prod.fst).Nodup := by
  have names : (aliasMembers aliases).map Prod.fst = aliases.entries.map Prod.fst := by
    rw [aliasMembers, List.map_map]
    rfl
  rw [names]
  exact aliases.distinct

/-- What a document of settings is read as, with the two tables as they were opened. -/
def tables (listing aliases : Members) : Members :=
  [("render", .table .header listing),
    ("languages", .table .path [("aliases", .table .header aliases)])]

/-- Every line of a table is kept as a member of it. -/
theorem foldlM_document (s : Settings) :
    (s.renderStatements ++ s.aliasStatements).foldlM Draft.apply .empty =
      some ⟨tables (s.renderMembers.map valueItem) ((aliasMembers s.aliases).map valueItem),
        ["languages", "aliases"]⟩ := by
  -- the headers open their tables by evaluation; only the pairs between them are of any number
  have first : Draft.apply .empty (.table [] "render") =
      some ⟨[("render", .table .header [])], ["render"]⟩ := rfl
  have second (listing : Members) :
      Draft.apply ⟨[("render", .table .header listing)], ["render"]⟩
        (.table ["languages"] "aliases") = some ⟨tables listing [], ["languages", "aliases"]⟩ := rfl
  have names : (s.renderMembers.map Prod.fst).Nodup := by
    change ["show_field_names", "hide_unnamed", "iterative", "format"].Nodup
    decide
  have render := foldlM_pairs_nil opens_render names
  have aliases := foldlM_pairs_nil (opens_aliases (s.renderMembers.map valueItem))
    (nodup_aliasMembers s.aliases)
  calc
    _ = ((s.renderMembers.map pairStatement).foldlM Draft.apply
          ⟨[("render", .table .header [])], ["render"]⟩).bind
          (s.aliasStatements.foldlM Draft.apply) := by
      rw [List.foldlM_append, renderStatements, List.foldlM_cons, first]
      rfl
    _ = s.aliasStatements.foldlM Draft.apply
          ⟨[("render", .table .header (s.renderMembers.map valueItem))], ["render"]⟩ := by
      rw [render]
      rfl
    _ = ((aliasMembers s.aliases).map pairStatement).foldlM Draft.apply
          ⟨tables (s.renderMembers.map valueItem) [], ["languages", "aliases"]⟩ := by
      rw [aliasStatements, List.foldlM_cons, second]
      rfl
    _ = _ := aliases

@[simp] theorem read_document (s : Settings) : read s.document = some s.encode := by
  have mark : dropMark s.document.toList = s.document.toList := by
    rw [document, String.toList_ofList]
    rfl
  have root : membersValue (tables (s.renderMembers.map valueItem)
      ((aliasMembers s.aliases).map valueItem)) =
        [("render", .object s.renderMembers),
          ("languages", .object [("aliases", .object (aliasMembers s.aliases))])] := by
    simp only [tables, membersValue, Item.toValue, membersValue_map_valueItem]
  rw [Toml.read, mark, statements?_document]
  simp only [Option.bind_eq_bind, Option.bind_some, foldlM_document, root]
  rfl

@[simp] theorem ofDocument?_document (s : Settings) : ofDocument? s.document = some s := by
  simp [ofDocument?]

end Settings

namespace Path

theorem exists_front (directory : String) :
    ∃ front, ∀ file, isAbsolute file = false → join directory file = front ++ file := by
  cases empty : directory.isEmpty with
  | true =>
    refine ⟨"", fun file _ => ?_⟩
    rw [join, empty, Bool.or_true, if_pos rfl, String.empty_append]
  | false =>
    by_cases slash : directory.toList.getLast? = some '/'
    · refine ⟨directory, fun file relative => ?_⟩
      rw [join, relative, empty, Bool.or_false, if_neg Bool.false_ne_true, if_pos slash]
    · refine ⟨directory ++ "/", fun file relative => ?_⟩
      rw [join, relative, empty, Bool.or_false, if_neg Bool.false_ne_true, if_neg slash]

theorem join_join (directory : String) {below file : String} (named : below ≠ "")
    (relative : isAbsolute below = false) (relative' : isAbsolute file = false)
    (ends : below.toList.getLast? ≠ some '/') :
    join (join directory below) file = join directory (below ++ "/" ++ file) := by
  obtain ⟨front, way⟩ := exists_front directory
  have nonempty : below.toList ≠ [] := by
    rw [Ne, String.toList_eq_nil_iff]
    exact named
  have relative_way : isAbsolute (below ++ "/" ++ file) = false := by
    unfold isAbsolute at relative ⊢
    rw [String.append_assoc, String.toList_append, List.head?_append_of_ne_nil _ nonempty]
    exact relative
  have open_end : (front ++ below).toList.getLast? ≠ some '/' := by
    rw [String.toList_append, List.getLast?_append_of_ne_nil _ nonempty]
    exact ends
  have named_way : (front ++ below).isEmpty = false := by
    rw [String.isEmpty_eq_false_iff, Ne, String.append_eq_empty_iff]
    exact fun empty => named empty.2
  rw [way below relative, way _ relative_way, join, relative', named_way, Bool.or_false,
    if_neg Bool.false_ne_true, if_neg open_end]
  simp only [String.append_assoc]

end Path

namespace Settings

@[simp] theorem join_directoryOf (project : String) :
    Path.join (directoryOf project) "config.toml" = fileOf project :=
  Path.join_join project (by decide) (by decide) (by decide) (by decide)

variable {σ : Type} [FileSystem (StateM σ)] {s : Settings} {project : String} {d d' : σ}

theorem writeText_of_save (done : (save (m := StateM σ) s project).run d = (.ok (), d')) :
    ∃ made, (FileSystem.writeText (m := StateM σ) (fileOf project) s.document).run made =
      (.ok (), d') := by
  rw [save, run_bind] at done
  generalize (FileSystem.createDirectories (m := StateM σ) (directoryOf project)).run d =
    first at done
  obtain ⟨created, made⟩ := first
  cases created with
  | error e => cases done
  | ok _ =>
    simp only [join_directoryOf, run_bind] at done
    generalize wrote : (FileSystem.writeText (m := StateM σ) (fileOf project) s.document).run made =
      second at done
    obtain ⟨written, after⟩ := second
    cases written with
    | error e => cases done
    | ok _ =>
      have same : after = d' := (Prod.mk.inj done).2
      rw [← same]
      exact ⟨made, wrote⟩

/-- Settings that have been saved for a project are the ones that are loaded for it, if the file
system keeps what is written. -/
theorem load_of_save (keeps : FileSystem.Keeps σ)
    (done : (save (m := StateM σ) s project).run d = (.ok (), d')) :
    (load (m := StateM σ) project).run d' = (.ok s, d') := by
  obtain ⟨made, written⟩ := writeText_of_save done
  have file : (loadFile (m := StateM σ) (fileOf project)).run d' = (.ok s, d') := by
    rw [loadFile, run_bind, keeps.read written]
    simp only [ofDocument?_document]
    rfl
  rw [load, run_bind, keeps.present written]
  exact file

/-- Aliases for which all forms of strings are taken, and names that have to be escaped. -/
def hostile : Settings where
  showFields := true
  hideUnnamed := false
  iterative := true
  format := .html
  aliases := {
    entries := [("", ""), ("a.b", "C:\\"), ("'\"\\", "\"''\""), ("\t\x00", "''\\\n"),
      ("\n", "\"'\n'''\"\"\""), ("é", "\x7f\u2028"), ("\"", " = [x] # "), ("key", "'\\")]
    distinct := by decide }

/-- The project is below the current directory, on a disk on which nothing has been written. -/
theorem load_of_save_hostile :
    let empty : Disk := ⟨["home".toList], []⟩
    let d := ((save (m := StateM Disk) hostile "project/").run empty).2
    FileSystem.Keeps Disk ∧ (save (m := StateM Disk) hostile "project/").run empty = (.ok (), d) ∧
    (load (m := StateM Disk) "project/").run d = (.ok hostile, d) := by
  intro empty d
  have done : (save (m := StateM Disk) hostile "project/").run empty = (.ok (), d) := by
    rfl
  exact ⟨Disk.keeps, done, load_of_save Disk.keeps done⟩

end Settings

end TreeListing
