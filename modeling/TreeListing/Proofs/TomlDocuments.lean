import Mathlib.Data.List.Basic
import Mathlib.Data.List.Forall2
import TreeListing.Proofs.TomlStrings
import TreeListing.Toml.Reader

/-!
# Documents line by line

A line that states something is read by itself, whatever follows it, so that a document is read
line by line. The pairs behind a header go to one table, and no key of them is lost when they are
distinct.
-/

namespace TreeListing.Toml

theorem skipSpaces_cons {c : Char} (h : isSpace c = false) (rest : List Char) :
    skipSpaces (c :: rest) = c :: rest :=
  List.dropWhile_cons_of_neg (Bool.eq_false_iff.1 h)

/-- What follows is not read as part of a key without quotes. -/
def EndsKey (rest : List Char) : Prop := ∀ c ∈ rest.head?, isBare c = false

theorem endsKey_cons {c : Char} (h : isBare c = false) (rest : List Char) :
    EndsKey (c :: rest) := by
  intro d hd
  rw [← Option.some.inj hd]
  exact h

theorem EndsKey.dropWhile {rest : List Char} (ended : EndsKey rest) :
    rest.dropWhile isBare = rest := by
  cases rest with
  | nil => rfl
  | cons c rest => exact List.dropWhile_cons_of_neg (Bool.eq_false_iff.1 (ended c rfl))

theorem EndsKey.takeWhile {rest : List Char} (ended : EndsKey rest) :
    rest.takeWhile isBare = [] := by
  cases rest with
  | nil => rfl
  | cons c rest => exact List.takeWhile_cons_of_neg (Bool.eq_false_iff.1 (ended c rfl))

def BeginsKey (c : Char) : Prop := isBare c = true ∨ c = '"' ∨ c = '\''

theorem BeginsKey.isSpace_eq_false {c : Char} (h : BeginsKey c) : isSpace c = false := by
  rcases h with bare | rfl | rfl
  · cases space : isSpace c with
    | false => rfl
    | true =>
      simp only [isSpace, Bool.or_eq_true, decide_eq_true_eq] at space
      rcases space with rfl | rfl
      · exact absurd bare (by decide)
      · exact absurd bare (by decide)
  · decide
  · decide

theorem BeginsKey.ne {c d : Char} (h : BeginsKey c) (bare : isBare d = false) (double : d ≠ '"')
    (single : d ≠ '\'') : c ≠ d := by
  rintro rfl
  rcases h with h | h | h
  · rw [bare] at h
    cases h
  · exact double h
  · exact single h

theorem exists_writeKey (cs : List Char) :
    ∃ c tail, writeKey cs = c :: tail ∧ BeginsKey c := by
  unfold writeKey
  simp only
  split
  · next h =>
    simp only [Bool.and_eq_true, Bool.not_eq_true', List.isEmpty_eq_false_iff, ne_eq,
      List.all_eq_true] at h
    cases cs with
    | nil => exact absurd rfl h.1
    | cons c cs => exact ⟨c, cs, rfl, .inl (h.2 c List.mem_cons_self)⟩
  · split
    · exact ⟨'"', _, rfl, .inr (.inl rfl)⟩
    · split
      · exact ⟨'\'', _, rfl, .inr (.inr rfl)⟩
      · exact ⟨'"', _, rfl, .inr (.inl rfl)⟩

section

variable {cs rest : List Char}

theorem simpleKey?_bare (nonempty : cs ≠ []) (bare : ∀ c ∈ cs, isBare c = true)
    (ended : EndsKey rest) :
    simpleKey? (cs ++ rest) = some (String.ofList cs, rest) := by
  obtain ⟨c, tail, rfl⟩ := List.exists_cons_of_ne_nil nonempty
  have first : isBare c = true := bare c List.mem_cons_self
  unfold simpleKey?
  split
  · next same =>
    rw [(List.cons.inj same).1] at first
    exact absurd first (by decide)
  · next same =>
    rw [(List.cons.inj same).1] at first
    exact absurd first (by decide)
  · simp only [List.takeWhile_append_of_pos bare, List.dropWhile_append_of_pos bare,
      ended.takeWhile, ended.dropWhile, List.append_nil]

theorem simpleKey?_writeKey (ended : EndsKey rest) :
    simpleKey? (writeKey cs ++ rest) = some (String.ofList cs, rest) := by
  have basic_form : simpleKey? (writeBasic cs ++ rest) = some (String.ofList cs, rest) := by
    obtain ⟨inside, written, read⟩ := basic_writeBasic cs rest
    rw [written, simpleKey?, read]
    rfl
  unfold writeKey
  simp only
  split
  · next h =>
    simp only [Bool.and_eq_true, Bool.not_eq_true', List.isEmpty_eq_false_iff, ne_eq,
      List.all_eq_true] at h
    exact simpleKey?_bare h.1 h.2 ended
  · split
    · exact basic_form
    · split
      · next h =>
        simp only [Bool.and_eq_true, Bool.not_eq_true', Bool.or_eq_false_iff,
          decide_eq_true_eq] at h
        obtain ⟨⟨control, newline⟩, quotes⟩ := h
        obtain ⟨inside, written, read⟩ := literal_writeLiteral (isText_of_traits control newline)
          (not_mem_of_longestRow_eq_zero quotes) rest
        rw [written, simpleKey?, read]
        rfl
      · exact basic_form

theorem spacedKey?_writeKey (ended : EndsKey rest) :
    spacedKey? (writeKey cs ++ rest) = some (String.ofList cs, skipSpaces rest) := by
  obtain ⟨c, tail, written, begins⟩ := exists_writeKey cs
  have front : skipSpaces (writeKey cs ++ rest) = writeKey cs ++ rest := by
    rw [written, List.cons_append, skipSpaces_cons begins.isSpace_eq_false]
  rw [spacedKey?, front, simpleKey?_writeKey ended]
  rfl

end

def writePath (path : List String) (key : String) : List Char :=
  path.flatMap (fun k => writeKey k.toList ++ ['.']) ++ writeKey key.toList

theorem exists_writePath (path : List String) (key : String) :
    ∃ c tail, writePath path key = c :: tail ∧ BeginsKey c := by
  cases path with
  | nil => exact exists_writeKey key.toList
  | cons k path =>
    obtain ⟨c, tail, written, begins⟩ := exists_writeKey k.toList
    unfold writePath
    rw [List.flatMap_cons, written]
    exact ⟨c, _, rfl, begins⟩

section

variable {path : List String} {key : String} {rest after : List Char} {next : Char}
  (ended : EndsKey rest) (follows : skipSpaces rest = next :: after) (other : next ≠ '.')
include ended follows other

theorem sepBy_writePath :
    sepBy spacedKey? '.' (writePath path key ++ rest) = some (path ++ [key], next :: after) := by
  induction path with
  | nil =>
    rw [writePath, List.flatMap_nil, List.nil_append, sepBy, spacedKey?_writeKey ended, follows,
      String.ofList_toList]
    exact if_neg other
  | cons k path ih =>
    have dot : EndsKey ('.' :: (writePath path key ++ rest)) := endsKey_cons (by decide) _
    have split : writePath (k :: path) key ++ rest =
        writeKey k.toList ++ '.' :: (writePath path key ++ rest) := by
      simp only [writePath, List.flatMap_cons, List.append_assoc, List.cons_append,
        List.nil_append]
    rw [split, sepBy, spacedKey?_writeKey dot, skipSpaces_cons (by decide)]
    simp only
    rw [if_pos trivial, if_pos (by simp only [List.length_append, List.length_cons]; omega), ih,
      String.ofList_toList]
    rfl

theorem dottedKey?_writePath (few : path.length + 1 < levelLimit) :
    dottedKey? (writePath path key ++ rest) = some ((path, key), next :: after) := by
  rw [dottedKey?, sepBy_writePath ended follows other]
  simp only [List.getLast?_concat, List.dropLast_concat, List.length_append, List.length_cons,
    List.length_nil]
  exact if_pos few

end

theorem exists_of_quoted? {cs : List Char} {found : List Char × List Char}
    (h : quoted? cs = some found) : ∃ c tail, cs = c :: tail ∧ (c = '"' ∨ c = '\'') := by
  unfold quoted? at h
  split at h
  · exact ⟨'"', _, rfl, .inl rfl⟩
  · exact ⟨'"', _, rfl, .inl rfl⟩
  · exact ⟨'\'', _, rfl, .inr rfl⟩
  · exact ⟨'\'', _, rfl, .inr rfl⟩
  · cases h

theorem value_of_quoted? {cs text rest : List Char} (h : quoted? cs = some (text, rest))
    (depth : Nat) : value depth cs = some (.string (String.ofList text), rest) := by
  have single : value.single cs = some (.string (String.ofList text), rest) := by
    rw [value.single, h]
  obtain ⟨c, tail, rfl, rfl | rfl⟩ := exists_of_quoted? h
  · cases depth <;> exact single
  · cases depth <;> exact single

/-- A line that is read as a statement, whatever follows it. -/
structure States (line : List Char) (s : Statement) : Prop where
  front : ∃ c tail, line = c :: tail ∧ isSpace c = false ∧ ¬ (c = '\n' ∨ c = '\r' ∨ c = '#')
  read : ∀ rest, statement? (line ++ '\n' :: rest) = some (s, '\n' :: rest)

theorem BeginsKey.states {c : Char} (h : BeginsKey c) :
    isSpace c = false ∧ ¬ (c = '\n' ∨ c = '\r' ∨ c = '#') := by
  refine ⟨h.isSpace_eq_false, ?_⟩
  rintro (same | same | same)
  · exact h.ne (by decide) (by decide) (by decide) same
  · exact h.ne (by decide) (by decide) (by decide) same
  · exact h.ne (by decide) (by decide) (by decide) same

theorem statement?_header {c : Char} (other : c ≠ '[') {path : List String} {key : String}
    {tail rest : List Char} (read : dottedKey? (c :: tail) = some ((path, key), ']' :: rest)) :
    statement? ('[' :: c :: tail) = some (.table path key, rest) := by
  unfold statement?
  split
  · next same => exact absurd (List.cons.inj (List.cons.inj same).2).1 other
  · next same =>
    rw [← (List.cons.inj same).2, read]
    rfl
  · next bracket => exact absurd rfl (bracket _)

theorem statement?_pair {c : Char} (other : c ≠ '[') {path : List String} {key : String} {v : Value}
    {tail rest : List Char}
    (read : pair? (value (levelLimit - 1)) (c :: tail) = some ((path, key, v), rest)) :
    statement? (c :: tail) = some (.pair path key v, rest) := by
  unfold statement?
  split
  · next same => exact absurd (List.cons.inj same).1 other
  · next same => exact absurd (List.cons.inj same).1 other
  · rw [read]
    rfl

theorem states_header {path : List String} {key : String} (few : path.length + 1 < levelLimit) :
    States ('[' :: (writePath path key ++ [']'])) (.table path key) where
  front := ⟨'[', _, rfl, by decide, by decide⟩
  read := by
    intro rest
    have read : dottedKey? (writePath path key ++ ']' :: '\n' :: rest) =
        some ((path, key), ']' :: '\n' :: rest) :=
      dottedKey?_writePath (endsKey_cons (by decide) _) (skipSpaces_cons (by decide) _)
        (by decide) few
    have whole : '[' :: (writePath path key ++ [']']) ++ '\n' :: rest =
        '[' :: (writePath path key ++ ']' :: '\n' :: rest) := by simp
    obtain ⟨c, tail, written, begins⟩ := exists_writePath path key
    rw [written, List.cons_append] at read
    rw [whole, written, List.cons_append]
    exact statement?_header (begins.ne (by decide) (by decide) (by decide)) read

section

variable {written rest : List Char} {v : Value}
  (front : ∃ c tail, written = c :: tail ∧ isSpace c = false)
include front

theorem pair?_line (key : String) {read : Reader Value}
    (h : read (written ++ rest) = some (v, rest)) :
    pair? read (writeKey key.toList ++ [' ', '=', ' '] ++ written ++ rest) =
      some (([], key, v), rest) := by
  have few : ([] : List String).length + 1 < levelLimit := by decide
  have key_read : dottedKey? (writePath [] key ++ ' ' :: '=' :: ' ' :: (written ++ rest)) =
      some (([], key), '=' :: ' ' :: (written ++ rest)) :=
    dottedKey?_writePath (endsKey_cons (by decide) _) rfl (by decide) few
  have value_front : skipSpaces (' ' :: (written ++ rest)) = written ++ rest := by
    obtain ⟨c, tail, rfl, space⟩ := front
    exact skipSpaces_cons space (tail ++ rest)
  have whole : writeKey key.toList ++ [' ', '=', ' '] ++ written ++ rest =
      writePath [] key ++ ' ' :: '=' :: ' ' :: (written ++ rest) := by simp [writePath]
  rw [whole, pair?, key_read]
  simp only
  rw [value_front, h]
  rfl

theorem states_pair {key : String}
    (h : ∀ rest, value (levelLimit - 1) (written ++ '\n' :: rest) = some (v, '\n' :: rest)) :
    States (writeKey key.toList ++ [' ', '=', ' '] ++ written) (.pair [] key v) := by
  obtain ⟨c, tail, key_eq, begins⟩ := exists_writeKey key.toList
  constructor
  · rw [key_eq]
    exact ⟨c, _, rfl, begins.states⟩
  · intro rest
    have read := pair?_line front key (h rest)
    rw [key_eq] at read ⊢
    exact statement?_pair (begins.ne (by decide) (by decide) (by decide)) read

end

theorem statements?_cons {line rest : List Char} {s : Statement} (h : States line s) :
    statements? (line ++ '\n' :: rest) = (statements? rest).map (s :: ·) := by
  obtain ⟨c, tail, rfl, space, mark⟩ := h.front
  have read := h.read rest
  rw [List.cons_append] at read ⊢
  rw [statements?, skipSpaces_cons space]
  simp only
  rw [if_neg mark, read]
  have ends : lineEnd? ('\n' :: rest) = some rest := rfl
  simp only [ends]
  rw [if_pos (by simp only [List.length_append, List.length_cons]; omega)]

@[simp] theorem statements?_blank (rest : List Char) :
    statements? ('\n' :: rest) = statements? rest := by
  have ends : lineEnd? ('\n' :: rest) = some rest := rfl
  rw [statements?, skipSpaces_cons (by decide)]
  simp only [ends]
  rw [if_pos (.inl trivial), if_pos (by rw [List.length_cons]; exact Nat.lt_succ_self _)]

theorem statements?_lines {lines : List (List Char)} {statements : List Statement}
    (h : List.Forall₂ States lines statements) (rest : List Char) :
    statements? (lines.flatMap (· ++ ['\n']) ++ rest) =
      (statements? rest).map (statements ++ ·) := by
  induction h with
  | nil => simp
  | cons first _ ih =>
    rw [List.flatMap_cons, List.append_assoc, List.append_assoc, List.singleton_append,
      statements?_cons first, ih, Option.map_map]
    rfl

/-- A table that is open, by what is around it: pairs go to it, and leave the rest as it is. -/
def Opens (header : List String) (around : Members → Members) : Prop :=
  ∀ below change, Members.within .path change header .header (around below) =
    (change .header below).map around

def pairStatement (p : String × Value) : Statement := .pair [] p.1 p.2

def valueItem (p : String × Value) : String × Item := (p.1, .value p.2)

theorem apply_pair {header : List String} {around : Members → Members}
    (opens : Opens header around) {below : Members} {p : String × Value}
    (absent : p.1 ∉ below.map Prod.fst) :
    Draft.apply ⟨around below, header⟩ (pairStatement p) =
      some ⟨around (below ++ [valueItem p]), header⟩ := by
  have missing : below.lookup p.1 = none := by
    rw [List.lookup_eq_none_iff]
    intro m hm
    rw [bne_iff_ne]
    intro same
    exact absent (same ▸ List.mem_map_of_mem hm)
  have added : Members.put [] p.1 p.2 .header below = some (below ++ [valueItem p]) := by
    simp [Members.put, Members.within, Members.add, missing, valueItem]
  rw [pairStatement, Draft.apply, opens, added]
  rfl

/-- Pairs with distinct keys, none of which is there yet, go to the end of the open table. -/
theorem foldlM_pairs {header : List String} {around : Members → Members}
    (opens : Opens header around) {pairs : List (String × Value)} {below : Members}
    (fresh : (below.map Prod.fst ++ pairs.map Prod.fst).Nodup) :
    (pairs.map pairStatement).foldlM Draft.apply ⟨around below, header⟩ =
      some ⟨around (below ++ pairs.map valueItem), header⟩ := by
  induction pairs generalizing below with
  | nil => simp
  | cons p pairs ih =>
    have absent : p.1 ∉ below.map Prod.fst := by
      intro mem
      rw [List.map_cons, List.nodup_append] at fresh
      exact fresh.2.2 p.1 mem p.1 List.mem_cons_self rfl
    have fresh_rest : ((below ++ [valueItem p]).map Prod.fst ++ pairs.map Prod.fst).Nodup := by
      rw [List.map_append, List.append_assoc]
      exact fresh
    rw [List.map_cons, List.foldlM_cons, apply_pair opens absent, Option.bind_eq_bind,
      Option.bind_some, ih fresh_rest, List.map_cons, List.append_assoc, List.singleton_append]

/-- Behind its header a table is filled with the pairs. -/
theorem foldlM_pairs_nil {header : List String} {around : Members → Members}
    (opens : Opens header around) {pairs : List (String × Value)}
    (distinct : (pairs.map Prod.fst).Nodup) :
    (pairs.map pairStatement).foldlM Draft.apply ⟨around [], header⟩ =
      some ⟨around (pairs.map valueItem), header⟩ := by
  apply foldlM_pairs opens
  exact distinct

@[simp] theorem membersValue_map_valueItem (pairs : List (String × Value)) :
    membersValue (pairs.map valueItem) = pairs := by
  induction pairs with
  | nil => rfl
  | cons p pairs ih =>
    rw [List.map_cons, valueItem, membersValue, ih]
    rfl

end TreeListing.Toml
