import Mathlib.Data.List.Basic
import TreeListing.Toml.Quoted
import TreeListing.Toml.Writer

/-!
# Strings of a TOML document are read back

Whichever form the writer takes, the reader finds the string again and stops behind its closing
quotes. Between quotes a text is read from the front, character by character, in front of whatever
follows. In triple quotes a row of quotes is looked at as a whole, because up to two of them may
stand in front of the closing ones; the writer and the measure of the longest row both go by the
length of the row so far, and so does the induction.
-/

namespace TreeListing

theorem Text.hexValue?_toUpper_hexDigit (n : Nat) (h : n < 16) :
    hexValue? (hexDigit n).toUpper = some n := by
  have cases : ∀ m : Fin 16, hexValue? (hexDigit m).toUpper = some m.val := by decide
  exact cases ⟨n, h⟩

namespace Toml

theorem lt_of_needsEscape {c : Char} (h : needsEscape c = true) : c.toNat < 0x80 := by
  simp only [needsEscape, isText, Bool.or_eq_true, decide_eq_true_eq, Bool.not_eq_true',
    Bool.or_eq_false_iff, Bool.and_eq_false_iff, decide_eq_false_iff_not] at h
  rcases h with ((⟨_, h⟩ | rfl) | rfl) | rfl
  · omega
  · decide
  · decide
  · decide

theorem codePoint?_digits {c : Char} (h : c.toNat < 0x10000) (rest : List Char) :
    let digit (n : Nat) : Char := (Text.hexDigit (n % 16)).toUpper
    codePoint? 4 (digit (c.toNat / 4096) :: digit (c.toNat / 256) :: digit (c.toNat / 16) ::
      digit c.toNat :: rest) = some (c, rest) := by
  intro digit
  have read (n : Nat) : Text.hexValue? (digit n) = some (n % 16) :=
    Text.hexValue?_toUpper_hexDigit _ (Nat.mod_lt _ (by decide))
  have value : 16 * (16 * (16 * (16 * 0 + c.toNat / 4096 % 16) + c.toNat / 256 % 16) +
      c.toNat / 16 % 16) + c.toNat % 16 = c.toNat := by omega
  have valid : c.toNat.isValidChar := c.valid
  simp only [codePoint?, List.take_succ_cons, List.take_zero, List.mapM_cons, List.mapM_nil, read,
    Option.pure_def, Option.bind_eq_bind, Option.bind_some, List.foldl_cons, List.foldl_nil, value,
    List.length_cons, List.length_nil, valid, and_self, if_true, Char.ofNat_toNat,
    List.drop_succ_cons, List.drop_zero]

theorem escape?_escaped {c : Char} (h : c.toNat < 0x10000) :
    ∃ letter digits, escaped c = '\\' :: letter :: digits ∧
      (∀ rest, newline? (skipSpaces (letter :: rest)) = none) ∧
      ∀ rest, escape? (letter :: (digits ++ rest)) = some (c, rest) := by
  unfold escaped
  split
  · exact ⟨'b', [], rfl, fun rest => rfl, fun rest => rfl⟩
  · exact ⟨'t', [], rfl, fun rest => rfl, fun rest => rfl⟩
  · exact ⟨'n', [], rfl, fun rest => rfl, fun rest => rfl⟩
  · exact ⟨'f', [], rfl, fun rest => rfl, fun rest => rfl⟩
  · exact ⟨'r', [], rfl, fun rest => rfl, fun rest => rfl⟩
  · exact ⟨'"', [], rfl, fun rest => rfl, fun rest => rfl⟩
  · exact ⟨'\\', [], rfl, fun rest => rfl, fun rest => rfl⟩
  · exact ⟨'u', _, rfl, fun rest => rfl, codePoint?_digits h⟩

theorem of_needsEscape_eq_false {c : Char} (h : needsEscape c = false) :
    isText c = true ∧ c ≠ '"' ∧ c ≠ '\\' := by
  simp only [needsEscape, Bool.or_eq_false_iff, decide_eq_false_iff_not, Bool.not_eq_false'] at h
  exact ⟨h.1.1.1, h.1.2, h.2⟩

theorem basic_cons_text {c : Char} (h : needsEscape c = false) (rest : List Char) :
    basic (c :: rest) = prepend c (basic rest) := by
  obtain ⟨text, quote, backslash⟩ := of_needsEscape_eq_false h
  rw [basic, if_neg quote, if_neg backslash, if_pos text]

theorem basic_escaped {c : Char} (h : needsEscape c = true) (rest : List Char) :
    basic (escaped c ++ rest) = prepend c (basic rest) := by
  have low : c.toNat < 0x10000 := Nat.lt_trans (lt_of_needsEscape h) (by decide)
  obtain ⟨letter, digits, written, _, read⟩ := escape?_escaped low
  rw [written, List.cons_append, List.cons_append, basic, if_neg (by decide), if_pos rfl]
  split
  · next missing =>
    rw [read rest] at missing
    cases missing
  · next x after found =>
    rw [read rest] at found
    cases found
    rfl

theorem basic_inside (cs rest : List Char) :
    basic (cs.flatMap (fun c => if needsEscape c then escaped c else [c]) ++ '"' :: rest) =
      some (cs, rest) := by
  induction cs with
  | nil => rw [List.flatMap_nil, List.nil_append, basic, if_pos rfl]
  | cons c cs ih =>
    rw [List.flatMap_cons, List.append_assoc]
    by_cases h : needsEscape c = true
    · rw [if_pos h, basic_escaped h, ih]
      rfl
    · rw [if_neg h, List.singleton_append, basic_cons_text (Bool.eq_false_iff.2 h), ih]
      rfl

theorem literal_inside {cs : List Char} (text : ∀ c ∈ cs, isText c = true) (quote : '\'' ∉ cs)
    (rest : List Char) : literal (cs ++ '\'' :: rest) = some (cs, rest) := by
  have inside : ∀ c ∈ cs, (isText c && c ≠ '\'') = true := by
    intro c hc
    rw [text c hc, Bool.true_and, decide_eq_true_eq]
    rintro rfl
    exact quote hc
  have closing : (isText '\'' && '\'' ≠ '\'') = false := by decide
  unfold literal
  simp only [List.dropWhile_append_of_pos inside, List.takeWhile_append_of_pos inside,
    List.dropWhile_cons, List.takeWhile_cons, closing, Bool.false_eq_true, if_false,
    List.append_nil]

section

variable {quote : Char} {row : Nat} {rest : List Char}

theorem closing?_row (short : row ≤ 2) (ended : rest.head? ≠ some quote) :
    closing? quote (List.replicate row quote ++ quote :: quote :: quote :: rest) =
      some (List.replicate row quote, rest) := by
  obtain rfl | rfl | rfl : row = 0 ∨ row = 1 ∨ row = 2 := by omega
  all_goals
    cases rest with
    | nil => simp [closing?, List.replicate_succ]
    | cons d rest =>
      have other : d ≠ quote := fun same => ended (by rw [same]; rfl)
      cases rest <;> simp [closing?, List.replicate_succ, other]

theorem closing?_eq_none {after : List Char} (short : row ≤ 2) {c : Char} (other : c ≠ quote) :
    closing? quote (List.replicate row quote ++ c :: after) = none := by
  obtain rfl | rfl | rfl : row = 0 ∨ row = 1 ∨ row = 2 := by omega
  all_goals
    match after with
    | [] => simp [closing?, List.replicate_succ, other]
    | [d] => simp [closing?, List.replicate_succ, other]
    | d :: e :: after => simp [closing?, List.replicate_succ, other]

theorem closing?_cons {c : Char} (other : c ≠ quote) : closing? quote (c :: rest) = none :=
  closing?_eq_none (Nat.zero_le 2) other

end

/-- What the readers of both kinds of triple quotes do with a quote. -/
structure RowReader (quote : Char) (read : List Char → Option (List Char × List Char)) : Prop where
  closed : ∀ {cs found}, closing? quote cs = some found → read cs = some found
  inside : ∀ {cs}, closing? quote (quote :: cs) = none →
    read (quote :: cs) = prepend quote (read cs)

section

variable {quote : Char} {read : List Char → Option (List Char × List Char)} {row : Nat}
  {text after rest : List Char}

/-- A row of quotes is part of the text, if something else is read behind it. -/
theorem RowReader.open_row (reader : RowReader quote read) (short : row ≤ 2) {first : Char}
    (other : first ≠ quote) (h : read (first :: after) = some (text, rest)) :
    read (List.replicate row quote ++ first :: after) =
      some (List.replicate row quote ++ text, rest) := by
  induction row with
  | zero => exact h
  | succ row ih =>
    have unclosed : closing? quote (List.replicate (row + 1) quote ++ first :: after) = none :=
      closing?_eq_none short other
    rw [List.replicate_succ, List.cons_append] at unclosed ⊢
    rw [reader.inside unclosed, ih (Nat.le_of_succ_le short)]
    rfl

theorem RowReader.closing_row (reader : RowReader quote read) (short : row ≤ 2)
    (ended : rest.head? ≠ some quote) :
    read (List.replicate row quote ++ quote :: quote :: quote :: rest) =
      some (List.replicate row quote, rest) :=
  reader.closed (closing?_row short ended)

theorem replicate_append_cons (row : Nat) (quote : Char) (cs : List Char) :
    List.replicate row quote ++ quote :: cs = List.replicate (row + 1) quote ++ cs := by
  rw [List.replicate_succ', List.append_assoc, List.singleton_append]

end

theorem rowReader_multilineBasic : RowReader '"' multilineBasic where
  closed := by
    intro cs found h
    rw [multilineBasic.eq_def, h]
  inside := by
    intro cs h
    rw [multilineBasic, h]
    simp only
    rw [if_neg (by decide), if_pos (by decide)]

theorem multilineBasic_cons_text {c : Char} (h : needsEscape c = false) (rest : List Char) :
    multilineBasic (c :: rest) = prepend c (multilineBasic rest) := by
  obtain ⟨text, quote, backslash⟩ := of_needsEscape_eq_false h
  rw [multilineBasic, closing?_cons quote]
  simp only
  rw [if_neg backslash, if_pos text]

@[simp] theorem multilineBasic_newline (rest : List Char) :
    multilineBasic ('\n' :: rest) = prepend '\n' (multilineBasic rest) := by
  rw [multilineBasic, closing?_cons (by decide)]
  simp only
  rw [if_neg (by decide), if_neg (by decide)]
  rfl

theorem newline?_cons {c : Char} (feed : c ≠ '\n') (carriage : c ≠ '\r') (rest : List Char) :
    newline? (c :: rest) = none := by
  unfold newline?
  split
  · next h => exact absurd (List.cons.inj h).1 feed
  · next h => exact absurd (List.cons.inj h).1 carriage
  · rfl

theorem multilineBasic_escaped {c : Char} (h : c.toNat < 0x10000) (rest : List Char) :
    multilineBasic (escaped c ++ rest) = prepend c (multilineBasic rest) := by
  obtain ⟨letter, digits, written, unbroken, read⟩ := escape?_escaped h
  rw [written, List.cons_append, List.cons_append, multilineBasic, closing?_cons (by decide)]
  simp only
  rw [if_pos trivial]
  split
  · next below found =>
    rw [unbroken] at found
    cases found
  · split
    · next missing =>
      rw [read rest] at missing
      cases missing
    · next x after found =>
      rw [read rest] at found
      cases found
      rfl

/-- What is written for a character, so that it is read in front of anything. Neither a quote nor
a line break is at its front, unless the character is a line break itself. -/
structure StandsFor (written : List Char) (c : Char) : Prop where
  front : ∃ first tail, written = first :: tail ∧ first ≠ '"' ∧ first ≠ '\r' ∧
    (first = '\n' → c = '\n')
  read : ∀ more, multilineBasic (written ++ more) = prepend c (multilineBasic more)

theorem escaped_standsFor {c : Char} (h : c.toNat < 0x10000) : StandsFor (escaped c) c where
  front := by
    obtain ⟨letter, digits, written, _⟩ := escape?_escaped h
    refine ⟨'\\', _, written, by decide, by decide, ?_⟩
    intro feed
    cases feed
  read := multilineBasic_escaped h

theorem singleton_standsFor {c : Char} (h : needsEscape c = false) : StandsFor [c] c where
  front := by
    obtain ⟨text, quote, _⟩ := of_needsEscape_eq_false h
    refine ⟨c, [], rfl, quote, ?_, fun same => same⟩
    rintro rfl
    exact absurd text (by decide)
  read := multilineBasic_cons_text h

/-- Only a quote in a row that is still short is written without regard to what precedes it. -/
theorem multilineInside_cons {row : Nat} {c : Char} (h : ¬ (c = '"' ∧ row ≠ 2)) (cs : List Char) :
    ∃ written, multilineInside row (c :: cs) = written ++ multilineInside 0 cs ∧
      StandsFor written c := by
  rw [multilineInside]
  split
  · next quote =>
    have full : row = 2 := by
      by_contra other
      exact h ⟨quote, other⟩
    rw [if_pos full, quote]
    exact ⟨_, rfl, escaped_standsFor (by decide)⟩
  · split
    · next feed =>
      rw [feed]
      exact ⟨['\n'], rfl, ⟨'\n', [], rfl, by decide, by decide, fun _ => rfl⟩,
        multilineBasic_newline⟩
    · split
      · next escape =>
        exact ⟨_, rfl, escaped_standsFor (Nat.lt_trans (lt_of_needsEscape escape) (by decide))⟩
      · next plain => exact ⟨[c], rfl, singleton_standsFor (Bool.eq_false_iff.2 plain)⟩

theorem multilineBasic_inside {rest : List Char} (ended : rest.head? ≠ some '"') {row : Nat}
    (short : row ≤ 2) (cs : List Char) :
    multilineBasic (List.replicate row '"' ++
        (multilineInside row cs ++ '"' :: '"' :: '"' :: rest)) =
      some (List.replicate row '"' ++ cs, rest) := by
  -- the row of quotes in front is read only when it is known what ends it
  have reader := rowReader_multilineBasic
  induction cs generalizing row with
  | nil =>
    rw [multilineInside, List.nil_append, List.append_nil]
    exact reader.closing_row short ended
  | cons c cs ih =>
    by_cases h : c = '"' ∧ row ≠ 2
    · obtain ⟨rfl, room⟩ := h
      rw [multilineInside, if_pos rfl, if_neg room, List.cons_append, replicate_append_cons,
        replicate_append_cons]
      exact ih (by omega)
    · obtain ⟨written, split, stands⟩ := multilineInside_cons h cs
      obtain ⟨first, tail, rfl, other, _⟩ := stands.front
      have below : multilineBasic (multilineInside 0 cs ++ '"' :: '"' :: '"' :: rest) =
          some (cs, rest) := ih (Nat.zero_le 2)
      rw [split, List.append_assoc]
      apply reader.open_row short other
      have step := stands.read (multilineInside 0 cs ++ '"' :: '"' :: '"' :: rest)
      rw [below] at step
      exact step

theorem rowReader_multilineLiteral : RowReader '\'' multilineLiteral where
  closed := by
    intro cs found h
    rw [multilineLiteral.eq_def, h]
  inside := by
    intro cs h
    rw [multilineLiteral, h]
    simp only
    rw [if_pos (by decide)]

theorem multilineLiteral_cons {c : Char} (quote : c ≠ '\'') (h : isText c = true ∨ c = '\n')
    (rest : List Char) : multilineLiteral (c :: rest) = prepend c (multilineLiteral rest) := by
  rw [multilineLiteral, closing?_cons quote]
  simp only
  rcases h with text | rfl
  · rw [if_pos text]
  · rw [if_neg (by decide)]
    rfl

theorem le_longestRow (x : Char) (row : Nat) (cs : List Char) : row ≤ longestRow x row cs := by
  induction cs generalizing row with
  | nil => exact Nat.le_refl row
  | cons c cs ih =>
    rw [longestRow]
    split
    · exact Nat.le_of_succ_le (ih (row + 1))
    · exact Nat.le_max_left _ _

theorem not_mem_of_longestRow_eq_zero {x : Char} {row : Nat} {cs : List Char}
    (h : longestRow x row cs = 0) : x ∉ cs := by
  induction cs generalizing row with
  | nil => exact List.not_mem_nil
  | cons c cs ih =>
    rw [longestRow] at h
    split at h
    · have := le_longestRow x (row + 1) cs
      omega
    · next other =>
      have below : longestRow x 0 cs ≤ Nat.max row (longestRow x 0 cs) := Nat.le_max_right _ _
      rw [h] at below
      rw [List.mem_cons, not_or]
      exact ⟨Ne.symm other, ih (Nat.eq_zero_of_le_zero below)⟩

theorem multilineLiteral_inside {rest : List Char} (ended : rest.head? ≠ some '\'') {row : Nat}
    {cs : List Char} (short : longestRow '\'' row cs ≤ 2)
    (text : ∀ c ∈ cs, isText c = true ∨ c = '\n') :
    multilineLiteral (List.replicate row '\'' ++ (cs ++ '\'' :: '\'' :: '\'' :: rest)) =
      some (List.replicate row '\'' ++ cs, rest) := by
  have reader := rowReader_multilineLiteral
  have row_short := Nat.le_trans (le_longestRow '\'' row cs) short
  induction cs generalizing row with
  | nil =>
    rw [List.nil_append, List.append_nil]
    exact reader.closing_row row_short ended
  | cons c cs ih =>
    rw [List.forall_mem_cons] at text
    rw [longestRow] at short
    split at short
    · next quote =>
      subst quote
      rw [List.cons_append, replicate_append_cons, replicate_append_cons]
      exact ih short text.2 (Nat.le_trans (le_longestRow '\'' (row + 1) cs) short)
    · next other =>
      have below : longestRow '\'' 0 cs ≤ 2 := Nat.le_trans (Nat.le_max_right _ _) short
      have read : multilineLiteral (cs ++ '\'' :: '\'' :: '\'' :: rest) = some (cs, rest) :=
        ih below text.2 (Nat.zero_le 2)
      rw [List.cons_append]
      apply reader.open_row row_short other
      rw [multilineLiteral_cons other text.1, read]
      rfl

section

variable {cs : List Char}

theorem isText_of_control_eq_false (h : (traits cs).control = false) :
    ∀ c ∈ cs, isText c = true ∨ c = '\n' := by
  intro c hc
  simp only [traits, List.any_eq_false, Bool.and_eq_true, Bool.not_eq_true', decide_eq_true_eq,
    not_and, Decidable.not_not] at h
  cases text : isText c with
  | true => exact .inl rfl
  | false => exact .inr (h c hc text)

theorem not_mem_of_newline_eq_false (h : (traits cs).newline = false) : '\n' ∉ cs := by
  intro mem
  rw [traits, List.contains_iff_mem.2 mem] at h
  cases h

theorem isText_of_traits (control : (traits cs).control = false)
    (newline : (traits cs).newline = false) : ∀ c ∈ cs, isText c = true := by
  intro c hc
  rcases isText_of_control_eq_false control c hc with text | rfl
  · exact text
  · exact absurd hc (not_mem_of_newline_eq_false newline)

end

section

variable {cs rest inside : List Char}

/-- Three quotes in a row are not met in front of what follows an empty string. -/
theorem quoted?_basic (ended : rest.head? ≠ some '"') (read : basic inside = some (cs, rest)) :
    quoted? ('"' :: inside) = some (cs, rest) := by
  unfold quoted?
  split
  · next more same =>
    rw [(List.cons.inj same).2, basic, if_pos rfl] at read
    obtain ⟨rfl, rfl⟩ := Prod.mk.inj (Option.some.inj read)
    exact absurd rfl ended
  · next more _ same =>
    rw [← (List.cons.inj same).2]
    exact read
  · next same => cases (List.cons.inj same).1
  · next same => cases (List.cons.inj same).1
  · next other _ _ => exact absurd rfl (other inside)

theorem quoted?_literal (ended : rest.head? ≠ some '\'')
    (read : literal inside = some (cs, rest)) : quoted? ('\'' :: inside) = some (cs, rest) := by
  unfold quoted?
  split
  · next same => cases (List.cons.inj same).1
  · next same => cases (List.cons.inj same).1
  · next more same =>
    have empty : literal ('\'' :: '\'' :: more) = some ([], '\'' :: more) :=
      literal_inside (List.forall_mem_nil _) List.not_mem_nil ('\'' :: more)
    rw [(List.cons.inj same).2, empty] at read
    obtain ⟨rfl, rfl⟩ := Prod.mk.inj (Option.some.inj read)
    exact absurd rfl ended
  · next more _ same =>
    rw [← (List.cons.inj same).2]
    exact read
  · next other => exact absurd rfl (other inside)

theorem basic_writeBasic (cs rest : List Char) :
    ∃ inside, writeBasic cs ++ rest = '"' :: inside ∧ basic inside = some (cs, rest) := by
  refine ⟨_, ?_, basic_inside cs rest⟩
  simp only [writeBasic, List.cons_append, List.append_assoc, List.nil_append]

theorem literal_writeLiteral (text : ∀ c ∈ cs, isText c = true) (quote : '\'' ∉ cs)
    (rest : List Char) :
    ∃ inside, writeLiteral cs ++ rest = '\'' :: inside ∧ literal inside = some (cs, rest) := by
  refine ⟨_, ?_, literal_inside text quote rest⟩
  simp only [writeLiteral, List.cons_append, List.append_assoc, List.nil_append]

/-- A line break that follows the opening quotes is dropped, and no other one is. -/
theorem getD_newline? {newline : Bool} {inside : List Char}
    (begins : newline = true ∨ newline? inside = none) :
    let cs := (if newline then ['\n'] else []) ++ inside
    (newline? cs).getD cs = inside := by
  cases newline with
  | true => rfl
  | false =>
    have unbroken := begins.resolve_left Bool.false_ne_true
    simp [unbroken]

theorem newline?_multilineInside (feed : '\n' ∉ cs) (rest : List Char) :
    newline? (multilineInside 0 cs ++ '"' :: rest) = none := by
  cases cs with
  | nil => exact newline?_cons (by decide) (by decide) _
  | cons c cs =>
    rw [List.mem_cons, not_or] at feed
    by_cases h : c = '"' ∧ 0 ≠ 2
    · rw [multilineInside, if_pos h.1, if_neg h.2, h.1]
      exact newline?_cons (by decide) (by decide) _
    · obtain ⟨written, split, stands⟩ := multilineInside_cons h cs
      obtain ⟨first, tail, rfl, _, carriage, same⟩ := stands.front
      rw [split]
      exact newline?_cons (fun h => feed.1 (same h).symm) carriage _

theorem newline?_text (feed : '\n' ∉ cs) (text : ∀ c ∈ cs, isText c = true ∨ c = '\n')
    (rest : List Char) : newline? (cs ++ '\'' :: rest) = none := by
  cases cs with
  | nil => exact newline?_cons (by decide) (by decide) _
  | cons c cs =>
    rw [List.mem_cons, not_or] at feed
    rw [List.forall_mem_cons] at text
    refine newline?_cons (Ne.symm feed.1) ?_ _
    rintro rfl
    exact absurd text.1 (by decide)

theorem quoted?_writeMultiline_basic {newline : Bool} (ended : rest.head? ≠ some '"')
    (begins : newline = true ∨ '\n' ∉ cs) :
    quoted? (writeMultiline '"' newline (multilineInside 0 cs) ++ rest) = some (cs, rest) := by
  have read := multilineBasic_inside ended (Nat.zero_le 2) cs
  simp only [List.replicate_zero, List.nil_append] at read
  have dropped := getD_newline?
    (begins.imp_right fun feed => newline?_multilineInside feed ('"' :: '"' :: rest))
  simp only [writeMultiline, List.cons_append, List.append_assoc, List.nil_append, quoted?]
  rw [dropped]
  exact read

theorem quoted?_writeMultiline_literal {newline : Bool} (ended : rest.head? ≠ some '\'')
    (short : longestRow '\'' 0 cs ≤ 2) (text : ∀ c ∈ cs, isText c = true ∨ c = '\n')
    (begins : newline = true ∨ '\n' ∉ cs) :
    quoted? (writeMultiline '\'' newline cs ++ rest) = some (cs, rest) := by
  have read := multilineLiteral_inside ended short text
  simp only [List.replicate_zero, List.nil_append] at read
  have dropped := getD_newline?
    (begins.imp_right fun feed => newline?_text feed text ('\'' :: '\'' :: rest))
  simp only [writeMultiline, List.cons_append, List.append_assoc, List.nil_append, quoted?]
  rw [dropped]
  exact read

theorem quoted?_writeString (ended : rest.head? ≠ some '"') (ended' : rest.head? ≠ some '\'') :
    quoted? (writeString cs ++ rest) = some (cs, rest) := by
  have basic_form : quoted? (writeBasic cs ++ rest) = some (cs, rest) := by
    obtain ⟨inside, written, read⟩ := basic_writeBasic cs rest
    rw [written]
    exact quoted?_basic ended read
  -- one case for each of the forms, and in it what the choice of the form says about the text
  unfold writeString
  simp only
  split
  · exact basic_form
  · split
    · next h =>
      simp only [Bool.and_eq_true, Bool.not_eq_true', decide_eq_true_eq] at h
      obtain ⟨⟨control, quotes⟩, newline⟩ := h
      obtain ⟨inside, written, read⟩ := literal_writeLiteral (isText_of_traits control newline)
        (not_mem_of_longestRow_eq_zero quotes) rest
      rw [written]
      exact quoted?_literal ended' read
    · have begins : (traits cs).newline = true ∨ '\n' ∉ cs := by
        cases h : (traits cs).newline with
        | true => exact .inl rfl
        | false => exact .inr (not_mem_of_newline_eq_false h)
      split
      · exact quoted?_writeMultiline_basic ended begins
      · split
        · next h =>
          simp only [Bool.and_eq_true, Bool.not_eq_true', decide_eq_true_eq] at h
          exact quoted?_writeMultiline_literal ended' h.2 (isText_of_control_eq_false h.1) begins
        · split
          · exact quoted?_writeMultiline_basic ended (.inl rfl)
          · exact basic_form

end

end Toml

end TreeListing
