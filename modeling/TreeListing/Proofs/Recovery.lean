import Mathlib.Data.List.Infix
import TreeListing.Proofs.Nesting

/-!
# The text behind a layout

A layout of a text that is one line can be read back. As when the text was read, the parentheses
that are open are counted. They tell what stands after a line break, so that the breaks and the
indentation that belong to parentheses can be left out. A break behind a space is the space's own
exactly when the line after it is indented by one space more than the level asks for: a line that
a parenthesis begins never is, because a parenthesis that closes a level stands further left.
-/

namespace TreeListing.Bracket

def lineStart (opened : Nat) : List Char := '\n' :: ' ' :: Indent.levels (opened / 2)

/-- The text that the rest of a layout was made from, read with parentheses open. -/
def originalFrom (opened : Nat) (out : List Char) : List Char :=
  match out with
  | [] => []
  | c :: rest =>
    if c = '\n' then originalFrom opened (rest.drop (2 * ((opened - 1) / 2)))
    else if c = '(' then
      let inside := opened + 1
      '(' :: originalFrom inside (rest.drop (if inside % 2 = 0 then inside + 1 else 0))
    else if c = ')' then ')' :: originalFrom (opened - 1) rest
    else if c = ' ' ∧ lineStart opened <+: rest then
      ' ' :: originalFrom opened (rest.drop (lineStart opened).length)
    else c :: originalFrom opened rest
termination_by out.length
decreasing_by
  all_goals
    simp only [List.length_cons, List.length_drop]
    omega

def original (out : String) : String := String.ofList (originalFrom 0 out.toList)

section

variable {opened : Nat} {out : List Char}

@[simp] theorem originalFrom_nil (opened : Nat) : originalFrom opened [] = [] := by
  rw [originalFrom]

/-- A line break that is met on its own belongs to the parenthesis after it. -/
@[simp] theorem originalFrom_break (opened : Nat) (out : List Char) :
    originalFrom opened ('\n' :: Indent.levels ((opened - 1) / 2) ++ out) =
      originalFrom opened out := by
  simp [originalFrom, List.drop_left' (Indent.length_levels _)]

theorem originalFrom_open (even : (opened + 1) % 2 = 0) :
    originalFrom opened ('(' :: '\n' :: Indent.levels ((opened + 1) / 2) ++ out) =
      '(' :: originalFrom (opened + 1) out := by
  have length : ('\n' :: Indent.levels ((opened + 1) / 2)).length = opened + 1 + 1 := by
    rw [List.length_cons, Indent.length_levels]
    omega
  rw [List.cons_append, originalFrom, if_neg (by decide), if_pos rfl]
  simp only [if_pos even, List.drop_left' length]

theorem originalFrom_open_copied (odd : (opened + 1) % 2 ≠ 0) :
    originalFrom opened ('(' :: out) = '(' :: originalFrom (opened + 1) out := by
  rw [originalFrom, if_neg (by decide), if_pos rfl]
  simp only [if_neg odd, List.drop_zero]

@[simp] theorem originalFrom_close (opened : Nat) (out : List Char) :
    originalFrom opened (')' :: out) = ')' :: originalFrom (opened - 1) out := by
  rw [originalFrom, if_neg (by decide), if_neg (by decide), if_pos rfl]

@[simp] theorem originalFrom_space (opened : Nat) (out : List Char) :
    originalFrom opened (' ' :: lineStart opened ++ out) = ' ' :: originalFrom opened out := by
  rw [List.cons_append, originalFrom, if_neg (by decide), if_neg (by decide), if_neg (by decide),
    if_pos ⟨rfl, List.prefix_append _ _⟩, List.drop_left' rfl]

theorem originalFrom_copied {c : Char} (inLine : c ≠ '\n') (opens : c ≠ '(') (closes : c ≠ ')')
    (stays : ¬ (c = ' ' ∧ lineStart opened <+: out)) :
    originalFrom opened (c :: out) = c :: originalFrom opened out := by
  rw [originalFrom, if_neg inLine, if_neg opens, if_neg closes, if_neg stays]

end

/-- The line of a parenthesis that closes a level is indented less than a line inside it. -/
theorem not_prefix_close (level : Nat) (out : List Char) :
    ¬ ' ' :: Indent.levels (level + 1) <+: Indent.levels level ++ ')' :: out := by
  intro h
  have spaces : ' ' :: Indent.levels (level + 1) = Indent.levels level ++ [' ', ' ', ' '] := by
    have three : [' ', ' ', ' '] = List.replicate 3 ' ' := rfl
    rw [Indent.levels_eq_replicate, Indent.levels_eq_replicate, three,
      List.replicate_append_replicate, ← List.replicate_succ]
    congr 1
  rw [spaces, List.prefix_append_right_inj, List.cons_prefix_cons] at h
  exact absurd h.1 (by decide)

/-- Behind a copied space nothing is written that a space that ends its line would be followed
by. -/
theorem not_lineStart_prefix {s : State} {p : Char} {rest out : List Char} (leveled : s.Leveled)
    (behind : s.previous = some ' ') (paren : p = '(' ∨ p = ')')
    (done : layoutFrom s (p :: rest) = .ok out) : ¬ lineStart s.opened <+: out := by
  obtain ⟨s', written, more, reads, _, rfl⟩ := layoutFrom_cons_eq_ok done
  have goesOn : s.continuesLine = true := by
    rw [State.continuesLine, behind]
    rfl
  intro h
  rw [lineStart] at h
  cases reads with
  | openLevel =>
    rw [goesOn, if_pos rfl] at h
    exact absurd (List.cons_prefix_cons.1 h).1 (by decide)
  | openCopied => exact absurd (List.cons_prefix_cons.1 h).1 (by decide)
  | closeLevel pos even =>
    have level : s.opened / 2 = s.level - 1 + 1 := by
      rw [State.Leveled] at leveled
      omega
    rw [level, List.append_assoc, List.cons_append, List.cons_prefix_cons] at h
    exact not_prefix_close _ _ h.2
  | closeCopied => exact absurd (List.cons_prefix_cons.1 h).1 (by decide)
  | endsLine => rcases paren with h | h <;> exact absurd h (by decide)
  | copied opens closes =>
    rcases paren with rfl | rfl
    · exact opens rfl
    · exact closes rfl

/-- What is written for a character is read back as that character, given what follows it. -/
theorem originalFrom_written {s s' : State} {c : Char} {rest written more : List Char}
    (leveled : s.Leveled) (inLine : c ≠ '\n') (reads : s.Reads rest.head? c s' written)
    (read : layoutFrom s' rest = .ok more) :
    originalFrom s.opened (written ++ more) = c :: originalFrom s'.opened more := by
  have leveled' := leveled.of_reads reads
  rw [State.Leveled] at leveled
  cases reads with
  | openLevel even =>
    have outer : s.level = (s.opened - 1) / 2 := by omega
    have inner : s.level + 1 = (s.opened + 1) / 2 := by omega
    have opening : originalFrom s.opened ('(' :: '\n' :: Indent.levels (s.level + 1) ++ more) =
        '(' :: originalFrom (s.opened + 1) more := by
      rw [inner]
      exact originalFrom_open even
    rw [List.append_assoc]
    split
    · exact opening
    · rw [State.newline, outer, originalFrom_break, ← outer]
      exact opening
  | openCopied odd => exact originalFrom_open_copied odd
  | closeLevel pos even =>
    have outer : s.level - 1 = (s.opened - 1) / 2 := by omega
    rw [List.append_assoc, outer, originalFrom_break]
    exact originalFrom_close _ _
  | closeCopied odd => exact originalFrom_close _ _
  | endsLine ends =>
    rw [leveled]
    exact originalFrom_space _ _
  | copied opens closes stays =>
    apply originalFrom_copied inLine opens closes
    rintro ⟨rfl, start⟩
    -- The space was copied because of the parenthesis behind it.
    have paren : ∃ p after, rest = p :: after ∧ (p = '(' ∨ p = ')') := by
      cases rest with
      | nil => simp at stays
      | cons p after =>
        refine ⟨p, after, rfl, ?_⟩
        by_contra neither
        rw [not_or] at neither
        apply stays
        simpa using neither
    obtain ⟨p, after, rfl, hp⟩ := paren
    exact not_lineStart_prefix leveled' rfl hp read start

theorem originalFrom_layoutFrom {s : State} {text out : List Char} (leveled : s.Leveled)
    (oneLine : '\n' ∉ text) (done : layoutFrom s text = .ok out) :
    originalFrom s.opened out = text := by
  induction text generalizing s out with
  | nil =>
    simp [(layoutFrom_nil_eq_ok done).2]
  | cons c rest ih =>
    obtain ⟨s', written, more, reads, read, rfl⟩ := layoutFrom_cons_eq_ok done
    rw [List.mem_cons, not_or] at oneLine
    rw [originalFrom_written leveled (Ne.symm oneLine.1) reads read,
      ih (leveled.of_reads reads) oneLine.2 read]

/-- The text is read back from its layout. -/
theorem original_layout {text out : String} (oneLine : '\n' ∉ text.toList)
    (done : layout text = .ok out) : original out = text := by
  have leveled : State.start.Leveled := rfl
  have chars := originalFrom_layoutFrom leveled oneLine (layout_eq_ok_iff.1 done)
  rw [original, ← String.toList_inj, String.toList_ofList]
  exact chars

/-- A text that is one line can be read back from its layout, so that no two of them have the
same layout. -/
theorem layout_inj_iff {a b out out' : String} (oneLine : '\n' ∉ a.toList)
    (oneLine' : '\n' ∉ b.toList) (done : layout a = .ok out) (done' : layout b = .ok out') :
    original out = a ∧ (out = out' ↔ a = b) := by
  have back := original_layout oneLine done
  have back' := original_layout oneLine' done'
  refine ⟨back, ?_, ?_⟩
  · intro same
    rw [← back, same, back']
  · intro same
    rw [same, done'] at done
    exact (Except.ok.inj done).symm

/-- One space before a parenthesis that closes a level, and two: the first of the two ends its
line, and each of the other spaces is copied in front of a line break. -/
theorem layout_inj_iff_spaces :
    layout "((a ))" = .ok "((\n  a \n))" ∧ layout "((a  ))" = .ok "((\n  a \n    \n))" ∧
    '\n' ∉ "((a ))".toList ∧ '\n' ∉ "((a  ))".toList ∧
    original "((\n  a \n))" = "((a ))" ∧
    ("((\n  a \n))" = "((\n  a \n    \n))" ↔ "((a ))" = "((a  ))") := by
  have done : layout "((a ))" = .ok "((\n  a \n))" := rfl
  have done' : layout "((a  ))" = .ok "((\n  a \n    \n))" := rfl
  have oneLine : '\n' ∉ "((a ))".toList := by decide
  have oneLine' : '\n' ∉ "((a  ))".toList := by decide
  exact ⟨done, done', oneLine, oneLine', layout_inj_iff oneLine oneLine' done done'⟩

end TreeListing.Bracket
