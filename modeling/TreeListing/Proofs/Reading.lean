import TreeListing.Bracket

/-!
# What is done with a character

A character is read in one of six ways: a parenthesis of either kind, with or without a level
that it opens or closes, a space that ends its line, and any other character. The only character
that cannot be read is a parenthesis that closes nothing.
-/

namespace TreeListing.Bracket

namespace State

/-- From a state, with a character behind it, a character leads to a state and to a text that is
written. -/
inductive Reads (s : State) (next : Option Char) : Char → State → List Char → Prop
  | openLevel (even : (s.opened + 1) % 2 = 0) :
      Reads s next '(' (s.advance '(' (s.opened + 1) (s.level + 1))
        ((if s.continuesLine then [] else s.newline) ++ '(' :: '\n' :: Indent.levels (s.level + 1))
  | openCopied (odd : (s.opened + 1) % 2 ≠ 0) :
      Reads s next '(' (s.advance '(' (s.opened + 1) s.level) ['(']
  | closeLevel (pos : s.opened ≠ 0) (even : s.opened % 2 = 0) :
      Reads s next ')' (s.advance ')' (s.opened - 1) (s.level - 1))
        ('\n' :: Indent.levels (s.level - 1) ++ [')'])
  | closeCopied (odd : s.opened % 2 ≠ 0) :
      Reads s next ')' (s.advance ')' (s.opened - 1) s.level) [')']
  | endsLine (ends : next ≠ some '(' ∧ next ≠ some ')') :
      Reads s next ' ' (s.advance ' ' s.opened s.level)
        (' ' :: '\n' :: ' ' :: Indent.levels s.level)
  | copied {c : Char} (opens : c ≠ '(') (closes : c ≠ ')')
      (stays : ¬ (c = ' ' ∧ next ≠ some '(' ∧ next ≠ some ')')) :
      Reads s next c (s.advance c s.opened s.level) [c]

variable {s s' : State} {c : Char} {next : Option Char} {written : List Char}

theorem step_of_reads (h : s.Reads next c s' written) : s.step c next = .ok (s', written) := by
  cases h with
  | openLevel even =>
    rw [step, if_pos rfl]
    exact if_pos even
  | openCopied odd =>
    rw [step, if_pos rfl]
    exact if_neg odd
  | closeLevel pos even =>
    rw [step, if_neg (by decide), if_pos rfl, if_neg pos]
    exact if_pos even
  | closeCopied odd =>
    have pos : s.opened ≠ 0 := by omega
    rw [step, if_neg (by decide), if_pos rfl, if_neg pos]
    exact if_neg odd
  | endsLine ends =>
    rw [step, if_neg (by decide), if_neg (by decide)]
    exact if_pos ⟨rfl, ends⟩
  | copied opens closes stays =>
    rw [step, if_neg opens, if_neg closes]
    exact if_neg stays

theorem step_close_nothing (h : s.opened = 0) (next : Option Char) :
    s.step ')' next = .error (.unbalanced s.offset) := by
  simp [step, h]

theorem exists_reads (s : State) (c : Char) (next : Option Char) :
    (c = ')' ∧ s.opened = 0) ∨ ∃ s' written, s.Reads next c s' written := by
  by_cases opens : c = '('
  · subst opens
    by_cases even : (s.opened + 1) % 2 = 0
    · exact .inr ⟨_, _, .openLevel even⟩
    · exact .inr ⟨_, _, .openCopied even⟩
  by_cases closes : c = ')'
  · subst closes
    by_cases nothing : s.opened = 0
    · exact .inl ⟨rfl, nothing⟩
    by_cases even : s.opened % 2 = 0
    · exact .inr ⟨_, _, .closeLevel nothing even⟩
    · exact .inr ⟨_, _, .closeCopied even⟩
  by_cases ends : c = ' ' ∧ next ≠ some '(' ∧ next ≠ some ')'
  · obtain ⟨rfl, ends⟩ := ends
    exact .inr ⟨_, _, .endsLine ends⟩
  · exact .inr ⟨_, _, .copied opens closes ends⟩

theorem Reads.offset_eq (h : s.Reads next c s' written) : s'.offset = s.offset + c.utf8Size := by
  cases h <;> rfl

end State

theorem layoutFrom_nil_eq_ok {s : State} {out : List Char} (h : layoutFrom s [] = .ok out) :
    s.opened = 0 ∧ out = [] := by
  rw [layoutFrom] at h
  split at h
  · next closed => exact ⟨closed, (Except.ok.inj h).symm⟩
  · cases h

theorem layoutFrom_cons {s s' : State} {c : Char} {rest written : List Char}
    (h : s.Reads rest.head? c s' written) :
    layoutFrom s (c :: rest) = (layoutFrom s' rest).map (written ++ ·) := by
  rw [layoutFrom, State.step_of_reads h]

theorem layoutFrom_cons_eq_ok {s : State} {c : Char} {rest out : List Char}
    (h : layoutFrom s (c :: rest) = .ok out) : ∃ s' written more,
      s.Reads rest.head? c s' written ∧ layoutFrom s' rest = .ok more ∧ out = written ++ more := by
  rcases s.exists_reads c rest.head? with ⟨rfl, nothing⟩ | ⟨s', written, reads⟩
  · rw [layoutFrom, State.step_close_nothing nothing] at h
    cases h
  · rw [layoutFrom_cons reads] at h
    cases read : layoutFrom s' rest with
    | error e =>
      rw [read] at h
      cases h
    | ok more =>
      rw [read] at h
      exact ⟨s', written, more, reads, read, (Except.ok.inj h).symm⟩

theorem layout_eq_ok_iff {text out : String} :
    layout text = .ok out ↔ layoutFrom .start text.toList = .ok out.toList := by
  rw [layout]
  cases layoutFrom .start text.toList with
  | error e => simp [Except.map]
  | ok written =>
    simp only [Except.map, Except.ok.injEq]
    rw [← String.toList_inj, String.toList_ofList]

end TreeListing.Bracket
