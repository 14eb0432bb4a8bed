import TreeListing.Proofs.Scan

/-!
# Layouts of concatenated texts

Where a text that has a layout ends, nothing is open. From there another text is laid out as it is
alone: the last character of the first text would matter only to a parenthesis that opens a level,
and in front of such a parenthesis another one is open. What differs are the offsets. The second
text in turn matters to the first one only if that ends with a space, which stays on its line in
front of a parenthesis.
-/

namespace TreeListing.Bracket

/-- The failure where it is reported behind a number of bytes. -/
def moved (bytes : Nat) : Error → Error
  | .unbalanced offset => .unbalanced (offset + bytes)
  | e => e

namespace State

variable {s s' t : State} {c : Char} {next : Option Char} {text written : List Char}

/-- A character is read to the same state whatever follows it, and only of a space in front of a
parenthesis something else is written than at the end. -/
theorem Reads.before (h : s.Reads none c s' written) (next : Option Char) :
    ∃ written', s.Reads next c s' written' ∧
      (written' = written ↔ ¬ (c = ' ' ∧ (next = some '(' ∨ next = some ')'))) := by
  by_cases space : c = ' '
  · subst space
    cases h with
    | endsLine =>
      by_cases paren : next = some '(' ∨ next = some ')'
      · have stays : ¬ (' ' = ' ' ∧ next ≠ some '(' ∧ next ≠ some ')') := by tauto
        exact ⟨_, .copied (by decide) (by decide) stays, by simp [paren]⟩
      · exact ⟨_, .endsLine (not_or.1 paren), by simp [paren]⟩
    | copied _ _ stays => simp at stays
  · exact ⟨written, h.congr_next space next, by simp [space]⟩

theorem Scans.before (h : s.Scans none text t written) (next : Option Char) :
    ∃ written', s.Scans next text t written' ∧ (written' = written ↔
      ¬ (text.getLast? = some ' ' ∧ (next = some '(' ∨ next = some ')'))) := by
  induction h with
  | nil s => exact ⟨[], .nil s, by simp⟩
  | @cons s s' t c rest written more reads scans ih =>
    cases rest with
    | nil =>
      -- The last character is the only one that has `next` in sight.
      cases scans
      obtain ⟨written', reads', same⟩ := reads.before next
      exact ⟨_, .cons reads' (.nil s'), by simpa using same⟩
    | cons d rest =>
      obtain ⟨more', scans', same⟩ := ih
      exact ⟨_, .cons reads scans', by simpa using same⟩

def behind (s : State) (bytes : Nat) : State := { s with offset := s.offset + bytes }

@[simp] theorem advance_behind (s : State) (bytes : Nat) (c : Char) (opened level : Nat) :
    (s.behind bytes).advance c opened level = (s.advance c opened level).behind bytes := by
  simp [advance, behind]
  omega

theorem Reads.behind (h : s.Reads next c s' written) (bytes : Nat) :
    (s.behind bytes).Reads next c (s'.behind bytes) written := by
  cases h with
  | openLevel even => exact advance_behind s bytes .. ▸ .openLevel even
  | openCopied odd => exact advance_behind s bytes .. ▸ .openCopied odd
  | closeLevel pos even => exact advance_behind s bytes .. ▸ .closeLevel pos even
  | closeCopied odd => exact advance_behind s bytes .. ▸ .closeCopied odd
  | endsLine ends => exact advance_behind s bytes .. ▸ .endsLine ends
  | copied opens closes stays => exact advance_behind s bytes .. ▸ .copied opens closes stays

/-- The last character matters only in front of a parenthesis that opens a level. -/
theorem step_congr_previous (even : s.opened % 2 = 0) (previous : Option Char) (c : Char)
    (next : Option Char) : { s with previous := previous }.step c next = s.step c next := by
  have odd : (s.opened + 1) % 2 ≠ 0 := by omega
  simp [step, odd, advance, newline]

end State

variable {s : State} {text : List Char}

theorem layoutFrom_behind (bytes : Nat) :
    layoutFrom (s.behind bytes) text = (layoutFrom s text).mapError (moved bytes) := by
  induction text generalizing s with
  | nil => by_cases h : s.opened = 0 <;> simp [layoutFrom, State.behind, h, Except.mapError, moved]
  | cons c rest ih =>
    rcases s.exists_reads c rest.head? with ⟨rfl, nothing⟩ | ⟨s', written, reads⟩
    · have nothing' : (s.behind bytes).opened = 0 := nothing
      simp only [layoutFrom, State.step_close_nothing nothing, State.step_close_nothing nothing']
      rfl
    · rw [layoutFrom_cons reads, layoutFrom_cons (reads.behind bytes), ih]
      cases layoutFrom s' rest <;> rfl

theorem layoutFrom_congr_previous (even : s.opened % 2 = 0) (previous : Option Char) :
    layoutFrom { s with previous := previous } text = layoutFrom s text := by
  cases text with
  | nil => rfl
  | cons c rest => simp only [layoutFrom, State.step_congr_previous even]

/-- Behind a text that leaves nothing open, a text is laid out as it is alone. -/
theorem State.After.layoutFrom_eq {before : List Char} (h : s.After before)
    (closed : s.opened = 0) : layoutFrom s text =
      (layoutFrom .start text).mapError (moved (String.ofList before).utf8ByteSize) := by
  have level : s.level = 0 := by rw [h.leveled, closed]
  have offset := h.offset
  have state : s = { State.start.behind (String.ofList before).utf8ByteSize with
      previous := s.previous } := by
    cases s
    simp only at closed level offset
    simp [State.behind, State.start, closed, level, offset]
  rw [← layoutFrom_behind, state]
  exact layoutFrom_congr_previous rfl _

theorem exists_layout_append {a out : String} (done : layout a = .ok out) (b : String) :
    ∃ front : String, layout (a ++ b) =
        ((layout b).map (front ++ ·)).mapError (moved a.utf8ByteSize) ∧
      (front = out ↔ ¬ (a.toList.getLast? = some ' ' ∧
        (b.toList.head? = some '(' ∨ b.toList.head? = some ')'))) := by
  obtain ⟨t, scans, closed⟩ := exists_scans (layout_eq_ok_iff.1 done)
  obtain ⟨front, scans', same⟩ := scans.before b.toList.head?
  have after : t.After a.toList := State.after_start.of_scans scans
  refine ⟨String.ofList front, ?_, ?_⟩
  · rw [layout, layout, String.toList_append, layoutFrom_append scans', after.layoutFrom_eq closed,
      String.ofList_toList]
    cases layoutFrom .start b.toList <;> simp [Except.map, Except.mapError]
  · rw [← same, ← String.toList_inj, String.toList_ofList]

/-- A text behind one that has a layout fails as it does alone, with the offset that it then has.
If it has a layout, that stands behind the layout of the first text, except where a space at the
end of the first text meets a parenthesis. -/
theorem layout_append {a out : String} (done : layout a = .ok out) (b : String) :
    (∀ out', layout b = .ok out' → (layout (a ++ b) = .ok (out ++ out') ↔
      ¬ (a.toList.getLast? = some ' ' ∧ b.toList.head? = some '('))) ∧
    (∀ offset, layout b = .error (.unbalanced offset) →
      layout (a ++ b) = .error (.unbalanced (offset + a.utf8ByteSize))) ∧
    ∀ n, layout b = .error (.unclosed n) → layout (a ++ b) = .error (.unclosed n) := by
  obtain ⟨front, both, same⟩ := exists_layout_append done b
  refine ⟨fun out' done' => ?_, fun offset failed => ?_, fun n failed => ?_⟩
  · rw [both, done']
    simp [Except.map, Except.mapError, same, head?_ne_of_layout done']
  · rw [both, failed]
    rfl
  · rw [both, failed]
    rfl

/-- A text that ends with a space, in front of a word, of a parenthesis, of a parenthesis that
closes nothing and of two that are left open. -/
theorem layout_append_trailingSpace :
    layout "(é) " = .ok "(é) \n " ∧
    layout ("(é) " ++ "x((y))") = .ok ("(é) \n " ++ "x((\n  y\n))") ∧
    layout ("(é) " ++ "(y)") ≠ .ok ("(é) \n " ++ "(y)") ∧
    layout ("(é) " ++ "x)") = .error (.unbalanced (1 + 5)) ∧
    layout ("(é) " ++ "((") = .error (.unclosed 2) := by
  have done : layout "(é) " = .ok "(é) \n " := rfl
  have word : layout "x((y))" = .ok "x((\n  y\n))" := rfl
  have paren : layout "(y)" = .ok "(y)" := rfl
  refine ⟨done, ?_, ?_, ?_, ?_⟩
  · exact ((layout_append done "x((y))").1 _ word).2 (by decide)
  · intro same
    exact ((layout_append done "(y)").1 _ paren).1 same (by decide)
  · exact (layout_append done "x)").2.1 1 rfl
  · exact (layout_append done "((").2.2 2 rfl

end TreeListing.Bracket
