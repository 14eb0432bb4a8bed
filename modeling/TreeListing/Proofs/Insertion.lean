import TreeListing.Proofs.Reading

/-!
# What a layout inserts

For each character a layout writes the character itself, with nothing but spaces and line breaks
around it, whether or not there are such characters in the text already. Around a character that is
neither a parenthesis nor a space it writes nothing at all.
-/

namespace TreeListing.Bracket

def Blanks (text : List Char) : Prop := ∀ c ∈ text, c = ' ' ∨ c = '\n'

inductive Spaced (c : Char) : List Char → Prop
  | intro {before after : List Char} :
      Blanks before → Blanks after → Spaced c (before ++ c :: after)

/-- A layout acts on the character: it may insert something before or after it. -/
def Structural (c : Char) : Prop := c = '(' ∨ c = ')' ∨ c = ' '

instance (c : Char) : Decidable (Structural c) :=
  inferInstanceAs (Decidable (c = '(' ∨ c = ')' ∨ c = ' '))

@[simp] theorem blanks_nil : Blanks [] := by
  intro c hc
  cases hc

theorem Blanks.cons {c : Char} {text : List Char} (hc : c = ' ' ∨ c = '\n') (h : Blanks text) :
    Blanks (c :: text) := List.forall_mem_cons.2 ⟨hc, h⟩

theorem blanks_levels (level : Nat) : Blanks (Indent.levels level) := by
  intro c hc
  rw [Indent.levels_eq_replicate] at hc
  exact .inl (List.eq_of_mem_replicate hc)

theorem blanks_break (level : Nat) : Blanks ('\n' :: Indent.levels level) :=
  (blanks_levels level).cons (.inr rfl)

theorem spaced_singleton (c : Char) : Spaced c [c] := .intro blanks_nil blanks_nil

namespace State

variable {s s' : State} {c : Char} {next : Option Char} {written : List Char}

theorem Reads.spaced (h : s.Reads next c s' written) : Spaced c written := by
  cases h with
  | openLevel =>
    apply Spaced.intro
    · split
      · exact blanks_nil
      · exact blanks_break s.level
    · exact blanks_break (s.level + 1)
  | openCopied => exact spaced_singleton _
  | closeLevel => exact .intro (blanks_break (s.level - 1)) blanks_nil
  | closeCopied => exact spaced_singleton _
  | endsLine =>
    apply Spaced.intro blanks_nil
    exact ((blanks_levels s.level).cons (.inl rfl)).cons (.inr rfl)
  | copied => exact spaced_singleton _

theorem Reads.eq_of_not_structural (h : s.Reads next c s' written) (plain : ¬ Structural c) :
    written = [c] := by
  cases h with
  | openLevel => exact absurd (.inl rfl) plain
  | openCopied => rfl
  | closeLevel => exact absurd (.inr (.inl rfl)) plain
  | closeCopied => rfl
  | endsLine => exact absurd (.inr (.inr rfl)) plain
  | copied => rfl

end State

/-- A row of characters that a layout does not act on is written as it is. -/
theorem layoutFrom_append_eq_ok {s : State} {row rest out : List Char}
    (plain : ∀ c ∈ row, ¬ Structural c) (done : layoutFrom s (row ++ rest) = .ok out) :
    ∃ s' more, layoutFrom s' rest = .ok more ∧ out = row ++ more := by
  induction row generalizing s out with
  | nil => exact ⟨s, out, done, rfl⟩
  | cons c row ih =>
    rw [List.forall_mem_cons] at plain
    obtain ⟨s₁, written, later, reads, read, rfl⟩ := layoutFrom_cons_eq_ok done
    obtain ⟨s', more, left, rfl⟩ := ih plain.2 read
    refine ⟨s', more, left, ?_⟩
    rw [reads.eq_of_not_structural plain.1]
    rfl

inductive Inserted : List Char → List Char → Prop
  | nil : Inserted [] []
  | kept (c : Char) {text out : List Char} : Inserted text out → Inserted (c :: text) (c :: out)
  | blank {c : Char} {text out : List Char} :
      c = ' ' ∨ c = '\n' → Inserted text out → Inserted text (c :: out)

def withoutBlanks (text : List Char) : List Char := text.filter fun c => c ≠ ' ' ∧ c ≠ '\n'

section

variable {text out : List Char}

theorem Inserted.sublist (h : Inserted text out) : text.Sublist out := by
  induction h with
  | nil => exact .slnil
  | kept c _ ih => exact ih.cons_cons c
  | blank _ _ ih => exact ih.cons _

theorem Inserted.withoutBlanks_eq (h : Inserted text out) :
    withoutBlanks out = withoutBlanks text := by
  induction h with
  | nil => rfl
  | kept c _ ih =>
    simp only [withoutBlanks, List.filter_cons] at ih ⊢
    rw [ih]
  | blank blank _ ih => rcases blank with rfl | rfl <;> simpa [withoutBlanks] using ih

theorem Blanks.inserted {blanks : List Char} (hb : Blanks blanks) (h : Inserted text out) :
    Inserted text (blanks ++ out) := by
  induction blanks with
  | nil => exact h
  | cons c blanks ih =>
    obtain ⟨hc, hb⟩ := List.forall_mem_cons.1 hb
    exact .blank hc (ih hb)

theorem Spaced.inserted {c : Char} {written : List Char} (hc : Spaced c written)
    (h : Inserted text out) : Inserted (c :: text) (written ++ out) := by
  obtain ⟨before, after⟩ := hc
  simpa using before.inserted (.kept c (after.inserted h))

theorem inserted_layoutFrom {s : State} (done : layoutFrom s text = .ok out) :
    Inserted text out := by
  induction text generalizing s out with
  | nil =>
    obtain ⟨_, rfl⟩ := layoutFrom_nil_eq_ok done
    exact .nil
  | cons c rest ih =>
    obtain ⟨s', written, more, reads, read, rfl⟩ := layoutFrom_cons_eq_ok done
    exact reads.spaced.inserted (ih read)

end

/-- A layout is the text with nothing but spaces and line breaks inserted. All characters of the
text are in it, in their order, and without spaces and line breaks the two are the same. -/
theorem inserted_layout {text out : String} (done : layout text = .ok out) :
    text.toList.Sublist out.toList ∧ Inserted text.toList out.toList ∧
      withoutBlanks out.toList = withoutBlanks text.toList := by
  have inserted := inserted_layoutFrom (layout_eq_ok_iff.1 done)
  exact ⟨inserted.sublist, inserted, inserted.withoutBlanks_eq⟩

/-- A text that has a line break, a tab and two spaces of its own. -/
theorem inserted_layout_ownBlanks :
    layout "(\n\té  ((b) c))" = .ok "(\n\té \n  (\n  (b) \n   c\n))" ∧
    "(\n\té  ((b) c))".toList.Sublist "(\n\té \n  (\n  (b) \n   c\n))".toList ∧
    Inserted "(\n\té  ((b) c))".toList "(\n\té \n  (\n  (b) \n   c\n))".toList ∧
    withoutBlanks "(\n\té \n  (\n  (b) \n   c\n))".toList =
      withoutBlanks "(\n\té  ((b) c))".toList := by
  have done : layout "(\n\té  ((b) c))" = .ok "(\n\té \n  (\n  (b) \n   c\n))" := rfl
  exact ⟨done, inserted_layout done⟩

end TreeListing.Bracket
