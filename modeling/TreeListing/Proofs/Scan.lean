import TreeListing.Proofs.Balance
import TreeListing.Proofs.Nesting

/-!
# Reading a part of a text

The state after a part of a text depends on that part alone: on the parentheses that it leaves
open, on its last character and on its length. What is behind the part is seen while its last
character is read, and not before. A text is therefore read in two parts as it is read in one, the
first of them with the beginning of the second in sight.
-/

namespace TreeListing.Bracket

namespace State

variable {s s' t : State} {c : Char} {next : Option Char} {text written : List Char}

theorem Reads.previous_eq (h : s.Reads next c s' written) : s'.previous = some c := by
  cases h <;> rfl

/-- The state that a text leads to from the start. -/
structure After (s : State) (text : List Char) : Prop where
  opened : s.opened + text.count ')' = text.count '('
  leveled : s.Leveled
  previous : s.previous = text.getLast?
  offset : s.offset = (String.ofList text).utf8ByteSize

theorem after_start : start.After [] := ⟨rfl, rfl, rfl, rfl⟩

theorem After.of_reads (h : s.After text) (reads : s.Reads next c s' written) :
    s'.After (text ++ [c]) where
  opened := by
    have before := h.opened
    have count := reads.count_eq
    simp only [List.count_append]
    omega
  leveled := h.leveled.of_reads reads
  previous := by simp [reads.previous_eq]
  offset := by simp [reads.offset_eq, h.offset, String.utf8ByteSize_ofList]

/-- From a state, with a character behind it, a text leads to a state and to a text that is
written. -/
inductive Scans (next : Option Char) : State → List Char → State → List Char → Prop
  | nil (s : State) : Scans next s [] s []
  | cons {s s' t : State} {c : Char} {rest written more : List Char} :
      s.Reads (rest.head?.or next) c s' written → Scans next s' rest t more →
      Scans next s (c :: rest) t (written ++ more)

theorem After.of_scans {before : List Char} (h : s.After before)
    (scans : s.Scans next text t written) : t.After (before ++ text) := by
  induction scans generalizing before with
  | nil => simpa using h
  | cons reads _ ih => simpa using ih (h.of_reads reads)

end State

variable {s t : State} {text written out : List Char}

theorem exists_scans (done : layoutFrom s text = .ok out) :
    ∃ t, s.Scans none text t out ∧ t.opened = 0 := by
  induction text generalizing s out with
  | nil =>
    obtain ⟨closed, rfl⟩ := layoutFrom_nil_eq_ok done
    exact ⟨s, .nil s, closed⟩
  | cons c rest ih =>
    obtain ⟨s', written, more, reads, read, rfl⟩ := layoutFrom_cons_eq_ok done
    obtain ⟨t, scans, closed⟩ := ih read
    exact ⟨t, .cons (by simpa using reads) scans, closed⟩

/-- The layout goes on where a first part has been scanned, the rest being in sight. -/
theorem layoutFrom_append {rest : List Char} (h : s.Scans rest.head? text t written) :
    layoutFrom s (text ++ rest) = (layoutFrom t rest).map (written ++ ·) := by
  induction h with
  | nil s => cases h : layoutFrom s rest <;> simp [Except.map, h]
  | cons reads _ ih =>
    rw [← List.head?_append] at reads
    rw [List.cons_append, layoutFrom_cons reads, ih]
    cases layoutFrom _ rest <;> simp [Except.map]

end TreeListing.Bracket
