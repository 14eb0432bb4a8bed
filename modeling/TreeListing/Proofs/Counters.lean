import TreeListing.Proofs.Scan

/-!
# The counters

While a text is read, the number of open parentheses and the level go up and down, and nothing may
be taken from either of them when it is zero. A level is left only where the number of open
parentheses is even but not zero. Every second of them is a level, so that there is one to leave.

The states that a text leads through are listed for every text. They end behind the text, or in
front of the first parenthesis that closes nothing.
-/

namespace TreeListing.Bracket

/-- The states that the rest of a text leads through, from the first one on. -/
def statesFrom (s : State) : List Char → List State
  | [] => [s]
  | c :: rest =>
    match s.step c rest.head? with
    | .error _ => [s]
    | .ok (s', _) => s :: statesFrom s' rest

def states (text : String) : List State := statesFrom .start text.toList

namespace State

variable {s s' : State} {before : List Char} {c : Char}

/-- What the counters are when `before` has been read. -/
structure Counts (s : State) (before : List Char) : Prop where
  level_eq : s.level = s.opened / 2
  opened_le : s.opened ≤ before.count '('
  level_le : s.level ≤ before.count '('

/-- How the counters change with a character. What is taken from one of them has been in it. -/
structure Moves (s s' : State) (c : Char) : Prop where
  closes : c = ')' → 1 ≤ s.opened ∧ s'.opened = s.opened - 1
  leavesLevel : c = ')' → s.opened % 2 = 0 → 1 ≤ s.level ∧ s'.level = s.level - 1
  keepsLevel : c = ')' → s.opened % 2 ≠ 0 → s'.level = s.level
  /-- No other character takes something from them. -/
  grows : c ≠ ')' → s.opened ≤ s'.opened ∧ s.level ≤ s'.level

theorem After.counts (h : s.After before) : s.Counts before := by
  have opened := h.opened
  have level : s.level = s.opened / 2 := h.leveled
  exact ⟨level, by omega, by omega⟩

theorem After.moves (h : s.After before) (h' : s'.After (before ++ [c])) : s.Moves s' c := by
  have opened := h.opened
  have opened' := h'.opened
  have level : s.level = s.opened / 2 := h.leveled
  have level' : s'.level = s'.opened / 2 := h'.leveled
  rw [List.count_append, List.count_append] at opened'
  have count : s'.opened + [c].count ')' = s.opened + [c].count '(' := by omega
  -- both levels are halves of the numbers of open parentheses, so these decide everything
  by_cases closing : c = ')'
  · subst closing
    have closed : s'.opened + 1 = s.opened := by simpa using count
    constructor
    · intro _
      omega
    · intro _ even
      omega
    · intro _ odd
      omega
    · intro other
      exact absurd rfl other
  · have none : [c].count ')' = 0 := List.count_eq_zero_of_not_mem (by simpa using Ne.symm closing)
    exact
      { closes := fun h => absurd h closing
        leavesLevel := fun h => absurd h closing
        keepsLevel := fun h => absurd h closing
        grows := fun _ => by omega }

end State

variable {s s' t : State} {c : Char} {rest written : List Char}

theorem statesFrom_cons (h : s.Reads rest.head? c s' written) :
    statesFrom s (c :: rest) = s :: statesFrom s' rest := by
  rw [statesFrom, State.step_of_reads h]

theorem statesFrom_close_nothing (h : s.opened = 0) (rest : List Char) :
    statesFrom s (')' :: rest) = [s] := by
  rw [statesFrom, State.step_close_nothing h]

@[simp] theorem getElem?_statesFrom_zero (s : State) (text : List Char) :
    (statesFrom s text)[0]? = some s := by
  cases text with
  | nil => rfl
  | cons c rest =>
    rw [statesFrom]
    split <;> rfl

theorem exists_scans_of_getElem?_statesFrom {text : List Char} {i : Nat}
    (h : (statesFrom s text)[i]? = some t) :
    ∃ written, s.Scans (text.drop i).head? (text.take i) t written := by
  induction i generalizing s text with
  | zero =>
    rw [getElem?_statesFrom_zero, Option.some_inj] at h
    exact ⟨[], h ▸ .nil s⟩
  | succ i ih =>
    cases text with
    | nil => simp [statesFrom] at h
    | cons c rest =>
      rcases s.exists_reads c rest.head? with ⟨rfl, nothing⟩ | ⟨s', written, reads⟩
      · simp [statesFrom_close_nothing nothing] at h
      · rw [statesFrom_cons reads, List.getElem?_cons_succ] at h
        obtain ⟨more, scans⟩ := ih h
        refine ⟨written ++ more, .cons ?_ scans⟩
        rwa [List.drop_succ_cons, ← List.head?_append, List.take_append_drop]

theorem lt_length_statesFrom_iff {text : List Char} {i : Nat} :
    i < (statesFrom s text).length ↔ i ≤ text.length ∧ Covered s.opened (text.take i) := by
  induction i generalizing s text with
  | zero =>
    have first := (List.getElem?_eq_some_iff.1 (getElem?_statesFrom_zero s text)).1
    simp [first, covered_nil]
  | succ i ih =>
    cases text with
    | nil => simp [statesFrom]
    | cons c rest =>
      rcases s.exists_reads c rest.head? with ⟨rfl, nothing⟩ | ⟨s', written, reads⟩
      · have surplus : ¬ Covered s.opened (')' :: rest.take i) := by
          intro covered
          have := covered [')'] (by simp)
          simp [nothing] at this
        simp [statesFrom_close_nothing nothing, surplus]
      · rw [statesFrom_cons reads, List.length_cons, List.length_cons, List.take_succ_cons,
          covered_cons reads.count_eq, Nat.add_lt_add_iff_right, ih, Nat.add_le_add_iff_right]

theorem after_of_getElem?_states {text : String} {i : Nat} (h : (states text)[i]? = some s) :
    s.After (text.toList.take i) := by
  obtain ⟨written, scans⟩ := exists_scans_of_getElem?_statesFrom h
  exact State.after_start.of_scans scans

/-- Nothing is taken from a counter that is zero, whether or not the text has a layout. The states
go on up to the first parenthesis that closes nothing, and from each of them the layout goes on as
from the start. In each of them the level is half of the number of open parentheses, and neither is
more than the number of parentheses that have been opened. From one to the next, only a closing
parenthesis takes something from a counter, and only what is in it. -/
theorem counters_states (text : String) :
    (∀ i, i < (states text).length ↔
      i ≤ text.toList.length ∧ ∀ p, p <+: text.toList.take i → ¬ Surplus p) ∧
    (∀ i s, (states text)[i]? = some s → s.Counts (text.toList.take i) ∧
      ∃ written, layoutFrom .start text.toList =
        (layoutFrom s (text.toList.drop i)).map (written ++ ·)) ∧
    ∀ i s s' c, (states text)[i]? = some s → (states text)[i + 1]? = some s' →
      text.toList[i]? = some c → s.Moves s' c := by
  refine ⟨?_, ?_, ?_⟩
  · intro i
    rw [← covered_zero_iff]
    exact lt_length_statesFrom_iff
  · intro i s hs
    obtain ⟨written, scans⟩ := exists_scans_of_getElem?_statesFrom hs
    have goesOn := layoutFrom_append scans
    rw [List.take_append_drop] at goesOn
    exact ⟨(after_of_getElem?_states hs).counts, written, goesOn⟩
  · intro i s s' c hs hs' hc
    have after := after_of_getElem?_states hs
    have after' := after_of_getElem?_states hs'
    rw [List.take_add_one, hc] at after'
    exact after.moves after'

/-- A level is left, and then the reading stops at a parenthesis that closes nothing. -/
theorem counters_states_surplus :
    layout "((a)))(" = .error (.unbalanced 5) ∧ (states "((a)))(").length = 6 ∧
    (states "((a)))(")[3]? = some ⟨2, 1, some 'a', 3⟩ ∧
    (states "((a)))(")[4]? = some ⟨1, 0, some ')', 4⟩ ∧ "((a)))(".toList[3]? = some ')' ∧
    State.Counts ⟨2, 1, some 'a', 3⟩ ("((a)))(".toList.take 3) ∧
    State.Moves ⟨2, 1, some 'a', 3⟩ ⟨1, 0, some ')', 4⟩ ')' := by
  have here : (states "((a)))(")[3]? = some ⟨2, 1, some 'a', 3⟩ := rfl
  have next : (states "((a)))(")[4]? = some ⟨1, 0, some ')', 4⟩ := rfl
  have read : "((a)))(".toList[3]? = some ')' := rfl
  obtain ⟨_, counts, moves⟩ := counters_states "((a)))("
  exact ⟨rfl, rfl, here, next, read, (counts 3 _ here).1, moves 3 _ _ _ here next read⟩

end TreeListing.Bracket
