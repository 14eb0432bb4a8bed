import Mathlib.Data.String.Basic
import TreeListing.Proofs.Reading

/-!
# Which texts have a layout

Whether there is a layout depends on the parentheses alone, and only on how many of each kind
have been read. A text has one exactly when its parentheses balance; otherwise the first
parenthesis that closes nothing is reported, and when there is none, the number left open.
-/

namespace TreeListing.Bracket

def Surplus (text : List Char) : Prop := text.count '(' < text.count ')'

/-- The first parenthesis that closes nothing stands at a byte offset. -/
def SurplusAt (text : List Char) (offset : Nat) : Prop :=
  ∃ before after, text = before ++ ')' :: after ∧ offset = (String.ofList before).utf8ByteSize ∧
    Surplus (before ++ [')']) ∧ ∀ p, p <+: before → ¬ Surplus p

/-- Every parenthesis closes one that is open, and none is left open. -/
def Balanced (text : List Char) : Prop :=
  (∀ p, p <+: text → ¬ Surplus p) ∧ text.count '(' = text.count ')'

def isParen (c : Char) : Bool := c = '(' || c = ')'

theorem balanced_filter_iff (text : List Char) :
    Balanced (text.filter isParen) ↔ Balanced text := by
  have opens : ∀ p : List Char, (p.filter isParen).count '(' = p.count '(' :=
    fun _ => List.count_filter rfl
  have closes : ∀ p : List Char, (p.filter isParen).count ')' = p.count ')' :=
    fun _ => List.count_filter rfl
  have prefixes : (∀ p, p <+: text.filter isParen → ¬ Surplus p) ↔
      ∀ p, p <+: text → ¬ Surplus p := by
    simp only [Surplus]
    constructor
    · intro h p hp
      have := h _ (hp.filter isParen)
      rwa [opens, closes] at this
    · intro h p hp
      obtain ⟨q, hq, rfl⟩ := List.prefix_filter_iff.1 hp
      rw [opens, closes]
      exact h q hq
  rw [Balanced, Balanced, prefixes, opens, closes]

/-- With some parentheses open, no beginning of the text closes one that is not. -/
def Covered (opened : Nat) (text : List Char) : Prop :=
  ∀ p, p <+: text → p.count ')' ≤ opened + p.count '('

@[simp] theorem covered_zero_iff {text : List Char} :
    Covered 0 text ↔ ∀ p, p <+: text → ¬ Surplus p := by
  simp [Covered, Surplus]

@[simp] theorem covered_nil (opened : Nat) : Covered opened [] := by
  intro p hp
  simp [List.prefix_nil.1 hp]

theorem count_cons_add (x c : Char) (rest : List Char) :
    (c :: rest).count x = [c].count x + rest.count x := by
  rw [← List.singleton_append, List.count_append]

theorem covered_cons {opened opened' : Nat} {c : Char} {rest : List Char}
    (h : opened' + [c].count ')' = opened + [c].count '(') :
    Covered opened (c :: rest) ↔ Covered opened' rest := by
  constructor
  · intro hc p hp
    have := hc (c :: p) (List.cons_prefix_cons.2 ⟨rfl, hp⟩)
    rw [count_cons_add '(', count_cons_add ')'] at this
    omega
  · intro hc p hp
    rcases List.prefix_cons_iff.1 hp with rfl | ⟨q, rfl, hq⟩
    · simp
    · have := hc q hq
      rw [count_cons_add '(', count_cons_add ')']
      omega

theorem covered_append {opened opened' : Nat} {a b : List Char}
    (h : opened' + a.count ')' = opened + a.count '(') :
    Covered opened (a ++ b) ↔ Covered opened a ∧ Covered opened' b := by
  constructor
  · intro covered
    refine ⟨fun p hp => covered p (hp.trans (List.prefix_append a b)), fun q hq => ?_⟩
    have := covered (a ++ q) ((List.prefix_append_right_inj a).2 hq)
    simp only [List.count_append] at this
    omega
  · rintro ⟨first, second⟩ p hp
    rcases List.prefix_or_prefix_of_prefix hp (List.prefix_append a b) with hp | ⟨q, rfl⟩
    · exact first p hp
    · have := second q ((List.prefix_append_right_inj a).1 hp)
      simp only [List.count_append]
      omega

/-- With some parentheses open around it, a text closes those that it opens, and no others. -/
structure Keeps (opened : Nat) (text : List Char) : Prop where
  covered : Covered opened text
  count_eq : text.count '(' = text.count ')'

@[simp] theorem keeps_zero_iff {text : List Char} : Keeps 0 text ↔ Balanced text := by
  rw [Balanced, ← covered_zero_iff]
  exact ⟨fun h => ⟨h.covered, h.count_eq⟩, fun h => ⟨h.1, h.2⟩⟩

theorem keeps_of_not_mem {opened : Nat} {text : List Char} (opens : '(' ∉ text)
    (closes : ')' ∉ text) : Keeps opened text where
  covered p hp := by
    rw [List.count_eq_zero_of_not_mem fun mem => closes (hp.subset mem)]
    exact Nat.zero_le _
  count_eq := by rw [List.count_eq_zero_of_not_mem opens, List.count_eq_zero_of_not_mem closes]

namespace Keeps

variable {opened : Nat} {a b : List Char}

theorem append (ha : Keeps opened a) (hb : Keeps opened b) : Keeps opened (a ++ b) where
  covered := (covered_append (by rw [ha.count_eq])).2 ⟨ha.covered, hb.covered⟩
  count_eq := by rw [List.count_append, List.count_append, ha.count_eq, hb.count_eq]

theorem mono {opened' : Nat} (h : Keeps opened a) (le : opened ≤ opened') : Keeps opened' a where
  covered p hp := Nat.le_trans (h.covered p hp) (Nat.add_le_add_right le _)
  count_eq := h.count_eq

theorem enclosed (h : Keeps (opened + 1) a) : Keeps opened ('(' :: a ++ [')']) where
  covered := by
    have opening : opened + 1 + ['('].count ')' = opened + ['('].count '(' := by simp
    have closing : opened + [')'].count ')' = opened + 1 + [')'].count '(' := by simp
    have inside : opened + 1 + a.count ')' = opened + 1 + a.count '(' := by rw [h.count_eq]
    rw [List.cons_append, covered_cons opening]
    exact (covered_append inside).2 ⟨h.covered, (covered_cons closing).2 (covered_nil opened)⟩
  count_eq := by simp [h.count_eq]

theorem of_enclosed (word tail : List Char) (opens : '(' ∉ word) (closes : ')' ∉ word)
    (opens' : tail.count '(' = 0) (closes' : tail.count ')' = 1)
    (h : Keeps opened ('(' :: (word ++ (a ++ tail)))) : Keeps (opened + 1) a where
  covered := by
    have opening : opened + 1 + ['('].count ')' = opened + ['('].count '(' := by simp
    have kept : Keeps (opened + 1) word := keeps_of_not_mem opens closes
    have covered := h.covered
    rw [covered_cons opening, covered_append (by rw [kept.count_eq])] at covered
    intro p hp
    exact covered.2 p (hp.trans (List.prefix_append a tail))
  count_eq := by
    simpa [List.count_eq_zero_of_not_mem opens, List.count_eq_zero_of_not_mem closes, opens',
      closes'] using h.count_eq

end Keeps

theorem State.Reads.count_eq {s s' : State} {c : Char} {next : Option Char} {written : List Char}
    (h : s.Reads next c s' written) :
    s'.opened + [c].count ')' = s.opened + [c].count '(' := by
  cases h with
  | openLevel | openCopied => simp [State.advance]
  | closeLevel | closeCopied =>
    simp only [State.advance, List.count_singleton]
    simp
    omega
  | endsLine => rfl
  | copied opens closes => simp [State.advance, opens, closes]

/-- A text is read to its end, unless it closes a parenthesis that is not open. -/
theorem layoutFrom_of_covered {s : State} {text : List Char} (h : Covered s.opened text) :
    (s.opened + text.count '(' = text.count ')' ∧ ∃ out, layoutFrom s text = .ok out) ∨
    ∃ n, 0 < n ∧ s.opened + text.count '(' = text.count ')' + n ∧
      layoutFrom s text = .error (.unclosed n) := by
  induction text generalizing s with
  | nil =>
    by_cases nothing : s.opened = 0
    · exact .inl ⟨by simp [nothing], [], by simp [layoutFrom, nothing]⟩
    · exact .inr ⟨s.opened, by omega, by simp, by simp [layoutFrom, nothing]⟩
  | cons c rest ih =>
    rcases s.exists_reads c rest.head? with ⟨rfl, nothing⟩ | ⟨s', written, reads⟩
    · have := h [')'] (by simp)
      simp [nothing] at this
    · have count := reads.count_eq
      rw [layoutFrom_cons reads, count_cons_add '(', count_cons_add ')']
      rcases ih ((covered_cons count).1 h) with ⟨closed, out, done⟩ | ⟨n, pos, left, failed⟩
      · exact .inl ⟨by omega, written ++ out, by rw [done]; rfl⟩
      · exact .inr ⟨n, pos, by omega, by rw [failed]; rfl⟩

/-- Reading stops at a parenthesis that closes nothing, whatever follows it. -/
theorem layoutFrom_of_surplus {s : State} {before : List Char} (h : Covered s.opened before)
    (spent : s.opened + before.count '(' = before.count ')') (after : List Char) :
    layoutFrom s (before ++ ')' :: after) =
      .error (.unbalanced (s.offset + (String.ofList before).utf8ByteSize)) := by
  rw [String.utf8ByteSize_ofList]
  induction before generalizing s with
  | nil =>
    have nothing : s.opened = 0 := by simpa using spent
    rw [List.nil_append, layoutFrom, State.step_close_nothing nothing]
    simp
  | cons c before ih =>
    rcases s.exists_reads c (before ++ ')' :: after).head? with
      ⟨rfl, nothing⟩ | ⟨s', written, reads⟩
    · have := h [')'] (by simp)
      simp [nothing] at this
    · have count := reads.count_eq
      rw [List.cons_append, layoutFrom_cons reads, ih ((covered_cons count).1 h),
        reads.offset_eq, String.utf8Len_cons]
      · simp only [Except.map, Nat.add_comm, Nat.add_assoc]
      · rw [count_cons_add '(', count_cons_add ')'] at spent
        omega

theorem covered_or_surplus (opened : Nat) (text : List Char) :
    Covered opened text ∨ ∃ before after, text = before ++ ')' :: after ∧
      Covered opened before ∧ opened + before.count '(' = before.count ')' := by
  induction text generalizing opened with
  | nil => exact .inl (covered_nil opened)
  | cons c rest ih =>
    by_cases stops : c = ')' ∧ opened = 0
    · obtain ⟨rfl, rfl⟩ := stops
      exact .inr ⟨[], rest, rfl, covered_nil 0, rfl⟩
    -- the character is read, so the rest begins with one parenthesis more or less open
    have enough : [c].count ')' ≤ opened + [c].count '(' := by
      by_cases closes : c = ')'
      · have : opened ≠ 0 := fun h => stops ⟨closes, h⟩
        simp [closes]
        omega
      · simp [closes]
    have count : opened + [c].count '(' - [c].count ')' + [c].count ')' =
        opened + [c].count '(' := by omega
    rcases ih _ with covered | ⟨before, after, rfl, covered, spent⟩
    · exact .inl ((covered_cons count).2 covered)
    · refine .inr ⟨c :: before, after, rfl, (covered_cons count).2 covered, ?_⟩
      rw [count_cons_add '(', count_cons_add ')']
      omega

theorem layout_of_surplusAt {text : String} {offset : Nat} (h : SurplusAt text.toList offset) :
    layout text = .error (.unbalanced offset) := by
  obtain ⟨before, after, ht, rfl, surplus, first⟩ := h
  have covered : Covered 0 before := covered_zero_iff.2 first
  have spent : 0 + before.count '(' = before.count ')' := by
    have := covered before List.prefix_rfl
    simp only [Surplus, List.count_append] at surplus
    simp at surplus
    omega
  rw [layout, ht, layoutFrom_of_surplus covered spent]
  simp [State.start, Except.map]

theorem exists_surplusAt {text : List Char} (h : ¬ Covered 0 text) :
    ∃ offset, SurplusAt text offset := by
  rcases covered_or_surplus 0 text with covered | ⟨before, after, rfl, covered, spent⟩
  · exact absurd covered h
  · refine ⟨_, before, after, rfl, rfl, ?_, covered_zero_iff.1 covered⟩
    simp only [Surplus, List.count_append]
    simp
    omega

theorem SurplusAt.exists_surplus {text : List Char} {offset : Nat} (h : SurplusAt text offset) :
    ∃ p, p <+: text ∧ Surplus p := by
  obtain ⟨before, after, rfl, _, surplus, _⟩ := h
  exact ⟨before ++ [')'], ⟨after, by simp⟩, surplus⟩

theorem layout_of_covered {text : String} (h : Covered 0 text.toList) :
    (text.toList.count '(' = text.toList.count ')' ∧ ∃ out, layout text = .ok out) ∨
    ∃ n, 0 < n ∧ text.toList.count '(' = text.toList.count ')' + n ∧
      layout text = .error (.unclosed n) := by
  rcases layoutFrom_of_covered (s := .start) h with ⟨closed, out, done⟩ | ⟨n, pos, left, failed⟩
  · exact .inl ⟨by simpa [State.start] using closed, _, by rw [layout, done]; rfl⟩
  · exact .inr ⟨n, pos, by simpa [State.start] using left, by rw [layout, failed]; rfl⟩

theorem exists_layout_iff {text : String} :
    (∃ out, layout text = .ok out) ↔ Balanced text.toList := by
  rw [Balanced, ← covered_zero_iff]
  constructor
  · rintro ⟨out, done⟩
    by_cases covered : Covered 0 text.toList
    · rcases layout_of_covered covered with ⟨closed, _⟩ | ⟨n, _, _, failed⟩
      · exact ⟨covered, closed⟩
      · rw [failed] at done
        cases done
    · obtain ⟨offset, surplus⟩ := exists_surplusAt covered
      rw [layout_of_surplusAt surplus] at done
      cases done
  · rintro ⟨covered, closed⟩
    rcases layout_of_covered covered with ⟨_, done⟩ | ⟨n, pos, left, _⟩
    · exact done
    · omega

theorem head?_ne_of_layout {text out : String} (done : layout text = .ok out) :
    text.toList.head? ≠ some ')' := by
  intro head
  obtain ⟨rest, begins⟩ := List.head?_eq_some_iff.1 head
  have balanced := exists_layout_iff.1 ⟨out, done⟩
  exact balanced.1 [')'] (by simp [begins]) (by simp [Surplus])

/-- A text has a layout exactly when its parentheses balance. Of two failures the one met first
is reported: the place of the first parenthesis that closes nothing, and only without one the
number of those left open. -/
theorem layout_outcome (text : String) :
    (∀ offset, layout text = .error (.unbalanced offset) ↔ SurplusAt text.toList offset) ∧
    ((∃ offset, layout text = .error (.unbalanced offset)) ↔
      ∃ p, p <+: text.toList ∧ Surplus p) ∧
    (∀ n, layout text = .error (.unclosed n) ↔ (∀ p, p <+: text.toList → ¬ Surplus p) ∧
      0 < n ∧ text.toList.count '(' = text.toList.count ')' + n) ∧
    ((∃ out, layout text = .ok out) ↔ Balanced text.toList) := by
  -- only a text that is read to its end can fail there, so the prefixes are looked at first
  rw [Balanced, ← covered_zero_iff]
  by_cases covered : Covered 0 text.toList
  · have none : ¬ ∃ p, p <+: text.toList ∧ Surplus p := by
      rintro ⟨p, hp, surplus⟩
      exact covered_zero_iff.1 covered p hp surplus
    have nowhere : ∀ offset, ¬ SurplusAt text.toList offset := fun _ h => none h.exists_surplus
    rcases layout_of_covered covered with ⟨closed, out, done⟩ | ⟨n, pos, left, failed⟩
    · refine ⟨?_, ?_, fun m => ?_, ?_⟩
      · simp [done, nowhere]
      · simp [done, none]
      · simp only [done, reduceCtorEq, false_iff]
        omega
      · simp [done, covered, closed]
    · refine ⟨?_, ?_, fun m => ?_, ?_⟩
      · simp [failed, nowhere]
      · simp [failed, none]
      · simp only [failed, covered, Except.error.injEq, Error.unclosed.injEq, true_and]
        omega
      · simp only [failed, reduceCtorEq, exists_false, false_iff]
        omega
  · obtain ⟨offset, surplus⟩ := exists_surplusAt covered
    have failed := layout_of_surplusAt surplus
    refine ⟨?_, ?_, ?_, ?_⟩
    · intro offset'
      constructor
      · intro h
        rw [failed] at h
        cases h
        exact surplus
      · exact layout_of_surplusAt
    · constructor
      · intro _
        exact surplus.exists_surplus
      · intro _
        exact ⟨offset, failed⟩
    · simp [failed, covered]
    · simp [failed, covered]

end TreeListing.Bracket
