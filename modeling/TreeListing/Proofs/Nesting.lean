import Mathlib.Data.List.Basic
import Mathlib.Logic.Function.Iterate
import TreeListing.Proofs.Reading

/-!
# A doubled parenthesis is one level of nesting

Reading a text behind a doubled parenthesis goes as reading it alone, with two parentheses more
open and one level more. What is written is the same up to the indentation of the lines that are
begun. The two readings could only differ at the seams. Before the text stands a parenthesis in
place of nothing, and after both of them a line goes on. Behind the text stands a parenthesis in
place of nothing, which makes a difference to a space alone.
-/

namespace TreeListing.Bracket

def shiftChars (text : List Char) : List Char :=
  text.flatMap fun c => if c = '\n' then c :: Indent.unit else [c]

/-- The text with one level of indentation more after each line break. -/
def shift (text : String) : String := String.ofList (shiftChars text.toList)

@[simp] theorem shiftChars_append (a b : List Char) :
    shiftChars (a ++ b) = shiftChars a ++ shiftChars b :=
  List.flatMap_append

theorem shiftChars_cons_of_ne {c : Char} (h : c ≠ '\n') (rest : List Char) :
    shiftChars (c :: rest) = c :: shiftChars rest := by
  simp [shiftChars, h]

theorem shiftChars_of_not_mem {text : List Char} (h : '\n' ∉ text) : shiftChars text = text := by
  induction text with
  | nil => rfl
  | cons c rest ih =>
    rw [List.mem_cons, not_or] at h
    rw [shiftChars_cons_of_ne (Ne.symm h.1), ih h.2]

theorem shiftChars_break {line : List Char} (h : '\n' ∉ line) :
    shiftChars ('\n' :: line) = '\n' :: (Indent.unit ++ line) := by
  have first : shiftChars ['\n'] = '\n' :: Indent.unit := rfl
  rw [← List.singleton_append, shiftChars_append, shiftChars_of_not_mem h, first, List.cons_append]

theorem not_mem_levels (level : Nat) : '\n' ∉ Indent.levels level := by
  rw [Indent.levels_eq_replicate]
  intro h
  exact absurd (List.eq_of_mem_replicate h) (by decide)

@[simp] theorem shiftChars_break_levels (level : Nat) :
    shiftChars ('\n' :: Indent.levels level) = '\n' :: Indent.levels (level + 1) :=
  shiftChars_break (not_mem_levels level)

namespace State

variable {s s' : State} {c : Char} {next : Option Char} {written : List Char}

/-- What follows a character matters to a space alone. -/
theorem Reads.congr_next (h : s.Reads next c s' written) (notSpace : c ≠ ' ')
    (next' : Option Char) : s.Reads next' c s' written := by
  cases h with
  | openLevel even => exact .openLevel even
  | openCopied odd => exact .openCopied odd
  | closeLevel pos even => exact .closeLevel pos even
  | closeCopied odd => exact .closeCopied odd
  | endsLine => exact absurd rfl notSpace
  | copied opens closes => exact .copied opens closes fun space => notSpace space.1

/-- Every second open parenthesis is a level. -/
def Leveled (s : State) : Prop := s.level = s.opened / 2

theorem Leveled.of_reads (leveled : s.Leveled) (h : s.Reads next c s' written) : s'.Leveled := by
  rw [Leveled] at leveled
  cases h <;> simp only [Leveled, advance] <;> omega

def deeper (s : State) : State :=
  ⟨s.opened + 2, s.level + 1, some (s.previous.getD '('), s.offset + 2⟩

@[simp] theorem opened_deeper (s : State) : s.deeper.opened = s.opened + 2 := rfl

@[simp] theorem level_deeper (s : State) : s.deeper.level = s.level + 1 := rfl

theorem opened_deeper_sub_one (pos : s.opened ≠ 0) : s.deeper.opened - 1 = s.opened - 1 + 2 := by
  rw [opened_deeper]
  omega

@[simp] theorem continuesLine_deeper (s : State) : s.deeper.continuesLine = s.continuesLine := by
  obtain ⟨opened, level, previous, offset⟩ := s
  cases previous <;> rfl

@[simp] theorem newline_deeper (s : State) : s.deeper.newline = shiftChars s.newline :=
  (shiftChars_break_levels s.level).symm

@[simp] theorem advance_deeper (s : State) (c : Char) (opened level : Nat) :
    s.deeper.advance c (opened + 2) (level + 1) = (s.advance c opened level).deeper := by
  simp [advance, deeper]
  omega

theorem Reads.deeper (h : s.Reads next c s' written) (leveled : s.Leveled) (inLine : c ≠ '\n') :
    s.deeper.Reads next c s'.deeper (shiftChars written) := by
  cases h with
  | openLevel even =>
    have before : shiftChars (if s.continuesLine then [] else s.newline) =
        if s.deeper.continuesLine then [] else s.deeper.newline := by
      rw [continuesLine_deeper, newline_deeper]
      split <;> rfl
    rw [shiftChars_append, before, shiftChars_cons_of_ne inLine, shiftChars_break_levels,
      ← advance_deeper]
    apply openLevel
    rw [opened_deeper]
    omega
  | openCopied odd =>
    rw [shiftChars_of_not_mem (by decide), ← advance_deeper]
    apply openCopied
    rw [opened_deeper]
    omega
  | closeLevel pos even =>
    -- The level that is left is not the outermost, so that there is one to go back to.
    have level : s.level - 1 + 1 = s.deeper.level - 1 := by
      rw [Leveled] at leveled
      rw [level_deeper]
      omega
    rw [shiftChars_append, shiftChars_break_levels, shiftChars_of_not_mem (by decide),
      ← advance_deeper, ← opened_deeper_sub_one pos, level]
    apply closeLevel <;> rw [opened_deeper] <;> omega
  | closeCopied odd =>
    have pos : s.opened ≠ 0 := by omega
    rw [shiftChars_of_not_mem (by decide), ← advance_deeper, ← opened_deeper_sub_one pos]
    apply closeCopied
    rw [opened_deeper]
    omega
  | endsLine ends =>
    have line : '\n' ∉ ' ' :: Indent.levels s.level := by simp [not_mem_levels]
    rw [shiftChars_cons_of_ne inLine, shiftChars_break line, ← advance_deeper]
    exact .endsLine ends
  | copied opens closes stays =>
    rw [shiftChars_of_not_mem (by simpa using Ne.symm inLine), ← advance_deeper]
    exact .copied opens closes stays

end State

theorem layoutFrom_close_deeper {s : State} (leveled : s.Leveled) (closed : s.opened = 0) :
    layoutFrom s.deeper [')', ')'] = .ok ['\n', ')', ')'] := by
  have opened : s.deeper.opened = 2 := by rw [State.opened_deeper, closed]
  have level : s.deeper.level - 1 = 0 := by rw [State.level_deeper, leveled, closed]
  have inner : s.deeper.Reads (some ')') ')' (s.deeper.advance ')' 1 0) ['\n', ')'] := by
    have reads : s.deeper.Reads (some ')') ')' _ _ := .closeLevel (by omega) (by omega)
    rw [opened, level] at reads
    exact reads
  have outer : (s.deeper.advance ')' 1 0).Reads none ')' _ _ :=
    .closeCopied (by simp [State.advance])
  rw [layoutFrom_cons inner, layoutFrom_cons outer]
  rfl

/-- A text is laid out behind a doubled parenthesis as it is alone, one level deeper. -/
theorem layoutFrom_deeper {s : State} {text out : List Char} (leveled : s.Leveled)
    (oneLine : '\n' ∉ text) (ends : text.getLast? ≠ some ' ')
    (done : layoutFrom s text = .ok out) :
    layoutFrom s.deeper (text ++ [')', ')']) = .ok (shiftChars out ++ ['\n', ')', ')']) := by
  induction text generalizing s out with
  | nil =>
    obtain ⟨closed, empty⟩ := layoutFrom_nil_eq_ok done
    rw [List.nil_append, layoutFrom_close_deeper leveled closed, empty]
    rfl
  | cons c rest ih =>
    obtain ⟨s', written, more, reads, read, rfl⟩ := layoutFrom_cons_eq_ok done
    rw [List.mem_cons, not_or] at oneLine
    have inLine : c ≠ '\n' := Ne.symm oneLine.1
    have leveled' := leveled.of_reads reads
    have reads' : s.deeper.Reads (rest ++ [')', ')']).head? c s'.deeper (shiftChars written) := by
      cases rest with
      | nil =>
        have notSpace : c ≠ ' ' := by simpa using ends
        exact (reads.deeper leveled inLine).congr_next notSpace _
      | cons d rest => exact reads.deeper leveled inLine
    have ends' : rest.getLast? ≠ some ' ' := by
      cases rest with
      | nil => simp
      | cons d rest => simpa using ends
    rw [List.cons_append, layoutFrom_cons reads', ih leveled' oneLine.2 ends' read,
      shiftChars_append, List.append_assoc]
    rfl

def doubled (text : String) : String := "((" ++ text ++ "))"

/-- A layout one level deeper, on lines of its own between the parentheses. -/
def framed (out : String) : String := "((\n  " ++ shift out ++ "\n))"

theorem layoutFrom_start_doubled (text : List Char) :
    layoutFrom .start ('(' :: '(' :: text) =
      (layoutFrom State.start.deeper text).map (['(', '(', '\n', ' ', ' '] ++ ·) := by
  have outer : State.start.Reads (some '(') '(' (State.start.advance '(' 1 0) ['('] :=
    .openCopied (by decide)
  have inner : (State.start.advance '(' 1 0).Reads text.head? '(' State.start.deeper
      ['(', '\n', ' ', ' '] := .openLevel (by decide)
  rw [layoutFrom_cons outer, layoutFrom_cons inner]
  cases layoutFrom State.start.deeper text <;> rfl

theorem layout_of_doubled {text out : String} (oneLine : '\n' ∉ text.toList)
    (ends : text.toList.getLast? ≠ some ' ') (done : layout text = .ok out) :
    layout (doubled text) = .ok (framed out) := by
  have leveled : State.start.Leveled := rfl
  rw [layout_eq_ok_iff] at done ⊢
  have inside := layoutFrom_deeper leveled oneLine ends done
  have text_eq : (doubled text).toList = '(' :: '(' :: (text.toList ++ [')', ')']) := by
    simp [doubled]
  rw [text_eq, layoutFrom_start_doubled, inside]
  simp [Except.map, framed, shift]

/-- What may stand inside a doubled parenthesis may do so again with the parenthesis around it. -/
theorem oneLine_doubled {text : String} (oneLine : '\n' ∉ text.toList) :
    '\n' ∉ (doubled text).toList ∧ (doubled text).toList.getLast? ≠ some ' ' := by
  have text_eq : (doubled text).toList = '(' :: '(' :: text.toList ++ [')'] ++ [')'] := by
    simp [doubled]
  rw [text_eq, List.getLast?_concat]
  simp [oneLine]

/-- A doubled parenthesis around a text moves its layout one level to the right and changes
nothing else, however often it is put around it. -/
theorem layout_doubled {text out : String} (done : layout text = .ok out)
    (oneLine : '\n' ∉ text.toList) (ends : text.toList.getLast? ≠ some ' ') :
    layout ("((" ++ text ++ "))") = .ok ("((\n  " ++ shift out ++ "\n))") ∧
    ∀ n, layout (doubled^[n] text) = .ok (framed^[n] out) := by
  refine ⟨layout_of_doubled oneLine ends done, fun n => ?_⟩
  induction n generalizing text out with
  | zero => exact done
  | succ n ih =>
    obtain ⟨oneLine', ends'⟩ := oneLine_doubled oneLine
    exact ih (layout_of_doubled oneLine ends done) oneLine' ends'

/-- A text with both kinds of parentheses, a line of its own for a parenthesis behind a word,
a space that ends its line and two that do not. -/
theorem layout_doubled_mixed :
    layout "(x(é) y )((z w))" = .ok "(x\n(\n  é\n) \n y )((\n  z \n   w\n))" ∧
    '\n' ∉ "(x(é) y )((z w))".toList ∧ "(x(é) y )((z w))".toList.getLast? ≠ some ' ' ∧
    layout ("((" ++ "(x(é) y )((z w))" ++ "))") =
      .ok ("((\n  " ++ shift "(x\n(\n  é\n) \n y )((\n  z \n   w\n))" ++ "\n))") ∧
    ∀ n, layout (doubled^[n] "(x(é) y )((z w))") =
      .ok (framed^[n] "(x\n(\n  é\n) \n y )((\n  z \n   w\n))") := by
  have done : layout "(x(é) y )((z w))" =
      .ok "(x\n(\n  é\n) \n y )((\n  z \n   w\n))" := rfl
  have oneLine : '\n' ∉ "(x(é) y )((z w))".toList := by decide
  have ends : "(x(é) y )((z w))".toList.getLast? ≠ some ' ' := by decide
  exact ⟨done, oneLine, ends, layout_doubled done oneLine ends⟩

end TreeListing.Bracket
