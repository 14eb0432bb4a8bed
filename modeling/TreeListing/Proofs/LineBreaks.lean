import Mathlib.Data.List.Infix
import TreeListing.Proofs.Scan

/-!
# The lines of a layout

A text without spaces is cut into lines at its parentheses. A line ends behind a parenthesis that
opens a level, and a line begins with the parenthesis that closes one, and with one that opens a
level unless another opening parenthesis is right in front of it. A line is indented by the levels
that are open all through its first character, be it at its beginning or at its end. Two breaks at
one place leave a line without text.
-/

namespace TreeListing.Bracket

def leftOpen (text : List Char) : Nat := text.count '(' - text.count ')'

def OpensLevel (before : List Char) : Prop := before.getLast? = some '(' ∧ leftOpen before % 2 = 0

/-- The next character is a parenthesis that opens a level, but not right behind another opening
one, or it is a parenthesis that closes a level. -/
def BeginsLine (before : List Char) (next : Option Char) : Prop :=
  next = some '(' ∧ leftOpen (before ++ ['(']) % 2 = 0 ∧ before.getLast? ≠ some '(' ∨
    next = some ')' ∧ leftOpen before % 2 = 0

instance (before : List Char) : Decidable (OpensLevel before) :=
  inferInstanceAs (Decidable (_ ∧ _))

instance (before : List Char) (next : Option Char) : Decidable (BeginsLine before next) :=
  inferInstanceAs (Decidable (_ ∨ _))

/-- The number of line breaks in front of the next character. -/
def breaks (before : List Char) (next : Option Char) : Nat :=
  (if OpensLevel before then 1 else 0) + if BeginsLine before next then 1 else 0

/-- The line breaks in a text, each given by the text in front of it. -/
def breakPlaces (text : List Char) : List (List Char) :=
  text.inits.flatMap fun before =>
    List.replicate (breaks before (text.drop before.length).head?) before

def breakPlacesFrom (before rest : List Char) : List (List Char) :=
  rest.inits.flatMap fun read =>
    List.replicate (breaks (before ++ read) (rest.drop read.length).head?) (before ++ read)

@[simp] theorem breakPlacesFrom_nil (text : List Char) :
    breakPlacesFrom [] text = breakPlaces text := rfl

@[simp] theorem breakPlacesFrom_cons (before : List Char) (c : Char) (rest : List Char) :
    breakPlacesFrom before (c :: rest) =
      List.replicate (breaks before (some c)) before ++ breakPlacesFrom (before ++ [c]) rest := by
  simp [breakPlacesFrom, List.flatMap_map]

structure Line where
  level : Nat
  piece : List Char

namespace Line

def chars (l : Line) : List Char := List.replicate (2 * l.level) ' ' ++ l.piece

/-- The indentation is right for a line with text before and behind it. -/
structure Fits (l : Line) (before after : List Char) : Prop where
  indented : ∀ c rest, l.piece = c :: rest →
    l.level = min (leftOpen before) (leftOpen (before ++ [c])) / 2
  empty : l.piece = [] → OpensLevel before ∧ after.head? = some ')' ∧ l.level = leftOpen before / 2

variable {level : Nat} {before after : List Char} {c : Char}

theorem fits_cons (h : level = min (leftOpen before) (leftOpen (before ++ [c])) / 2)
    (rest : List Char) : Fits ⟨level, c :: rest⟩ before after where
  indented := by
    intro d rest' same
    obtain ⟨rfl, _⟩ := List.cons.inj same
    exact h
  empty := nofun

theorem fits_nil (opens : OpensLevel before) (closes : after.head? = some ')') :
    Fits ⟨leftOpen before / 2, []⟩ before after where
  indented := nofun
  empty := fun _ => ⟨opens, closes, rfl⟩

end Line

def pieces (lines : List Line) : List Char := lines.flatMap Line.piece

/-- The text in front of each of some lines. -/
def placesFrom (before : List Char) : List Line → List (List Char)
  | [] => []
  | l :: rest => before :: placesFrom (before ++ l.piece) rest

def places : List Line → List (List Char)
  | [] => []
  | l :: rest => placesFrom l.piece rest

/-- The lines of the layout of a text. -/
structure LaidOut (text out : List Char) (lines : List Line) : Prop where
  out_eq : out = ['\n'].intercalate (lines.map Line.chars)
  pieces_eq : pieces lines = text
  newline_not_mem : ∀ l ∈ lines, '\n' ∉ l.piece
  places_eq : places lines = breakPlaces text
  fits : ∀ front l back, lines = front ++ l :: back → l.Fits (pieces front) (pieces back)

/-- The rest of a text behind `before`, cut into what belongs to the line that has begun and the
lines after it. -/
structure Cut (before rest : List Char) (breakPlaces : List (List Char)) (out head : List Char)
    (tail : List Line) : Prop where
  pieces_eq : head ++ pieces tail = rest
  places_eq : placesFrom (before ++ head) tail = breakPlaces
  out_eq : head ++ tail.flatMap (fun l => '\n' :: l.chars) = out
  fits : ∀ front l back, tail = front ++ l :: back →
    l.Fits (before ++ head ++ pieces front) (pieces back)

namespace Cut

variable {before rest out head : List Char} {breakPlaces : List (List Char)} {tail : List Line}

theorem cons {c : Char} (h : Cut (before ++ [c]) rest breakPlaces out head tail) :
    Cut before (c :: rest) breakPlaces (c :: out) (c :: head) tail where
  pieces_eq := by simp [h.pieces_eq]
  places_eq := by simp [← h.places_eq]
  out_eq := by simp [← h.out_eq]
  fits := by simpa using h.fits

theorem push {level : Nat} (h : Cut before rest breakPlaces out head tail)
    (fits : Line.Fits ⟨level, head⟩ before (pieces tail)) :
    Cut before rest (before :: breakPlaces) ('\n' :: Indent.levels level ++ out) []
      (⟨level, head⟩ :: tail) where
  pieces_eq := by simp [← h.pieces_eq, pieces]
  places_eq := by simp [← h.places_eq, placesFrom]
  out_eq := by simp [← h.out_eq, Line.chars, Indent.levels_eq_replicate]
  fits := by
    intro front l back split
    rcases List.cons_eq_append_iff.1 split with ⟨rfl, first⟩ | ⟨front, rfl, later⟩
    · obtain ⟨rfl, rfl⟩ := List.cons.inj first
      simpa [pieces] using fits
    · simpa [pieces] using h.fits front l back later

end Cut

def lineBreak (level : Nat) : List Char := '\n' :: Indent.levels level

/-- The break behind a text that ends with a parenthesis that opens a level. -/
def lineOpened (before : List Char) : List Char :=
  if OpensLevel before then lineBreak (leftOpen before / 2) else []

def lineBegun (before : List Char) (c : Char) : List Char :=
  if BeginsLine before (some c) then
    lineBreak (min (leftOpen before) (leftOpen (before ++ [c])) / 2)
  else []

theorem lineOpened_concat_of_ne {before : List Char} {c : Char} (h : c ≠ '(') :
    lineOpened (before ++ [c]) = [] := by
  simp [lineOpened, OpensLevel, h]

namespace State

variable {s s' : State} {before written : List Char} {c : Char} {next : Option Char}

theorem After.leftOpen_eq (h : s.After before) : leftOpen before = s.opened := by
  have opened := h.opened
  unfold leftOpen
  omega

theorem After.continuesLine_iff (h : s.After before) (noSpace : ' ' ∉ before)
    (pos : s.opened ≠ 0) : s.continuesLine = true ↔ before.getLast? = some '(' := by
  rw [continuesLine, h.previous]
  cases last : before.getLast? with
  | none =>
    obtain rfl := List.getLast?_eq_none_iff.1 last
    exact absurd h.opened (by simpa using pos)
  | some d =>
    have other : d ≠ ' ' := by
      rintro rfl
      exact noSpace (List.mem_of_getLast? last)
    simp [other]

theorem Reads.written_eq (reads : s.Reads next c s' written) (after : s.After before)
    (noSpace : ' ' ∉ before) (hc : c ≠ ' ') :
    written = lineBegun before c ++ c :: lineOpened (before ++ [c]) := by
  have now := after.leftOpen_eq
  have later := (after.of_reads reads).leftOpen_eq
  have level : s.level = s.opened / 2 := after.leveled
  cases reads with
  | openLevel even =>
    have outer : s.opened / 2 = s.level := level.symm
    have inner : (s.opened + 1) / 2 = s.level + 1 := by omega
    have begins : BeginsLine before (some '(') ↔ ¬ s.continuesLine = true := by
      rw [after.continuesLine_iff noSpace (by omega)]
      simp [BeginsLine, later, advance, even]
    by_cases goesOn : s.continuesLine = true <;>
      simp [lineBegun, lineOpened, OpensLevel, lineBreak, newline, begins, goesOn, now, later,
        advance, even, outer, inner]
  | openCopied odd =>
    simp [lineBegun, lineOpened, OpensLevel, BeginsLine, later, advance, odd]
  | closeLevel pos even =>
    have outer : (s.opened - 1) / 2 = s.level - 1 := by omega
    simp [lineBegun, lineOpened_concat_of_ne, BeginsLine, lineBreak, now, later, advance, even,
      outer]
  | closeCopied odd => simp [lineBegun, lineOpened_concat_of_ne, BeginsLine, now, odd]
  | endsLine => exact absurd rfl hc
  | copied opens closes =>
    simp [lineBegun, lineOpened_concat_of_ne opens, BeginsLine, opens, closes]

end State

theorem State.Reads.opened_ne_zero {s s' : State} {c : Char} {next : Option Char}
    {written : List Char} (h : s.Reads next c s' written) (opens : c = '(') : s'.opened ≠ 0 := by
  have count := h.count_eq
  simp [opens] at count
  omega

theorem OpensLevel.eq_close {before : List Char} {c : Char} (h : OpensLevel before)
    (begins : BeginsLine before (some c)) : c = ')' := by
  rcases begins with ⟨_, _, last⟩ | ⟨closes, _⟩
  · exact absurd h.1 last
  · exact Option.some.inj closes

theorem OpensLevel.ne_close {before : List Char} {c : Char} (h : OpensLevel before)
    (stays : ¬ BeginsLine before (some c)) : c ≠ ')' := by
  rintro rfl
  exact stays (.inr ⟨rfl, h.2⟩)

theorem leftOpen_le_concat (before : List Char) {c : Char} (h : c ≠ ')') :
    leftOpen before ≤ leftOpen (before ++ [c]) := by
  simp only [leftOpen, List.count_append, List.count_singleton]
  simp [h]
  omega

namespace Cut

variable {before rest out head : List Char} {breakPlaces : List (List Char)} {tail : List Line}

/-- The character in front of what is cut, with the breaks that are in front of the character. -/
theorem exists_cons {c : Char} (h : Cut (before ++ [c]) rest breakPlaces out head tail) :
    ∃ head tail, Cut before (c :: rest)
      (List.replicate (breaks before (some c)) before ++ breakPlaces)
      (lineOpened before ++ (lineBegun before c ++ c :: out)) head tail := by
  by_cases opens : OpensLevel before <;> by_cases begins : BeginsLine before (some c) <;>
    simp only [breaks, lineOpened, lineBegun, opens, begins, if_true, if_false]
  · obtain rfl := opens.eq_close begins
    exact ⟨_, _, (h.cons.push (Line.fits_cons rfl head)).push (Line.fits_nil opens rfl)⟩
  · have least : min (leftOpen before) (leftOpen (before ++ [c])) = leftOpen before :=
      min_eq_left (leftOpen_le_concat before (opens.ne_close begins))
    exact ⟨_, _, h.cons.push (Line.fits_cons (by rw [least]) head)⟩
  · exact ⟨_, _, h.cons.push (Line.fits_cons rfl head)⟩
  · exact ⟨_, _, h.cons⟩

end Cut

/-- What is written for the rest of a text, with the break in front of it, can be cut in lines. -/
theorem exists_cut {s : State} {before rest out : List Char} (after : s.After before)
    (inside : before.getLast? = some '(' → s.opened ≠ 0) (noSpace : ' ' ∉ before ++ rest)
    (done : layoutFrom s rest = .ok out) :
    ∃ head tail, Cut before rest (breakPlacesFrom before rest) (lineOpened before ++ out) head
      tail := by
  -- The break behind an opening parenthesis is taken together with the character after it, so that
  -- all breaks at one place are seen at once.
  induction rest generalizing s before out with
  | nil =>
    obtain ⟨closed, rfl⟩ := layoutFrom_nil_eq_ok done
    have none : ¬ OpensLevel before := fun opens => inside opens.1 closed
    refine ⟨[], [], ?_, ?_, ?_, ?_⟩
    · rfl
    · simp [placesFrom, breakPlacesFrom, breaks, BeginsLine, none]
    · simp [lineOpened, none]
    · simp
  | cons c rest ih =>
    obtain ⟨s', written, more, reads, read, rfl⟩ := layoutFrom_cons_eq_ok done
    have inside' : (before ++ [c]).getLast? = some '(' → s'.opened ≠ 0 := by
      simpa using reads.opened_ne_zero
    obtain ⟨head, tail, cut⟩ := ih (after.of_reads reads) inside' (by simpa using noSpace) read
    simp only [List.mem_append, List.mem_cons, not_or] at noSpace
    rw [breakPlacesFrom_cons, reads.written_eq after noSpace.1 (Ne.symm noSpace.2.1)]
    simpa using cut.exists_cons

theorem intercalate_chars (first : Line) (tail : List Line) :
    ['\n'].intercalate ((first :: tail).map Line.chars) =
      first.chars ++ tail.flatMap fun l => '\n' :: l.chars := by
  induction tail generalizing first with
  | nil => simp
  | cons l tail ih => simpa [List.intercalate_cons_cons] using ih l

theorem not_beginsLine_nil {next : Option Char} (h : next ≠ some ')') :
    ¬ BeginsLine [] next := by
  rintro (⟨_, even, _⟩ | ⟨closes, _⟩)
  · exact absurd even (by decide)
  · exact h closes

/-- A layout can be cut in lines, of which the first one begins with the first character. -/
theorem exists_cut_of_layout {text out : String} {c : Char} {rest : List Char}
    (done : layout text = .ok out) (noSpace : ' ' ∉ text.toList) (ht : text.toList = c :: rest) :
    ∃ head tail, Cut [] (c :: rest) (breakPlacesFrom [] (c :: rest)) out.toList (c :: head)
      tail := by
  have stays : ¬ BeginsLine [] (some c) :=
    not_beginsLine_nil (by simpa [ht] using head?_ne_of_layout done)
  have chars := layout_eq_ok_iff.1 done
  rw [ht] at chars noSpace
  obtain ⟨s, written, more, reads, read, out_eq⟩ := layoutFrom_cons_eq_ok chars
  have after := State.after_start.of_reads reads
  obtain ⟨head, tail, cut⟩ := exists_cut after (by simpa using reads.opened_ne_zero) noSpace read
  have first : written = c :: lineOpened [c] := by
    have hc : c ≠ ' ' := by
      rintro rfl
      exact noSpace List.mem_cons_self
    have here := reads.written_eq State.after_start List.not_mem_nil hc
    simpa [lineBegun, stays] using here
  have none : breaks [] (some c) = 0 := by simp [breaks, OpensLevel, stays]
  refine ⟨head, tail, ?_⟩
  rw [breakPlacesFrom_cons, none, out_eq, first]
  exact cut.cons

/-- A text without spaces is laid out in lines. Each of them is a piece of the text, indented by the
levels that are open before and behind its first character. Lines end exactly behind the
parentheses that open a level and in front of those that begin a line, and where both is the case a
line without text is left. -/
theorem exists_laidOut {text out : String} (done : layout text = .ok out)
    (noSpace : ' ' ∉ text.toList) (oneLine : '\n' ∉ text.toList) :
    ∃ lines, LaidOut text.toList out.toList lines := by
  cases ht : text.toList with
  | nil =>
    have chars := layout_eq_ok_iff.1 done
    rw [ht] at chars
    exact ⟨[], (layoutFrom_nil_eq_ok chars).2, rfl, by simp, rfl, by simp⟩
  | cons c rest =>
    obtain ⟨head, tail, cut⟩ := exists_cut_of_layout done noSpace ht
    have whole : pieces (⟨0, c :: head⟩ :: tail) = c :: rest := by simp [← cut.pieces_eq, pieces]
    refine ⟨⟨0, c :: head⟩ :: tail, ?_, whole, ?_, ?_, ?_⟩
    · rw [intercalate_chars, ← cut.out_eq]
      simp [Line.chars]
    · intro l hl mem
      have inText : '\n' ∈ pieces (⟨0, c :: head⟩ :: tail) := List.mem_flatMap_of_mem hl mem
      exact oneLine (ht ▸ whole ▸ inText)
    · exact cut.places_eq.trans (breakPlacesFrom_nil _)
    · intro front l back split
      rcases List.cons_eq_append_iff.1 split with ⟨rfl, first⟩ | ⟨front, rfl, later⟩
      · obtain ⟨rfl, rfl⟩ := List.cons.inj first
        exact Line.fits_cons (by simp [leftOpen, pieces]) head
      · simpa [pieces] using cut.fits front l back later

/-- A level without text, one that begins on a line of its own, and a doubled parenthesis. -/
theorem exists_laidOut_emptyLevel :
    layout "(x()(y))((é))" = .ok "(x\n(\n  \n)\n(\n  y\n))((\n  é\n))" ∧
    ' ' ∉ "(x()(y))((é))".toList ∧ '\n' ∉ "(x()(y))((é))".toList ∧
    ∃ lines, LaidOut "(x()(y))((é))".toList
      "(x\n(\n  \n)\n(\n  y\n))((\n  é\n))".toList lines := by
  have done : layout "(x()(y))((é))" =
      .ok "(x\n(\n  \n)\n(\n  y\n))((\n  é\n))" := rfl
  have noSpace : ' ' ∉ "(x()(y))((é))".toList := by decide
  have oneLine : '\n' ∉ "(x()(y))((é))".toList := by decide
  exact ⟨done, noSpace, oneLine, exists_laidOut done noSpace oneLine⟩

/-- Two of the breaks are at the same place, between the parentheses of the empty level. -/
example : (breakPlaces "(x()(y))".toList).map String.ofList =
    ["(x", "(x(", "(x(", "(x()", "(x()(", "(x()(y"] := by decide

end TreeListing.Bracket
