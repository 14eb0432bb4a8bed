import TreeListing.Error
import TreeListing.Text

/-!
# Layout of bracketed text

A doubled parenthesis stands for one level of nesting. While reading, the parentheses that are
open are counted: one that makes the count even opens a level and starts an indented line, one
that makes it odd is copied. Closing parentheses undo this. A space that no parenthesis follows
ends its line, and the next line starts with one space more than its level asks for.
-/

namespace TreeListing.Bracket

/-- What the layout remembers of the text read so far. -/
structure State where
  /-- Parentheses that are open. -/
  opened : Nat
  level : Nat
  previous : Option Char
  offset : Nat
  deriving DecidableEq, Repr

namespace State

def start : State := ⟨0, 0, none, 0⟩

/-- A parenthesis that opens a level stays on its line only after a parenthesis or a space. -/
def continuesLine (s : State) : Bool :=
  match s.previous with
  | none => true
  | some c => c = '(' || c = ' '

def newline (s : State) : List Char := '\n' :: Indent.levels s.level

def advance (s : State) (c : Char) (opened level : Nat) : State :=
  ⟨opened, level, some c, s.offset + c.utf8Size⟩

/-- Reads one character, given the one after it: the new state and the text written. -/
def step (s : State) (c : Char) (next : Option Char) : Except Error (State × List Char) :=
  if c = '(' then
    let opened := s.opened + 1
    if opened % 2 = 0 then
      let inner := s.advance c opened (s.level + 1)
      .ok (inner, (if s.continuesLine then [] else s.newline) ++ '(' :: inner.newline)
    else
      .ok (s.advance c opened s.level, ['('])
  else if c = ')' then
    if s.opened = 0 then
      .error (.unbalanced s.offset)
    else if s.opened % 2 = 0 then
      let outer := s.advance c (s.opened - 1) (s.level - 1)
      .ok (outer, outer.newline ++ [')'])
    else
      .ok (s.advance c (s.opened - 1) s.level, [')'])
  else if c = ' ' ∧ next ≠ some '(' ∧ next ≠ some ')' then
    .ok (s.advance c s.opened s.level, ' ' :: '\n' :: ' ' :: Indent.levels s.level)
  else
    .ok (s.advance c s.opened s.level, [c])

end State

/-- Lays out the rest of a text from a state; at the end nothing may be open. -/
def layoutFrom (s : State) : List Char → Except Error (List Char)
  | [] => if s.opened = 0 then .ok [] else .error (.unclosed s.opened)
  | c :: rest =>
    match s.step c rest.head? with
    | .error e => .error e
    | .ok (s, written) => (layoutFrom s rest).map (written ++ ·)

def layout (text : String) : Except Error String :=
  (layoutFrom .start text.toList).map String.ofList

end TreeListing.Bracket
