import TreeListing.Tree.Node

/-!
# Tokens of JSON source text

A token is a punctuation mark, a number, a word or a comment; between the quotes of a string it is
an escape or a run of content. Each token is recognised by its first character, which decides how
far it reaches. Blanks between tokens are passed over. In a string only a line break, which cannot
be content, begins such a gap; what follows the gap is a comment or the closing quote. Columns
count bytes.
-/

namespace TreeListing.Source.Json

inductive TokenKind where
  | mark
  | number
  | word
  | comment
  | content
  | escape
  deriving DecidableEq, Repr

/-- A piece of the text with the positions where it starts and ends. -/
structure Token where
  kind : TokenKind
  start : Position
  stop : Position
  text : List Char
  deriving DecidableEq, Repr

def Token.node (t : Token) : Node :=
  match t.kind with
  | .mark => .token (String.ofList t.text) t.start t.stop
  | .word => .leaf (String.ofList t.text) t.start t.stop
  | .number => .leaf "number" t.start t.stop
  | .comment => .leaf "comment" t.start t.stop
  | .content => .leaf "string_content" t.start t.stop
  | .escape => .leaf "escape_sequence" t.start t.stop

/-- Whether a character is a space or one of the controls from the tab to the carriage return. -/
def isBlank (c : Char) : Bool := c = ' ' || ('\t' ≤ c && c ≤ '\r')

def isDigit (c : Char) : Bool := '0' ≤ c && c ≤ '9'

def isContent (c : Char) : Bool := c ≠ '"' && c ≠ '\\' && c ≠ '\n'

def isEscape (c : Char) : Bool := ['"', '\\', '/', 'b', 'f', 'n', 'r', 't', 'u'].contains c

/-- The length of the rest of a block comment, its end included. -/
def blockLength? : List Char → Option Nat
  | [] => none
  | '*' :: '/' :: _ => some 2
  | _ :: rest => (blockLength? rest).map (· + 1)

def commentLength? : List Char → Option Nat
  | '/' :: line => some (1 + (line.takeWhile (· ≠ '\n')).length)
  | '*' :: block => (blockLength? block).map (· + 1)
  | _ => none

def exponentLength : List Char → Nat
  | [] => 0
  | c :: rest =>
    let sign := if rest.head? = some '-' then 1 else 0
    let digits := ((rest.drop sign).takeWhile isDigit).length
    if (c = 'e' ∨ c = 'E') ∧ 0 < digits then 1 + sign + digits else 0

def fractionLength (cs : List Char) : Nat :=
  let point := if cs.head? = some '.' then 1 + ((cs.drop 1).takeWhile isDigit).length else 0
  point + exponentLength (cs.drop point)

def unsignedLength? : List Char → Option Nat
  | [] => none
  | c :: rest =>
    if c = '0' then some (1 + fractionLength rest)
    else if isDigit c then
      let digits := (rest.takeWhile isDigit).length
      some (1 + digits + fractionLength (rest.drop digits))
    else none

inductive Place where
  | outside
  /-- In a string, right behind another of its tokens. -/
  | inside
  /-- In a string, behind a line break. -/
  | gap
  deriving DecidableEq, Repr

namespace Place

/-- The place behind a character that is passed over, if this character is. -/
def pass? (place : Place) (c : Char) : Option Place :=
  match place with
  | outside => if isBlank c then some outside else none
  | inside => if c = '\n' then some gap else none
  | gap => if isBlank c then some gap else none

/-- The place behind a token, by its first character: a quote begins a string or ends it. -/
def after (place : Place) (c : Char) : Place :=
  match place with
  | outside => if c = '"' then inside else outside
  | inside | gap => if c = '"' then outside else inside

/-- The kind of the token with a first character, and how far beyond it the token reaches. The
character is one that is not passed over: content does not begin with a line break. -/
def token? (place : Place) (c : Char) (rest : List Char) : Option (TokenKind × Nat) :=
  let word (w : String) : Option (TokenKind × Nat) :=
    if w.toList.isPrefixOf rest then some (.word, w.length) else none
  match place, c with
  | _, '"' => some (.mark, 0)
  | inside, '\\' => if rest.head?.any isEscape then some (.escape, 1) else none
  | inside, _ => some (.content, (rest.takeWhile isContent).length)
  | _, '/' => (commentLength? rest).map (.comment, ·)
  | gap, _ => none
  | outside, '\x7b' | outside, '\x7d' | outside, '[' | outside, ']' => some (.mark, 0)
  | outside, ',' | outside, ':' => some (.mark, 0)
  | outside, 't' => word "rue"
  | outside, 'f' => word "alse"
  | outside, 'n' => word "ull"
  | outside, '-' => (unsignedLength? rest).map (.number, ·)
  | outside, c => (unsignedLength? (c :: rest)).map fun length => (.number, length - 1)

end Place

def tokens? (place : Place) (p : Position) : List Char → Option (List Token)
  | [] => some []
  | c :: rest =>
    match place.pass? c with
    | some next => tokens? next (p.advance [c]) rest
    | none =>
      match place.token? c rest with
      | none => none
      | some (kind, n) =>
        let text := c :: rest.take n
        let stop := p.advance text
        (tokens? (place.after c) stop (rest.drop n)).map (⟨kind, p, stop, text⟩ :: ·)
termination_by cs => cs.length
decreasing_by all_goals (simp only [List.length_drop, List.length_cons]; omega)

end TreeListing.Source.Json
