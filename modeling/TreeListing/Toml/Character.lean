/-!
# Characters of a TOML document

Readers take a text from its front and leave the rest of it. Spaces and tabs separate; a line ends
with a line feed, before which a carriage return may stand; control characters other than the tab
stand nowhere.
-/

namespace TreeListing.Toml

/-- Reads from the front of a text and leaves the rest. -/
abbrev Reader (α : Type) := List Char → Option (α × List Char)

def isSpace (c : Char) : Bool := c = ' ' || c = '\t'

def isDigit (c : Char) : Bool := '0' ≤ c && c ≤ '9'

/-- Whether a key with this character needs no quotes. -/
def isBare (c : Char) : Bool :=
  ('A' ≤ c && c ≤ 'Z') || ('a' ≤ c && c ≤ 'z') || isDigit c || c = '_' || c = '-'

/-- Whether a character may stand in a comment or a string. -/
def isText (c : Char) : Bool := c = '\t' || (0x20 ≤ c.toNat && c.toNat ≠ 0x7F)

def skipSpaces (cs : List Char) : List Char := cs.dropWhile isSpace

def newline? : List Char → Option (List Char)
  | '\n' :: rest => some rest
  | '\r' :: '\n' :: rest => some rest
  | _ => none

def skipComment : List Char → List Char
  | '#' :: rest => rest.dropWhile isText
  | cs => cs

/-- What follows a line of which only spaces and a comment are left. The last line may have no
end. -/
def lineEnd? (cs : List Char) : Option (List Char) :=
  match skipComment (skipSpaces cs) with
  | [] => some []
  | rest => newline? rest

def skipLines (cs : List Char) : List Char :=
  match newline? (skipComment (skipSpaces cs)) with
  | none => skipSpaces cs
  | some rest => if rest.length < cs.length then skipLines rest else cs
termination_by cs.length

def skipBlankLines : List Char → List Char
  | '\r' :: '\n' :: rest => skipBlankLines rest
  | c :: rest => if isSpace c || c = '\n' then skipBlankLines rest else c :: rest
  | [] => []

def sepBy (item : Reader α) (separator : Char) (cs : List Char) : Option (List α × List Char) :=
  match item cs with
  | none => none
  | some (a, []) => some ([a], [])
  | some (a, c :: rest) =>
    if c = separator then
      if rest.length < cs.length then
        (sepBy item separator rest).map fun (as, rest) => (a :: as, rest)
      else none
    else some ([a], c :: rest)
termination_by cs.length

end TreeListing.Toml
