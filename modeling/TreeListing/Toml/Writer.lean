import TreeListing.Text
import TreeListing.Toml.Character

/-!
# Writing keys and strings of a TOML document

Of the forms in which a string can be written, the first one is taken in which it needs no escapes;
if there is none, it is written with escapes. A line break inside makes the string take more than
one line.
-/

namespace TreeListing.Toml

/-- What decides in which form a text can be written. -/
structure Traits where
  singleQuotes : Nat
  doubleQuotes : Nat
  backslash : Bool
  newline : Bool
  /-- Whether there are control characters other than tabs and line feeds. -/
  control : Bool
  deriving DecidableEq, Repr

/-- The longest row of a character, given the length of the row that is being read. -/
def longestRow (x : Char) (row : Nat) : List Char → Nat
  | [] => row
  | c :: rest =>
    if c = x then longestRow x (row + 1) rest else Nat.max row (longestRow x 0 rest)

def traits (cs : List Char) : Traits where
  singleQuotes := longestRow '\'' 0 cs
  doubleQuotes := longestRow '"' 0 cs
  backslash := cs.contains '\\'
  newline := cs.contains '\n'
  control := cs.any fun c => !isText c && c ≠ '\n'

def escaped (c : Char) : List Char :=
  match c with
  | '\x08' => ['\\', 'b']
  | '\t' => ['\\', 't']
  | '\n' => ['\\', 'n']
  | '\x0c' => ['\\', 'f']
  | '\r' => ['\\', 'r']
  | '"' => ['\\', '"']
  | '\\' => ['\\', '\\']
  | c =>
    let digit (n : Nat) : Char := (Text.hexDigit (n % 16)).toUpper
    let n := c.toNat
    ['\\', 'u', digit (n / 4096), digit (n / 256), digit (n / 16), digit n]

/-- Whether a character is escaped between single double quotes. -/
def needsEscape (c : Char) : Bool := !isText c || c = '\t' || c = '"' || c = '\\'

def writeBasic (cs : List Char) : List Char :=
  '"' :: cs.flatMap (fun c => if needsEscape c then escaped c else [c]) ++ ['"']

def writeLiteral (cs : List Char) : List Char :=
  '\'' :: cs ++ ['\'']

/-- The inside of triple double quotes: line feeds stay, and of a row of quotes every third one is
escaped. `row` is the length of the row of quotes just written. -/
def multilineInside (row : Nat) : List Char → List Char
  | [] => []
  | c :: rest =>
    if c = '"' then
      if row = 2 then escaped c ++ multilineInside 0 rest else c :: multilineInside (row + 1) rest
    else if c = '\n' then c :: multilineInside 0 rest
    else if needsEscape c then escaped c ++ multilineInside 0 rest
    else c :: multilineInside 0 rest

/-- Between triple quotes; a text with line breaks starts on a line of its own. -/
def writeMultiline (quote : Char) (newline : Bool) (inside : List Char) : List Char :=
  let quotes := [quote, quote, quote]
  quotes ++ (if newline then ['\n'] else []) ++ inside ++ quotes

def writeString (cs : List Char) : List Char :=
  let t := traits cs
  if !t.control && !t.backslash && t.doubleQuotes = 0 && !t.newline then writeBasic cs
  else if !t.control && t.singleQuotes = 0 && !t.newline then writeLiteral cs
  else if !t.control && !t.backslash && t.doubleQuotes ≤ 2 then
    writeMultiline '"' t.newline (multilineInside 0 cs)
  else if !t.control && t.singleQuotes ≤ 2 then writeMultiline '\'' t.newline cs
  else if t.newline then writeMultiline '"' true (multilineInside 0 cs)
  else writeBasic cs

def writeKey (cs : List Char) : List Char :=
  let t := traits cs
  let control := t.control || t.newline
  if !cs.isEmpty && cs.all isBare then cs
  else if !control && !t.backslash && t.doubleQuotes = 0 then writeBasic cs
  else if !control && t.singleQuotes = 0 then writeLiteral cs
  else writeBasic cs

end TreeListing.Toml
