import TreeListing.Toml.Quoted
import TreeListing.Toml.Scalar
import TreeListing.Toml.Table

/-!
# Reading TOML documents

A document is read statement by statement, and its tables are built from the statements. Arrays and
inline tables are nested up to a limit, by which the reader of values recurs.
-/

namespace TreeListing.Toml

def simpleKey? : Reader String
  | '"' :: rest => (basic rest).map fun (key, rest) => (String.ofList key, rest)
  | '\'' :: rest => (literal rest).map fun (key, rest) => (String.ofList key, rest)
  | cs =>
    match cs.takeWhile isBare with
    | [] => none
    | key => some (String.ofList key, cs.dropWhile isBare)

def spacedKey? (cs : List Char) : Option (String × List Char) :=
  (simpleKey? (skipSpaces cs)).map fun (key, rest) => (key, skipSpaces rest)

/-- The number of levels that keys and values stay below. -/
def levelLimit : Nat := 80

/-- The keys of a dotted key: those on the way, and the last one. -/
def dottedKey? (cs : List Char) : Option ((List String × String) × List Char) :=
  match sepBy spacedKey? '.' cs with
  | none => none
  | some (keys, rest) =>
    match keys.getLast? with
    | none => none
    | some key => if keys.length < levelLimit then some ((keys.dropLast, key), rest) else none

def pair? (value : Reader Value) (cs : List Char) :
    Option ((List String × String × Value) × List Char) :=
  match dottedKey? cs with
  | some ((path, key), '=' :: rest) =>
    (value (skipSpaces rest)).map fun (v, rest) => ((path, key, v), rest)
  | _ => none

def arrayItems (value : Reader Value) (cs : List Char) : Option (List Value × List Char) :=
  match skipLines cs with
  | ']' :: rest => some ([], rest)
  | inside =>
    match value inside with
    | none => none
    | some (v, rest) =>
      match skipLines rest with
      | ']' :: rest => some ([v], rest)
      | ',' :: rest =>
        if rest.length < cs.length then
          (arrayItems value rest).map fun (vs, rest) => (v :: vs, rest)
        else none
      | _ => none
termination_by cs.length

def inlineMembers (value : Reader Value) (cs : List Char) :
    Option (List (String × Value) × List Char) :=
  match skipSpaces cs with
  | '\x7d' :: rest => some ([], rest)
  | inside =>
    let spacedPair (cs : List Char) := (pair? value cs).map fun (p, rest) => (p, skipSpaces rest)
    match sepBy spacedPair ',' inside with
    | some (pairs, '\x7d' :: rest) => do
      let members ← pairs.foldlM
        (fun members (path, key, v) => Members.put path key v .header members) []
      return (membersValue members, rest)
    | _ => none

/-- A value in which arrays and inline tables are nested up to a depth. -/
def value : Nat → Reader Value
  | 0, cs => single cs
  | depth + 1, cs =>
    match cs with
    | '[' :: rest => (arrayItems (value depth) rest).map fun (items, rest) => (.list items, rest)
    | '\x7b' :: rest =>
      (inlineMembers (value depth) rest).map fun (members, rest) => (.object members, rest)
    | cs => single cs
where
  /-- A string, or a value that is one word. -/
  single (cs : List Char) : Option (Value × List Char) :=
    match quoted? cs with
    | some (text, rest) => some (.string (String.ofList text), rest)
    | none => scalar? cs

def statement? : Reader Statement
  | '[' :: '[' :: rest =>
    match dottedKey? rest with
    | some ((path, key), ']' :: ']' :: rest) => some (.nextTable path key, rest)
    | _ => none
  | '[' :: rest =>
    match dottedKey? rest with
    | some ((path, key), ']' :: rest) => some (.table path key, rest)
    | _ => none
  | cs =>
    (pair? (value (levelLimit - 1)) cs).map fun ((path, key, v), rest) => (.pair path key v, rest)

def statements? (cs : List Char) : Option (List Statement) :=
  match skipSpaces cs with
  | [] => some []
  | c :: inside =>
    if c = '\n' ∨ c = '\r' ∨ c = '#' then
      match lineEnd? (c :: inside) with
      | none => none
      | some rest => if rest.length < cs.length then statements? rest else none
    else
      match statement? (c :: inside) with
      | none => none
      | some (s, rest) =>
        match lineEnd? rest with
        | none => none
        | some rest =>
          if rest.length < cs.length then (statements? rest).map (s :: ·) else none
termination_by cs.length

/-- The text without the mark that may stand at its front. -/
def dropMark : List Char → List Char
  | '\ufeff' :: rest => rest
  | cs => cs

def read (text : String) : Option Value := do
  let statements ← statements? (dropMark text.toList)
  let draft ← statements.foldlM Draft.apply .empty
  return .object (membersValue draft.root)

end TreeListing.Toml
