import TreeListing.Source.Json.Token

/-!
# Trees of JSON source text

The tree keeps every token: punctuation as anonymous nodes, comments as named ones, each a child of
the construct that is being read where it stands. Reading goes token by token with a stack of the
constructs that are open, so that it ends with the text. It stands for a parser with the grammar of
JSON on text without errors; other text has no tree here.
-/

namespace TreeListing.Source.Json

/-- What may come next inside brackets. -/
inductive Stage where
  | first
  | separator
  | item
  deriving DecidableEq, Repr

/-- A construct that is open, and what it waits for. -/
inductive Construct where
  | document
  | array (stage : Stage)
  | object (stage : Stage)
  /-- A key, and whether the colon after it was read. -/
  | pair (colon : Bool)
  | string
  deriving DecidableEq, Repr

/-- An open construct with what was read of it, the last child first. -/
structure Frame where
  construct : Construct
  start : Position
  children : List (Option String × Node)

namespace Frame

def push (f : Frame) (construct : Construct) (field : Option String) (child : Node) : Frame :=
  ⟨construct, f.start, (field, child) :: f.children⟩

def close (f : Frame) (kind : String) (stop : Position) : Node :=
  .mk kind f.start stop true f.children.reverse

def closeWith (f : Frame) (kind : String) (t : Token) : Node :=
  (f.push f.construct none t.node).close kind t.stop

end Frame

/-- Puts a finished value where the innermost open construct waits for one. -/
def put? (value : Node) : List Frame → Option (List Frame)
  | [] => none
  | f :: rest =>
    match f.construct, rest with
    | .document, rest => some (f.push .document none value :: rest)
    | .array .separator, _ => none
    | .array _, rest => some (f.push (.array .separator) none value :: rest)
    | .object .separator, _ => none
    | .object _, rest =>
      if value.kind = "string" then
        some (⟨.pair false, value.start, [(some "key", value)]⟩ :: f :: rest)
      else none
    | .pair true, object :: rest =>
      let pair := (f.push (.pair true) (some "value") value).close "pair" value.stop
      some (object.push (.object .separator) none pair :: rest)
    | .pair _, _ => none
    | .string, _ => none

/-- Opens a construct with its first token. Whether it may stand there is settled when it is
finished and put into the construct around it. -/
def opened (construct : Construct) (t : Token) (frames : List Frame) : List Frame :=
  ⟨construct, t.start, [(none, t.node)]⟩ :: frames

def readMark? (t : Token) : List Frame → Option (List Frame)
  | [] => none
  | f :: rest =>
    match t.text, f.construct with
    | ['"'], .string => put? (f.closeWith "string" t) rest
    | ['"'], _ => some (opened .string t (f :: rest))
    | ['['], _ => some (opened (.array .first) t (f :: rest))
    | ['\x7b'], _ => some (opened (.object .first) t (f :: rest))
    | [']'], .array stage => if stage = .item then none else put? (f.closeWith "array" t) rest
    | ['\x7d'], .object stage =>
      if stage = .item then none else put? (f.closeWith "object" t) rest
    | [','], .array .separator => some (f.push (.array .item) none t.node :: rest)
    | [','], .object .separator => some (f.push (.object .item) none t.node :: rest)
    | [':'], .pair false => some (f.push (.pair true) none t.node :: rest)
    | _, _ => none

def read? (frames : List Frame) (t : Token) : Option (List Frame) :=
  match t.kind, frames with
  | .mark, frames => readMark? t frames
  | .number, frames | .word, frames => put? t.node frames
  | .comment, f :: rest | .content, f :: rest | .escape, f :: rest =>
    some (f.push f.construct none t.node :: rest)
  | _, [] => none

def afterByteOrderMark : List Char → Position × List Char
  | '\uFEFF' :: rest => (⟨0, 3⟩, rest)
  | cs => (⟨0, 0⟩, cs)

/-- The tree of a whole text. The document starts at its first value or comment and reaches to the
end of the text. -/
def document? (text : String) : Option Node := do
  let (p, cs) := afterByteOrderMark text.toList
  let stop := p.advance cs
  let tokens ← tokens? .outside p cs
  let start := (tokens.head?.map (·.start)).getD stop
  match ← tokens.foldlM read? [⟨.document, start, []⟩] with
  | [f] => return f.close "document" stop
  | _ => none

end TreeListing.Source.Json
