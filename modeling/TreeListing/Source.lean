import TreeListing.GrammarCache
import TreeListing.Language
import TreeListing.Render

/-!
# Source text

A source text is read with the grammar of its language, which is kept in a cache under the number of
the language. Grammars, and the parser that works with them, are not part of the library: of a
grammar it is known only whether the parser takes it and what tree comes of a text.
-/

namespace TreeListing

structure Grammar where
  /-- Why the parser does not take the grammar, if it does not. -/
  refusal? : Option String
  /-- The description of the tree of a text, if the parser gives one. -/
  tree? : String → Option Node

def Grammar.read (g : Grammar) (l : Language) (text : String) : Except Error Node :=
  match g.refusal? with
  | some reason => .error (.grammar (l.name ++ ": " ++ reason))
  | none =>
    match g.tree? text with
    | some node => .ok node
    | none => .error (.parse (l.name ++ " parser returned no tree"))

namespace Source

/-- What gives the description of the syntax tree of a text in a language, or why there is none. -/
abbrev Reader := Language → String → Except Error Node

namespace Reader

def ofGrammars (grammars : Language → Grammar) : Reader := fun l => (grammars l).read l

variable (read : Reader) (l : Language) (text : String)

def parse : Except Error Tree := (read l text).map Tree.ofNode

def records (o : Options) : Except Error (List Record) :=
  (read.parse l text).map fun tree => tree.records o 0

end Reader

/-- What the parser makes of a text with the grammar that a call on the cache comes to. -/
def readWith (l : Language) (text : String) :
    GrammarCache.Outcome Grammar → GrammarCache.Outcome (Except Error Node)
  | .got grammar => .got (grammar.read l text)
  | .refused e => .got (.error e)
  | .brokeOff => .brokeOff

/-- Reads a text with the grammar that a cache gives, which is loaded if the cache has none yet. -/
def readCached (machine : Machine) (grammars : Language → Grammar) (l : Language) (text : String) :
    StateM (GrammarCache Grammar) (GrammarCache.Outcome (Except Error Node)) := do
  let (outcome, cache) ← (← get).getOrLoad machine l.index fun _ => return grammars l
  set cache
  return readWith l text outcome

end Source

end TreeListing
