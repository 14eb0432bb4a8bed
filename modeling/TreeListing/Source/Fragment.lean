import TreeListing.Source
import TreeListing.Source.Json

/-!
# Stand-ins for grammars

The grammars of the languages and their parser come from elsewhere. What stands for them here
answers for a fragment of the source texts only, so that commands can be run: JSON text without
errors, and blank text in the other languages. For any other text it gives no tree, where a parser
gives one with nodes for errors and for what is missing. No general fact is proved from it.
-/

namespace TreeListing.Source.Fragment

def rootKind : Language → String
  | .python => "module"
  | .javaScript | .typeScript | .tsx | .java | .ruby | .php | .bash => "program"
  | .go | .rust => "source_file"
  | .c | .cpp => "translation_unit"
  | .cSharp | .scala => "compilation_unit"
  | .json => "document"
  | .lua => "chunk"

/-- The version of the tables that a grammar was generated as. -/
def version : Language → Nat
  | .cSharp => 15
  | _ => 14

def oldestVersion : Nat := 13

def newestVersion : Nat := 14

def refusal? (l : Language) : Option String :=
  if oldestVersion ≤ version l ∧ version l ≤ newestVersion then none
  else some ("Incompatible language version " ++ toString (version l) ++ ". Expected minimum " ++
    toString oldestVersion ++ ", maximum " ++ toString newestVersion)

/-- The tree of a text without tokens: a node at its end. -/
def blankTree? (l : Language) (text : String) : Option Node :=
  let stop := Position.advance ⟨0, 0⟩ text.toList
  if text.toList.all Json.isBlank then some (.leaf (rootKind l) stop stop) else none

def grammar (l : Language) : Grammar where
  refusal? := refusal? l
  tree? := if l = .json then Json.document? else blankTree? l

def read : Reader := .ofGrammars grammar

end TreeListing.Source.Fragment
