import TreeListing.Bracket
import TreeListing.Tree.Node

/-!
# Trees as s-expressions

A node is written as its kind and its named children in parentheses, a child in a field after the
field's name. The indented form is the bracket layout, in which quoted runs are copied as text. A
run is opened by a double quote and closed by the next one that no backslash escapes; a run that is
never closed reaches to the end. Inside runs, parentheses and spaces are text, so before the layout,
which would act on them, they are replaced by stand-ins from the private-use area.
-/

namespace TreeListing

namespace Node

mutual
def sexp : Node → String
  | mk kind _ _ _ children => "(" ++ kind ++ sexpAll children ++ ")"

/-- The named ones of some children, each after a space. -/
def sexpAll : List (Option String × Node) → String
  | [] => ""
  | (field, node) :: rest =>
    (if node.named then " " ++ field.elim "" (· ++ ": ") ++ node.sexp else "") ++ sexpAll rest
end

end Node

namespace Sexp

inductive Region where
  | outside
  | inside
  /-- Inside, right after a backslash that escapes the next character. -/
  | escaping
  deriving DecidableEq, Repr

namespace Region

def next : Region → Char → Region
  | outside, c => if c = '"' then inside else outside
  | inside, c => if c = '\\' then escaping else if c = '"' then outside else inside
  | escaping, _ => inside

end Region

def standIn (c : Char) : Char :=
  match c with
  | '(' => '\ue000'
  | ')' => '\ue001'
  | ' ' => '\ue002'
  | c => c

def restored (c : Char) : Char :=
  match c with
  | '\ue000' => '('
  | '\ue001' => ')'
  | '\ue002' => ' '
  | c => c

def protectFrom (region : Region) : List Char → List Char
  | [] => []
  | c :: rest =>
    (if region = .outside then c else standIn c) :: protectFrom (region.next c) rest

/-- Stand-ins for the parentheses and spaces inside runs. -/
def protect (text : String) : String :=
  String.ofList (protectFrom .outside text.toList)

def restore (text : String) : String :=
  String.ofList (text.toList.map restored)

@[simp] theorem restored_standIn (c : Char) : restored (standIn c) = restored c := by
  unfold standIn
  split <;> rfl

def layout (text : String) : Except Error String :=
  (Bracket.layout (protect text)).map restore

end Sexp

end TreeListing
