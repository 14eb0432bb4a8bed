import TreeListing.Position

/-!
# Descriptions of syntax trees

A node has a kind, a span, and children, each of which may occupy a named field. A node is
either named (it means something) or anonymous (punctuation, keywords).
-/

namespace TreeListing

inductive Node where
  | mk (kind : String) (start stop : Position) (named : Bool)
      (children : List (Option String × Node))
  deriving Inhabited, Repr

namespace Node

def kind : Node → String
  | mk kind _ _ _ _ => kind

def start : Node → Position
  | mk _ start _ _ _ => start

def stop : Node → Position
  | mk _ _ stop _ _ => stop

def named : Node → Bool
  | mk _ _ _ named _ => named

def children : Node → List (Option String × Node)
  | mk _ _ _ _ children => children

def leaf (kind : String) (start stop : Position) : Node :=
  mk kind start stop true []

/-- A node without children that is not named: its kind is its text. -/
def token (text : String) (start stop : Position) : Node :=
  mk text start stop false []

def anonymous : Node → Node
  | mk kind start stop _ children => mk kind start stop false children

def addChild (parent : Node) (field : Option String) (child : Node) : Node :=
  mk parent.kind parent.start parent.stop parent.named (parent.children ++ [(field, child)])

def withChild (parent child : Node) : Node := parent.addChild none child

def withField (parent : Node) (field : String) (child : Node) : Node :=
  parent.addChild (some field) child

mutual
def size : Node → Nat
  | mk _ _ _ _ children => sizeAll children + 1

def sizeAll : List (Option String × Node) → Nat
  | [] => 0
  | (_, node) :: rest => node.size + sizeAll rest
end

theorem size_pos (node : Node) : 0 < node.size := by
  cases node; simp [size]

@[simp] theorem sizeAll_append (a b : List (Option String × Node)) :
    sizeAll (a ++ b) = sizeAll a + sizeAll b := by
  induction a with
  | nil => simp [sizeAll]
  | cons c a ih => simp [sizeAll, ih, Nat.add_assoc]

@[simp] theorem size_addChild (node child : Node) (field : Option String) :
    (node.addChild field child).size = node.size + child.size := by
  cases node
  simp [addChild, children, size, sizeAll_append, sizeAll]
  omega

end Node

end TreeListing
