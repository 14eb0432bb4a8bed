/-!
# How a tree is listed

The choices that a listing leaves open, and the combinations of them that have a name.
-/

namespace TreeListing

inductive Shape where
  | text
  | records
  deriving DecidableEq, Inhabited, Repr

inductive Traversal where
  | recursive
  | iterative
  deriving DecidableEq, Inhabited, Repr

structure Options where
  shape : Shape := .text
  /-- Whether a node in a field is annotated with the field's name. -/
  showFields : Bool := false
  /-- Whether anonymous nodes are left out, with all that is below them. -/
  hideUnnamed : Bool := true
  traversal : Traversal := .recursive
  indent : String := ""
  deriving DecidableEq, Inhabited, Repr

namespace Options

def plainText : Options := {}

def plainRecords : Options := { shape := .records }

def fieldAware (hideUnnamed : Bool) : Options :=
  { shape := .records, showFields := true, hideUnnamed }

def namedFieldAware : Options := fieldAware true

def withIndent (o : Options) (indent : String) : Options := { o with indent }

def withTraversal (o : Options) (traversal : Traversal) : Options := { o with traversal }

def shownField (o : Options) (field : Option String) : Option String :=
  if o.showFields then field else none

@[simp] theorem shownField_eq_some_iff {o : Options} {field : Option String} {name : String} :
    o.shownField field = some name ↔ o.showFields = true ∧ field = some name := by
  cases h : o.showFields <;> simp [shownField, h]

end Options

end TreeListing
