import TreeListing.Record
import TreeListing.Render.Options
import TreeListing.Tree.Node
import TreeListing.Value

/-!
# Nodes, records and options as structured values

Every structure is an object with a member per field, or a list of its fields in order. A node is
given by `kind`, `start`, `end`, `named` and `children`, of which the last two may be missing; each
child by `field`, which may be missing or `null`, and `node`. A record has all of its fields, and
options may leave out any of theirs. Members with other names are passed over.
-/

namespace TreeListing

open Value (Conventions)

namespace Position

def encode (p : Position) : Value :=
  .object [("row", .integer p.row), ("column", .integer p.column)]

def decode (v : Value) : Option Position := do
  let members ← v.structure? .strict ["row", "column"]
  let row ← Value.field? members "row" Value.natural?
  let column ← Value.field? members "column" Value.natural?
  return ⟨row, column⟩

end Position

namespace Node

/-- The fields of a node, in the order of the positional form. -/
def fieldNames : List String := ["kind", "start", "end", "named", "children"]

def slotFieldNames : List String := ["field", "node"]

mutual
def encode : Node → Value
  | mk kind start stop named children =>
    .object [("kind", .string kind), ("start", start.encode), ("end", stop.encode),
      ("named", .bool named), ("children", .list (encodeAll children))]

def encodeAll : List (Option String × Node) → List Value
  | [] => []
  | (field, node) :: rest =>
    .object [("field", field.elim .null .string), ("node", node.encode)] :: encodeAll rest
end

mutual
def decode (v : Value) : Option Node :=
  match _hv : v.structure? .strict fieldNames with
  | none => none
  | some members => do
    let kind ← Value.field? members "kind" Value.string?
    let start ← Value.field? members "start" Position.decode
    let stop ← Value.field? members "end" Position.decode
    let named ← Value.fieldOr? members "named" true Value.bool?
    match _hc : members.lookup "children" with
    | none => return mk kind start stop named []
    | some (.list items) =>
      let children ← items.attach.mapM fun item => decodeSlot item.1
      return mk kind start stop named children
    | some _ => none
termination_by sizeOf v
decreasing_by
  have inList := Value.sizeOf_lt_of_mem item.2
  have inNode := Value.sizeOf_lt_of_structure? _hv _hc
  omega

def decodeSlot (v : Value) : Option (Option String × Node) :=
  match _hv : v.structure? .strict slotFieldNames with
  | none => none
  | some members => do
    let field ← Value.fieldOr? members "field" none Value.optionalString?
    match _hn : members.lookup "node" with
    | none => none
    | some node => return (field, ← decode node)
termination_by sizeOf v
decreasing_by
  exact Value.sizeOf_lt_of_structure? _hv _hn
end

end Node

namespace Record

def fieldNames : List String :=
  ["id", "startPosition", "endPosition", "prefix", "name", "suffix"]

def encode (r : Record) : Value :=
  .object [("id", .integer r.id), ("startPosition", r.start.encode),
    ("endPosition", r.stop.encode), ("prefix", .string r.lead), ("name", .string r.name),
    ("suffix", .string r.suffix)]

def decode (v : Value) : Option Record := do
  let members ← v.structure? .strict fieldNames
  let id ← Value.field? members "id" Value.natural?
  let start ← Value.field? members "startPosition" Position.decode
  let stop ← Value.field? members "endPosition" Position.decode
  let lead ← Value.field? members "prefix" Value.string?
  let name ← Value.field? members "name" Value.string?
  let suffix ← Value.field? members "suffix" Value.string?
  return ⟨id, start, stop, lead, name, suffix⟩

end Record

namespace Shape

def name : Shape → String
  | text => "text"
  | records => "records"

def all : List Shape := [text, records]

theorem mem_all (s : Shape) : s ∈ all := by cases s <;> decide

def decode (v : Value) : Option Shape :=
  v.choice? .strict (all.map fun s => (s.name, s))

end Shape

namespace Traversal

def name : Traversal → String
  | recursive => "recursive"
  | iterative => "iterative"

def all : List Traversal := [recursive, iterative]

theorem mem_all (t : Traversal) : t ∈ all := by cases t <;> decide

def decode (v : Value) : Option Traversal :=
  v.choice? .strict (all.map fun t => (t.name, t))

end Traversal

namespace Options

def fieldNames : List String :=
  ["shape", "show_field_names", "hide_unnamed", "traversal", "indent"]

def encode (o : Options) : Value :=
  .object [("shape", .string o.shape.name), ("show_field_names", .bool o.showFields),
    ("hide_unnamed", .bool o.hideUnnamed), ("traversal", .string o.traversal.name),
    ("indent", .string o.indent)]

def decode (v : Value) : Option Options := do
  let d : Options := {}
  let members ← v.structure? .strict fieldNames
  let shape ← Value.fieldOr? members "shape" d.shape Shape.decode
  let showFields ← Value.fieldOr? members "show_field_names" d.showFields Value.bool?
  let hideUnnamed ← Value.fieldOr? members "hide_unnamed" d.hideUnnamed Value.bool?
  let traversal ← Value.fieldOr? members "traversal" d.traversal Traversal.decode
  let indent ← Value.fieldOr? members "indent" d.indent Value.string?
  return { shape, showFields, hideUnnamed, traversal, indent }

end Options

end TreeListing
