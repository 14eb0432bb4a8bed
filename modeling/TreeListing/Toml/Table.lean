import TreeListing.Value

/-!
# Tables of a TOML document

A document is a sequence of statements, each of which adds a member to a table or opens a table.
Nothing can be defined twice: a table that a header has opened is closed to other headers and to
dotted keys, and a table that dotted keys have made grows by dotted keys only.
-/

namespace TreeListing.Toml

inductive Origin where
  | header
  /-- On the way to a table below it that has a header. -/
  | path
  | dotted
  deriving DecidableEq, Repr

/-- A member of a table that is being built. -/
inductive Item where
  | value (v : Value)
  | table (origin : Origin) (members : List (String × Item))
  /-- An array of tables, of which the last one is still open. -/
  | tables (earlier : List (List (String × Item))) (last : List (String × Item))

abbrev Members := List (String × Item)

namespace Members

def replace (key : String) (item : Item) (members : Members) : Members :=
  members.map fun m => if m.1 = key then (key, item) else m

/-- Changes the table that a path of keys leads to; a missing table on the way is made. -/
def within (made : Origin) (change : Origin → Members → Option Members) :
    List String → Origin → Members → Option Members
  | [], origin, members => change origin members
  | key :: path, _, members =>
    match members.lookup key with
    | none => (within made change path made []).map fun below =>
        members ++ [(key, .table made below)]
    | some (.table origin below) =>
      if made = .dotted ∧ origin = .header then none
      else (within made change path origin below).map fun below =>
        replace key (.table origin below) members
    | some (.tables earlier last) => (within made change path .header last).map fun last =>
        replace key (.tables earlier last) members
    | some (.value _) => none

def add (key : String) (v : Value) (members : Members) : Option Members :=
  if (members.lookup key).isSome then none else some (members ++ [(key, .value v)])

def put (path : List String) (key : String) (v : Value) (origin : Origin) (members : Members) :
    Option Members :=
  let change (origin : Origin) (members : Members) : Option Members :=
    if (origin = .dotted) = (path = []) then none else add key v members
  within .dotted change path origin members

def openTable (key : String) (members : Members) : Option Members :=
  match members.lookup key with
  | none => some (members ++ [(key, .table .header [])])
  | some (.table .path below) => some (replace key (.table .header below) members)
  | some _ => none

def openNext (key : String) (members : Members) : Option Members :=
  match members.lookup key with
  | none => some (members ++ [(key, .tables [] [])])
  | some (.tables earlier last) => some (replace key (.tables (earlier ++ [last]) []) members)
  | some _ => none

end Members

/-- A statement of a document; a path of keys is given as the keys on the way and the last one. -/
inductive Statement where
  | pair (path : List String) (key : String) (v : Value)
  | table (path : List String) (key : String)
  /-- One more table of an array of tables. -/
  | nextTable (path : List String) (key : String)

structure Draft where
  root : Members
  header : List String

namespace Draft

def empty : Draft := ⟨[], []⟩

def apply (d : Draft) : Statement → Option Draft
  | .pair path key v => do
    let root ← d.root.within .path (Members.put path key v) d.header .header
    return ⟨root, d.header⟩
  | .table path key => do
    let root ← d.root.within .path (fun _ => Members.openTable key) path .header
    return ⟨root, path ++ [key]⟩
  | .nextTable path key => do
    let root ← d.root.within .path (fun _ => Members.openNext key) path .header
    return ⟨root, path ++ [key]⟩

end Draft

mutual
def Item.toValue : Item → Value
  | .value v => v
  | .table _ members => .object (membersValue members)
  | .tables earlier last => .list (tableValues earlier ++ [.object (membersValue last)])

def membersValue : List (String × Item) → List (String × Value)
  | [] => []
  | (key, item) :: rest => (key, item.toValue) :: membersValue rest

def tableValues : List (List (String × Item)) → List Value
  | [] => []
  | members :: rest => .object (membersValue members) :: tableValues rest
end

end TreeListing.Toml
