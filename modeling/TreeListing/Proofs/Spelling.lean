import TreeListing.Codec
import TreeListing.Proofs.Lookup

/-!
# One tree, many values

The description of a tree can be written in many ways: with the members of each structure in any
order and among others, with defaults left out, or with the fields of a structure as a list; and
each node, each position and each child's place is free to be written in its own way. All of these
values are decoded to the same tree.
-/

namespace TreeListing

namespace Value

/-- What can be written for a structure of which some fields are given, in the order in which they
are declared. -/
inductive Structured (fields : List String) (given : List (String × Value)) : Value → Prop
  /-- The fields in any order, among members that are no fields. -/
  | object {members : List (String × Value)} (others : List (String × Value)) :
      members.Perm (given ++ others) → (∀ other ∈ others, other.1 ∉ fields) →
      Structured fields given (object members)
  /-- The values of the first fields. -/
  | list : given.map Prod.fst <+: fields → Structured fields given (list (given.map Prod.snd))

/-- What can be written of a field that may be left out in one case. -/
inductive Optional (name : String) (value : Value) (omissible : Prop) :
    List (String × Value) → Prop
  | given : Optional name value omissible [(name, value)]
  | omitted : omissible → Optional name value omissible []

theorem Optional.lookup_self {name : String} {value : Value} {omissible : Prop}
    {part : List (String × Value)} (h : Optional name value omissible part) :
    part.lookup name = some value ∨ omissible ∧ part.lookup name = none := by
  cases h with
  | given => exact .inl List.lookup_cons_self
  | omitted allowed => exact .inr ⟨allowed, rfl⟩

theorem Optional.lookup_of_ne {name other : String} {value : Value} {omissible : Prop}
    {part : List (String × Value)} (h : Optional name value omissible part) (ne : other ≠ name) :
    part.lookup other = none := by
  cases h with
  | given => rw [List.lookup_cons, beq_false_of_ne ne, List.lookup_nil]
  | omitted _ => rfl

variable {fields : List String} {given : List (String × Value)} {v : Value}

theorem zip_map_snd_of_prefix (names : given.map Prod.fst <+: fields) :
    fields.zip (given.map Prod.snd) = given := by
  obtain ⟨rest, rfl⟩ := names
  induction given with
  | nil => simp
  | cons field given ih => simpa using ih

theorem Structured.exists_members (h : Structured fields given v)
    (distinct : (given.map Prod.fst).Nodup) :
    ∃ members, v.structure? .strict fields = some members ∧
      ∀ name ∈ fields, members.lookup name = given.lookup name := by
  cases h with
  | @object members others perm foreign =>
    refine ⟨members, rfl, fun name field => ?_⟩
    -- members that are no fields may be given twice, so the names as a whole are not distinct
    have absent : name ∉ others.map Prod.fst := by
      intro mem
      obtain ⟨other, ho, rfl⟩ := List.mem_map.1 mem
      exact foreign other ho field
    have agrees : Agrees (given ++ others) name := by
      intro v w hv hw
      have inside {u : Value} (hu : (name, u) ∈ given ++ others) : (name, u) ∈ given :=
        (List.mem_append.1 hu).resolve_right fun mem => absent (List.mem_map_of_mem mem)
      exact Agrees.of_nodup distinct name v w (inside hv) (inside hw)
    rw [← lookup_eq_of_perm perm.symm agrees, List.lookup_append,
      lookup_eq_none_iff_not_mem.2 absent, Option.or_none]
  | list names =>
    refine ⟨given, ?_, fun name _ => rfl⟩
    have short : (given.map Prod.snd).length ≤ fields.length := by
      rw [List.length_map, ← List.length_map Prod.fst]
      exact names.length_le
    have accepted : (Conventions.strict.surplus ||
        decide ((given.map Prod.snd).length ≤ fields.length)) = true := decide_eq_true short
    rw [structure?, if_pos accepted, zip_map_snd_of_prefix names]

variable {α : Type} {members : List (String × Value)} {name : String}

theorem field?_of_lookup (found : members.lookup name = some v) (read : Value → Option α) :
    field? members name read = read v := by
  rw [field?, found, Option.bind_some]

theorem fieldOr?_of_lookup (found : members.lookup name = some v) (default : α)
    (read : Value → Option α) : fieldOr? members name default read = read v := by
  rw [fieldOr?, found]

theorem fieldOr?_of_lookup_eq_none (missing : members.lookup name = none) (default : α)
    (read : Value → Option α) : fieldOr? members name default read = some default := by
  rw [fieldOr?, missing]

end Value

open Value (Structured Optional)

namespace Position

def Fits (p : Position) : Prop := p.row < Value.wordLimit ∧ p.column < Value.wordLimit

def Spells (p : Position) (v : Value) : Prop :=
  Structured ["row", "column"] [("row", .integer p.row), ("column", .integer p.column)] v

theorem decode_of_spells {p : Position} {v : Value} (fits : p.Fits) (h : p.Spells v) :
    decode v = some p := by
  obtain ⟨members, structured, found⟩ := h.exists_members (by simp)
  have row : members.lookup "row" = some (.integer p.row) := by
    rw [found "row" (by decide)]
    simp
  have column : members.lookup "column" = some (.integer p.column) := by
    rw [found "column" (by decide)]
    simp [List.lookup_cons]
  rw [decode, structured]
  simp only [Option.bind_eq_bind, Option.bind_some, Value.field?_of_lookup row,
    Value.field?_of_lookup column, Value.natural?_integer fits.1, Value.natural?_integer fits.2,
    Option.pure_def]

theorem spells_encode (p : Position) : p.Spells p.encode :=
  .object [] (List.Perm.refl _) (by simp)

end Position

namespace Node

mutual
def Fits : Node → Prop
  | mk _ start stop _ children => start.Fits ∧ stop.Fits ∧ FitsAll children

def FitsAll : List (Option String × Node) → Prop
  | [] => True
  | (_, node) :: rest => node.Fits ∧ FitsAll rest
end

mutual
/-- What can be written for a node: everything below it is free to be written in its own way. -/
inductive Spells : Node → Value → Prop
  | mk {kind : String} {start stop : Position} {named : Bool}
      {children : List (Option String × Node)} {first last v : Value} {items : List Value}
      {flag below : List (String × Value)} :
      start.Spells first → stop.Spells last →
      Optional "named" (.bool named) (named = true) flag →
      SpellsAll children items → Optional "children" (.list items) (children = []) below →
      Structured fieldNames
        ([("kind", .string kind), ("start", first), ("end", last)] ++ flag ++ below) v →
      Spells (mk kind start stop named children) v

/-- What can be written for children, each in its place. -/
inductive SpellsAll : List (Option String × Node) → List Value → Prop
  | nil : SpellsAll [] []
  | cons {field : Option String} {node : Node} {rest : List (Option String × Node)}
      {written v : Value} {items : List Value} {role : List (String × Value)} :
      Spells node written → Optional "field" (field.elim .null .string) (field = none) role →
      Structured slotFieldNames (role ++ [("node", written)]) v → SpellsAll rest items →
      SpellsAll ((field, node) :: rest) (v :: items)
end

/-- The children of a node, from the member that they are written as. -/
def decodeChildren : Option Value → Option (List (Option String × Node))
  | none => some []
  | some (.list items) => items.mapM decodeSlot
  | some _ => none

theorem decode_eq {v : Value} {members : List (String × Value)}
    (h : v.structure? .strict fieldNames = some members) :
    decode v = do
      let kind ← Value.field? members "kind" Value.string?
      let start ← Value.field? members "start" Position.decode
      let stop ← Value.field? members "end" Position.decode
      let named ← Value.fieldOr? members "named" true Value.bool?
      let children ← decodeChildren (members.lookup "children")
      return mk kind start stop named children := by
  rw [decode]
  split
  · next missing =>
    rw [h] at missing
    cases missing
  · next members' found =>
    rw [h] at found
    cases found
    congr! 8 with kind start stop named
    split
    · next lookup =>
      rw [lookup]
      rfl
    · next items lookup =>
      rw [lookup]
      simp only [List.mapM_subtype, List.unattach_attach, decodeChildren]
    · next w no_list lookup =>
      rw [lookup]
      cases w with
      | list items => exact absurd rfl (no_list items)
      | _ => rfl

theorem decodeSlot_eq {v : Value} {members : List (String × Value)}
    (h : v.structure? .strict slotFieldNames = some members) :
    decodeSlot v = do
      let field ← Value.fieldOr? members "field" none Value.optionalString?
      let node ← (members.lookup "node").bind decode
      return (field, node) := by
  rw [decodeSlot]
  split
  · next missing =>
    rw [h] at missing
    cases missing
  · next members' found =>
    rw [h] at found
    cases found
    congr! 2 with field
    split
    · next lookup =>
      rw [lookup]
      rfl
    · next node lookup =>
      rw [lookup]
      rfl

/-- A node is decoded from whatever is written for it, if its positions and its children are. -/
theorem decode_of_structured {kind : String} {start stop : Position} {named : Bool}
    {children : List (Option String × Node)} {first last v : Value} {items : List Value}
    {flag below : List (String × Value)} (start_read : Position.decode first = some start)
    (stop_read : Position.decode last = some stop)
    (flag_part : Optional "named" (.bool named) (named = true) flag)
    (children_read : items.mapM decodeSlot = some children)
    (below_part : Optional "children" (.list items) (children = []) below)
    (whole : Structured fieldNames
      ([("kind", .string kind), ("start", first), ("end", last)] ++ flag ++ below) v) :
    decode v = some (mk kind start stop named children) := by
  have distinct : (([("kind", .string kind), ("start", first), ("end", last)] ++ flag ++
      below).map Prod.fst).Nodup := by
    cases flag_part <;> cases below_part <;> simp
  obtain ⟨members, structured, found⟩ := whole.exists_members distinct
  -- a field that was left out is looked up in vain, and then its default is taken
  have kind_found : members.lookup "kind" = some (.string kind) := by
    rw [found "kind" (by decide)]
    simp
  have start_found : members.lookup "start" = some first := by
    rw [found "start" (by decide)]
    simp [List.lookup_cons]
  have stop_found : members.lookup "end" = some last := by
    rw [found "end" (by decide)]
    simp [List.lookup_cons]
  have named_found : members.lookup "named" = flag.lookup "named" := by
    have other : below.lookup "named" = none := below_part.lookup_of_ne (by decide)
    rw [found "named" (by decide)]
    simp [List.lookup_cons, List.lookup_append, other]
  have children_found : members.lookup "children" = below.lookup "children" := by
    have other : flag.lookup "children" = none := flag_part.lookup_of_ne (by decide)
    rw [found "children" (by decide)]
    simp [List.lookup_cons, List.lookup_append, other]
  have named_read : Value.fieldOr? members "named" true Value.bool? = some named := by
    rcases flag_part.lookup_self with given | ⟨rfl, omitted⟩
    · rw [Value.fieldOr?_of_lookup (named_found.trans given), Value.bool?]
    · rw [Value.fieldOr?_of_lookup_eq_none (named_found.trans omitted)]
  have below_read : decodeChildren (members.lookup "children") = some children := by
    rw [children_found]
    rcases below_part.lookup_self with given | ⟨rfl, omitted⟩
    · rw [given, decodeChildren, children_read]
    · rw [omitted, decodeChildren]
  rw [decode_eq structured]
  simp only [Option.bind_eq_bind, Option.bind_some, Value.field?_of_lookup kind_found,
    Value.field?_of_lookup start_found, Value.field?_of_lookup stop_found, Value.string?,
    start_read, stop_read, named_read, below_read, Option.pure_def]

theorem decodeSlot_of_structured {field : Option String} {node : Node} {written v : Value}
    {role : List (String × Value)} (node_read : decode written = some node)
    (role_part : Optional "field" (field.elim .null .string) (field = none) role)
    (whole : Structured slotFieldNames (role ++ [("node", written)]) v) :
    decodeSlot v = some (field, node) := by
  have distinct : ((role ++ [("node", written)]).map Prod.fst).Nodup := by
    cases role_part <;> simp
  obtain ⟨members, structured, found⟩ := whole.exists_members distinct
  have field_found : members.lookup "field" = role.lookup "field" := by
    rw [found "field" (by decide)]
    simp [List.lookup_cons, List.lookup_append]
  have node_found : members.lookup "node" = some written := by
    have other : role.lookup "node" = none := role_part.lookup_of_ne (by decide)
    rw [found "node" (by decide)]
    simp [List.lookup_append, other]
  have field_read : Value.fieldOr? members "field" none Value.optionalString? = some field := by
    rcases role_part.lookup_self with given | ⟨rfl, omitted⟩
    · rw [Value.fieldOr?_of_lookup (field_found.trans given)]
      cases field <;> rfl
    · rw [Value.fieldOr?_of_lookup_eq_none (field_found.trans omitted)]
  rw [decodeSlot_eq structured, node_found]
  simp only [Option.bind_eq_bind, Option.bind_some, field_read, node_read, Option.pure_def]

-- by recursion on the tree, along with what is written for it
mutual
theorem decode_of_spells : ∀ {node : Node} {v : Value}, node.Fits → node.Spells v →
    decode v = some node
  | mk _ _ _ _ _, _, fits, .mk first last flag items below whole => by
    rw [Fits] at fits
    exact decode_of_structured (Position.decode_of_spells fits.1 first)
      (Position.decode_of_spells fits.2.1 last) flag (mapM_decodeSlot_of_spells fits.2.2 items)
      below whole

theorem mapM_decodeSlot_of_spells : ∀ {children : List (Option String × Node)}
    {items : List Value}, FitsAll children → SpellsAll children items →
    items.mapM decodeSlot = some children
  | _, _, _, .nil => rfl
  | (_, _) :: _, _ :: _, fits, .cons node role whole rest => by
    rw [FitsAll] at fits
    rw [List.mapM_cons, decodeSlot_of_structured (decode_of_spells fits.1 node) role whole,
      mapM_decodeSlot_of_spells fits.2 rest]
    rfl
end

mutual
theorem spells_encode : ∀ node : Node, node.Spells node.encode
  | mk _ start stop _ children => by
    rw [encode]
    exact .mk start.spells_encode stop.spells_encode .given (spellsAll_encodeAll children) .given
      (.object [] (List.Perm.refl _) (by simp))

theorem spellsAll_encodeAll : ∀ children : List (Option String × Node),
    SpellsAll children (encodeAll children)
  | [] => by
    rw [encodeAll]
    exact .nil
  | (_, node) :: rest => by
    rw [encodeAll]
    exact .cons node.spells_encode .given (.object [] (List.Perm.refl _) (by simp))
      (spellsAll_encodeAll rest)
end

/-- A tree is found again in its encoding, and in everything else that can be written for it. -/
theorem decode_spelling {node : Node} (fits : node.Fits) :
    decode node.encode = some node ∧ ∀ v, node.Spells v → decode v = some node :=
  ⟨decode_of_spells fits node.spells_encode, fun _ => decode_of_spells fits⟩

def assignment : Node :=
  .mk "assignment" ⟨0, 0⟩ ⟨0, 3⟩ true
    [(some "left", .leaf "name" ⟨0, 0⟩ ⟨0, 1⟩), (none, .token "=" ⟨0, 1⟩ ⟨0, 2⟩)]

def assignmentWritten : Value :=
  .list [.string "assignment",
    .object [("note", .null), ("column", .integer 0), ("row", .integer 0)],
    .list [.integer 0, .integer 3], .bool true,
    .list [
      .object [("node", .list [.string "name", .list [.integer 0, .integer 0],
          .list [.integer 0, .integer 1]]), ("field", .string "left")],
      .object [("node", .object [("named", .bool false), ("end", .list [.integer 0, .integer 2]),
        ("start", .list [.integer 0, .integer 1]), ("kind", .string "=")])]]]

theorem decode_spelling_assignment :
    assignment.Fits ∧ assignment.Spells assignmentWritten ∧
      decode assignmentWritten = some assignment := by
  have fits : assignment.Fits := by
    simp [assignment, leaf, token, Fits, FitsAll, Position.Fits, Value.wordLimit]
  have pair (row column : Nat) :
      Position.Spells ⟨row, column⟩ (.list [.integer row, .integer column]) :=
    .list (List.prefix_refl _)
  have among : Position.Spells ⟨0, 0⟩
      (.object [("note", .null), ("column", .integer 0), ("row", .integer 0)]) :=
    .object [("note", .null)] (List.reverse_perm
      [("row", Value.integer 0), ("column", Value.integer 0), ("note", Value.null)]) (by simp)
  have name : (leaf "name" ⟨0, 0⟩ ⟨0, 1⟩).Spells
      (.list [.string "name", .list [.integer 0, .integer 0], .list [.integer 0, .integer 1]]) :=
    .mk (pair 0 0) (pair 0 1) (.omitted rfl) .nil (.omitted rfl) (.list (by decide))
  have sign : (token "=" ⟨0, 1⟩ ⟨0, 2⟩).Spells
      (.object [("named", .bool false), ("end", .list [.integer 0, .integer 2]),
        ("start", .list [.integer 0, .integer 1]), ("kind", .string "=")]) :=
    .mk (pair 0 1) (pair 0 2) .given .nil (.omitted rfl)
      (.object [] (List.reverse_perm [("kind", Value.string "="),
        ("start", Value.list [.integer 0, .integer 1]),
        ("end", Value.list [.integer 0, .integer 2]), ("named", Value.bool false)]) (by simp))
  have spells : assignment.Spells assignmentWritten :=
    .mk among (pair 0 3) .given
      (.cons name .given (.object [] (List.Perm.swap _ _ []) (by simp))
        (.cons sign (.omitted rfl) (.object [] (List.Perm.refl _) (by simp)) .nil))
      .given (.list (List.prefix_refl _))
  exact ⟨fits, spells, (decode_spelling fits).2 _ spells⟩

end Node

end TreeListing
