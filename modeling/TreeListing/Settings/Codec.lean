import TreeListing.Settings
import TreeListing.Value

/-!
# Settings as structured values

Settings have a section `render` for the listings and a section `languages`. Whatever is missing has
its default.
-/

namespace TreeListing

namespace OutputFormat

def decode (c : Value.Conventions) (v : Value) : Option OutputFormat :=
  v.choice? c (all.map fun f => (f.name, f))

end OutputFormat

namespace Settings

/-- The sections, in the order of the positional form. -/
def sectionNames : List String := ["render", "languages"]

def renderFieldNames : List String :=
  ["show_field_names", "hide_unnamed", "iterative", "format"]

def languagesFieldNames : List String := ["aliases"]

def encodeRender (s : Settings) : Value :=
  .object [("show_field_names", .bool s.showFields), ("hide_unnamed", .bool s.hideUnnamed),
    ("iterative", .bool s.iterative), ("format", .string s.format.name)]

def encodeAliases (aliases : Dictionary String) : Value :=
  .object (aliases.entries.map fun entry => (entry.1, .string entry.2))

def encode (s : Settings) : Value :=
  .object [("render", s.encodeRender),
    ("languages", .object [("aliases", encodeAliases s.aliases)])]

/-- Settings with the section for listings as given and no aliases. -/
def decodeRender (c : Value.Conventions) (v : Value) : Option Settings := do
  let members ← v.structure? c renderFieldNames
  return {
    showFields := ← Value.fieldOr? members "show_field_names" false Value.bool?
    hideUnnamed := ← Value.fieldOr? members "hide_unnamed" true Value.bool?
    iterative := ← Value.fieldOr? members "iterative" false Value.bool?
    format := ← Value.fieldOr? members "format" .text (OutputFormat.decode c) }

def decodeAlias (member : String × Value) : Option (String × String) :=
  member.2.string?.map (member.1, ·)

def decodeAliases : Value → Option (Dictionary String)
  | .object members => (members.mapM decodeAlias).map Dictionary.ofList
  | _ => none

def decodeLanguages (c : Value.Conventions) (v : Value) : Option (Dictionary String) := do
  let members ← v.structure? c languagesFieldNames
  Value.fieldOr? members "aliases" .empty decodeAliases

def decode (c : Value.Conventions) (v : Value) : Option Settings := do
  let members ← v.structure? c sectionNames
  let listing ← Value.fieldOr? members "render" {} (decodeRender c)
  let aliases ← Value.fieldOr? members "languages" .empty (decodeLanguages c)
  return { listing with aliases }

end Settings

end TreeListing
