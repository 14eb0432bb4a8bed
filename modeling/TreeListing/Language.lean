import TreeListing.Error
import TreeListing.FileSystem
import TreeListing.Text.LowerCase

/-!
# Languages

The languages whose source text can be listed, with their names and the extensions of their files.
-/

namespace TreeListing

inductive Language where
  | python | javaScript | typeScript | tsx | go | rust | java | c | cpp | cSharp | ruby | php
  | bash | json | lua | scala
  deriving DecidableEq, Inhabited, Repr

namespace Language

def all : List Language :=
  [python, javaScript, typeScript, tsx, go, rust, java, c, cpp, cSharp, ruby, php, bash, json, lua,
    scala]

theorem mem_all (l : Language) : l ∈ all := by cases l <;> decide

/-- The number of a language, under which its grammar is kept. -/
def index (l : Language) : UInt64 := .ofNat l.ctorIdx

def name : Language → String
  | python => "Python"
  | javaScript => "JavaScript"
  | typeScript => "TypeScript"
  | tsx => "TSX"
  | go => "Go"
  | rust => "Rust"
  | java => "Java"
  | c => "C"
  | cpp => "Cpp"
  | cSharp => "CSharp"
  | ruby => "Ruby"
  | php => "PHP"
  | bash => "Bash"
  | json => "JSON"
  | lua => "Lua"
  | scala => "Scala"

def extensions : Language → List String
  | python => ["py", "pyi"]
  | javaScript => ["js", "jsx", "mjs", "cjs"]
  | typeScript => ["ts", "mts", "cts"]
  | tsx => ["tsx"]
  | go => ["go"]
  | rust => ["rs"]
  | java => ["java"]
  | c => ["c", "h"]
  | cpp => ["cpp", "cc", "cxx", "hpp", "hh", "hxx"]
  | cSharp => ["cs"]
  | ruby => ["rb"]
  | php => ["php"]
  | bash => ["sh", "bash"]
  | json => ["json"]
  | lua => ["lua"]
  | scala => ["scala", "sc"]

def otherNames : List (String × Language) :=
  [("c++", cpp), ("c#", cSharp), ("c-sharp", cSharp), ("shell", bash)]

def ofExtension? (ext : String) : Option Language :=
  all.find? fun l => l.extensions.contains (Text.lower ext)

/-- The language with a name in either case: its own name, another one, or an extension. -/
def ofName? (name : String) : Option Language :=
  let lower := Text.lower name
  (all.find? fun l => Text.lower l.name == lower)
    |>.or (otherNames.lookup lower)
    |>.or (ofExtension? lower)

def ofPath? (path : String) : Option Language :=
  (Path.extension? path).bind ofExtension?

def parse (name : String) : Except Error Language :=
  match ofName? name with
  | some l => .ok l
  | none => .error (.unsupportedLanguage name)

end Language

end TreeListing
