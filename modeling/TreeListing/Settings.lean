import TreeListing.Dictionary
import TreeListing.Language
import TreeListing.Render.Options
import TreeListing.Text.Quoted

/-!
# Settings

What a project chooses once for all its listings, and the languages of file extensions that are not
known otherwise.
-/

namespace TreeListing

inductive OutputFormat where
  | text
  | json
  | html
  deriving DecidableEq, Inhabited, Repr

namespace OutputFormat

def name : OutputFormat → String
  | text => "text"
  | json => "json"
  | html => "html"

def all : List OutputFormat := [text, json, html]

theorem mem_all (f : OutputFormat) : f ∈ all := by cases f <;> decide

def ofName? (name : String) : Option OutputFormat := all.find? (·.name == name)

end OutputFormat

inductive SettingsError where
  | unreadable (path : String)
  | malformed (path : String)
  | noDirectory (path : String)
  | unwritable (path : String)
  /-- An extension is given to a language that nobody knows. -/
  | unknownLanguage (name ext : String)
  deriving DecidableEq, Repr

namespace SettingsError

def message : SettingsError → String
  | unreadable path => "Failed to read config file: " ++ Text.quoted path
  | malformed path => "Failed to parse config file: " ++ Text.quoted path
  | noDirectory path => "Failed to create config directory: " ++ Text.quoted path
  | unwritable path => "Failed to write config file: " ++ Text.quoted path
  | unknownLanguage name ext =>
    "Unknown language " ++ Text.quoted name ++ " for extension " ++ Text.quoted ext ++
      " in [languages.aliases]"

end SettingsError

structure Settings where
  showFields : Bool := false
  hideUnnamed : Bool := true
  iterative : Bool := false
  format : OutputFormat := .text
  /-- Names of languages by the extensions that stand for them. -/
  aliases : Dictionary String := .empty
  deriving DecidableEq, Inhabited

namespace Settings

def options (s : Settings) : Options where
  shape := .records
  showFields := s.showFields
  hideUnnamed := s.hideUnnamed
  traversal := if s.iterative then .iterative else .recursive

/-- The form in which an extension is looked up: without dots in front, and in lower case. -/
def aliasKey (ext : String) : String :=
  Text.lower (String.ofList (ext.toList.dropWhile (· = '.')))

def resolveAlias (entry : String × String) : Except SettingsError (String × Language) :=
  match Language.ofName? entry.2 with
  | some l => .ok (aliasKey entry.1, l)
  | none => .error (.unknownLanguage entry.2 entry.1)

def resolveAliases (s : Settings) : Except SettingsError (Dictionary Language) :=
  (s.aliases.entries.mapM resolveAlias).map Dictionary.ofList

end Settings

end TreeListing
