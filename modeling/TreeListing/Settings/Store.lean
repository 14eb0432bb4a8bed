import TreeListing.FileSystem
import TreeListing.Settings.Codec
import TreeListing.Toml.Reader
import TreeListing.Toml.Writer

/-!
# Settings in files

The settings of a project are a TOML document in a directory of its own below the project's: a
table for the listings, then one for the aliases, with a line per field or alias.
-/

namespace TreeListing.Settings

def pairLine (key value : List Char) : List Char := key ++ [' ', '=', ' '] ++ value

def boolWord (b : Bool) : List Char := (if b then "true" else "false").toList

def aliasLine (entry : String × String) : List Char :=
  pairLine (Toml.writeKey entry.1.toList) (Toml.writeString entry.2.toList)

def documentLines (s : Settings) : List (List Char) :=
  ["[render]".toList,
    pairLine "show_field_names".toList (boolWord s.showFields),
    pairLine "hide_unnamed".toList (boolWord s.hideUnnamed),
    pairLine "iterative".toList (boolWord s.iterative),
    pairLine "format".toList (Toml.writeString s.format.name.toList),
    [],
    "[languages.aliases]".toList] ++ s.aliases.entries.map aliasLine

def document (s : Settings) : String :=
  String.ofList (s.documentLines.flatMap (· ++ ['\n']))

def ofDocument? (text : String) : Option Settings :=
  (Toml.read text).bind (decode .lenient)

def directoryOf (project : String) : String := Path.join project ".lerendu"

def fileOf (project : String) : String := Path.join project ".lerendu/config.toml"

variable {m : Type → Type} [Monad m] [FileSystem m]

def loadFile (path : String) : m (Except SettingsError Settings) := do
  match ← FileSystem.readText path with
  | .error _ => return .error (.unreadable path)
  | .ok text =>
    match ofDocument? text with
    | some s => return .ok s
    | none => return .error (.malformed path)

/-- The settings of a project; if it has none, the defaults. -/
def load (project : String) : m (Except SettingsError Settings) := do
  if ← FileSystem.isPresent (m := m) (fileOf project) then loadFile (fileOf project)
  else return .ok {}

/-- Makes the settings those of a project, in a file of its directory for them. -/
def save (s : Settings) (project : String) : m (Except SettingsError Unit) := do
  let directory := directoryOf project
  match ← FileSystem.createDirectories directory with
  | .error _ => return .error (.noDirectory directory)
  | .ok () =>
    let file := Path.join directory "config.toml"
    match ← FileSystem.writeText file s.document with
    | .error _ => return .error (.unwritable file)
    | .ok () => return .ok ()

end TreeListing.Settings
