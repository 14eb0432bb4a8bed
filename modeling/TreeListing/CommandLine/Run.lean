import TreeListing.Batch
import TreeListing.Codec
import TreeListing.CommandLine
import TreeListing.Markup
import TreeListing.Settings.Store
import TreeListing.Sexp
import TreeListing.Value.Json

/-!
# Running commands

What the commands put out and do to files, for any place where the files may be. For listed files,
text and markup show those that could be listed; structured values are given for every file, with
the reason where there is no listing.
-/

namespace TreeListing

namespace FileListing

def encode (f : FileListing) : Value :=
  .object ([("path", .string f.path),
    ("language", match f.language with
      | some l => .string l.name
      | none => .null),
    ("records", .list (f.records.map Record.encode))] ++
      (f.error.map fun e => ("error", Value.string e)).toList)

def text (several : Bool) (f : FileListing) : String :=
  (if several then "==> " ++ f.path ++ " <==\n" else "") ++ Record.listing f.records

def html (f : FileListing) : String :=
  "<section data-path=\"" ++ Markup.escape f.path ++ "\">\n" ++ Record.htmlList f.records ++
    "</section>\n"

end FileListing

def OutputFormat.output (listings : List FileListing) : OutputFormat → String
  | text => String.join ((FileListing.successes listings).map (·.text (1 < listings.length)))
  | json => (Value.list (listings.map FileListing.encode)).json ++ "\n"
  | html => String.join ((FileListing.successes listings).map FileListing.html)

inductive Failure where
  | settings (e : SettingsError)
  /-- A text could not be parsed or laid out. -/
  | text (e : Error)
  | input
  | unreadable (file : String)
  | unknownLanguage (file : String)
  | unlisted (failed total : Nat)
  /-- The settings that were to be made are there. -/
  | present (file : String)
  deriving DecidableEq, Repr

namespace Failure

def message : Failure → String
  | settings e => e.message
  | text e => e.message
  | input => "Failed to read standard input"
  | unreadable file => "Failed to read " ++ file
  | unknownLanguage file => "Cannot detect the language of " ++ file ++ "; pass --language"
  | unlisted failed total =>
    toString failed ++ " of " ++ toString total ++ " file(s) could not be rendered"
  | present file => file ++ " already exists; use --force to overwrite"

end Failure

structure Outcome where
  out : String
  failure : Option Failure
  deriving DecidableEq, Repr

namespace Outcome

/-- The outcome of a command that puts something out only if it succeeds. -/
def ofExcept : Except Failure String → Outcome
  | .ok out => ⟨out, none⟩
  | .error e => ⟨"", some e⟩

end Outcome

namespace TreeRequest

variable (request : TreeRequest) (s : Settings)

def options : Options :=
  { s.options with
    showFields := s.options.showFields || request.fields
    hideUnnamed := s.options.hideUnnamed && !request.all
    traversal := if request.iterative then .iterative else s.options.traversal }

def outputFormat : OutputFormat := request.format.getD s.format

def batch (aliases : Dictionary Language) : Batch :=
  let b : Batch :=
    { options := request.options s, language := request.language, threads := request.threads }
  b.withAliases aliases

def outcome (listings : List FileListing) : Outcome where
  out := (request.outputFormat s).output listings
  failure :=
    match (FileListing.failures listings).length with
    | 0 => none
    | failed => some (.unlisted failed listings.length)

end TreeRequest

def withoutLineEnd (text : String) : String :=
  String.ofList (match text.toList.reverse with
    | '\n' :: '\r' :: rest => rest.reverse
    | '\n' :: rest => rest.reverse
    | cs => cs.reverse)

def sexpOutput (read : Source.Reader) (l : Language) (text : String) : Except Failure String :=
  match read l text with
  | .error e => .error (.text e)
  | .ok node =>
    match Sexp.layout node.sexp with
    | .error e => .error (.text e)
    | .ok layout => .ok (layout ++ "\n")

def bracketsOutput (text : String) : Except Failure String :=
  match Bracket.layout text with
  | .error e => .error (.text e)
  | .ok layout => .ok (layout ++ "\n")

def escapeOutput (text : String) : Except Failure String := .ok (Markup.escape text ++ "\n")

variable {m : Type → Type} [Monad m] [FileSystem m] (read : Source.Reader)

/-- The settings in a file that is named, or those of the current directory. -/
def settingsFor (config : Option String) : m (Except SettingsError Settings) :=
  match config with
  | some path => Settings.loadFile path
  | none => do Settings.load (← FileSystem.currentDirectory)

def resolvedSettings (config : Option String) :
    m (Except SettingsError (Settings × Dictionary Language)) := do
  return (← settingsFor config).bind fun s => s.resolveAliases.map fun aliases => (s, aliases)

def runTree (config : Option String) (request : TreeRequest) : m Outcome := do
  match ← resolvedSettings config with
  | .error e => return .ofExcept (.error (.settings e))
  | .ok (s, aliases) => request.outcome s <$> (request.batch s aliases).listFiles read request.files

def runSexp (config : Option String) (file : String) (language : Option Language) :
    m (Except Failure String) := do
  match ← resolvedSettings config with
  | .error e => return .error (.settings e)
  | .ok (_, aliases) =>
    match (Batch.withAliases { language } aliases).languageOf? file with
    | none => return .error (.unknownLanguage file)
    | some l =>
      match ← FileSystem.readText file with
      | .error _ => return .error (.unreadable file)
      | .ok text => return sexpOutput read l text

def runInit (project : Option String) (force : Bool) : m (Except Failure String) := do
  let project ← match project with
    | some project => pure project
    | none => FileSystem.currentDirectory
  let file := Settings.fileOf project
  if (← FileSystem.isPresent (m := m) file) && !force then
    return .error (.present file)
  match ← Settings.save {} project with
  | .error e => return .error (.settings e)
  | .ok () => return .ok ("Wrote " ++ file ++ "\n")

def runOnText (input : m (Except FileError String)) (text : Option String)
    (output : String → Except Failure String) : m (Except Failure String) := do
  match text with
  | some text => return output text
  | none =>
    match ← input with
    | .error _ => return .error .input
    | .ok text => return output (withoutLineEnd text)

def Invocation.run (input : m (Except FileError String)) (i : Invocation) : m Outcome :=
  match i.command with
  | .tree request => runTree read i.config request
  | .sexp file language => Outcome.ofExcept <$> runSexp read i.config file language
  | .brackets text => Outcome.ofExcept <$> runOnText input text bracketsOutput
  | .escape text => Outcome.ofExcept <$> runOnText input text escapeOutput
  | .init project force => Outcome.ofExcept <$> runInit project force

end TreeListing
