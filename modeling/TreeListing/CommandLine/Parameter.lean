import TreeListing.CommandLine.Usage
import TreeListing.Settings
import TreeListing.Value

/-!
# Parameters of the commands

The commands with the options, flags and words that each of them takes.
-/

namespace TreeListing.CommandLine

inductive CommandName where
  | tree | sexp | brackets | escape | init
  deriving DecidableEq, Repr

namespace CommandName

def all : List CommandName := [tree, sexp, brackets, escape, init]

theorem mem_all (c : CommandName) : c ∈ all := by cases c <;> decide

def text : CommandName → String
  | tree => "tree"
  | sexp => "sexp"
  | brackets => "brackets"
  | escape => "escape"
  | init => "init"

def ofText? (word : String) : Option CommandName := all.find? (·.text == word)

end CommandName

inductive Parameter where
  | help | version | config | verbose
  | language | fields | all | iterative | format | threads | force
  | files
  | file
  | text
  | project
  deriving DecidableEq, Repr

inductive Role where
  /-- By a flag that ends the reading. -/
  | wish (e : UsageError)
  /-- By a flag that is there or not. -/
  | flag
  | option
  | word
  | words
  deriving DecidableEq, Repr

inductive Argument where
  | on (p : Parameter)
  | path (p : Parameter) (path : String)
  | text (text : String)
  | language (l : Language)
  | format (f : OutputFormat)
  | threads (n : Nat)
  deriving DecidableEq, Repr

namespace Argument

def parameter : Argument → Parameter
  | on p => p
  | path p _ => p
  | text _ => .text
  | language _ => .language
  | format _ => .format
  | threads _ => .threads

end Argument

namespace Parameter

def role : Parameter → Role
  | help => .wish .helpWanted
  | version => .wish .versionWanted
  | config | language | format | threads => .option
  | verbose | fields | all | iterative | force => .flag
  | files => .words
  | file | text | project => .word

def long? : Parameter → Option String
  | help => some "help"
  | version => some "version"
  | config => some "config"
  | verbose => some "verbose"
  | language => some "language"
  | fields => some "fields"
  | all => some "all"
  | iterative => some "iterative"
  | format => some "format"
  | threads => some "threads"
  | force => some "force"
  | files | file | text | project => none

def short? : Parameter → Option Char
  | help => some 'h'
  | version => some 'V'
  | config => some 'c'
  | verbose => some 'v'
  | language => some 'l'
  | format => some 'f'
  | _ => none

def placeholder : Parameter → String
  | files => "<FILES>..."
  | file => "<FILE>"
  | text => "[TEXT]"
  | project => "[PATH]"
  | p => "--" ++ p.long?.getD ""

/-- A number of 64 bits in decimal digits, perhaps with a plus sign. -/
def number? (s : String) : Option Nat :=
  match s.toList with
  | '+' :: digits => ofDigits? digits
  | digits => ofDigits? digits
where
  ofDigits? (digits : List Char) : Option Nat :=
    let n := digits.foldl (fun n c => 10 * n + (c.toNat - '0'.toNat)) 0
    if digits ≠ [] ∧ digits.all (fun c => '0' ≤ c && c ≤ '9') ∧ n < Value.wordLimit then
      some n
    else none

def read (p : Parameter) (value : String) : Except UsageError Argument :=
  match p with
  | text => .ok (.text value)
  | language =>
    match Language.ofName? value with
    | some l => .ok (.language l)
    | none => .error (.invalidValue value)
  | format =>
    match OutputFormat.ofName? value with
    | some f => .ok (.format f)
    | none => .error (.unknownChoice value)
  | threads =>
    match number? value with
    | some n => .ok (.threads n)
    | none => .error (.invalidValue value)
  | p => if value.isEmpty then .error (.missingValue p.placeholder) else .ok (.path p value)

end Parameter

/-- What can be given at some place of a command line. -/
structure Scope where
  options : List Parameter
  words : List Parameter
  required : List Parameter
  /-- Whether a command is to follow. -/
  beforeCommand : Bool
  deriving DecidableEq, Repr

namespace Scope

def general : Scope := ⟨[.config, .verbose, .help, .version], [], [], true⟩

def ofCommand : CommandName → Scope
  | .tree => after [.language, .fields, .all, .iterative, .format, .threads] [.files] [.files]
  | .sexp => after [.language] [.file] [.file]
  | .brackets => after [] [.text] []
  | .escape => after [] [.text] []
  | .init => after [.force] [.project] []
where
  /-- Some options can follow every command. -/
  after (options words required : List Parameter) : Scope :=
    ⟨options ++ [.config, .verbose, .help], words, required, false⟩

def ofLong? (s : Scope) (name : String) : Option Parameter :=
  s.options.find? (·.long? == some name)

def ofShort? (s : Scope) (letter : Char) : Option Parameter :=
  s.options.find? (·.short? == some letter)

end Scope

end TreeListing.CommandLine
