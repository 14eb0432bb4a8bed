import TreeListing.CommandLine.Reader

/-!
# Command lines

What the program is asked to do, from the words of a command line.
-/

namespace TreeListing

structure TreeRequest where
  files : List String
  language : Option Language := none
  fields : Bool := false
  all : Bool := false
  iterative : Bool := false
  format : Option OutputFormat := none
  threads : Option Nat := none
  deriving DecidableEq, Repr

inductive Command where
  | tree (request : TreeRequest)
  | sexp (file : String) (language : Option Language)
  /-- Lays out a text, or what is read where none is given. -/
  | brackets (text : Option String)
  | escape (text : Option String)
  /-- Gives a project the settings that are the defaults. -/
  | init (project : Option String) (force : Bool)
  deriving DecidableEq, Repr

structure Invocation where
  config : Option String
  verbose : Bool
  command : Command
  deriving DecidableEq, Repr

namespace CommandLine

structure Given where
  arguments : List Argument

namespace Given

variable (g : Given)

def has (p : Parameter) : Bool := g.arguments.any (·.parameter = p)

def paths (p : Parameter) : List String :=
  g.arguments.filterMap fun
    | .path q path => if q = p then some path else none
    | _ => none

def path? (p : Parameter) : Option String := (g.paths p).head?

def text? : Option String :=
  g.arguments.findSome? fun
    | .text text => some text
    | _ => none

def language? : Option Language :=
  g.arguments.findSome? fun
    | .language l => some l
    | _ => none

def format? : Option OutputFormat :=
  g.arguments.findSome? fun
    | .format f => some f
    | _ => none

def threads? : Option Nat :=
  g.arguments.findSome? fun
    | .threads n => some n
    | _ => none

def command : CommandName → Command
  | .tree => .tree {
      files := g.paths .files
      language := g.language?
      fields := g.has .fields
      all := g.has .all
      iterative := g.has .iterative
      format := g.format?
      threads := g.threads? }
  | .sexp => .sexp ((g.path? .file).getD "") g.language?
  | .brackets => .brackets g.text?
  | .escape => .escape g.text?
  | .init => .init (g.path? .project) (g.has .force)

end Given

end CommandLine

def Invocation.ofWords (words : List String) : Except UsageError Invocation := do
  let (name, arguments) ← CommandLine.read words
  let given : CommandLine.Given := ⟨arguments⟩
  return ⟨given.path? .config, given.has .verbose, given.command name⟩

end TreeListing
