/-!
# Command lines that are refused

Why nothing is run for a command line, with the message shown for it. A wish for help or for the
version is among the reasons.
-/

namespace TreeListing

inductive UsageError where
  | helpWanted
  | versionWanted
  | nothingGiven
  | noCommand
  | unknownCommand (word : String)
  /-- An option that the command does not have, or a word too many. -/
  | unknownArgument (word : String)
  | missingArgument (placeholder : String)
  /-- An option or a word that must hold something is empty. -/
  | missingValue (placeholder : String)
  | unknownChoice (value : String)
  | invalidValue (value : String)
  | surplusValue (value : String)
  | repeated (placeholder : String)
  deriving DecidableEq, Repr

namespace UsageError

/-- Whether what was wished for is shown, rather than what is wrong. -/
def isWish : UsageError → Bool
  | helpWanted | versionWanted => true
  | _ => false

def version : String := "lerendu 0.1.0\n"

def help : String :=
  "Render syntax trees as indented text, JSON or HTML\n\n" ++
  "Usage: lerendu [OPTIONS] <COMMAND>\n\n" ++
  "Commands:\n" ++
  "  tree <FILES>...  Print the syntax trees of source files\n" ++
  "  sexp <FILE>      Print a file's s-expression with one level per line\n" ++
  "  brackets [TEXT]  Lay out a parenthesized string\n" ++
  "  escape [TEXT]    HTML-escape text\n" ++
  "  init [PATH]      Write a default configuration file\n\n" ++
  "Options:\n" ++
  "  -c, --config <CONFIG>      Configuration file\n" ++
  "  -v, --verbose              Enable verbose logging\n" ++
  "  -l, --language <LANGUAGE>  Parse files as this language (tree, sexp)\n" ++
  "      --fields               Annotate nodes with their field names (tree)\n" ++
  "      --all                  Include anonymous nodes (tree)\n" ++
  "      --iterative            Walk trees with an explicit stack (tree)\n" ++
  "  -f, --format <FORMAT>      text, json or html (tree)\n" ++
  "      --threads <THREADS>    Maximum number of worker threads (tree)\n" ++
  "      --force                Overwrite an existing configuration (init)\n" ++
  "  -h, --help                 Print help\n" ++
  "  -V, --version              Print version\n"

def message : UsageError → String
  | helpWanted | nothingGiven => help
  | versionWanted => version
  | noCommand => "error: a command is needed\n"
  | unknownCommand word => "error: unrecognized command '" ++ word ++ "'\n"
  | unknownArgument word => "error: unexpected argument '" ++ word ++ "'\n"
  | missingArgument placeholder => "error: " ++ placeholder ++ " is required\n"
  | missingValue placeholder => "error: a value is required for " ++ placeholder ++ "\n"
  | unknownChoice value | invalidValue value => "error: invalid value '" ++ value ++ "'\n"
  | surplusValue value => "error: unexpected value '" ++ value ++ "'\n"
  | repeated placeholder => "error: " ++ placeholder ++ " cannot be used twice\n"

end UsageError

end TreeListing
