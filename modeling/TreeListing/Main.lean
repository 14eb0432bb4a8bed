import TreeListing.CommandLine.Run
import TreeListing.Source.Fragment

/-!
# The program

Runs a command line on the files of the machine.
-/

namespace TreeListing

/-- The number of a failure of the machine, which comes with either sign. -/
def failureNumber (code : UInt32) : Nat :=
  (if code < 0x80000000 then code else 0 - code).toNat

def FileError.ofFailure : IO.Error → FileError
  | .noFileOrDirectory .. => .missing
  | .inappropriateType _ code detail =>
    match failureNumber code with
    | 20 => .notDirectory
    | 21 => .directory
    | _ => .other detail
  | .invalidArgument _ code detail =>
    if failureNumber code = 36 then .tooLong else .other detail
  | e => .other e.toString

def attempt (action : IO α) : IO (Except FileError α) :=
  tryCatch (Except.ok <$> action) fun e => return .error (.ofFailure e)

def asText (bytes : ByteArray) : Except FileError String :=
  match String.fromUTF8? bytes with
  | some text => .ok text
  | none => .error .notText

instance : FileSystem IO where
  readText path := return (← attempt (IO.FS.readBinFile path)).bind asText
  writeText path text := attempt (IO.FS.writeFile path text)
  createDirectories path := attempt (IO.FS.createDirAll path)
  isPresent path := return (← attempt (IO.FS.realPath path)).isOk
  currentDirectory := return (← IO.currentDir).toString

def standardInput : IO (Except FileError String) := do
  let input ← IO.getStdin
  return (← attempt input.readBinToEnd).bind asText

end TreeListing

open TreeListing in
/-- Answers 0 for success, 1 for a failure and 2 for a command line that is refused. -/
def main (words : List String) : IO UInt32 := do
  match Invocation.ofWords words with
  | .error e =>
    if e.isWish then
      IO.print e.message
      return 0
    else
      IO.eprint e.message
      return 2
  | .ok invocation =>
    let outcome ← invocation.run Source.Fragment.read standardInput
    IO.print outcome.out
    match outcome.failure with
    | none => return 0
    | some failure =>
      IO.eprintln ("Error: " ++ failure.message)
      return 1
