import TreeListing.CommandLine.Parameter

/-!
# Reading the words of a command line

Words are read from left to right. An option waits for its value, and a value is checked only when
the next option, flag or word of another parameter comes: up to then it is pending. Two dashes end
the options.
-/

namespace TreeListing.CommandLine

structure Reading where
  arguments : List Argument := []
  /-- A parameter with the values that have not been checked yet. -/
  pending : Option (Parameter × List String) := none
  words : List Parameter
  /-- Whether two dashes have ended the options. -/
  optionsEnded : Bool := false

namespace Reading

/-- Checks the values of a parameter. Only a parameter given by any number of words may come
again. -/
def give (r : Reading) (p : Parameter) (values : List String) : Except UsageError Reading := do
  match p.role with
  | .wish e => throw e
  | .flag =>
    if r.arguments.any (·.parameter = p) then throw (.repeated p.placeholder)
    return { r with arguments := r.arguments ++ [.on p] }
  | role =>
    if values = [] then throw (.missingValue p.placeholder)
    if role ≠ .words ∧ r.arguments.any (·.parameter = p) then throw (.repeated p.placeholder)
    return { r with arguments := r.arguments ++ (← values.mapM p.read) }

def settle (r : Reading) : Except UsageError Reading :=
  match r.pending with
  | none => .ok r
  | some (p, values) => { r with pending := none }.give p values

def awaiting? (r : Reading) : Option Parameter :=
  match r.pending with
  | some (p, []) => if r.optionsEnded then none else some p
  | _ => none

def take (r : Reading) (p : Parameter) : Except UsageError Reading := do
  let r ← r.settle
  if p.role = .option then return { r with pending := some (p, []) } else r.give p []

def giveAttached (r : Reading) (p : Parameter) (value : String) : Except UsageError Reading := do
  (← r.settle).give p [value]

/-- A flag or an option by its long name, perhaps with a value behind an equals sign. -/
def long (s : Scope) (r : Reading) (body : List Char) : Except UsageError Reading :=
  let name := String.ofList (body.takeWhile (· ≠ '='))
  match s.ofLong? name, body.dropWhile (· ≠ '=') with
  | none, _ => .error (.unknownArgument ("--" ++ name))
  | some p, [] => r.take p
  | some p, _ :: value =>
    if p.role = .option then r.giveAttached p (String.ofList value)
    else .error (.surplusValue (String.ofList value))

/-- Flags by their letters; what follows the letter of an option is its value, perhaps behind an
equals sign. -/
def short (s : Scope) (r : Reading) : List Char → Except UsageError Reading
  | [] => .ok r
  | letter :: rest =>
    match s.ofShort? letter with
    | none => .error (.unknownArgument (String.ofList ['-', letter]))
    | some p =>
      if p.role = .option then
        match rest with
        | [] => r.take p
        | '=' :: value => r.giveAttached p (String.ofList value)
        | value => r.giveAttached p (String.ofList value)
      else
        match r.take p with
        | .error e => .error e
        | .ok r => short s r rest

/-- Any other word: the value of the option that waits for one, or the next one of the words. -/
def word (s : Scope) (r : Reading) (w : String) : Except UsageError Reading :=
  match r.awaiting?, r.words with
  | some p, _ => .ok { r with pending := some (p, [w]) }
  | none, p :: rest =>
    match r.pending with
    | some (q, values) =>
      if q = p then .ok { r with pending := some (p, values ++ [w]) } else start p rest
    | none => start p rest
  | none, [] =>
    let command := CommandName.ofText? w ≠ none ∨ w = "help"
    if s.beforeCommand ∧ ¬ (r.optionsEnded ∧ command) then .error (.unknownCommand w)
    else .error (.unknownArgument w)
where
  /-- The first value for a parameter that is given by words. -/
  start (p : Parameter) (rest : List Parameter) : Except UsageError Reading := do
    let r ← r.settle
    return { r with
      pending := some (p, [w]), words := if p.role = .words then r.words else rest }

def next (s : Scope) (r : Reading) (w : String) : Except UsageError Reading :=
  if r.optionsEnded then r.word s w
  else
    match w.toList with
    | ['-', '-'] => .ok { r with optionsEnded := true }
    | '-' :: '-' :: body => r.long s body
    | ['-'] => r.word s w
    | '-' :: letters => r.short s letters
    | _ => r.word s w

def atCommand (s : Scope) (r : Reading) : Bool :=
  s.beforeCommand && !r.optionsEnded && r.awaiting?.isNone

end Reading

def helpFor : List String → UsageError
  | [] => .helpWanted
  | w :: rest =>
    if CommandName.ofText? w ≠ none ∨ w = "help" then
      match rest with
      | [] => .helpWanted
      | surplus :: _ => .unknownCommand surplus
    else .unknownCommand w

/-- Reads up to the name of a command, which is given with the words behind it, or to the end. -/
def scan (s : Scope) (r : Reading) :
    List String → Except UsageError (Reading × Option (CommandName × List String))
  | [] => .ok (r, none)
  | w :: rest =>
    let step := match r.next s w with
      | .error e => .error e
      | .ok r => scan s r rest
    if r.atCommand s then
      if w = "help" then .error (helpFor rest)
      else
        match CommandName.ofText? w with
        | some c => .ok (r, some (c, rest))
        | none => step
    else step

def argumentsOf (c : CommandName) (words : List String) : Except UsageError (List Argument) := do
  let s := Scope.ofCommand c
  let (r, _) ← scan s { words := s.words } words
  let r ← r.settle
  match s.required.find? fun p => !r.arguments.any (·.parameter = p) with
  | some p => throw (.missingArgument p.placeholder)
  | none => return r.arguments

/-- The command of a command line with its arguments. What was given before the command comes
after what was given behind it, and so counts less. -/
def read (words : List String) : Except UsageError (CommandName × List Argument) := do
  let (r, command) ← scan .general { words := Scope.general.words } words
  match command with
  | some (c, rest) =>
    let arguments ← argumentsOf c rest
    let r ← r.settle
    return (c, arguments ++ r.arguments)
  | none =>
    let r ← r.settle
    throw (if r.arguments = [] then .nothingGiven else .noCommand)

end TreeListing.CommandLine
