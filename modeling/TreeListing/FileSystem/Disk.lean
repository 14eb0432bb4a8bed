import TreeListing.FileSystem

/-!
# File systems in memory

A disk is known by what is at each place. A path is followed part by part from the root or from the
current directory; every place on the way has to be a directory. Paths and the names in them have
a greatest length.
-/

namespace TreeListing

namespace Disk

/-- A place by the names of the directories that lead to it and its own. -/
abbrev Place := List (List Char)

inductive Content where
  | file (bytes : ByteArray)
  | directory

def nameLimit : Nat := 255

def pathLimit : Nat := 4095

def isTooLong (name : List Char) : Bool := nameLimit < (String.ofList name).utf8ByteSize

/-- A path that no disk can follow is refused before its parts are looked at. -/
def checkPath (path : String) : Except FileError Unit :=
  if path.toList.contains '\x00' then .error .unexpectedNul
  else if pathLimit < path.utf8ByteSize then .error .tooLong
  else .ok ()

def step (place : Place) : List Char → Place
  | [] => place
  | ['.'] => place
  | ['.', '.'] => place.dropLast
  | name => place ++ [name]

end Disk

structure Disk where
  home : Disk.Place
  /-- What has been put at places, the latest first. -/
  written : List (Disk.Place × Disk.Content)

namespace Disk

variable (d : Disk)

/-- What is at a place; the current directory and those above it are always there. -/
def content? (place : Place) : Option Content :=
  if place.isPrefixOf d.home then some .directory else d.written.lookup place

def put (place : Place) (content : Content) : Disk :=
  { d with written := (place, content) :: d.written }

@[simp] theorem content?_put (place other : Place) (content : Content) :
    (d.put place content).content? other =
      if other.isPrefixOf d.home then some .directory
      else if other = place then some content else d.content? other := by
  unfold content? put
  by_cases h : other.isPrefixOf d.home
  · simp [h]
  · by_cases heq : other = place
    · simp [heq]
    · simp [h, heq, List.lookup_cons, beq_false_of_ne heq]

def origin (path : String) : Place := if Path.isAbsolute path then [] else d.home

def follow : Place → List (List Char) → Except FileError Place
  | place, [] => .ok place
  | place, part :: rest =>
    match d.content? place with
    | none => .error .missing
    | some (.file _) => .error .notDirectory
    | some .directory => if isTooLong part then .error .tooLong else follow (step place part) rest

/-- The place of a path, whether or not something is there. -/
def place (path : String) : Except FileError Place := do
  checkPath path
  if path.isEmpty then throw .missing else d.follow (d.origin path) (Path.parts path)

def readBytes (path : String) : Except FileError ByteArray := do
  match d.content? (← d.place path) with
  | none => throw .missing
  | some .directory => throw .directory
  | some (.file bytes) => return bytes

def readText (path : String) : Except FileError String := do
  match String.fromUTF8? (← d.readBytes path) with
  | some text => return text
  | none => throw .notText

def writeBytes (path : String) (bytes : ByteArray) : Except FileError Disk := do
  let place ← d.place path
  match d.content? place with
  | some .directory => throw .directory
  | _ => return d.put place (.file bytes)

def writeText (path text : String) : Except FileError Disk :=
  d.writeBytes path text.toUTF8

/-- The disk with a directory at a place, unless a file is there. -/
def makeDirectory (place : Place) : Except FileError Disk :=
  match d.content? place with
  | none => .ok (d.put place .directory)
  | some .directory => .ok d
  | some (.file _) => .error .notDirectory

/-- Makes the directories on the way of the parts of a path. Those that are made before the way
ends, at a file or at a name that is too long, are kept. -/
def makeDirectories (d : Disk) : Place → List (List Char) → Except FileError Unit × Disk
  | place, parts =>
    match d.makeDirectory place with
    | .error e => (.error e, d)
    | .ok made =>
      match parts with
      | [] => (.ok (), made)
      | part :: rest =>
        if isTooLong part then (.error .tooLong, made)
        else makeDirectories made (step place part) rest

def createDirectories (d : Disk) (path : String) : Except FileError Unit × Disk :=
  match checkPath path with
  | .error e => (.error e, d)
  | .ok () => d.makeDirectories (d.origin path) (Path.parts path)

def isPresent (path : String) : Bool :=
  match d.place path with
  | .ok place => (d.content? place).isSome
  | .error _ => false

def pathOf (place : Place) : String :=
  String.ofList (place.flatMap fun name => '/' :: name)

/-- The disk after a change, or as it was if the change failed. -/
def change (f : Disk → Except FileError Disk) : StateM Disk (Except FileError Unit) := fun d =>
  match f d with
  | .ok changed => (.ok (), changed)
  | .error e => (.error e, d)

instance : FileSystem (StateM Disk) where
  readText path d := (d.readText path, d)
  writeText path text := change (·.writeText path text)
  createDirectories path d := d.createDirectories path
  isPresent path d := (d.isPresent path, d)
  currentDirectory d := (pathOf d.home, d)

end Disk

end TreeListing
