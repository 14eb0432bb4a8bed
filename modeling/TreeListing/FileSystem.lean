import TreeListing.Error

/-!
# Paths and file systems

What the program asks of the place where its files are. Paths are texts whose components are
separated by slashes. Empty components and single dots mean nothing; two dots lead to the directory
above. To the machine a path is any bytes. Those that are not the UTF-8 of a text have no path here;
the language of such a file would not be known if its extension is where the bytes are not UTF-8.
-/

namespace TreeListing

namespace Path

def parts (path : String) : List (List Char) :=
  path.toList.splitOn '/'

def components (path : String) : List (List Char) :=
  (parts path).filter fun part => part ≠ [] ∧ part ≠ ['.']

def isAbsolute (path : String) : Bool := path.toList.head? == some '/'

/-- The name of the file: the last component, unless it leads upwards. -/
def fileName? (path : String) : Option (List Char) :=
  match (components path).getLast? with
  | some ['.', '.'] => none
  | last => last

/-- What follows the last dot of the file's name; a dot that begins the name does not count. -/
def extension? (path : String) : Option String :=
  (fileName? path).bind fun name =>
    match name.reverse.dropWhile (· ≠ '.') with
    | _ :: _ :: _ => some (String.ofList (name.reverse.takeWhile (· ≠ '.')).reverse)
    | _ => none

def join (directory file : String) : String :=
  if isAbsolute file || directory.isEmpty then file
  else if directory.toList.getLast? = some '/' then directory ++ file
  else directory ++ "/" ++ file

end Path

class FileSystem (m : Type → Type) where
  readText : String → m (Except FileError String)
  /-- Makes a file with a text, in place of the file that is at its path. -/
  writeText : String → String → m (Except FileError Unit)
  /-- Makes a directory, and those above it that are missing. -/
  createDirectories : String → m (Except FileError Unit)
  isPresent : String → m Bool
  /-- The directory from which paths lead that are not absolute. -/
  currentDirectory : m String

end TreeListing
