import TreeListing.Dictionary
import TreeListing.FileSystem
import TreeListing.Source

/-!
# Listings of many files

Each file is listed on its own, and a file that cannot be listed has the reason in place of its
records. The files are shared out among workers, who may be limited in number.
-/

namespace TreeListing

structure Batch where
  options : Options := {}
  /-- The language of every file, whatever its extension. -/
  language : Option Language := none
  /-- The languages of extensions in lower case, which come before those that are known. -/
  aliases : Dictionary Language := .empty
  /-- The number of workers, if there is to be another than for all other work. -/
  threads : Option Nat := none
  deriving Inhabited

/-- What came of listing a file, but for the time that it took. -/
structure FileListing where
  path : String
  language : Option Language
  records : List Record
  error : Option String
  deriving DecidableEq, Repr

namespace FileListing

def success (path : String) (language : Language) (records : List Record) : FileListing :=
  ⟨path, some language, records, none⟩

def failure (path : String) (language : Option Language) (error : String) : FileListing :=
  ⟨path, language, [], some error⟩

def isSuccess (f : FileListing) : Bool := f.error.isNone

def isFailure (f : FileListing) : Bool := f.error.isSome

def successes (fs : List FileListing) : List FileListing := fs.filter isSuccess

def failures (fs : List FileListing) : List FileListing := fs.filter isFailure

end FileListing

/-- What lists files by a task for one, in the order of their paths. -/
abbrev Collector (m : Type → Type) := (String → m FileListing) → List String → m (List FileListing)

structure Workers (m : Type → Type) where
  shared : Collector m
  /-- A number of workers of their own, if there can be so many. -/
  pool? : Nat → Option (Collector m)

namespace Workers

def single {m : Type → Type} [Monad m] : Workers m where
  shared task paths := paths.mapM task
  pool? _ := none

/-- The workers for a batch: the number that it asks for, or those of all work. -/
def collector {m : Type → Type} (workers : Workers m) : Option Nat → Collector m
  | none => workers.shared
  | some number => (workers.pool? number).getD workers.shared

end Workers

namespace Batch

def withAliases (b : Batch) (aliases : Dictionary Language) : Batch :=
  { b with aliases := .ofList (aliases.entries.map fun entry => (Text.lower entry.1, entry.2)) }

/-- The language of a file: that of every file, or the alias of its extension, or the language that
its extension is known for. -/
def languageOf? (b : Batch) (path : String) : Option Language :=
  b.language.or ((Path.extension? path).bind fun ext =>
    let ext := Text.lower ext
    (b.aliases.find? ext).or (Language.ofExtension? ext))

/-- The listing of a file whose language is not known; nothing is read of it. -/
def unsupported (path : String) : FileListing :=
  let ext := (Path.extension? path).getD ""
  .failure path none ("Unsupported file extension: " ++ ext)

def listingOf (b : Batch) (read : Source.Reader) (path : String) (language : Language) :
    Except FileError String → FileListing
  | .error e => .failure path (some language) ("Failed to read file: " ++ e.message)
  | .ok text =>
    match read.records language text b.options with
    | .ok records => .success path language records
    | .error e => .failure path (some language) ("Parse error: " ++ e.message)

variable {m : Type → Type} [Monad m] [FileSystem m]

def listFile (b : Batch) (read : Source.Reader) (path : String) : m FileListing :=
  match b.languageOf? path with
  | some language => b.listingOf read path language <$> FileSystem.readText path
  | none => return unsupported path

def listFilesOn (b : Batch) (read : Source.Reader) (workers : Workers m) (paths : List String) :
    m (List FileListing) :=
  workers.collector b.threads (b.listFile read) paths

def listFiles (b : Batch) (read : Source.Reader) (paths : List String) : m (List FileListing) :=
  b.listFilesOn read .single paths

end Batch

end TreeListing
