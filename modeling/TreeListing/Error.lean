/-!
# Failures

What can go wrong while source text is parsed, rendered or laid out, and while files are read and
written, with the message shown for it.
-/

namespace TreeListing

inductive Error where
  /-- A closing parenthesis without an open one, at a byte offset. -/
  | unbalanced (offset : Nat)
  /-- The text ended while so many parentheses were open. -/
  | unclosed (opened : Nat)
  | unsupportedLanguage (name : String)
  | grammar (detail : String)
  | parse (detail : String)
  | io (detail : String)
  deriving DecidableEq, Repr

namespace Error

def message : Error → String
  | unbalanced offset => "Unbalanced parenthesis at offset " ++ toString offset
  | unclosed opened => "Input ended with " ++ toString opened ++ " unclosed parenthesis(es)"
  | unsupportedLanguage name => "Unsupported language: " ++ name
  | grammar detail => "Failed to load grammar: " ++ detail
  | parse detail => "Failed to parse source: " ++ detail
  | io detail => "IO error: " ++ detail

end Error

/-- Why a file cannot be read or written. -/
inductive FileError where
  | missing
  | directory
  /-- A file is on the way where a directory would have to be. -/
  | notDirectory
  | notText
  | unexpectedNul
  | tooLong
  | other (detail : String)
  deriving DecidableEq, Repr

namespace FileError

def message : FileError → String
  | missing => "No such file or directory (os error 2)"
  | directory => "Is a directory (os error 21)"
  | notDirectory => "Not a directory (os error 20)"
  | notText => "stream did not contain valid UTF-8"
  | unexpectedNul => "file name contained an unexpected NUL byte"
  | tooLong => "File name too long (os error 36)"
  | other detail => detail

end FileError

end TreeListing
