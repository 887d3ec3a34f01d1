/-!
# Errors of files

What the host answers when something is wrong with a file or with the path to it.
-/

namespace Tariff

/-- What can go wrong with a file. -/
inductive FileError where
  | notFound
  | isDirectory
  | notDirectory
  | alreadyExists
  | notText
  /-- A path that no file can have, or not for this operation. -/
  | invalidPath
  | nameTooLong
  | other (message : String)
deriving DecidableEq, Repr

/-- The error in words. -/
def FileError.message : FileError → String
  | .notFound => "no such file or directory"
  | .isDirectory => "is a directory"
  | .notDirectory => "not a directory"
  | .alreadyExists => "already exists"
  | .notText => "not valid UTF-8"
  | .invalidPath => "invalid path"
  | .nameTooLong => "file name too long"
  | .other message => message

end Tariff
