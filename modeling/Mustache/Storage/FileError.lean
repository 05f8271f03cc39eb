/-!
# File errors

Why an operation on files can fail, with the text under which the operating system reports it.
-/

namespace Mustache

/-- Why an operation on files failed. -/
inductive FileError where
  /-- A part of the path does not exist. -/
  | notFound
  /-- The operation was interrupted by the device. -/
  | device
  /-- Something of this name exists. -/
  | alreadyExists
  /-- A part of the path is no directory. -/
  | notDirectory
  /-- The path names a directory. -/
  | isDirectory
  /-- A part of the path, or all of it, is too long. -/
  | nameTooLong
  /-- The directory is not empty. -/
  | notEmpty
  /-- The content of the file is no UTF-8. -/
  | notText
  /-- The path holds the character of code zero. -/
  | nulInName
  deriving Repr, DecidableEq, Inhabited

/-- What is said about a failed operation on files. -/
def FileError.message : FileError → String
  | .notFound => "No such file or directory (os error 2)"
  | .device => "Input/output error (os error 5)"
  | .alreadyExists => "File exists (os error 17)"
  | .notDirectory => "Not a directory (os error 20)"
  | .isDirectory => "Is a directory (os error 21)"
  | .nameTooLong => "File name too long (os error 36)"
  | .notEmpty => "Directory not empty (os error 39)"
  | .notText => "stream did not contain valid UTF-8"
  | .nulInName => "file name contained an unexpected NUL byte"

end Mustache
