import FilterLine.Text.Basic

/-!
The reasons for which a file or directory cannot be used, each with the text that reports it.
-/
namespace FilterLine

inductive FileError where
  | notFound
  | permissionDenied
  | exists
  | notADirectory
  | isADirectory
  | nameTooLong
  | nulByte
  | malformedUtf8
  | other (message : Text)
  deriving DecidableEq, Repr

def FileError.message : FileError → Text
  | .notFound => "No such file or directory (os error 2)"
  | .permissionDenied => "Permission denied (os error 13)"
  | .exists => "File exists (os error 17)"
  | .notADirectory => "Not a directory (os error 20)"
  | .isADirectory => "Is a directory (os error 21)"
  | .nameTooLong => "File name too long (os error 36)"
  | .nulByte => "file name contained an unexpected NUL byte"
  | .malformedUtf8 => "stream did not contain valid UTF-8"
  | .other m => m

end FilterLine
