import FilterLine.Files.FileError

/-!
What the listing of a directory says about each of its entries.
-/
namespace FilterLine

structure Entry where
  name : Text
  isDirectory : Bool
  deriving DecidableEq, Repr

/-- Lists the directory at a path. -/
abbrev Lister := (path : Text) → Except FileError (List Entry)

end FilterLine
