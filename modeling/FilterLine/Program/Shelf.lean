import FilterLine.Files.Disk
import FilterLine.Program.Help

/-!
A shelf of programs whose behaviour is known in advance. A program is taken from the shelf by its
name; a name with a slash is a path instead, and no file of the disk can be run.
-/
namespace FilterLine

/-- Programs, each with what it leaves behind for some arguments joined by spaces. -/
abbrev Shelf := List (Text × List (Text × Finished))

namespace Shelf

def pathFailure (files : Disk) (path : Text) : FileError :=
  match files.find path with
  | .ok _ => .permissionDenied
  | .error e => e

/-- Starts a program of the shelf. For arguments it does not know it fails silently. -/
def runner (shelf : Shelf) (files : Disk) : Runner := fun program arguments =>
  if '\x00' ∈ program ∨ arguments.any (fun a => a.contains '\x00') then
    .error "nul byte found in provided data"
  else if '/' ∈ program then .error (pathFailure files program).message
  else if program = ['.'] ∨ program = ['.', '.'] then .error FileError.permissionDenied.message
  else match shelf.lookup program with
    | some entries =>
      .ok ((entries.lookup (Text.join [' '] arguments)).getD { status := some 1 })
    | none =>
      .error (if Disk.maxNameBytes < Utf8.size program then FileError.nameTooLong else .notFound).message

end Shelf
end FilterLine
