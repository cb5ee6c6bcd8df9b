import FilterLine.Text.Basic
import FilterLine.Text.Utf8

/-!
Trees of directories and files, addressed by lists of names.
-/
namespace FilterLine

/-- A file with its content, or a directory with its entries. -/
inductive Tree where
  | file (content : Bytes)
  | directory (entries : List (Text × Tree))

namespace Tree

def empty : Tree := directory []

instance : Inhabited Tree := ⟨empty⟩

def isDirectory : Tree → Bool
  | directory _ => true
  | file _ => false

def child? : Tree → Text → Option Tree
  | directory entries, name => entries.lookup name
  | file _, _ => none

def at? (t : Tree) : List Text → Option Tree
  | [] => some t
  | name :: names => (t.child? name).bind (·.at? names)

/-- Puts an entry under a name, in place of the one that was there. -/
def putChild (name : Text) (t : Tree) : List (Text × Tree) → List (Text × Tree)
  | [] => [(name, t)]
  | e :: r => if e.1 = name then (name, t) :: r else e :: putChild name t r

/-- Puts a tree where the names lead, making the directories on the way. -/
def put (t : Tree) : List Text → Tree → Tree
  | [], u => u
  | name :: names, u =>
    let entries := match t with
      | directory entries => entries
      | file _ => []
    directory (putChild name (put ((entries.lookup name).getD empty) names u) entries)

def erase (t : Tree) : List Text → Tree
  | [] => t
  | [name] => match t with
    | directory entries => directory (entries.filter (·.1 ≠ name))
    | file _ => t
  | name :: names => match t with
    | directory entries => match entries.lookup name with
      | some u => directory (putChild name (erase u names) entries)
      | none => t
    | file _ => t

end Tree
end FilterLine
