import FilterLine.Files.Entry
import FilterLine.Files.Tree

/-!
A tree with a working directory, and what a path means in it. A path is read from the working
directory, or from the root if it begins with a slash: empty parts and `.` stay where they are, `..`
goes up, and a part after something that is no directory fails.
-/
namespace FilterLine

/-- A tree, and the names that lead to the working directory. -/
structure Disk where
  root : Tree := .empty
  here : List Text := []

namespace Disk

/-- The longest name, in bytes. -/
def maxNameBytes : Nat := 255

def at? (d : Disk) (names : List Text) : Option Tree := d.root.at? names

def put (d : Disk) (names : List Text) (t : Tree) : Disk := { d with root := d.root.put names t }

/-- The names that a list of path parts leads along, from `place` on. -/
def follow (d : Disk) (place : List Text) : List Text → Except FileError (List Text)
  | [] => .ok place
  | part :: parts =>
    match d.at? place with
    | some (.directory entries) =>
      if part = [] ∨ part = ['.'] then d.follow place parts
      else if part = ['.', '.'] then d.follow place.dropLast parts
      else if maxNameBytes < Utf8.size part then .error .nameTooLong
      else if (entries.lookup part).isSome then d.follow (place ++ [part]) parts
      else .error .notFound
    | _ => .error .notADirectory

def start (d : Disk) (path : Text) : List Text := if path.head? = some '/' then [] else d.here

def parts (path : Text) : Except FileError (List Text) :=
  if '\x00' ∈ path then .error .nulByte
  else if path = [] then .error .notFound
  else .ok (Text.splitAll '/' path)

/-- The names that a path leads along. -/
def locate (d : Disk) (path : Text) : Except FileError (List Text) := do
  d.follow (d.start path) (← parts path)

def find (d : Disk) (path : Text) : Except FileError Tree := do
  match d.at? (← d.locate path) with
  | some t => .ok t
  | none => .error .notFound

def holds (d : Disk) (path : Text) : Bool := (d.find path).toOption.isSome

def isFile (d : Disk) (path : Text) : Bool :=
  match d.find path with
  | .ok (.file _) => true
  | _ => false

def read (d : Disk) (path : Text) : Except FileError Bytes := do
  match ← d.find path with
  | .file content => .ok content
  | .directory _ => .error .isADirectory

def readText (d : Disk) (path : Text) : Except FileError Text := do
  match Utf8.decode? (← d.read path) with
  | some text => .ok text
  | none => .error .malformedUtf8

def list (d : Disk) (path : Text) : Except FileError (List Entry) := do
  match ← d.find path with
  | .directory entries => .ok (entries.map fun e => ⟨e.1, e.2.isDirectory⟩)
  | .file _ => .error .notADirectory

/-- The names of the directory that holds the last part of a path, and that part. -/
def locateParent (d : Disk) (path : Text) : Except FileError (List Text × Text) := do
  let parts ← parts path
  let place ← d.follow (d.start path) parts.dropLast
  match d.at? place with
  | some (.directory _) => .ok (place, parts.getLast?.getD [])
  | _ => .error .notADirectory

/-- Writes the file at a path: `change` gives its new content from the old one. -/
def writeWith (d : Disk) (path : Text) (change : Bytes → Bytes) : Except FileError Disk := do
  let (place, name) ← d.locateParent path
  if name = [] ∨ name = ['.'] ∨ name = ['.', '.'] then .error .isADirectory
  else if maxNameBytes < Utf8.size name then .error .nameTooLong
  else match d.at? (place ++ [name]) with
    | some (.directory _) => .error .isADirectory
    | some (.file content) => .ok (d.put (place ++ [name]) (.file (change content)))
    | none => .ok (d.put (place ++ [name]) (.file (change [])))

def write (d : Disk) (path : Text) (content : Bytes) : Except FileError Disk :=
  d.writeWith path fun _ => content

def append (d : Disk) (path : Text) (content : Bytes) : Except FileError Disk :=
  d.writeWith path (· ++ content)

def remove (d : Disk) (path : Text) : Except FileError Disk := do
  let names ← d.locate path
  match d.at? names with
  | some (.file _) => .ok { d with root := d.root.erase names }
  | some (.directory _) => .error .isADirectory
  | none => .error .notFound

/-- The parts of a path that go somewhere. -/
def movingParts (path : Text) : List Text :=
  (Text.splitAll '/' path).filter fun part => part ≠ [] ∧ part ≠ ['.']

def makeDirectory (d : Disk) (place parts : List Text) : Except FileError Disk := do
  let above ← d.follow place parts.dropLast
  let name := parts.getLast?.getD []
  match d.at? above with
  | some (.directory entries) =>
    if name = [] ∨ name = ['.', '.'] then .error .exists
    else if maxNameBytes < Utf8.size name then .error .nameTooLong
    else if (entries.lookup name).isSome then .error .exists
    else .ok (d.put (above ++ [name]) .empty)
  | _ => .error .notADirectory

/-- Makes a directory and those above it, the path parts given from the last to the first. Where a
directory stands already there is nothing to do. -/
def makeDirectories (d : Disk) (place : List Text) : (reversed : List Text) → Except FileError Disk
  | [] => .ok d
  | name :: above =>
    let parts := (name :: above).reverse
    let standing (d : Disk) : Bool := match d.follow place (parts ++ [[]]) with
      | .ok names => (d.at? names).any Tree.isDirectory
      | .error _ => false
    match d.makeDirectory place parts with
    | .ok d => .ok d
    | .error .notFound => do
      let d ← makeDirectories d place above
      match d.makeDirectory place parts with
      | .ok d => .ok d
      | .error e => if standing d then .ok d else .error e
    | .error e => if standing d then .ok d else .error e

/-- Makes the directories above the file that a path names. -/
def makeParents (d : Disk) (path : Text) : Except FileError Disk :=
  if '\x00' ∈ path then .error .nulByte
  else d.makeDirectories (d.start path) (movingParts path).reverse.tail

end Disk
end FilterLine
