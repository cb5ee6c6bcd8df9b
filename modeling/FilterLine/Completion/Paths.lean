import FilterLine.Files.Entry

/-!
Completion of paths in the manner of a shell: directories end in a slash and other entries in a
space, spaces inside a name are escaped, and a leading `~` stands for the home directory during the
look-up and stays in the result. Candidates come in increasing order.
-/
namespace FilterLine

namespace Paths

open Text

def unescape : Text → Text
  | [] => []
  | '\\' :: ' ' :: r => ' ' :: unescape r
  | c :: r => c :: unescape r

def escape (t : Text) : Text := t.flatMap fun c => if c = ' ' then ['\\', ' '] else [c]

/-- A text taken as the start of a path: the directory to list, as written and with its last slash,
what the names must begin with, and the home directory the text was written relative to. -/
structure Request where
  directory : Text
  base : Text
  home : Option Text
  deriving DecidableEq, Repr

/-- The home directory without slashes at its end, and the text with `~` replaced by it. A lone `~`
is taken as `~/`. -/
def expandTilde (home : Option Text) (t : Text) : Text × Option Text :=
  match home, t with
  | some h, ['~'] =>
    let h := trimEndWhile (· == '/') h
    (h ++ ['/'], some h)
  | some h, '~' :: '/' :: r =>
    let h := trimEndWhile (· == '/') h
    (h ++ '/' :: r, some h)
  | _, _ => (t, none)

def Request.ofStart (home : Option Text) (start : Text) : Request :=
  let expanded := expandTilde home (unescape start)
  let cut := cutAfterLast '/' expanded.1
  { directory := cut.1, base := cut.2, home := expanded.2 }

def Request.listing (r : Request) : Text := if r.directory = [] then ['.'] else r.directory

/-- Whether an entry answers the request. Hidden entries answer when a leading dot is typed. -/
def Request.admits (r : Request) (onlyDirectories : Bool) (e : Entry) : Bool :=
  r.base.isPrefixOf e.name && (e.name.head? != some '.' || r.base.head? == some '.') &&
    (!onlyDirectories || e.isDirectory)

def Request.render (r : Request) (e : Entry) : Text :=
  let full := r.directory ++ e.name
  let shown := match r.home with
    | some home => '~' :: full.drop home.length
    | none => full
  escape shown ++ [if e.isDirectory then '/' else ' ']

/-- The links of a directory to itself and to the one above. -/
def links : List Entry := [⟨['.'], true⟩, ⟨['.', '.'], true⟩]

def Request.candidates (r : Request) (onlyDirectories : Bool) (entries : List Entry) : List Text :=
  let found := (entries ++ links).filter (r.admits onlyDirectories)
  (found.map r.render).mergeSort fun a b => !decide (b < a)

/-- The candidates for the start of a path, or the directory that could not be listed and why. -/
def complete (list : Lister) (home : Option Text) (start : Text) (onlyDirectories : Bool) :
    Except (Text × FileError) (List Text) :=
  let r := Request.ofStart home start
  match list r.listing with
  | .ok entries => .ok (r.candidates onlyDirectories entries)
  | .error e => .error (r.listing, e)

end Paths
end FilterLine
