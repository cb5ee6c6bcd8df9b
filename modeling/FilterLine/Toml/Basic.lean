import FilterLine.Text.Basic

/-!
TOML documents. A table remembers how it came to be, because that decides who may add to it: a header
may complete a table that other headers only passed through, dotted keys may add to the tables that
dotted keys made, and a table written inline is closed.
-/
namespace FilterLine

/-- How a table came to be. -/
inductive Toml.Origin where
  /-- A header names it, or it is the document. -/
  | header
  /-- A header names something below it. -/
  | implied
  /-- A dotted key leads through it. -/
  | dotted
  /-- It is written between braces. -/
  | inline
  deriving DecidableEq, Repr

/-- A TOML value. Of numbers no more is kept than whether they fit, and of dates only that they are
well formed. -/
inductive Toml where
  | string (t : Text)
  | boolean (b : Bool)
  | integer (n : Int)
  | float (overflows : Bool)
  | date
  | array (items : List Toml)
  | table (origin : Toml.Origin) (entries : List (Text × Toml))
  | tables (items : List (List (Text × Toml)))

namespace Toml

abbrev Entries := List (Text × Toml)

def setEntry (key : Text) (v : Toml) : Entries → Entries
  | [] => [(key, v)]
  | e :: es => if e.1 = key then (key, v) :: es else e :: setEntry key v es

def changeLast (f : Entries → Option Entries) (items : List Entries) : Option Toml := do
  let last ← items.getLast?
  some (.tables (items.dropLast ++ [← f last]))

/-- Adds what a key written with dots stands for to a table of some origin; `direct` tells that no
dot has been passed yet. -/
def addPair (origin : Origin) (direct : Bool) : (path : List Text) → Toml → Entries → Option Entries
  | [], _, _ => none
  | [key], v, es =>
    if (es.lookup key).isSome || (!direct && origin != .dotted) then none else some (es ++ [(key, v)])
  | key :: path, v, es =>
    match es.lookup key with
    | none => (addPair .dotted false path v []).map fun sub => es ++ [(key, .table .dotted sub)]
    | some (.table o sub) =>
      if o = .dotted ∨ o = .implied then
        (addPair o false path v sub).map fun sub => setEntry key (.table o sub) es
      else none
    | some (.tables items) =>
      (changeLast (addPair .header false path v) items).map fun u => setEntry key u es
    | some _ => none

/-- Makes the table that a header names. -/
def declareTable : (path : List Text) → Entries → Option Entries
  | [], _ => none
  | [key], es =>
    match es.lookup key with
    | none => some (es ++ [(key, .table .header [])])
    | some (.table .implied sub) => some (setEntry key (.table .header sub) es)
    | some _ => none
  | key :: path, es =>
    match es.lookup key with
    | none => (declareTable path []).map fun sub => es ++ [(key, .table .implied sub)]
    | some (.table o sub) =>
      if o = .inline then none
      else (declareTable path sub).map fun sub => setEntry key (.table o sub) es
    | some (.tables items) =>
      (changeLast (declareTable path) items).map fun u => setEntry key u es
    | some _ => none

/-- Adds an element to the list of tables that a double header names. -/
def declareElement : (path : List Text) → Entries → Option Entries
  | [], _ => none
  | [key], es =>
    match es.lookup key with
    | none => some (es ++ [(key, .tables [[]])])
    | some (.tables items) => some (setEntry key (.tables (items ++ [[]])) es)
    | some _ => none
  | key :: path, es =>
    match es.lookup key with
    | none => (declareElement path []).map fun sub => es ++ [(key, .table .implied sub)]
    | some (.table o sub) =>
      if o = .inline then none
      else (declareElement path sub).map fun sub => setEntry key (.table o sub) es
    | some (.tables items) =>
      (changeLast (declareElement path) items).map fun u => setEntry key u es
    | some _ => none

def within (f : Entries → Option Entries) : (path : List Text) → Entries → Option Entries
  | [], es => f es
  | key :: path, es =>
    match es.lookup key with
    | some (.table o sub) => (within f path sub).map fun sub => setEntry key (.table o sub) es
    | some (.tables items) => (changeLast (within f path) items).map fun u => setEntry key u es
    | _ => none

mutual

/-- Whether all numbers in a value fit: integers into 128 bits, with or without sign, and floats into
the finite double precision numbers. -/
def fits : Toml → Bool
  | integer n => -170141183460469231731687303715884105728 ≤ n &&
    n < 340282366920938463463374607431768211456
  | float overflows => !overflows
  | array items => fitsAll items
  | table _ entries => fitsEntries entries
  | tables items => fitsTables items
  | string _ | boolean _ | date => true

def fitsAll : List Toml → Bool
  | [] => true
  | v :: vs => fits v && fitsAll vs

def fitsEntries : List (Text × Toml) → Bool
  | [] => true
  | (_, v) :: es => fits v && fitsEntries es

def fitsTables : List (List (Text × Toml)) → Bool
  | [] => true
  | es :: ts => fitsEntries es && fitsTables ts

end

end Toml
end FilterLine
