import FilterLine.Text.Blank

/-!
How much is logged. Each level includes the ones before it.
-/
namespace FilterLine

inductive LogLevel where
  | error
  | warn
  | info
  | debug
  | trace
  deriving DecidableEq, Repr

namespace LogLevel

/-- The levels, from the quietest to the most talkative. -/
def all : List LogLevel := [error, warn, info, debug, trace]

def rank : LogLevel → Nat
  | error => 0
  | warn => 1
  | info => 2
  | debug => 3
  | trace => 4

/-- Whether a logger of some level writes the lines of another one. -/
def shows (logger line : LogLevel) : Bool := line.rank ≤ logger.rank

def name : LogLevel → Text
  | error => "error"
  | warn => "warn"
  | info => "info"
  | debug => "debug"
  | trace => "trace"

def ofName? (t : Text) : Option LogLevel := all.find? (·.name == t)

/-- The level that the value of an environment variable names, in any case and with blanks around
it. Only ASCII letters have a lower case that occurs in a name. -/
def ofVariable? (t : Text) : Option LogLevel :=
  let t := t.trim.map Char.toLower
  if t = ("warning" : Text) then some warn else ofName? t

theorem ofName?_name (l : LogLevel) : ofName? l.name = some l := by cases l <;> rfl

end LogLevel
end FilterLine
