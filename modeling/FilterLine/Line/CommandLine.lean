import FilterLine.Line.Quoting

/-!
A command line cut at the cursor. The last word is the one being typed; a quoted span left open at
the cursor is closed for the analysis, and the line remembers that it was.
-/
namespace FilterLine

/-- The words of a line up to the cursor. -/
structure CommandLine where
  words : List Text
  quoteSynthesized : Bool
  deriving DecidableEq, Repr

def helpFlags : List Text := ["-h", "-help", "-ha", "-hx", "-hh"]

namespace CommandLine

def parse (line : Text) (cursor : Nat) : CommandLine :=
  let text := line.take cursor
  let quoted := Line.endsQuoted text
  { words := Line.words (if quoted then text ++ ['"'] else text), quoteSynthesized := quoted }

/-- The word under the cursor, empty when none has begun. -/
def current (l : CommandLine) : Text := l.words.getLast?.getD []

def before (l : CommandLine) : List Text := l.words.dropLast

def previous (l : CommandLine) : Text := l.before.getLast?.getD []

def helpRequested (l : CommandLine) : Bool := l.before.any helpFlags.contains

end CommandLine
end FilterLine
