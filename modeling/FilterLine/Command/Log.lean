import FilterLine.Config.LogLevel
import FilterLine.Line.Context
import FilterLine.Program.Help
import FilterLine.Schema.CacheFile

/-!
The log. A line has a level and a message; a logger writes the lines of its own level and of the
quieter ones, with control characters that could steer a terminal spelled out.
-/
namespace FilterLine

structure LogLine where
  level : LogLevel
  message : Text
  deriving DecidableEq, Repr

/-- Which lines are written, and what is put in front of each. -/
structure Logger where
  level : LogLevel
  stamp : Text
  deriving DecidableEq, Repr

namespace LogLine

/-- The level as it stands in a line, five characters wide. -/
def label : LogLevel → Text
  | .error => "ERROR"
  | .warn => " WARN"
  | .info => " INFO"
  | .debug => "DEBUG"
  | .trace => "TRACE"

/-- A character of a message: those that steer a terminal are spelled out. -/
def escapeChar (c : Char) : Text :=
  if c = '\x1b' then "\\x1b"
  else if c = '\x07' then "\\x07"
  else if c = '\x08' then "\\x08"
  else if c = '\x0c' then "\\x0c"
  else if c = '\x7f' then "\\x7f"
  else if 0x80 ≤ c.toNat ∧ c.toNat ≤ 0x9F then
    "\\u" ++ '\x7b' :: Nat.toDigits 16 c.toNat ++ ['\x7d']
  else [c]

def render (logger : Logger) (l : LogLine) : Text :=
  logger.stamp ++ label l.level ++ ' ' :: l.message.flatMap escapeChar ++ ['\n']

def showVersion : Option Text → Text
  | some v => "Some(" ++ v.literal ++ [')']
  | none => "None"

def context (c : Context) : LogLine := ⟨.debug, "completion context: " ++ c.describe⟩

def count (n : Nat) : LogLine := ⟨.debug, Text.decimal n ++ " candidates"⟩

def ofLoaded (path : Text) : CacheFile.Loaded → List LogLine
  | .held _ => []
  | .unreadable e => [⟨.debug, "no usable schema cache at " ++ path ++ ": " ++ e.message⟩]
  | .corrupt content =>
    [⟨.warn, "discarding corrupt schema cache " ++ path ++ ": " ++ Snapshot.faultMessage content⟩]

def unwritten (path : Text) (e : FileError) : LogLine :=
  ⟨.warn, "failed to write schema cache " ++ path ++ ": I/O error: " ++ e.message⟩

/-- The lines about an event, the tool being a program. -/
def ofEvent (runner : Runner) (binary : Text) : Event → List LogLine
  | .asked q =>
    ⟨.debug, "running " ++ Program.command binary q⟩ ::
      (Program.remark? runner binary q).toList.map (⟨.warn, ·⟩)
  | .outdated held live =>
    [⟨.debug, "schema cache version " ++ showVersion held ++ " does not match tool version " ++
      showVersion live ++ ", resetting"⟩]
  | .offered _ => []
  | .unlisted directory e => [⟨.debug, "cannot list " ++ directory ++ ": " ++ e.message⟩]

end LogLine
end FilterLine
