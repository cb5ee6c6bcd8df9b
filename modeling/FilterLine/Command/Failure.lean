import FilterLine.Config.Basic
import FilterLine.Schema.Tool
import FilterLine.Files.FileError

/-!
The reasons for which a command ends without doing its work.
-/
namespace FilterLine

inductive Failure where
  /-- The tool could not be asked. -/
  | tool (e : ToolError)
  | config (e : ConfigError)
  | file (e : FileError)
  deriving DecidableEq, Repr

def Failure.message : Failure → Text
  | tool e => "Adapter error: " ++ e.message
  | config e => "Configuration error: " ++ e.message
  | file e => "I/O error: " ++ e.message

end FilterLine
