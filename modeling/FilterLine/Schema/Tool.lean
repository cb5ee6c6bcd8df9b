import FilterLine.Schema.Record

/-!
The tool as seen from here: something that answers queries or fails, possibly in a way that depends
on the queries it has had before.
-/
namespace FilterLine

/-- A question to the tool. -/
inductive Query where
  | version
  | filters
  | modules
  | props
  | protocols
  | filterArgs (filter : Text)
  | argument (filter argument : Text)
  deriving DecidableEq, Repr

abbrev Query.Answer : Query → Type
  | version => Option Text
  | filters | modules | props => List Text
  | protocols => List Protocol
  | filterArgs _ => List ArgumentSpec
  | argument _ _ => ArgumentDetail

/-- Why a query failed: the command could not be started, or it ended badly. A command without an
exit status was ended by a signal. -/
inductive ToolError where
  | spawn (command reason : Text)
  | exit (command : Text) (status : Option Nat)
  deriving DecidableEq, Repr

def ToolError.message : ToolError → Text
  | spawn command reason => "failed to run '" ++ command ++ "': " ++ reason
  | exit command (some status) =>
    "'" ++ command ++ "' exited with status " ++ Text.decimal status
  | exit command none => "'" ++ command ++ "' was terminated by a signal"

/-- A tool answers a query in the light of the queries before it. -/
abbrev Tool := (past : List Query) → (q : Query) → Except ToolError q.Answer

def Tool.fixed (reply : (q : Query) → Except ToolError q.Answer) : Tool := fun _ => reply

end FilterLine
