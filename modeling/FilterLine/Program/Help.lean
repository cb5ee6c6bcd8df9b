import FilterLine.Listing.Answer

/-!
The tool as a program that is started once for each query, with the arguments that make it print the
help which holds the answer. Malformed output is decoded leniently; a program that cannot be started
or that fails is a failed query.
-/
namespace FilterLine

/-- What a program leaves behind. Without a status it was ended by a signal. -/
structure Finished where
  out : Bytes := []
  err : Bytes := []
  status : Option Nat
  deriving DecidableEq, Repr

/-- Runs a program with arguments, or tells why it cannot be started. -/
abbrev Runner := (program : Text) → (arguments : List Text) → Except Text Finished

namespace Program

/-- The arguments that make the tool print the answer to a query. -/
def arguments : Query → List Text
  | .version => []
  | .filters => ["-h", "filters"]
  | .modules => ["-h", "modules"]
  | .props => ["-h", "props"]
  | .protocols => ["-ha", "protocols", "-logs=ncl"]
  | .filterArgs filter => ["-h", filter ++ ".*", "-logs=ncl"]
  | .argument filter argument => ["-h", filter ++ ['.'] ++ argument]

def command (binary : Text) (q : Query) : Text :=
  (binary ++ [' '] ++ Text.join [' '] (arguments q)).trimEndWhile isBlank

/-- The output that holds the answer: the banner with the version goes to the error stream. -/
def output (q : Query) (f : Finished) : Text :=
  match q with
  | .version => Utf8.decodeLossy f.out ++ Utf8.decodeLossy f.err
  | _ => Utf8.decodeLossy f.out

/-- Runs the query: the output, or why there is none. -/
def run (runner : Runner) (binary : Text) (q : Query) : Except ToolError Text :=
  match runner binary (arguments q) with
  | .error reason => .error (.spawn (command binary q) reason)
  | .ok f =>
    if f.status = some 0 then .ok (output q f) else .error (.exit (command binary q) f.status)

def tool (runner : Runner) (binary : Text) : Tool :=
  .fixed fun q => (run runner binary q).map (Listing.answer q)

def remark? (runner : Runner) (binary : Text) (q : Query) : Option Text :=
  match run runner binary q with
  | .ok t => Listing.remark? q t
  | .error _ => none

end Program
end FilterLine
