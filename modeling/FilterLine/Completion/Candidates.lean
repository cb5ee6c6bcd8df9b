import FilterLine.Line.Context
import FilterLine.Completion.Clause

/-!
The candidates of each context, in the order in which the tool lists the names. Candidates that end a
word carry a space, those that go on carry the separator.
-/
namespace FilterLine

open Text

/-- The flags offered before anything of one is typed. -/
def globalFlags : List Text :=
  ["-h", "-help", "-netcap=", "-graph", "-stats", "-src", "-i", "-logs", "-dst", "-o"]

/-- The flags that a partial flag is completed to. -/
def prefixFlags : List Text :=
  ["-h", "-hx", "-help", "-netcap=", "-graph", "-stats", "-src", "-i", "-logs", "-dst", "-o"]

def helpTopics : List Text :=
  ["doc", "alias", "log", "core", "cfg", "net", "prompt", "modules", "module", "creds", "filters",
    "codecs", "formats", "protocols", "props", "colors", "layouts", "links", "defer"]

/-- The items ended by a space, and a lone space for nothing more. -/
def closed (start : Text) (items : List Text) : List Text :=
  (startingWith start (items ++ [[]])).map (· ++ [' '])

def filterHelp (filter word : Text) (args : List ArgumentSpec) : List Text :=
  if word = filter then
    (filter ++ [' ']) :: if args.isEmpty then [] else [filter ++ ['.']]
  else match after? (filter ++ ['.']) word with
    | some rest =>
      (startingWith rest (args.map (·.name))).map fun name => filter ++ ['.'] ++ name ++ [' ']
    | none => []

/-- Candidates after a help flag: help on a filter when the word names one, else the topics and
filters that begin with the word. -/
def helpCandidates (word : Text) : Inquiry (List Text) := do
  let filters ← Inquiry.question .filters
  let topics := (startingWith word helpTopics).map (· ++ [' ']) ++ startingWith word filters
  let filter := beforeFirst '.' word
  if filter ∈ filters then
    match filterHelp filter word (← Inquiry.question (.filterArgs filter)) with
    | [] => pure topics
    | found => pure found
  else pure topics

/-- Candidates for an endpoint: the schemes of the protocols that can be used in its direction, then
paths. -/
def endpointCandidates (usable : Protocol → Bool) (start : Text) : Inquiry (List Text) := do
  let protocols ← Inquiry.question .protocols
  let schemes := (protocols.filter usable).map fun p => p.name ++ [':', '/', '/']
  pure (startingWith start schemes ++ (← Inquiry.question (.paths start)))

def Context.candidates : Context → Inquiry (List Text)
  | moduleName word => do pure (closed word (← Inquiry.question .modules))
  | linkedFilter word => do pure (closed word (← Inquiry.question .filters))
  | property word => do pure (closed word (← Inquiry.question .props))
  | helpTopic word => helpCandidates word
  | inputEndpoint word => endpointCandidates Protocol.canRead word
  | outputEndpoint word => endpointCandidates Protocol.canWrite word
  | start => do pure (globalFlags ++ (← Inquiry.question .filters))
  | flag word => pure (if word = ['-'] then globalFlags else startingWith word prefixFlags)
  | filterClause word quoteSynthesized => do
    match ← clauseCandidates word quoteSynthesized with
    | [] => pure (startingWith word (← Inquiry.question .filters))
    | found => pure found

def candidates (line : Text) (cursor : Nat) : Inquiry (List Text) :=
  (Context.ofCursor line cursor).candidates

end FilterLine
