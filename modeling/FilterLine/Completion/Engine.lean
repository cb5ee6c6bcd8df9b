import FilterLine.Completion.Candidates
import FilterLine.Completion.Paths
import FilterLine.Schema.Cache

/-!
Completion in front of a cache: the questions about the tool are answered by the cache, those about
paths by a path source. A directory that cannot be listed gives no candidates and goes into the
journal; a query that fails fails the request.
-/
namespace FilterLine

/-- Completes the start of a path after some events, or tells which directory could not be listed
and why. -/
abbrev PathSource := (past : List Event) → (start : Text) → Except (Text × FileError) (List Text)

def PathSource.fixed (reply : (start : Text) → Except (Text × FileError) (List Text)) : PathSource :=
  fun _ => reply

namespace Engine

variable (tool : Tool) (paths : PathSource)

def answer : (q : Question) → Act q.Answer
  | .filters => Cache.filters tool
  | .modules => Cache.modules tool
  | .props => Cache.props tool
  | .protocols => Cache.protocols tool
  | .filterArgs filter => Cache.filterArgs tool filter
  | .argument filter argument => Cache.argument tool filter argument
  | .shorthands filter => Cache.shorthands tool filter
  | .paths start => do
    match paths (← get).journal start with
    | .ok found => pure found
    | .error (directory, e) =>
      Cache.note (.unlisted directory e)
      pure []

/-- Completes a line with the cursor after `cursor` characters. -/
def complete (line : Text) (cursor : Nat) : Act (List Text) :=
  (candidates line cursor).run (answer tool paths)

end Engine
end FilterLine
