import FilterLine.Line.CommandLine
import FilterLine.Text.Literal

/-!
What the word under the cursor can become. The finished words drive a small state machine, in which
a help flag is never left again; its last state and the current word give the context.
-/
namespace FilterLine

/-- What the finished words of a line expect next. -/
inductive Expectation where
  | clause
  | input
  | output
  | help
  | helpModule
  | helpLink
  | helpProperty
  deriving DecidableEq, Repr

namespace Expectation

def isHelp : Expectation → Bool
  | help | helpModule | helpLink | helpProperty => true
  | clause | input | output => false

def step (e : Expectation) (word : Text) : Expectation :=
  if word ∈ helpFlags then help
  else if e.isHelp then
    if word = ("modules" : Text) ∨ word = ("module" : Text) then helpModule
    else if word = ("links" : Text) then helpLink
    else if word = ("props" : Text) then helpProperty
    else help
  else if word = ("-i" : Text) ∨ word = ("-src" : Text) then input
  else if word = ("-o" : Text) ∨ word = ("-dst" : Text) then output
  else clause

def run (words : List Text) : Expectation := words.foldl step clause

/-- Help that has been asked for is not taken back. -/
theorem isHelp_step {e : Expectation} (h : e.isHelp = true) (word : Text) :
    (e.step word).isHelp = true := by
  simp only [step, h, if_true]
  repeat' split
  all_goals rfl

end Expectation

inductive Context where
  | moduleName (start : Text)
  | linkedFilter (start : Text)
  | property (start : Text)
  | helpTopic (start : Text)
  | inputEndpoint (start : Text)
  | outputEndpoint (start : Text)
  | start
  | flag (start : Text)
  | filterClause (word : Text) (quoteSynthesized : Bool)
  deriving DecidableEq, Repr

namespace Context

/-- The context of a word that follows neither a help flag nor an endpoint flag. -/
def ofWord (word : Text) (quoteSynthesized : Bool) : Context :=
  match Text.after? "src=" word, Text.after? "dst=" word, word with
  | some rest, _, _ => inputEndpoint rest
  | none, some rest, _ => outputEndpoint rest
  | none, none, [] => start
  | none, none, '-' :: _ => flag word
  | none, none, _ => filterClause word quoteSynthesized

def ofExpectation (e : Expectation) (word : Text) (quoteSynthesized : Bool) : Context :=
  match e with
  | .helpModule => moduleName word
  | .helpLink => linkedFilter word
  | .helpProperty => property word
  | .help => helpTopic word
  | .input => inputEndpoint word
  | .output => outputEndpoint word
  | .clause => ofWord word quoteSynthesized

def ofLine (l : CommandLine) : Context :=
  ofExpectation (Expectation.run l.before) l.current l.quoteSynthesized

/-- The context of a line with the cursor after `cursor` characters. -/
def ofCursor (line : Text) (cursor : Nat) : Context := ofLine (CommandLine.parse line cursor)

private def showField (name field : Text) (value : Text) : Text :=
  name ++ [' ', '\x7b', ' '] ++ field ++ [':', ' '] ++ value.literal ++ [' ', '\x7d']

def describe : Context → Text
  | moduleName t => showField "Module" "prefix" t
  | linkedFilter t => showField "LinkedFilter" "prefix" t
  | property t => showField "Property" "prefix" t
  | helpTopic t => showField "HelpTopic" "prefix" t
  | inputEndpoint t => showField "InputEndpoint" "prefix" t
  | outputEndpoint t => showField "OutputEndpoint" "prefix" t
  | start => "Start"
  | flag t => showField "Flag" "prefix" t
  | filterClause w q =>
    "FilterClause " ++ ['\x7b'] ++ " word: " ++ w.literal ++ ", quote_synthesized: " ++
      (if q then "true" else "false") ++ [' ', '\x7d']

end Context
end FilterLine
