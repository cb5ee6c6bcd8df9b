import FilterLine.Schema.Record

/-!
The literals that may stand for `argument=literal`. A literal qualifies when the enumerations of
just one argument list it and no argument has it as its name. The literals are tallied as the
enumerations are read, and one met under a second argument is banned for good.
-/
namespace FilterLine

/-- The literals that qualify so far, and those banned. -/
structure Tally where
  kept : List EnumShorthand := []
  banned : List Text := []
  deriving DecidableEq, Repr

namespace Tally

/-- Counts one literal listed under an argument. -/
def add (names : List Text) (argument : Text) (t : Tally) (literal : Text) : Tally :=
  if literal ∈ t.banned then t
  else match t.kept.find? (·.literal == literal) with
    | some s =>
      if s.argument = argument then t
      else { kept := t.kept.filter (·.literal != literal), banned := literal :: t.banned }
    | none =>
      if literal ∈ names then t else { t with kept := t.kept ++ [⟨literal, argument⟩] }

def addAll (names : List Text) (t : Tally) (listed : Text × List Text) : Tally :=
  listed.2.foldl (add names listed.1) t

end Tally

/-- The shorthands of a filter whose arguments have these names and whose enumerations, in order,
list these literals. -/
def EnumShorthand.derive (names : List Text) (listed : List (Text × List Text)) :
    List EnumShorthand :=
  (listed.foldl (Tally.addAll names) {}).kept

end FilterLine
