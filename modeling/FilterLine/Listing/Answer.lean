import FilterLine.Listing.Lines
import FilterLine.Listing.Mark
import FilterLine.Schema.Tool
import FilterLine.Text.Utf8

/-!
The answers that the help output of the tool holds. Output of an unexpected shape is an empty
answer, never a failure, and is remarked on.
-/
namespace FilterLine.Listing

open Text

/-- The type of an argument, which follows its marked name at the start of a text. -/
def argumentKind? (name t : Text) : Option ArgType := do
  let r ← after? (green ++ name ++ plain) t
  (typeTag? (← afterBlanks? ['('] r)).map ArgType.ofTag

/-- The detail of an argument: its type, and the marked literals of an enumeration. -/
def argumentDetail (name t : Text) : ArgumentDetail :=
  match argumentKind? name t with
  | none => { kind := none }
  | some .enum => { kind := some .enum, values := Mark.literal.names t }
  | some kind => { kind := some kind }

def answer : (q : Query) → Text → q.Answer
  | .version, t => version? t
  | .filters, t => Mark.filter.names t
  | .modules, t => Mark.moduleName.names t
  | .props, t => Mark.property.names t
  | .protocols, t => protocols t
  | .filterArgs _, t => arguments t
  | .argument _ name, t => argumentDetail name t

def emptyRemark (what : Text) (t : Text) : Text :=
  "no " ++ what ++ " found in tool output (" ++ decimal (Utf8.size t) ++
    " bytes), treating as empty"

/-- The remark on output in which the answer to a query could not be found. -/
def remark? : Query → Text → Option Text
  | .version, t =>
    if (version? t).isNone then some "could not find a version string in tool output" else none
  | .filters, t => if Mark.filter.names t = [] then some (emptyRemark "filters" t) else none
  | .modules, t => if Mark.moduleName.names t = [] then some (emptyRemark "modules" t) else none
  | .props, t => if Mark.property.names t = [] then some (emptyRemark "properties" t) else none
  | .protocols, t => if protocols t = [] then some (emptyRemark "protocols" t) else none
  | .filterArgs _, _ => none
  | .argument _ name, t =>
    if (argumentKind? name t).isNone then
      some ("no type found for argument '" ++ name ++ "' in tool output")
    else none

end FilterLine.Listing
