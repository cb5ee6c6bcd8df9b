import FilterLine.Schema.ArgType

/-!
The records that describe the tool: the arguments of a filter, the detail of one argument, the
literals that stand for an argument and its value, and the protocols.
-/
namespace FilterLine

structure ArgumentSpec where
  name : Text
  kind : ArgType
  deriving DecidableEq, Repr

/-- The resolved type of an argument, when the tool gives one, and the literals of an enumeration. -/
structure ArgumentDetail where
  kind : Option ArgType
  values : List Text := []
  deriving DecidableEq, Repr

/-- A bare literal that may stand for `argument=literal`. -/
structure EnumShorthand where
  literal : Text
  argument : Text
  deriving DecidableEq, Repr

/-- A URL scheme with the filters that read and that write it. -/
structure Protocol where
  name : Text
  input : List Text
  output : List Text
  deriving DecidableEq, Repr

def Protocol.canRead (p : Protocol) : Bool := !p.input.isEmpty

def Protocol.canWrite (p : Protocol) : Bool := !p.output.isEmpty

end FilterLine
