import FilterLine.Schema.Record
import FilterLine.Schema.Table

/-!
What is remembered about the tool. A part that has not been asked for yet is absent, which is not
the same as asked for and empty.
-/
namespace FilterLine

/-- The parts of the tool's description that have been asked for so far. -/
structure SchemaData where
  filters : Option (List Text) := none
  modules : Option (List Text) := none
  args : Table (List ArgumentSpec) := .empty
  /-- The details of arguments, under `filter.argument`. -/
  details : Table ArgumentDetail := .empty
  protocols : Option (List Protocol) := none
  props : Option (List Text) := none
  shorthands : Table (List EnumShorthand) := .empty
  deriving DecidableEq, Repr

/-- What is remembered, with the version of the tool it was learned from. -/
structure Snapshot where
  version : Option Text := none
  data : SchemaData := {}
  deriving DecidableEq, Repr

/-- The key of an argument's detail. -/
def detailKey (filter argument : Text) : Text := filter ++ ['.'] ++ argument

end FilterLine
