import FilterLine.Json.Printer
import FilterLine.Json.Reader
import FilterLine.Json.Shape
import FilterLine.Schema.Snapshot
import FilterLine.Text.Utf8

/-!
The file that keeps a snapshot. Parts that have not been asked for are left out. Reading allows
records as arrays in the order of their fields, skips fields that it does not know, refuses a known
field given twice, and takes a missing field as not asked for, unless an array ends too early.
-/
namespace FilterLine

open Json (record text texts)

namespace ArgumentDetail

def toJson (d : ArgumentDetail) : Json :=
  record [("type", match d.kind with
    | some k => text k.tag
    | none => .null), ("values", texts d.values)]

end ArgumentDetail

namespace SchemaData

/-- A list of texts as a field, left out when absent. -/
def listField (name : Text) : Option (List Text) → List (Text × Json)
  | some l => [(name, texts l)]
  | none => []

/-- A table as a field, left out when empty. -/
def tableField {α : Type} (name : Text) (value : α → Json) (t : Table α) : List (Text × Json) :=
  if t.isEmpty then [] else [(name, record (t.entries.map fun e => (e.1, value e.2)))]

def argsJson (specs : List ArgumentSpec) : Json :=
  record (specs.map fun s => (s.name, text s.kind.tag))

def shorthandsJson (shorthands : List EnumShorthand) : Json :=
  record (shorthands.map fun s => (s.literal, text s.argument))

def protocolsJson (protocols : List Protocol) : Json :=
  record (protocols.map fun p =>
    (p.name, record [("input", texts p.input), ("output", texts p.output)]))

def protocolsField : Option (List Protocol) → List (Text × Json)
  | some l => [("protocols", protocolsJson l)]
  | none => []

def toJson (d : SchemaData) : Json :=
  record (listField "filters" d.filters ++ listField "modules" d.modules ++
    tableField "args" argsJson d.args ++
    tableField "type_arg_filter" ArgumentDetail.toJson d.details ++
    protocolsField d.protocols ++ listField "props" d.props ++
    tableField "enum_values" shorthandsJson d.shorthands)

end SchemaData

def Snapshot.toJson (s : Snapshot) : Json :=
  record [("version", match s.version with
    | some v => text v
    | none => .null), ("cache", s.data.toJson)]

/-- The value under a name: `some none` when there is none, and `none` when there are several. -/
def uniqueField? (entries : List (Text × Json)) (name : Text) : Option (Option Json) :=
  match entries.filter (·.1 == name) with
  | [] => some none
  | [e] => some (some e.2)
  | _ => none

/-- The fields of a record, in the order of their names. A record written as an array has no more
items than names, and at least `required` of them. -/
def Json.fields? (names : List Text) (required : Nat) : Json → Option (List (Option Json))
  | .array items =>
    if required ≤ items.length ∧ items.length ≤ names.length then
      some (items.map some ++ List.replicate (names.length - items.length) none)
    else none
  | j => do
    let entries ← j.entries?
    names.mapM (uniqueField? entries)

def Json.nullable {α : Type} (read : Json → Option α) : Json → Option (Option α)
  | .null => some none
  | j => (read j).map some

def optionalField {α : Type} (missing : α) (read : Json → Option α) : Option Json → Option α
  | some j => read j
  | none => some missing

def Json.map? {α : Type} (read : Text → Json → Option α) (j : Json) : Option (List α) := do
  (← j.entries?).mapM fun e => read e.1 e.2

/-- The table that an object writes, its last entry of each key counting. -/
def Json.table? {α : Type} (read : Json → Option α) (j : Json) : Option (Table α) := do
  some (.ofList (← j.map? fun key v => (read v).map (key, ·)))

def ArgumentDetail.ofJson? (j : Json) : Option ArgumentDetail := do
  match ← j.fields? ["type", "values"] 1 with
  | [kind, values] =>
    some {
      kind := (← optionalField none (Json.nullable Json.text?) kind).map ArgType.ofTag
      values := ← optionalField [] Json.texts? values }
  | _ => none

/-- The protocol of a name that a value writes. -/
def Protocol.ofJson? (name : Text) (j : Json) : Option Protocol := do
  match ← j.fields? ["input", "output"] 0 with
  | [input, output] =>
    some {
      name := name
      input := ← optionalField [] Json.texts? input
      output := ← optionalField [] Json.texts? output }
  | _ => none

namespace SchemaData

def argsOfJson? (j : Json) : Option (List ArgumentSpec) :=
  j.map? fun name v => v.text?.map fun tag => ⟨name, .ofTag tag⟩

def shorthandsOfJson? (j : Json) : Option (List EnumShorthand) :=
  j.map? fun literal v => v.text?.map fun argument => ⟨literal, argument⟩

def fieldNames : List Text :=
  ["filters", "modules", "args", "type_arg_filter", "protocols", "props", "enum_values"]

def ofJson? (j : Json) : Option SchemaData := do
  match ← j.fields? fieldNames 0 with
  | [filters, modules, args, details, protocols, props, shorthands] =>
    some {
      filters := ← optionalField none (Json.nullable Json.texts?) filters
      modules := ← optionalField none (Json.nullable Json.texts?) modules
      args := ← optionalField .empty (Json.table? argsOfJson?) args
      details := ← optionalField .empty (Json.table? ArgumentDetail.ofJson?) details
      protocols := ← optionalField none
        (fun v => (v.map? Protocol.ofJson?).map some) protocols
      props := ← optionalField none (Json.nullable Json.texts?) props
      shorthands := ← optionalField .empty (Json.table? shorthandsOfJson?) shorthands }
  | _ => none

end SchemaData

namespace Snapshot

def ofJson? (j : Json) : Option Snapshot := do
  match ← j.fields? ["version", "cache"] 1 with
  | [version, data] =>
    some {
      version := ← optionalField none (Json.nullable Json.text?) version
      data := ← optionalField {} SchemaData.ofJson? data }
  | _ => none

/-- What the file is meant to write, with the names that reports use. -/
def shape : Json.Shape :=
  let names : Json.Shape := .nullable .texts
  let named : Json.Shape := .table "a map" (.table "a JSON object" .text)
  let detail : Json.Shape :=
    .record "struct ArgumentDetail" 1 [("type", .nullable .text), ("values", .texts)]
  let directions : Json.Shape := .record "struct Directions" 0 [("input", .texts), ("output", .texts)]
  let data : Json.Shape := .record "struct SchemaData" 0
    [("filters", names), ("modules", names), ("args", named),
     ("type_arg_filter", .table "a map" detail), ("protocols", .table "a JSON object" directions),
     ("props", names), ("enum_values", named)]
  .record "struct Snapshot" 1 [("version", .nullable .text), ("cache", data)]

/-- What is wrong with a text that keeps no snapshot. -/
def faultMessage (t : Text) : Text :=
  match Json.fault? shape t with
  | some f => f.message t
  | none => []

def save (s : Snapshot) : Text := s.toJson.pretty

def ofText? (t : Text) : Option Snapshot := (Json.parse? t).bind ofJson?

def load? (content : Bytes) : Option Snapshot := (Utf8.decode? content).bind ofText?

end Snapshot
end FilterLine
