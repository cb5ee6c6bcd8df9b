import FilterLine.Line.Quoting
import FilterLine.Completion.Inquiry

/-!
Completion inside a filter clause, `filter:option:option`. An option is `argument`,
`argument=value`, a literal standing for `argument=literal`, or a property assignment `#name=value`.
The last option is the one being typed; the options together tell which arguments are used.
-/
namespace FilterLine

open Text

def startingWith (start : Text) (items : List Text) : List Text := items.filter start.isPrefixOf

/-- A filter clause, with what is known about its filter. -/
structure Clause where
  filter : Text
  options : List Text
  args : List ArgumentSpec
  shorthands : List EnumShorthand
  deriving DecidableEq, Repr

namespace Clause

/-- The part of an option that names something. -/
def optionName (option : Text) : Text := beforeFirst '=' option

/-- The name of an option is what stands in front of its value. -/
theorem optionName_eq {option name : Text} (hname : '=' ∉ name)
    (h : option = name ∨ ∃ value, option = name ++ '=' :: value) : optionName option = name := by
  have hall : ∀ d ∈ name, decide (d ≠ '=') = true :=
    fun d hd => decide_eq_true fun heq => hname (heq ▸ hd)
  obtain ⟨rest, rfl, hrest⟩ : ∃ rest, option = name ++ rest ∧ beforeFirst '=' rest = [] := by
    rcases h with rfl | ⟨value, rfl⟩
    · exact ⟨[], by simp, rfl⟩
    · exact ⟨_, rfl, by simp [beforeFirst]⟩
  rw [beforeFirst] at hrest
  rw [optionName, beforeFirst, List.takeWhile_append_of_pos hall, hrest, List.append_nil]

def isProperty (option : Text) : Bool := option.head? == some '#'

/-- The names used by an option: its own, and the argument its own stands for. -/
def optionUses (shorthands : List EnumShorthand) (option : Text) : List Text :=
  let name := optionName option
  match shorthands.find? (·.literal == name) with
  | some s => [s.argument, name]
  | none => [name]

def used (c : Clause) : List Text :=
  (c.options.filter (!isProperty ·)).flatMap (optionUses c.shorthands)

def arg? (c : Clause) (name : Text) : Option ArgumentSpec := c.args.find? (·.name == name)

def isShorthand (c : Clause) (literal : Text) : Bool := c.shorthands.any (·.literal == literal)

/-- The arguments, then the literals, that no option uses. -/
def unusedNames (c : Clause) : List Text :=
  (c.args.map (·.name)).filter (· ∉ c.used) ++
    (c.shorthands.filter fun s => s.literal ∉ c.used ∧ s.argument ∉ c.used).map (·.literal)

end Clause

/-- The literals that begin with `value`. A complete one is ended by a space or continued by a
colon. -/
def enumCandidates (values : List Text) (value : Text) : List Text :=
  (startingWith value values).map (fun v => if v = value then v ++ [' '] else v) ++
    if value ∈ values then [value ++ [':']] else []

def listCandidates (value : Text) : List Text :=
  if value = [] then [] else if endsIn ',' value then [value]
  else [value, value ++ [','], value ++ [':']]

/-- The continuations of a value that is taken as it is typed. -/
def scalarCandidates (value : Text) : List Text :=
  if value = [] then [] else [value ++ [':'], value ++ [' ']]

/-- The continuations of a string. A quote opened in it is closed exactly once, and a string
without quotes is put into quotes. -/
def stringCandidates (value : Text) (quoteSynthesized : Bool) : List Text :=
  if quoteSynthesized then
    [if endsIn '"' value then value.dropLast else value, value ++ [':'], value ++ [' ']]
  else if 0 < Line.unescapedQuotes value then [value ++ [':'], value ++ [' ']]
  else ['"' :: value ++ ['"', ':'], '"' :: value ++ ['"', ' '], '"' :: value]

/-- The argument whose values are also completed as paths. -/
def sourceArgument : Text := "src"

def valueCandidates (filter : Text) (spec : ArgumentSpec) (value : Text)
    (quoteSynthesized : Bool) : Inquiry (List Text) := do
  let detail ← Inquiry.question (.argument filter spec.name)
  match detail.kind.getD spec.kind with
  | .bool => pure (enumCandidates ["true", "false"] value)
  | .enum => pure (enumCandidates detail.values value)
  | .strl => pure (listCandidates value)
  | .str | .cstr =>
    let strings := stringCandidates value quoteSynthesized
    if spec.name = sourceArgument then
      pure (strings ++ (← Inquiry.question (.paths (value.trimWhile (· == '"')))))
    else pure strings
  | _ => pure (scalarCandidates value)

/-- Candidates for a property assignment, given the text after `#` and the options before it. -/
def propertyCandidates (text : Text) (earlier : List Text) : Inquiry (List Text) :=
  match cutFirst? '=' text with
  | some (_, value) => pure (scalarCandidates value)
  | none => do
    let referenced := (earlier.filterMap (after? ['#'])).map Clause.optionName
    let props ← Inquiry.question .props
    pure (((startingWith text props).filter (· ∉ referenced)).map ('#' :: ·))

def Clause.toggles (name : Text) : List Text := [name ++ [':'], name ++ [' ']]

/-- Candidates for a last option that is neither empty, nor a property, nor `name=value`. -/
def Clause.nameCandidates (c : Clause) (last : Text) : List Text :=
  let longer := startingWith last c.unusedNames
  if c.isShorthand last then [last ++ [' '], last ++ [':']] ++ longer
  else match c.arg? last with
    | some spec =>
      (if spec.kind = .bool then toggles last ++ [last ++ ['=']] else [last ++ ['=']]) ++ longer
    | none =>
      match longer with
      | [only] =>
        -- The start of a single switch is as good as its name.
        if (c.arg? only).any (·.kind = .bool) then toggles only else longer
      | _ => longer

def Clause.lastOption (c : Clause) (quoteSynthesized : Bool) : Inquiry (List Text) :=
  match c.options.getLast? with
  | none => pure []
  | some [] => pure c.unusedNames
  | some ('#' :: property) => propertyCandidates property c.options.dropLast
  | some last =>
    if c.isShorthand last then pure (c.nameCandidates last)
    else match cutFirst? '=' last with
      | some (name, value) =>
        match c.arg? name with
        | some spec => valueCandidates c.filter spec value quoteSynthesized
        | none => pure []
      | none => pure (c.nameCandidates last)

/-- Candidates for a word that is a filter clause; none when its first segment is no filter. -/
def clauseCandidates (word : Text) (quoteSynthesized : Bool) : Inquiry (List Text) :=
  match Line.segments word with
  | [] => pure []
  | filter :: options => do
    if filter ∉ (← Inquiry.question .filters) then pure []
    else
      let args ← Inquiry.question (.filterArgs filter)
      if options.isEmpty then
        pure ((word ++ [' ']) :: if args.isEmpty then [] else [word ++ [':']])
      else
        let shorthands ← Inquiry.question (.shorthands filter)
        Clause.lastOption ⟨filter, options, args, shorthands⟩ quoteSynthesized

end FilterLine
