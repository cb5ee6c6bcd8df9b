import FilterLine.Schema.Record
import FilterLine.Text.Word

/-!
What the help output of the tool writes line by line: the arguments of a filter, the type of one
argument, and the protocols. Lines of another shape are passed over.
-/
namespace FilterLine.Listing

open Text

/-- The lines of a text. A line break may be preceded by a carriage return, and what follows the
last break is a line unless it is empty. -/
def lines (t : Text) : List Text :=
  let pieces := splitAll '\n' t
  let ended := pieces.dropLast.map fun l => if endsIn '\r' l then l.dropLast else l
  match pieces.getLast? with
  | some [] | none => ended
  | some last => ended ++ [last]

def word? (t : Text) : Option (Text × Text) :=
  match t.takeWhile isWord with
  | [] => none
  | w => some (w, t.dropWhile isWord)

def afterBlanks? (start t : Text) : Option Text := after? start (t.dropWhile isBlank)

/-- The argument that a line `name (type` declares. -/
def argumentOfLine? (line : Text) : Option ArgumentSpec := do
  let (name, r) ← word? line
  let (kind, _) ← word? (← afterBlanks? ['('] r)
  some ⟨name, .ofTag kind⟩

/-- Whether a line begins something: it is not empty, indented or dashed. -/
def isHeader : Text → Bool
  | [] => false
  | c :: _ => c != ' ' && c != '-' && c != '\t'

def arguments (t : Text) : List ArgumentSpec :=
  ((lines (t.trimWhile fun c => c == '\n' || c == ' ')).filter isHeader).filterMap argumentOfLine?

/-- The type in front, up to a comma or a closing parenthesis. -/
def typeTag? (t : Text) : Option Text :=
  let stops := fun c => c == ',' || c == ')'
  match t.takeWhile (!stops ·), t.dropWhile (!stops ·) with
  | [], _ => none
  | _, [] => none
  | tag, _ :: _ => some tag

/-- The text between parentheses after blanks, a word, and blanks, and what follows it. -/
def group? (name t : Text) : Option (Text × Text) := do
  let r ← afterBlanks? ['('] (← afterBlanks? name t)
  let (inside, rest) ← cutFirst? ')' r
  some (inside, rest)

/-- The pieces between the commas that a space follows. -/
def splitList : Text → List Text
  | [] => [[]]
  | ',' :: ' ' :: r => [] :: splitList r
  | c :: r => consFirst c (splitList r)

def groupNames (inside : Text) : List Text := if inside = [] then [] else splitList inside

/-- The protocol that a line `name: in (a, b) out (c)` describes, either group being optional. -/
def protocolOfLine? (line : Text) : Option Protocol := do
  let (name, r) ← word? line
  let r ← after? [':'] r
  let (input, r) := (group? "in" r).getD ([], r)
  let (output, _) := (group? "out" r).getD ([], r)
  some ⟨name, groupNames input, groupNames output⟩

/-- The protocols described below the first line of a text, in order. -/
def protocols (t : Text) : List Protocol :=
  ((lines (t.trimWhile (· == '\n'))).drop 1).filterMap protocolOfLine?

/-- The version in front: `version`, a blank, and letters, digits, points and hyphens. -/
def versionHere? (t : Text) : Option Text :=
  match after? "version" t with
  | some (c :: r) =>
    if isBlank c then
      match r.takeWhile (fun c => isDigit c || c.isAlpha || c == '.' || c == '-') with
      | [] => none
      | v => some v
    else none
  | _ => none

def version? : Text → Option Text
  | [] => none
  | c :: r => (versionHere? (c :: r)).or (version? r)

end FilterLine.Listing
