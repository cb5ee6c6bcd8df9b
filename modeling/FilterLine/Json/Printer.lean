import FilterLine.Json.Basic

/-!
How JSON values are written: on one line without blanks, or spread over lines with two spaces for
each level. An empty array or object takes no line of its own. Only quotes, backslashes and control
characters are escaped.
-/
namespace FilterLine.Json

inductive Style where
  | compact
  | spread
  deriving DecidableEq, Repr

/-- What stands in front of an item at a level. -/
def Style.gap : Style → Nat → Text
  | compact, _ => []
  | spread, level => '\n' :: List.replicate (2 * level) ' '

/-- What stands between a key and its value. -/
def Style.colon : Style → Text
  | compact => [':']
  | spread => [':', ' ']

def hexDigit (n : Nat) : Char := Nat.digitChar n

def printChar (c : Char) : Text :=
  if c = '"' then ['\\', '"']
  else if c = '\\' then ['\\', '\\']
  else if c = '\x08' then ['\\', 'b']
  else if c = '\t' then ['\\', 't']
  else if c = '\n' then ['\\', 'n']
  else if c = '\x0c' then ['\\', 'f']
  else if c = '\r' then ['\\', 'r']
  else if c.toNat < 0x20 then
    ['\\', 'u', '0', '0', hexDigit (c.toNat / 16), hexDigit (c.toNat % 16)]
  else [c]

/-- A string. One that spells no text is written as a surrogate that stands alone. -/
def printString : Option Text → Text
  | some t => '"' :: t.flatMap printChar ++ ['"']
  | none => '"' :: '\\' :: "ud800" ++ ['"']

mutual

def print (style : Style) (level : Nat) : Json → Text
  | null => "null"
  | bool true => "true"
  | bool false => "false"
  | number digits => digits
  | string content => printString content
  | array [] => ['[', ']']
  | array (j :: js) =>
    '[' :: style.gap (level + 1) ++ print style (level + 1) j ++ printItems style (level + 1) js ++
      style.gap level ++ [']']
  | object [] => ['\x7b', '\x7d']
  | object (e :: es) =>
    '\x7b' :: style.gap (level + 1) ++ printEntry style (level + 1) e ++
      printEntries style (level + 1) es ++ style.gap level ++ ['\x7d']

/-- The items after the first. -/
def printItems (style : Style) (level : Nat) : List Json → Text
  | [] => []
  | j :: js => ',' :: style.gap level ++ print style level j ++ printItems style level js

def printEntry (style : Style) (level : Nat) : Option Text × Json → Text
  | (key, j) => printString key ++ style.colon ++ print style level j

def printEntries (style : Style) (level : Nat) : List (Option Text × Json) → Text
  | [] => []
  | e :: es =>
    ',' :: style.gap level ++ printEntry style level e ++ printEntries style level es

end

def compact (j : Json) : Text := j.print .compact 0

def pretty (j : Json) : Text := j.print .spread 0

end FilterLine.Json
