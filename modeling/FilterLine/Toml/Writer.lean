import FilterLine.Json.Printer

/-!
How TOML strings are written: between double quotes if nothing has to be escaped, else between
single quotes if that is possible, else over several lines, and with escapes only if nothing else
will do.
-/
namespace FilterLine.Toml

inductive Quoting where
  | basic
  | literal
  | longBasic
  | longLiteral
  deriving DecidableEq, Repr

def longestRun (c : Char) (t : Text) : Nat :=
  (t.foldl (fun (p : Nat × Nat) d =>
    if d = c then (p.1 + 1, max p.2 (p.1 + 1)) else (0, p.2)) (0, 0)).2

/-- Whether a character can only be written as an escape. -/
def needsEscape (c : Char) : Bool :=
  (c.toNat < 0x20 && c != '\t' && c != '\n') || c.toNat == 0x7F

/-- The way in which a string is written. -/
def Quoting.of (t : Text) : Quoting :=
  let controls := t.any needsEscape
  let backslash := t.contains '\\'
  let lines := t.contains '\n'
  let double := longestRun '"' t
  let single := longestRun '\'' t
  if !controls && !backslash && double == 0 && !lines then basic
  else if !controls && single == 0 && !lines then literal
  else if !controls && !backslash && double ≤ 2 then longBasic
  else if !controls && single ≤ 2 then longLiteral
  else if lines then longBasic
  else basic

/-- A character with an escape of its own, or a control character. -/
def escapeChar (c : Char) : Text :=
  if c = '\x08' then ['\\', 'b']
  else if c = '\t' then ['\\', 't']
  else if c = '\n' then ['\\', 'n']
  else if c = '\x0c' then ['\\', 'f']
  else if c = '\r' then ['\\', 'r']
  else if c = '\\' then ['\\', '\\']
  else if c.toNat < 0x20 ∨ c.toNat = 0x7F then
    ['\\', 'u', '0', '0', Json.hexDigit (c.toNat / 16), (Json.hexDigit (c.toNat % 16)).toUpper]
  else [c]

/-- The inside of a string with escapes, over several lines or not; `quotes` counts the quotes just
written as themselves, and no more of them are than can be told from the closing ones. -/
def escapeFrom (long : Bool) : (quotes : Nat) → Text → Text
  | _, [] => []
  | quotes, c :: r =>
    if c = '"' then
      if (if long then 2 else 0) ≤ quotes then '\\' :: '"' :: escapeFrom long 0 r
      else '"' :: escapeFrom long (quotes + 1) r
    else if long && c == '\n' then '\n' :: escapeFrom long 0 r
    else escapeChar c ++ escapeFrom long 0 r

def writeString (t : Text) : Text :=
  match Quoting.of t with
  | .basic => '"' :: escapeFrom false 0 t ++ ['"']
  | .literal => '\'' :: t ++ ['\'']
  | .longBasic => ['"', '"', '"', '\n'] ++ escapeFrom true 0 t ++ ['"', '"', '"']
  | .longLiteral => ['\'', '\'', '\'', '\n'] ++ t ++ ['\'', '\'', '\'']

def writeBool (b : Bool) : Text := if b then "true" else "false"

end FilterLine.Toml
