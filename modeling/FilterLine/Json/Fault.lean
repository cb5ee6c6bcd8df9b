import FilterLine.Text.Utf8

/-!
What can be wrong with a JSON text, and where. A place is given by how many bytes follow it, and
reported as a line and a number of bytes from the start of that line.
-/
namespace FilterLine.Json

inductive Cause where
  | endInList
  | endInObject
  | endInString
  | endInValue
  | noColon
  | noListEnd
  | noObjectEnd
  | noWord
  | noValue
  | escape
  | number
  | tooLarge
  | control
  | key
  | loneSurrogate
  | endInEscape
  | commaAtEnd
  | excess
  /-- A value of another kind than expected. -/
  | kind (found expected : Text)
  /-- An array that is too short to write a record. -/
  | length (n : Nat) (expected : Text)
  /-- A field of a record given twice. -/
  | repeated (field : Text)
  deriving DecidableEq, Repr

def ticked (t : Text) : Text := '\x60' :: t ++ ['\x60']

def Cause.message : Cause → Text
  | endInList => "EOF while parsing a list"
  | endInObject => "EOF while parsing an object"
  | endInString => "EOF while parsing a string"
  | endInValue => "EOF while parsing a value"
  | noColon => "expected " ++ ticked [':']
  | noListEnd => "expected " ++ ticked [','] ++ " or " ++ ticked [']']
  | noObjectEnd => "expected " ++ ticked [','] ++ " or " ++ ticked ['\x7d']
  | noWord => "expected ident"
  | noValue => "expected value"
  | escape => "invalid escape"
  | number => "invalid number"
  | tooLarge => "number out of range"
  | control => "control character (\\u0000-\\u001F) found while parsing a string"
  | key => "key must be a string"
  | loneSurrogate => "lone leading surrogate in hex escape"
  | endInEscape => "unexpected end of hex escape"
  | commaAtEnd => "trailing comma"
  | excess => "trailing characters"
  | kind found expected => "invalid type: " ++ found ++ ", expected " ++ expected
  | length n expected => "invalid length " ++ Text.decimal n ++ ", expected " ++ expected
  | repeated field => "duplicate field " ++ ticked field

/-- What is wrong, and how many bytes follow the place where it was noticed. -/
structure Fault where
  cause : Cause
  left : Nat
  deriving DecidableEq, Repr

namespace Fault

/-- A fault noticed before what is left. -/
def here (c : Cause) (rest : Text) : Fault := ⟨c, Utf8.size rest⟩

/-- A fault noticed at the first byte of what is left. -/
def next (c : Cause) (rest : Text) : Fault := ⟨c, Utf8.size rest - 1⟩

def message (t : Text) (f : Fault) : Text :=
  let before := (Utf8.encode t).take (Utf8.size t - f.left)
  let line := before.reverse.takeWhile (· != 10)
  f.cause.message ++ " at line " ++ Text.decimal (1 + before.count 10) ++ " column " ++
    Text.decimal line.length

end Fault
end FilterLine.Json
