import FilterLine.Json.Basic

/-!
Reading JSON. The grammar is strict: no comma after the last item, no leading zeros, no raw control
character in a string, nothing but blanks around the value. Values may nest to any depth and
numbers may have any size.
-/
namespace FilterLine.Json

def isGap (c : Char) : Bool := c = ' ' || c = '\n' || c = '\t' || c = '\r'

def skipGap (t : Text) : Text := t.dropWhile isGap

/-- One unit of a string: a character, or a surrogate written as an escape. -/
inductive CodeUnit where
  | char (c : Char)
  | surrogate (n : Nat)
  deriving DecidableEq, Repr

def hexValue? (c : Char) : Option Nat :=
  if '0' ≤ c ∧ c ≤ '9' then some (c.toNat - '0'.toNat)
  else if 'a' ≤ c ∧ c ≤ 'f' then some (c.toNat - 'a'.toNat + 10)
  else if 'A' ≤ c ∧ c ≤ 'F' then some (c.toNat - 'A'.toNat + 10)
  else none

/-- The unit that four hexadecimal digits stand for. -/
def hexUnit? (a b c d : Char) : Option CodeUnit := do
  let n := (((← hexValue? a) * 16 + (← hexValue? b)) * 16 + (← hexValue? c)) * 16 + (← hexValue? d)
  some (if 0xD800 ≤ n ∧ n ≤ 0xDFFF then .surrogate n else .char (Char.ofNat n))

def escaped? : Char → Option Char
  | '"' => some '"'
  | '\\' => some '\\'
  | '/' => some '/'
  | 'b' => some '\x08'
  | 'f' => some '\x0c'
  | 'n' => some '\n'
  | 'r' => some '\r'
  | 't' => some '\t'
  | _ => none

def readUnits : Text → Option (List CodeUnit × Text)
  | [] => none
  | '"' :: r => some ([], r)
  | '\\' :: 'u' :: a :: b :: c :: d :: r => do
    let u ← hexUnit? a b c d
    let (us, rest) ← readUnits r
    some (u :: us, rest)
  | '\\' :: e :: r => do
    let c ← escaped? e
    let (us, rest) ← readUnits r
    some (.char c :: us, rest)
  | c :: r =>
    if c = '\\' ∨ c.toNat < 0x20 then none
    else do
      let (us, rest) ← readUnits r
      some (.char c :: us, rest)

/-- The text of a string, when each surrogate is half of a pair. -/
def spell : List CodeUnit → Option Text
  | [] => some []
  | .char c :: us => (spell us).map (c :: ·)
  | .surrogate h :: .surrogate l :: us =>
    if h < 0xDC00 ∧ 0xDC00 ≤ l then
      (spell us).map (Char.ofNat ((h - 0xD800) * 0x400 + (l - 0xDC00) + 0x10000) :: ·)
    else none
  | .surrogate _ :: _ => none

def readString (t : Text) : Option (Option Text × Text) := do
  let (us, rest) ← readUnits t
  some (spell us, rest)

def isDigit (c : Char) : Bool := '0' ≤ c && c ≤ '9'

/-- The digits in front, at least one, and what follows them. -/
def readDigits (t : Text) : Option (Text × Text) :=
  match t.takeWhile isDigit with
  | [] => none
  | ds => some (ds, t.dropWhile isDigit)

/-- The digits before the point: a zero stands alone. -/
def readWhole : Text → Option (Text × Text)
  | '0' :: r => some (['0'], r)
  | t => readDigits t

def readFraction : Text → Option (Text × Text)
  | '.' :: r => (readDigits r).map fun p => ('.' :: p.1, p.2)
  | t => some ([], t)

def readSign : Text → Text × Text
  | '+' :: r => (['+'], r)
  | '-' :: r => (['-'], r)
  | t => ([], t)

def readExponent : Text → Option (Text × Text)
  | c :: r =>
    if c = 'e' ∨ c = 'E' then do
      let (sign, r) := readSign r
      let (ds, rest) ← readDigits r
      some (c :: sign ++ ds, rest)
    else some ([], c :: r)
  | [] => some ([], [])

def readNumber (t : Text) : Option (Text × Text) := do
  let (sign, r) := match t with
    | '-' :: r => (['-'], r)
    | t => ([], t)
  let (whole, r) ← readWhole r
  let (fraction, r) ← readFraction r
  let (exponent, rest) ← readExponent r
  some (sign ++ whole ++ fraction ++ exponent, rest)

mutual

/-- The value in front, and what follows it. The fuel bounds the number of values and items begun
on the way to any one of them. -/
def readValue : (fuel : Nat) → Text → Option (Json × Text)
  | 0, _ => none
  | fuel + 1, t =>
    match skipGap t with
    | 'n' :: 'u' :: 'l' :: 'l' :: r => some (null, r)
    | 't' :: 'r' :: 'u' :: 'e' :: r => some (bool true, r)
    | 'f' :: 'a' :: 'l' :: 's' :: 'e' :: r => some (bool false, r)
    | '"' :: r => (readString r).map fun p => (string p.1, p.2)
    | '[' :: r =>
      match skipGap r with
      | ']' :: rest => some (array [], rest)
      | _ => (readItems fuel r).map fun p => (array p.1, p.2)
    | '\x7b' :: r =>
      match skipGap r with
      | '\x7d' :: rest => some (object [], rest)
      | _ => (readEntries fuel r).map fun p => (object p.1, p.2)
    | r => (readNumber r).map fun p => (number p.1, p.2)

def readItems : (fuel : Nat) → Text → Option (List Json × Text)
  | 0, _ => none
  | fuel + 1, t =>
    match readValue fuel t with
    | none => none
    | some (j, r) =>
      match skipGap r with
      | ']' :: rest => some ([j], rest)
      | ',' :: r => (readItems fuel r).map fun p => (j :: p.1, p.2)
      | _ => none

def readEntries : (fuel : Nat) → Text → Option (List (Option Text × Json) × Text)
  | 0, _ => none
  | fuel + 1, t =>
    match skipGap t with
    | '"' :: r =>
      match readString r with
      | none => none
      | some (key, r) =>
        match skipGap r with
        | ':' :: r =>
          match readValue fuel r with
          | none => none
          | some (j, r) =>
            match skipGap r with
            | '\x7d' :: rest => some ([(key, j)], rest)
            | ',' :: r => (readEntries fuel r).map fun p => ((key, j) :: p.1, p.2)
            | _ => none
        | _ => none
    | _ => none

end

def parse? (t : Text) : Option Json :=
  match readValue (2 * t.length + 2) t with
  | some (j, rest) => if skipGap rest = [] then some j else none
  | none => none

end FilterLine.Json
