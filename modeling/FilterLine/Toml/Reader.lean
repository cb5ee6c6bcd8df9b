import FilterLine.Toml.Scalar

/-!
Reading TOML. Strings come in four kinds, over one line or several, with escapes or without; arrays
and inline tables may spread over lines and end in a comma; no value is nested deeper than a fixed
limit.
-/
namespace FilterLine.Toml

/-- Whether a character must not stand as itself: the controls apart from the tab. -/
def isControl (c : Char) : Bool := (c.toNat < 0x20 && c != '\t') || c.toNat == 0x7F

def isGap (c : Char) : Bool := c = ' ' || c = '\t'

def skipGap (t : Text) : Text := t.dropWhile isGap

def afterBreak? : Text → Option Text
  | '\n' :: r => some r
  | '\r' :: '\n' :: r => some r
  | _ => none

/-- The character of a code point, if it is one. -/
def charOf? (digits : List Char) : Option Char := do
  let n := ofDigits 16 (← digits.mapM digitValue?)
  if n.isValidChar then some (Char.ofNat n) else none

def escaped? : Char → Option Char
  | '"' => some '"'
  | '\\' => some '\\'
  | 'b' => some '\x08'
  | 'e' => some '\x1b'
  | 'f' => some '\x0c'
  | 'n' => some '\n'
  | 'r' => some '\r'
  | 't' => some '\t'
  | _ => none

def consRead (c : Char) (p : Text × Text) : Text × Text := (c :: p.1, p.2)

def readBasic : Text → Option (Text × Text)
  | [] => none
  | '"' :: r => some ([], r)
  | '\\' :: 'x' :: a :: b :: r => do
    let x ← charOf? [a, b]
    (readBasic r).map (consRead x)
  | '\\' :: 'u' :: a :: b :: c :: d :: r => do
    let x ← charOf? [a, b, c, d]
    (readBasic r).map (consRead x)
  | '\\' :: 'U' :: a :: b :: c :: d :: e :: f :: g :: h :: r => do
    let x ← charOf? [a, b, c, d, e, f, g, h]
    (readBasic r).map (consRead x)
  | '\\' :: e :: r => do
    let x ← escaped? e
    (readBasic r).map (consRead x)
  | c :: r => if c = '\\' ∨ isControl c then none else (readBasic r).map (consRead c)

def readLiteral : Text → Option (Text × Text)
  | [] => none
  | '\'' :: r => some ([], r)
  | c :: r => if isControl c then none else (readLiteral r).map (consRead c)

/-- The quotes, two at most, that belong to a string although its closing quotes have begun. -/
def extraQuotes (quote : Char) : Text → Text × Text
  | a :: b :: r =>
    if a = quote ∧ b = quote then ([a, b], r) else if a = quote then ([a], b :: r) else ([], a :: b :: r)
  | [a] => if a = quote then ([a], []) else ([], [a])
  | [] => ([], [])

/-- A string with escapes over several lines, after its opening quotes; `skipping` tells that a
backslash at the end of a line has been read and that blanks and line breaks are dropped. -/
def readLongBasic : (skipping : Bool) → Text → Option (Text × Text)
  | _, [] => none
  | _, '"' :: '"' :: '"' :: r => some (extraQuotes '"' r)
  | _, '\\' :: 'x' :: a :: b :: r => do
    let x ← charOf? [a, b]
    (readLongBasic false r).map (consRead x)
  | _, '\\' :: 'u' :: a :: b :: c :: d :: r => do
    let x ← charOf? [a, b, c, d]
    (readLongBasic false r).map (consRead x)
  | _, '\\' :: 'U' :: a :: b :: c :: d :: e :: f :: g :: h :: r => do
    let x ← charOf? [a, b, c, d, e, f, g, h]
    (readLongBasic false r).map (consRead x)
  | _, '\\' :: e :: r =>
    match escaped? e with
    | some x => (readLongBasic false r).map (consRead x)
    | none =>
      if (isGap e || e = '\n' || e = '\r') && (afterBreak? (skipGap (e :: r))).isSome then
        readLongBasic true r
      else none
  | skipping, '\r' :: '\n' :: r =>
    if skipping then readLongBasic true r else (readLongBasic false r).map (consRead '\n')
  | skipping, c :: r =>
    if skipping && (isGap c || c = '\n') then readLongBasic true r
    else if c = '\n' then (readLongBasic false r).map (consRead c)
    else if c = '\\' ∨ isControl c then none
    else (readLongBasic false r).map (consRead c)

/-- A string without escapes over several lines, after its opening quotes. -/
def readLongLiteral : Text → Option (Text × Text)
  | [] => none
  | '\'' :: '\'' :: '\'' :: r => some (extraQuotes '\'' r)
  | '\r' :: '\n' :: r => (readLongLiteral r).map (consRead '\n')
  | c :: r =>
    if c ≠ '\n' ∧ isControl c then none else (readLongLiteral r).map (consRead c)

def dropBreak (t : Text) : Text := (afterBreak? t).getD t

def readString? : Text → Option (Text × Text)
  | '"' :: '"' :: '"' :: r => readLongBasic false (dropBreak r)
  | '\'' :: '\'' :: '\'' :: r => readLongLiteral (dropBreak r)
  | '"' :: r => readBasic r
  | '\'' :: r => readLiteral r
  | _ => none

def isBare (c : Char) : Bool := c.isAlphanum || c == '-' || c == '_'

def readKeyPart : Text → Option (Text × Text)
  | '"' :: r => readBasic r
  | '\'' :: r => readLiteral r
  | t => match t.takeWhile isBare with
    | [] => none
    | k => some (k, t.dropWhile isBare)

def readKey : (fuel : Nat) → Text → Option (List Text × Text)
  | 0, _ => none
  | fuel + 1, t => do
    let (part, r) ← readKeyPart (skipGap t)
    match skipGap r with
    | '.' :: r => (readKey fuel r).map fun p => (part :: p.1, p.2)
    | r => some ([part], r)

/-- Drops a comment; none when it holds a control character. -/
def afterComment? : Text → Option Text
  | '#' :: r =>
    let rest := r.dropWhile (!isControl ·)
    if rest = [] ∨ (afterBreak? rest).isSome then some rest else none
  | t => some t

def skipLines : (fuel : Nat) → Text → Option Text
  | 0, _ => none
  | fuel + 1, t => do
    let r ← afterComment? (skipGap t)
    match afterBreak? r with
    | some r => skipLines fuel r
    | none => some r

def isScalarChar (c : Char) : Bool :=
  c.isAlphanum || c == '+' || c == '-' || c == '_' || c == '.' || c == ':'

/-- An unquoted value. A blank may stand between the date and the time. -/
def readScalar (t : Text) : Option (Toml × Text) :=
  let word := t.takeWhile isScalarChar
  let rest := t.dropWhile isScalarChar
  let long := match rest with
    | ' ' :: d :: r =>
      if d.isDigit ∧ afterDate? word = some [] then
        some (word ++ ' ' :: (d :: r).takeWhile isScalarChar, (d :: r).dropWhile isScalarChar)
      else none
    | _ => none
  match long with
  | some (word, rest) => (scalar? word).map (·, rest)
  | none => (scalar? word).map (·, rest)

/-- The deepest nesting of arrays and inline tables. -/
def maxDepth : Nat := 80

mutual

/-- A value inside `depth` brackets, and what follows it. -/
def readValue : (fuel depth : Nat) → Text → Option (Toml × Text)
  | 0, _, _ => none
  | fuel + 1, depth, t =>
    match t with
    | '"' :: _ | '\'' :: _ => (readString? t).map fun p => (.string p.1, p.2)
    | '[' :: r =>
      if maxDepth ≤ depth then none
      else (readItems fuel (depth + 1) r).map fun p => (.array p.1, p.2)
    | '\x7b' :: r =>
      if maxDepth ≤ depth then none
      else (readPairs fuel (depth + 1) [] r).map fun p => (.table .inline p.1, p.2)
    | t => readScalar t

def readItems : (fuel depth : Nat) → Text → Option (List Toml × Text)
  | 0, _, _ => none
  | fuel + 1, depth, t =>
    match skipLines (t.length + 1) t with
    | none => none
    | some (']' :: rest) => some ([], rest)
    | some r =>
      match readValue fuel depth r with
      | none => none
      | some (v, r) =>
        match skipLines (r.length + 1) r with
        | some (']' :: rest) => some ([v], rest)
        | some (',' :: r) => (readItems fuel depth r).map fun p => (v :: p.1, p.2)
        | _ => none

/-- The pairs up to the closing brace, added to those read before. -/
def readPairs : (fuel depth : Nat) → Entries → Text → Option (Entries × Text)
  | 0, _, _, _ => none
  | fuel + 1, depth, es, t =>
    match skipLines (t.length + 1) t with
    | none => none
    | some ('\x7d' :: rest) => some (es, rest)
    | some t =>
      match readKey (t.length + 1) t with
      | some (key, '=' :: r) =>
        match readValue fuel depth (skipGap r) with
        | none => none
        | some (v, r) =>
          match addPair .inline true key v es with
          | none => none
          | some es =>
            match skipLines (r.length + 1) r with
            | some ('\x7d' :: rest) => some (es, rest)
            | some (',' :: r) => readPairs fuel depth es r
            | _ => none
      | _ => none

end

/-- What has been read of a document: its tables, and the path of the one that the last header
named. -/
structure Draft where
  root : Entries := []
  current : List Text := []

/-- A header, or a key with its value; the draft with it, and what follows it. -/
def readStatement (d : Draft) : Text → Option (Draft × Text)
  | '[' :: '[' :: r => do
    let (key, r) ← readKey (r.length + 1) r
    let rest ← Text.after? [']', ']'] r
    some (⟨← declareElement key d.root, key⟩, rest)
  | '[' :: r => do
    let (key, r) ← readKey (r.length + 1) r
    let rest ← Text.after? [']'] r
    some (⟨← declareTable key d.root, key⟩, rest)
  | t => do
    let (key, r) ← readKey (t.length + 1) t
    let r ← Text.after? ['='] r
    let (v, rest) ← readValue (2 * r.length + 2) 0 (skipGap r)
    some (⟨← within (addPair .header true key v) d.current d.root, d.current⟩, rest)

def readStatements : (fuel : Nat) → Draft → Text → Option Entries
  | 0, _, _ => none
  | fuel + 1, d, t => do
    match ← skipLines (t.length + 1) t with
    | [] => some d.root
    | r =>
      let (d, r) ← readStatement d r
      let r ← afterComment? (skipGap r)
      if r = [] then some d.root else readStatements fuel d (← afterBreak? r)

/-- The document that a text writes. A byte order mark in front is dropped. -/
def parse? (t : Text) : Option Entries :=
  let t := (Text.after? ['\ufeff'] t).getD t
  readStatements (t.length + 1) {} t

end FilterLine.Toml
