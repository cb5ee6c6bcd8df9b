import FilterLine.Decimal
import FilterLine.Json.Fault
import FilterLine.Json.Reader
import FilterLine.Text.Literal

/-!
The first fault of a JSON text that was meant to have some shape, as it is noticed by someone who
reads from the front and knows at every value what it has to be. A field that the shape does not
mention may be any value.
-/
namespace FilterLine.Json

/-- What a value is meant to be. -/
inductive Shape where
  | text
  /-- The array of some texts. -/
  | texts
  | nullable (s : Shape)
  /-- An object with any keys and values of one shape; the expectation is its name in reports. -/
  | table (expectation : Text) (s : Shape)
  /-- An object with known fields, or the array of their values, of which some must be there. -/
  | record (expectation : Text) (required : Nat) (fields : List (Text × Shape))

/-- The rest of a text after a part of it, or the fault in that part. -/
abbrev Rest := Except Fault Text

def afterWord : (word t : Text) → Rest
  | [], t => .ok t
  | _ :: _, [] => .error (.here .endInValue [])
  | w :: ws, c :: r => if w = c then afterWord ws r else .error (.next .noWord (c :: r))

/-- The number that four hexadecimal digits write, and what follows them. -/
def afterHex (t : Text) : Except Fault (Nat × Text) :=
  match t with
  | a :: b :: c :: d :: r =>
    match hexUnit? a b c d with
    | some (.char x) => .ok (x.toNat, r)
    | some (.surrogate n) => .ok (n, r)
    | none => short
  | _ => short
where
  /-- The fault of a text that does not begin with four digits. -/
  short {α : Type} : Except Fault α :=
    if Utf8.size t < 4 then .error (.here .endInString []) else .error ⟨.escape, Utf8.size t - 4⟩

/-- What follows a character that must come next inside an escape. -/
def afterInEscape (c : Char) : Text → Rest
  | [] => .error (.here .endInString [])
  | d :: r => if c = d then .ok r else .error (.next .endInEscape (d :: r))

/-- What follows the digits of an escape. A surrogate must be the first half of a pair, unless the
string is skipped. -/
def afterUnicode (skipped : Bool) (t : Text) : Rest := do
  let (n, r) ← afterHex t
  if skipped ∨ n < 0xD800 ∨ 0xDFFF < n then .ok r
  else if 0xDC00 ≤ n then .error (.here .loneSurrogate r)
  else do
    let (m, r) ← afterHex (← afterInEscape 'u' (← afterInEscape '\\' r))
    if 0xDC00 ≤ m ∧ m ≤ 0xDFFF then .ok r else .error (.here .loneSurrogate r)

def afterString (skipped : Bool) : (fuel : Nat) → Text → Rest
  | 0, t => .ok t
  | _, [] | _, ['\\'] => .error (.here .endInString [])
  | _, '"' :: r => .ok r
  | fuel + 1, '\\' :: 'u' :: r => do afterString skipped fuel (← afterUnicode skipped r)
  | fuel + 1, '\\' :: e :: r =>
    if (escaped? e).isSome then afterString skipped fuel r else .error (.next .escape (e :: r))
  | fuel + 1, c :: r =>
    if c.toNat < 0x20 then .error (.here .control r) else afterString skipped fuel r

def afterDigits (skipped : Bool) (t : Text) : Rest :=
  match readDigits t with
  | some (_, r) => .ok r
  | none => .error (.next (if t = [] ∧ ¬skipped then .endInValue else .number) t)

def afterNumber (skipped : Bool) (t : Text) : Rest := do
  let r ← match t with
    | '0' :: c :: r => if isDigit c then .error (.next .number (c :: r)) else .ok (c :: r)
    | _ => afterDigits skipped t
  let r ← match r with
    | '.' :: r => afterDigits skipped r
    | _ => .ok r
  match r with
  | c :: r' => if c = 'e' ∨ c = 'E' then afterDigits skipped (readSign r').2 else .ok r
  | [] => .ok []

mutual

def afterAny : (fuel : Nat) → Text → Rest
  | 0, t => .ok t
  | fuel + 1, t =>
    match skipGap t with
    | [] => .error (.here .endInValue [])
    | 'n' :: r => afterWord "ull" r
    | 't' :: r => afterWord "rue" r
    | 'f' :: r => afterWord "alse" r
    | '-' :: r => afterNumber true r
    | '"' :: r => afterString true (r.length + 1) r
    | '[' :: r =>
      match skipGap r with
      | [] => .error (.here .endInList [])
      | ']' :: r => .ok r
      | r => afterAnyItems fuel r
    | '\x7b' :: r =>
      match skipGap r with
      | '\x7d' :: r => .ok r
      | r => afterAnyEntries fuel r
    | c :: r => if isDigit c then afterNumber true (c :: r) else .error (.next .noValue (c :: r))

def afterAnyItems : (fuel : Nat) → Text → Rest
  | 0, t => .ok t
  | fuel + 1, t => do
    match skipGap (← afterAny fuel t) with
    | [] => .error (.here .endInList [])
    | ']' :: r => .ok r
    | ',' :: r => afterAnyItems fuel r
    | r => .error (.next .noListEnd r)

def afterAnyEntries : (fuel : Nat) → Text → Rest
  | 0, t => .ok t
  | fuel + 1, t => do
    match skipGap t with
    | [] => .error (.here .endInObject [])
    | '"' :: r =>
      match skipGap (← afterString true (r.length + 1) r) with
      | [] => .error (.here .endInObject [])
      | ':' :: r =>
        match skipGap (← afterAny fuel r) with
        | [] => .error (.here .endInObject [])
        | '\x7d' :: r => .ok r
        | ',' :: r => afterAnyEntries fuel r
        | r => .error (.next .noObjectEnd r)
      | r => .error (.next .noColon r)
    | r => .error (.next .key r)

end

/-- A number as reports show it: an integer of 64 bits, or else a decimal number. -/
def describeNumber (negative : Bool) (digits : Text) (rest : Text) : Except Fault Text :=
  let whole := digits.takeWhile isDigit
  let tail := digits.drop whole.length
  let fraction := match tail with
    | '.' :: r => r.takeWhile isDigit
    | _ => []
  let power := tail.dropWhile fun c => c ≠ 'e' ∧ c ≠ 'E'
  let number (ds : Text) : Nat := ds.foldl (fun n c => n * 10 + (c.toNat - '0'.toNat)) 0
  let e : Int := match power.drop 1 with
    | '-' :: r => -(number r : Int)
    | '+' :: r => number r
    | r => number r
  let sign : Text := if negative then ['-'] else []
  let m := number (whole ++ fraction)
  if tail = [] ∧ (if negative then 0 < m ∧ m ≤ 9223372036854775808 else m < 18446744073709551616) then
    .ok ("integer " ++ ticked (sign ++ Text.decimal m))
  else if Decimal.overflows m (e - fraction.length) then .error (.here .tooLarge rest)
  else .ok ("floating point " ++ ticked (sign ++ Decimal.write m (e - fraction.length)))

/-- The fault of a value of another kind than expected. -/
def wrongKind (expected : Text) (t : Text) : Fault :=
  let report (found : Text) (rest : Rest) : Fault := match rest with
    | .ok r => .here (.kind found expected) r
    | .error f => f
  let number (negative : Bool) (t : Text) : Fault := match afterNumber false t with
    | .error f => f
    | .ok r =>
      match describeNumber negative (t.take (t.length - r.length)) r with
      | .ok found => .here (.kind found expected) r
      | .error f => f
  match t with
  | 'n' :: r => report "null" (afterWord "ull" r)
  | 't' :: r => report ("boolean " ++ ticked "true") (afterWord "rue" r)
  | 'f' :: r => report ("boolean " ++ ticked "false") (afterWord "alse" r)
  | '-' :: r => number true r
  | '"' :: r =>
    match readString r with
    | some (some s, rest) => .here (.kind ("string " ++ Text.literal s) expected) rest
    | _ => report [] (afterString false (r.length + 1) r)
  | '[' :: _ => .here (.kind "sequence" expected) t
  | '\x7b' :: _ => .here (.kind "map" expected) t
  | c :: _ => if isDigit c then number false t else .next .noValue t
  | [] => .here .endInValue []

def Shape.expectation : Shape → Text
  | text => "a string"
  | texts => "a sequence"
  | nullable s => s.expectation
  | table e _ | record e _ _ => e

/-- The text before the next item of an array, or what follows the array. -/
def nextItem (first : Bool) (t : Text) : Except Fault (Text ⊕ Text) :=
  match skipGap t with
  | [] => .error (.here .endInList [])
  | ']' :: r => .ok (.inr r)
  | c :: r =>
    if first then .ok (.inl (c :: r))
    else if c = ',' then
      match skipGap r with
      | [] => .error (.here .endInValue [])
      | ']' :: r => .error (.next .commaAtEnd (']' :: r))
      | r => .ok (.inl r)
    else .error (.next .noListEnd (c :: r))

/-- What follows an array all of whose items have been read. -/
def afterLastItem (t : Text) : Rest :=
  match skipGap t with
  | [] => .error (.here .endInList [])
  | ']' :: r => .ok r
  | ',' :: r =>
    match skipGap r with
    | ']' :: r => .error (.next .commaAtEnd (']' :: r))
    | r => .error (.next .excess r)
  | r => .error (.next .excess r)

/-- The next key of an object and the text before its value's colon, or what follows the object. -/
def nextKey (first : Bool) (t : Text) : Except Fault ((Text × Text) ⊕ Text) := do
  match skipGap t with
  | [] => .error (.here .endInObject [])
  | '\x7d' :: r => .ok (.inr r)
  | c :: r =>
    if first then key (c :: r)
    else if c = ',' then
      match skipGap r with
      | [] => .error (.here .endInValue [])
      | '\x7d' :: r => .error (.next .commaAtEnd ('\x7d' :: r))
      | r => key r
    else .error (.next .noObjectEnd (c :: r))
where
  /-- The key in front. -/
  key : Text → Except Fault ((Text × Text) ⊕ Text)
    | '"' :: r =>
      match readString r with
      | some (some k, rest) => .ok (.inl (k, rest))
      | _ => do .ok (.inl ([], ← afterString false (r.length + 1) r))
    | r => .error (.next .key r)

def afterColon (t : Text) : Rest :=
  match skipGap t with
  | [] => .error (.here .endInObject [])
  | ':' :: r => .ok r
  | r => .error (.next .noColon r)

def repeatedField (field : Text) (t : Text) : Fault :=
  match skipGap t with
  | '\x7d' :: r => .here (.repeated field) r
  | r => .here (.repeated field) r

mutual

def after : (fuel : Nat) → Shape → Text → Rest
  | 0, _, t => .ok t
  | fuel + 1, shape, t =>
    match shape, skipGap t with
    | .nullable _, 'n' :: r => afterWord "ull" r
    | .nullable s, r => after fuel s r
    | _, [] => .error (.here .endInValue [])
    | .text, '"' :: r => afterString false (r.length + 1) r
    | .texts, '[' :: r => afterTexts fuel true r
    | .table _ s, '\x7b' :: r => afterTable fuel s true r
    | .record _ _ fields, '\x7b' :: r => afterFields fuel fields [] true r
    | .record e required fields, '[' :: r => afterInOrder fuel e required fields.length fields true r
    | s, r => .error (wrongKind s.expectation r)

def afterTexts : (fuel : Nat) → (first : Bool) → Text → Rest
  | 0, _, t => .ok t
  | fuel + 1, first, t => do
    match ← nextItem first t with
    | .inr r => .ok r
    | .inl r => afterTexts fuel false (← after fuel .text r)

def afterTable : (fuel : Nat) → Shape → (first : Bool) → Text → Rest
  | 0, _, _, t => .ok t
  | fuel + 1, s, first, t => do
    match ← nextKey first t with
    | .inr r => .ok r
    | .inl (_, r) => afterTable fuel s false (← after fuel s (← afterColon r))

/-- What follows the fields of a record, some of which have been seen. -/
def afterFields : (fuel : Nat) → List (Text × Shape) → (seen : List Text) → (first : Bool) → Text →
    Rest
  | 0, _, _, _, t => .ok t
  | fuel + 1, fields, seen, first, t => do
    match ← nextKey first t with
    | .inr r => .ok r
    | .inl (k, r) =>
      if k ∈ seen then .error (repeatedField k r)
      else match fields.lookup k with
        | some s => afterFields fuel fields (k :: seen) false (← after fuel s (← afterColon r))
        | none => afterFields fuel fields seen false (← afterAny fuel (← afterColon r))

/-- What follows a record written as an array, with some fields to come. -/
def afterInOrder : (fuel : Nat) → (expectation : Text) → (required all : Nat) →
    List (Text × Shape) → (first : Bool) → Text → Rest
  | 0, _, _, _, _, _, t => .ok t
  | _, _, _, _, [], _, t => afterLastItem t
  | fuel + 1, e, required, all, (_, s) :: fields, first, t => do
    match ← nextItem first t with
    | .inr r =>
      let n := all - (fields.length + 1)
      if n < required then
        .error (.here (.length n (e ++ " with " ++ Text.decimal all ++ " elements")) r)
      else .ok r
    | .inl r => afterInOrder fuel e required all fields false (← after fuel s r)

end

/-- The first fault of a text that is meant to write a value of some shape. -/
def fault? (s : Shape) (t : Text) : Option Fault :=
  match after (2 * t.length + 8) s t with
  | .error f => some f
  | .ok r =>
    match skipGap r with
    | [] => none
    | r => some (.next .excess r)

end FilterLine.Json
