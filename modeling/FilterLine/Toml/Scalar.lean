import FilterLine.Decimal
import FilterLine.Toml.Basic

/-!
The TOML values written without quotes and brackets: booleans, numbers and dates. Underscores may
stand between the digits of a number, a decimal number has no leading zeros, and a date exists in the
calendar.
-/
namespace FilterLine.Toml

/-- The digit values of a character in base sixteen. -/
def digitValue? (c : Char) : Option Nat :=
  if '0' ≤ c ∧ c ≤ '9' then some (c.toNat - '0'.toNat)
  else if 'a' ≤ c ∧ c ≤ 'f' then some (c.toNat - 'a'.toNat + 10)
  else if 'A' ≤ c ∧ c ≤ 'F' then some (c.toNat - 'A'.toNat + 10)
  else none

/-- The digits of a base, at least one, with single underscores between them allowed; `after` tells
that a digit has just been read. -/
def digitsFrom? (base : Nat) : (after : Bool) → Text → Option (List Nat)
  | after, [] => if after then some [] else none
  | after, c :: r =>
    if c = '_' then
      if after then digitsFrom? base false r else none
    else do
      let d ← digitValue? c
      if d < base then some (d :: (← digitsFrom? base true r)) else none

def digits? (base : Nat) (t : Text) : Option (List Nat) := digitsFrom? base false t

def ofDigits (base : Nat) (ds : List Nat) : Nat := ds.foldl (fun n d => n * base + d) 0

/-- Decimal digits without leading zeros. -/
def wholeDigits? (t : Text) : Option (List Nat) := do
  let ds ← digits? 10 t
  if ds.head? = some 0 ∧ ds.length ≠ 1 then none else some ds

/-- The sign in front: whether it is a minus, and what follows it. -/
def splitSign : Text → Bool × Text
  | '-' :: r => (true, r)
  | '+' :: r => (false, r)
  | t => (false, t)

def integer? : Text → Option Int
  | '0' :: 'x' :: r => (digits? 16 r).map fun ds => Int.ofNat (ofDigits 16 ds)
  | '0' :: 'o' :: r => (digits? 8 r).map fun ds => Int.ofNat (ofDigits 8 ds)
  | '0' :: 'b' :: r => (digits? 2 r).map fun ds => Int.ofNat (ofDigits 2 ds)
  | t => do
    let (negative, r) := splitSign t
    let n : Int := ofDigits 10 (← wholeDigits? r)
    some (if negative then -n else n)

def exponent? (t : Text) : Option Int := do
  let (negative, r) := splitSign t
  let n : Int := ofDigits 10 (← digits? 10 r)
  some (if negative then -n else n)

def isExponent (c : Char) : Bool := c = 'e' || c = 'E'

/-- A float, as whether it overflows. -/
def float? (t : Text) : Option Bool := do
  let (_, r) := splitSign t
  if r = ("inf" : Text) ∨ r = ("nan" : Text) then some false
  else
    let mantissa := r.takeWhile (!isExponent ·)
    let tail := r.drop mantissa.length
    let e ← match tail with
      | [] => some 0
      | _ :: e => exponent? e
    match Text.cutFirst? '.' mantissa with
    | some (whole, fraction) =>
      let ws ← wholeDigits? whole
      let fs ← digits? 10 fraction
      some (Decimal.overflows (ofDigits 10 (ws ++ fs)) (e - fs.length))
    | none =>
      if tail = [] then none
      else some (Decimal.overflows (ofDigits 10 (← wholeDigits? mantissa)) e)

/-- Exactly as many decimal digits as `count`, and what follows them. -/
def fixedDigits? (count : Nat) (t : Text) : Option (Nat × Text) :=
  let ds := t.take count
  if ds.length = count ∧ ds.all Char.isDigit then
    some (ofDigits 10 (ds.map fun c => c.toNat - '0'.toNat), t.drop count)
  else none

def daysOf (year month : Nat) : Nat :=
  if month = 2 then
    if year % 4 = 0 ∧ (year % 100 ≠ 0 ∨ year % 400 = 0) then 29 else 28
  else if month ∈ [4, 6, 9, 11] then 30
  else 31

def afterDate? (t : Text) : Option Text := do
  let (year, r) ← fixedDigits? 4 t
  let (month, r) ← fixedDigits? 2 (← Text.after? ['-'] r)
  let (day, r) ← fixedDigits? 2 (← Text.after? ['-'] r)
  if 1 ≤ month ∧ month ≤ 12 ∧ 1 ≤ day ∧ day ≤ daysOf year month then some r else none

/-- What follows the seconds of a time, which may be left out. -/
def afterSeconds? : Text → Option Text
  | ':' :: r => do
    let (second, r) ← fixedDigits? 2 r
    if 60 < second then none
    else match r with
      | '.' :: f => if f.takeWhile Char.isDigit = [] then none else some (f.dropWhile Char.isDigit)
      | _ => some r
  | r => some r

def afterTime? (t : Text) : Option Text := do
  let (hour, r) ← fixedDigits? 2 t
  let (minute, r) ← fixedDigits? 2 (← Text.after? [':'] r)
  if hour ≤ 23 ∧ minute ≤ 59 then afterSeconds? r else none

/-- Whether a text is the offset of a time, or empty. -/
def isOffset : Text → Bool
  | [] => true
  | c :: r =>
    if c = 'Z' || c = 'z' then r.isEmpty
    else if c = '+' || c = '-' then
      match fixedDigits? 2 r with
      | some (hour, ':' :: r) =>
        match fixedDigits? 2 r with
        | some (minute, []) => hour ≤ 23 && minute ≤ 59
        | _ => false
      | _ => false
    else false

/-- Whether a text is a date, a time, or both. -/
def isMoment (t : Text) : Bool :=
  match afterDate? t with
  | some [] => true
  | some (c :: r) => (c = 'T' || c = 't' || c = ' ') && (afterTime? r).any isOffset
  | none => afterTime? t == some []

/-- The value that an unquoted text writes. -/
def scalar? (t : Text) : Option Toml :=
  if t = ("true" : Text) then some (.boolean true)
  else if t = ("false" : Text) then some (.boolean false)
  else if isMoment t then some .date
  else match integer? t, float? t with
    | some n, _ => some (.integer n)
    | none, some overflows => some (.float overflows)
    | none, none => none

end FilterLine.Toml
