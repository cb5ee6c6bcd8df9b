import FilterLine.Text.Basic

/-!
Decimal numbers `m · 10 ^ e`: whether they fit into double precision, and how they are written.
-/
namespace FilterLine.Decimal

/-- Whether `m · 10 ^ e` is rounded to infinity: whether it is at least the middle between the
largest finite double precision number and the next power of two. -/
def overflows (m : Nat) (e : Int) : Bool :=
  let limit := Nat.pow 2 1024 - Nat.pow 2 970
  let size : Int := (Nat.toDigits 10 m).length + e
  if m = 0 || size < 300 then false
  else if 320 < size then true
  else if 0 ≤ e then limit ≤ m * Nat.pow 10 e.toNat
  else limit * Nat.pow 10 (-e).toNat ≤ m

/-- How `m · 10 ^ e` is written: without an exponent if the point falls among the first sixteen
digits, or has no more than four zeros after it, and then with at least one digit on each side. -/
def write (m : Nat) (e : Int) : Text :=
  let all := Text.decimal m
  let digits := all.reverse.dropWhile (· == '0') |>.reverse
  let e := e + (all.length - digits.length : Nat)
  let point := digits.length + e
  if digits = [] then "0.0"
  else if 0 ≤ e ∧ point ≤ 16 then digits ++ List.replicate e.toNat '0' ++ ".0"
  else if 0 < point ∧ point ≤ 16 then
    digits.take point.toNat ++ '.' :: digits.drop point.toNat
  else if -5 < point ∧ point ≤ 0 then "0." ++ List.replicate (-point).toNat '0' ++ digits
  else
    let power := point - 1
    let exponent := (if power < 0 then ['-'] else []) ++ Text.decimal power.natAbs
    match digits with
    | [d] => d :: 'e' :: exponent
    | d :: ds => d :: '.' :: ds ++ 'e' :: exponent
    | [] => []

end FilterLine.Decimal
