import FilterLine.Text.Blank

/-!
Double quotes and backslashes. A quote opens or closes a quoted span; a backslash, inside a span or
outside, takes the next character with it and means nothing else. What is neither quoted nor
escaped is bare, and only bare characters separate.
-/
namespace FilterLine.Line

/-- The number of double quotes that no backslash escapes. -/
def unescapedQuotes : Text → Nat
  | [] => 0
  | '\\' :: _ :: r => unescapedQuotes r
  | c :: r => (if c = '"' then 1 else 0) + unescapedQuotes r

def endsQuoted (t : Text) : Bool := unescapedQuotes t % 2 == 1

/-- The pieces between the bare characters satisfying `separates`, with `quoted` telling whether the
text starts inside a span. Nothing but the separators is dropped. -/
def splitBareFrom (separates : Char → Bool) : (quoted : Bool) → Text → List Text
  | _, [] => [[]]
  | quoted, '\\' :: c :: r => Text.consFirst '\\' (Text.consFirst c (splitBareFrom separates quoted r))
  | quoted, c :: r =>
    if c = '"' then Text.consFirst c (splitBareFrom separates (!quoted) r)
    else if !quoted && separates c then [] :: splitBareFrom separates quoted r
    else Text.consFirst c (splitBareFrom separates quoted r)

def splitBare (separates : Char → Bool) (t : Text) : List Text := splitBareFrom separates false t

/-- The words of a text: the runs between bare blanks, and an empty last one after a bare blank at
the end. -/
def words (t : Text) : List Text :=
  let pieces := splitBare isBlank t
  pieces.filter (· ≠ []) ++ if 1 < pieces.length ∧ pieces.getLast? = some [] then [[]] else []

/-- The segments of a word: the pieces between its bare colons. -/
def segments (word : Text) : List Text := splitBare (· == ':') word

theorem splitBareFrom_ne_nil (separates : Char → Bool) (quoted : Bool) (t : Text) :
    splitBareFrom separates quoted t ≠ [] := by
  fun_induction splitBareFrom separates quoted t with
  | case1 => simp
  | case2 => cases splitBareFrom separates _ _ <;> simp [Text.consFirst]
  | case3 => cases splitBareFrom separates _ _ <;> simp [Text.consFirst]
  | case4 => simp
  | case5 => cases splitBareFrom separates _ _ <;> simp [Text.consFirst]

end FilterLine.Line
