import FilterLine.Text.Basic

/-!
Blank characters: those with the Unicode property White_Space, which separate words and are
trimmed from type tags.
-/
namespace FilterLine

/-- Whether a character has the property White_Space. -/
def isBlank (c : Char) : Bool :=
  let n := c.toNat
  (0x9 ≤ n && n ≤ 0xD) || n == 0x20 || n == 0x85 || n == 0xA0 || n == 0x1680 ||
  (0x2000 ≤ n && n ≤ 0x200A) || n == 0x2028 || n == 0x2029 || n == 0x202F || n == 0x205F ||
  n == 0x3000

def Text.trim (t : Text) : Text := t.trimWhile isBlank

end FilterLine
