import FilterLine.Text.Basic

/-!
Names marked by colour. A mark has an opening and a closing sequence, and between them a run of
letters that is as long as it can be. Marks are found from left to right, and one begins after the
end of the one before.
-/
namespace FilterLine.Listing

/-- A way to mark names. -/
structure Mark where
  opening : Text
  letter : Char → Bool
  /-- Whether a run of letters is a marked name. -/
  admits : Text → Bool
  closing : Text

/-- The sequences that switch to green, to yellow and back. -/
def green : Text := ['\x1b', '[', '3', '2', 'm']

@[inherit_doc green] def yellow : Text := ['\x1b', '[', '3', '3', 'm']

@[inherit_doc green] def plain : Text := ['\x1b', '[', '0', 'm']

def isAlphanumeric (c : Char) : Bool := c.isAlphanum

namespace Mark

/-- The names of filters, which may be empty. -/
def filter : Mark := ⟨green, isAlphanumeric, fun _ => true, ':' :: plain⟩

/-- The names of modules, which may hold dots and underscores. -/
def moduleName : Mark :=
  ⟨green, fun c => isAlphanumeric c || c == '.' || c == '_', fun _ => true, ':' :: plain⟩

def property : Mark := ⟨green, Char.isAlpha, fun name => name.head?.any Char.isUpper, plain⟩

def literal : Mark := ⟨yellow, isAlphanumeric, (· ≠ []), plain ++ [':']⟩

/-- The marked name in front, and the length of the mark. -/
def here? (m : Mark) (t : Text) : Option (Text × Nat) := do
  let inside ← Text.after? m.opening t
  let name := inside.takeWhile m.letter
  let _ ← Text.after? m.closing (inside.dropWhile m.letter)
  if m.admits name then some (name, m.opening.length + name.length + m.closing.length) else none

/-- The names marked after the first `skip` characters. -/
def scan (m : Mark) : (skip : Nat) → Text → List Text
  | _, [] => []
  | skip + 1, _ :: r => scan m skip r
  | 0, c :: r =>
    match m.here? (c :: r) with
    | some (name, length) => name :: scan m (length - 1) r
    | none => scan m 0 r

/-- The names marked in a text, the empty ones left out. -/
def names (m : Mark) (t : Text) : List Text := (m.scan 0 t).filter (· ≠ [])

end Mark
end FilterLine.Listing
