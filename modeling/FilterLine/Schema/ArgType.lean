import FilterLine.Text.Blank

/-!
The type tags of filter arguments. A tag that names no known type is kept as it is, so the tag of
the type read from a tag is the tag itself without blanks at its ends.
-/
namespace FilterLine

inductive ArgType where
  | bool
  | sint
  | uint
  | lsint
  | luint
  | flt
  | dbl
  | frac
  | lfrac
  | str
  | cstr
  | strl
  | uintl
  | sintl
  | fourCc
  | fourCcList
  | vec2d
  | vec2i
  | vec3i
  | vec4i
  | enum
  | other (tag : Text)
  deriving DecidableEq, Repr

namespace ArgType

/-- The types that have a tag of their own. -/
def known : List ArgType :=
  [bool, sint, uint, lsint, luint, flt, dbl, frac, lfrac, str, cstr, strl, uintl, sintl, fourCc,
    fourCcList, vec2d, vec2i, vec3i, vec4i, enum]

def tag : ArgType → Text
  | bool => "bool"
  | sint => "sint"
  | uint => "uint"
  | lsint => "lsint"
  | luint => "luint"
  | flt => "flt"
  | dbl => "dbl"
  | frac => "frac"
  | lfrac => "lfrac"
  | str => "str"
  | cstr => "cstr"
  | strl => "strl"
  | uintl => "uintl"
  | sintl => "sintl"
  | fourCc => "4cc"
  | fourCcList => "4ccl"
  | vec2d => "v2d"
  | vec2i => "v2di"
  | vec3i => "v3di"
  | vec4i => "v4di"
  | enum => "enum"
  | other t => t

def ofTag (t : Text) : ArgType := (known.find? (·.tag == t.trim)).getD (other t.trim)

/-- The tag of a type is the one that it was read from, without blanks around it. -/
theorem tag_ofTag (t : Text) : (ofTag t).tag = t.trim := by
  unfold ofTag
  cases h : known.find? (·.tag == t.trim) with
  | none => rfl
  | some k => simpa using List.find?_some h

end ArgType
end FilterLine
