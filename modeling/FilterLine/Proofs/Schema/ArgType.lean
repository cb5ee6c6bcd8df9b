import Mathlib.Data.List.DropRight
import FilterLine.Schema.ArgType

/-!
Types that were read from a tag. Such a type is read again from the tag it is written with, which
does not hold of every type: a tag with blanks at its ends, or that of a known type, names another.
-/
namespace FilterLine

namespace Text

/-- Nothing is dropped a second time: trimming the end leaves a start of the text, whose first
character stays. -/
theorem dropWhile_trimWhile (p : Char → Bool) (t : Text) :
    (trimWhile p t).dropWhile p = trimWhile p t := by
  have hstart : trimWhile p t <+: t.dropWhile p := List.rdropWhile_prefix p (t.dropWhile p)
  rw [List.dropWhile_eq_self_iff]
  intro hl
  have hl' : 0 < (t.dropWhile p).length := Nat.lt_of_lt_of_le hl hstart.length_le
  rw [hstart.getElem hl]
  have h := List.dropWhile_eq_self_iff.mp (List.dropWhile_idempotent p t) hl'
  exact h

theorem trim_trim (t : Text) : t.trim.trim = t.trim := by
  rw [trim, trimWhile, trim, dropWhile_trimWhile]
  exact List.rdropWhile_idempotent isBlank (t.dropWhile isBlank)

end Text

namespace ArgType

def Parsed (k : ArgType) : Prop := ∃ t, ofTag t = k

theorem ofTag_trim (t : Text) : ofTag t.trim = ofTag t := by
  rw [ofTag, ofTag, Text.trim_trim]

/-- A type that was read from a tag is read back from its own. -/
theorem ofTag_tag {k : ArgType} (h : k.Parsed) : ofTag k.tag = k := by
  obtain ⟨t, rfl⟩ := h
  rw [tag_ofTag, ofTag_trim]

theorem parsed_ofTag (t : Text) : (ofTag t).Parsed := ⟨t, rfl⟩

end ArgType
end FilterLine
