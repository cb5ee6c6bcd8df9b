import FilterLine.Text.Blank
import FilterLine.Text.Word

/-!
Names. A name is a text of word characters, and none of these is a blank, a quote, a backslash or one
of the characters that a clause is written with.
-/
namespace FilterLine

/-- Whether a text is a name, made of word characters. -/
structure Text.IsName (t : Text) : Prop where
  ne_nil : t ≠ []
  word : ∀ c ∈ t, Text.isWord c = true

instance (t : Text) : Decidable t.IsName :=
  decidable_of_iff (t ≠ [] ∧ t.all Text.isWord = true)
    ⟨fun h => ⟨h.1, List.all_eq_true.mp h.2⟩, fun h => ⟨h.ne_nil, List.all_eq_true.mpr h.word⟩⟩

def blankPoints : List Nat :=
  [0x9, 0xA, 0xB, 0xC, 0xD, 0x20, 0x85, 0xA0, 0x1680, 0x2000, 0x2001, 0x2002, 0x2003, 0x2004,
    0x2005, 0x2006, 0x2007, 0x2008, 0x2009, 0x200A, 0x2028, 0x2029, 0x202F, 0x205F, 0x3000]

/-- There are no other blanks than those listed. -/
theorem toNat_mem_blankPoints {c : Char} (h : isBlank c = true) : c.toNat ∈ blankPoints := by
  simp only [isBlank, Bool.or_eq_true, Bool.and_eq_true, decide_eq_true_eq, beq_iff_eq] at h
  simp only [blankPoints, List.mem_cons, List.not_mem_nil, or_false]
  omega

/-- The characters that a clause is written with. -/
def clauseMarks : List Char := ['"', '\\', ':', ' ', '=']

variable {c : Char} {t : Text}

/-- A word character does not separate, and neither quotes nor escapes. -/
theorem plain_of_isWord (h : Text.isWord c = true) :
    isBlank c = false ∧ c ∉ clauseMarks := by
  constructor
  · rw [Bool.eq_false_iff]
    intro hblank
    have hpoints : blankPoints.all (!Text.inRuns Text.wordRuns ·) = true := by decide +kernel
    have hpoint := List.all_eq_true.mp hpoints _ (toNat_mem_blankPoints hblank)
    rw [Text.isWord] at h
    simp [h] at hpoint
  · intro hmem
    have hmarks : clauseMarks.all (!Text.isWord ·) = true := by decide +kernel
    have hmark := List.all_eq_true.mp hmarks c hmem
    simp [h] at hmark

/-- Whether all characters of a text are word characters. An empty text will do. -/
def Text.AllWord (t : Text) : Prop := ∀ c ∈ t, Text.isWord c = true

instance (t : Text) : Decidable t.AllWord :=
  decidable_of_iff (t.all Text.isWord = true) List.all_eq_true

theorem Text.AllWord.not_mem (h : t.AllWord) {d : Char} (hd : Text.isWord d = false) : d ∉ t := by
  intro hmem
  rw [h d hmem] at hd
  cases hd

/-- No mark of a clause, no hash of a property and no dot of a help topic is among word characters. -/
theorem Text.AllWord.not_mem_of_mark (h : t.AllWord) {d : Char} (hd : d ∈ '#' :: '.' :: clauseMarks) :
    d ∉ t := by
  have hmarks : ('#' :: '.' :: clauseMarks).all (!Text.isWord ·) = true := by decide +kernel
  exact h.not_mem (by simpa using List.all_eq_true.mp hmarks d hd)

theorem Text.AllWord.head?_ne_hash (h : t.AllWord) : t.head? ≠ some '#' := by
  intro hhead
  exact absurd (List.mem_of_head? hhead) (h.not_mem_of_mark (by decide))

theorem Text.IsName.not_mem (h : t.IsName) {d : Char} (hd : d ∈ clauseMarks) : d ∉ t :=
  fun hmem => (plain_of_isWord (h.word d hmem)).2 hd

end FilterLine
