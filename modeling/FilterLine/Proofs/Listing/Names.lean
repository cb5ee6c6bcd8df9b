import Mathlib.Data.List.TakeWhile
import FilterLine.Listing.Answer
import FilterLine.Proofs.Text.Name

/-!
The names that the help output of the tool gives. Whatever the output is, a name that is found in it is
not empty and made of word characters, so it holds none of the characters that lines, clauses and keys
are written with. Only names of modules may hold dots.
-/
namespace FilterLine

/-- The characters that clauses, properties, quotes, escapes and keys are written with. -/
def separators : List Char := [':', '=', '#', '"', '\\', '.']

/-- Whether a text can stand for itself wherever separators are looked for. -/
structure Text.SeparatorFree (t : Text) : Prop where
  ne_nil : t ≠ []
  blank : ∀ c ∈ t, isBlank c = false
  separator : ∀ c ∈ t, c ∉ separators

/-- A name holds no separator. -/
theorem Text.IsName.separatorFree {t : Text} (h : t.IsName) : t.SeparatorFree where
  ne_nil := h.ne_nil
  blank c hc := (plain_of_isWord (h.word c hc)).1
  separator c hc hmem := by
    have hall : separators.all (!Text.isWord ·) = true := by decide +kernel
    have hnot := List.all_eq_true.mp hall c hmem
    rw [h.word c hc] at hnot
    cases hnot

theorem isWord_of_run {c : Char} (run : Nat × Nat) (hrun : run ∈ Text.wordRuns)
    (h : run.1 ≤ c.toNat ∧ c.toNat ≤ run.2) : Text.isWord c = true :=
  List.any_eq_true.mpr ⟨run, hrun, by simpa using h⟩

theorem isWord_of_isAlpha {c : Char} (h : c.isAlpha = true) : Text.isWord c = true := by
  rcases Bool.or_eq_true_iff.mp h with hupper | hlower
  · exact isWord_of_run (0x41, 0x5A) (by decide +kernel) (of_decide_eq_true hupper)
  · obtain ⟨hlow, hhigh⟩ := Bool.and_eq_true_iff.mp hlower
    exact isWord_of_run (0x61, 0x7A) (by decide +kernel)
      ⟨of_decide_eq_true hlow, of_decide_eq_true hhigh⟩

theorem isWord_of_isAlphanum {c : Char} (h : c.isAlphanum = true) : Text.isWord c = true := by
  rcases Bool.or_eq_true_iff.mp h with halpha | hdigit
  · exact isWord_of_isAlpha halpha
  · obtain ⟨hlow, hhigh⟩ := Bool.and_eq_true_iff.mp hdigit
    exact isWord_of_run (0x30, 0x39) (by decide +kernel)
      ⟨of_decide_eq_true hlow, of_decide_eq_true hhigh⟩

namespace Listing

/-! ### Marked names -/

namespace Mark

variable {m : Mark} {name : Text} {length : Nat} {t : Text}

/-- A marked name has only letters of its mark. -/
theorem letter_of_here? (h : m.here? t = some (name, length)) :
    ∀ c ∈ name, m.letter c = true := by
  simp only [here?, Option.bind_eq_bind, Option.bind_eq_some_iff] at h
  obtain ⟨inside, -, rest, -, h⟩ := h
  split at h
  · cases h
    exact fun c hc => List.mem_takeWhile_imp hc
  · cases h

/-- What stands between the sequences of a mark are letters of that mark. -/
theorem letter_of_mem_scan {skip : Nat} (h : name ∈ m.scan skip t) :
    ∀ c ∈ name, m.letter c = true := by
  fun_induction scan m skip t with
  | case1 => cases h
  | case2 skip c r ih => exact ih h
  | case3 c r found length hhere ih =>
    rcases List.mem_cons.mp h with rfl | h
    · exact letter_of_here? hhere
    · exact ih h
  | case4 c r hhere ih => exact ih h

/-- A marked name whose letters are word characters is a name. -/
theorem isName_of_mem_names (hletter : ∀ c, m.letter c = true → Text.isWord c = true)
    (h : name ∈ m.names t) : name.IsName := by
  obtain ⟨hmem, hne⟩ := List.mem_filter.mp h
  exact ⟨of_decide_eq_true hne, fun c hc => hletter c (letter_of_mem_scan hmem c hc)⟩

/-- The filters that are listed have names. -/
theorem isName_of_mem_filter (h : name ∈ filter.names t) : name.IsName :=
  isName_of_mem_names (fun _ => isWord_of_isAlphanum) h

/-- The literals that are listed are names. -/
theorem isName_of_mem_literal (h : name ∈ literal.names t) : name.IsName :=
  isName_of_mem_names (fun _ => isWord_of_isAlphanum) h

/-- The properties that are listed have names. -/
theorem isName_of_mem_property (h : name ∈ property.names t) : name.IsName :=
  isName_of_mem_names (fun _ => isWord_of_isAlpha) h

end Mark

/-! ### Names in lines -/

variable {t : Text}

theorem isName_of_word? {w r : Text} (h : word? t = some (w, r)) : w.IsName := by
  unfold word? at h
  split at h
  · cases h
  · rename_i hne
    cases h
    exact ⟨hne, fun c hc => List.mem_takeWhile_imp hc⟩

/-- The arguments that are declared have names. -/
theorem isName_of_mem_arguments {spec : ArgumentSpec} (h : spec ∈ arguments t) :
    spec.name.IsName := by
  obtain ⟨line, -, hspec⟩ := List.mem_filterMap.mp h
  simp only [argumentOfLine?, Option.bind_eq_bind, Option.bind_eq_some_iff, Prod.exists] at hspec
  obtain ⟨name, r, hname, rest, -, tag, rest', -, hspec⟩ := hspec
  cases hspec
  exact isName_of_word? hname

/-- The protocols that are described have names. -/
theorem isName_of_mem_protocols {p : Protocol} (h : p ∈ protocols t) : p.name.IsName := by
  obtain ⟨line, -, hp⟩ := List.mem_filterMap.mp h
  simp only [protocolOfLine?, Option.bind_eq_bind, Option.bind_eq_some_iff, Prod.exists] at hp
  obtain ⟨name, r, hname, rest, -, hp⟩ := hp
  cases hp
  exact isName_of_word? hname

/-! ### Details -/

/-- Only the details of enumerations list literals. -/
theorem enum_of_argumentDetail {name : Text} (h : (argumentDetail name t).values ≠ []) :
    (argumentDetail name t).kind = some .enum := by
  unfold argumentDetail at h ⊢
  split at h
  · exact absurd rfl h
  · rfl
  · exact absurd rfl h

/-- The literals of a detail are names. -/
theorem isName_of_mem_argumentDetail {name v : Text} (h : v ∈ (argumentDetail name t).values) :
    v.IsName := by
  unfold argumentDetail at h
  split at h
  · cases h
  · exact Mark.isName_of_mem_literal h
  · cases h

end Listing
end FilterLine
