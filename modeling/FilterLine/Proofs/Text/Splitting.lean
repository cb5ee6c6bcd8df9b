import Mathlib.Data.List.Basic
import FilterLine.Text.Basic

/-!
A piece without a character is what is cut off at the first occurrence behind it. Cutting at every
occurrence is the library's splitting, and joining its interspersing; so pieces without the character,
joined by it, are cut into themselves again. Joined pieces begin as the first of them does and end as
the last.
-/
namespace FilterLine.Text

variable {c : Char}

/-- A text is cut at the first occurrence of a character. -/
theorem cutFirst?_append {t u : Text} (h : c ∉ t) : cutFirst? c (t ++ c :: u) = some (t, u) := by
  induction t with
  | nil => simp [cutFirst?]
  | cons d t ih =>
    have hd := List.ne_of_not_mem_cons h
    simp [cutFirst?, Ne.symm hd, ih (List.not_mem_of_not_mem_cons h)]

theorem splitAll_eq_splitOn (c : Char) (t : Text) : splitAll c t = t.splitOn c := by
  induction t with
  | nil => simp [splitAll]
  | cons d t ih =>
    rw [splitAll, List.splitOn_cons_eq_if_modifyHead, ih]
    obtain ⟨p, ps, hsplit⟩ := List.exists_cons_of_ne_nil (List.splitOn_ne_nil c t)
    by_cases h : d = c <;> simp [h, hsplit, consFirst]

/-- A separator divides the pieces into those in front of it and those behind. -/
theorem splitAll_append_cons_self (c : Char) (a b : Text) :
    splitAll c (a ++ c :: b) = splitAll c a ++ splitAll c b := by
  simp only [splitAll_eq_splitOn, List.splitOn_append_cons_self]

theorem splitAll_of_not_mem {t : Text} (h : c ∉ t) : splitAll c t = [t] := by
  rw [splitAll_eq_splitOn, List.splitOn_eq_singleton h]

/-- No piece holds the separator. -/
theorem not_mem_of_mem_splitAll {t p : Text} (h : p ∈ splitAll c t) : c ∉ p := by
  induction t generalizing p with
  | nil => simp_all [splitAll]
  | cons d t ih =>
    by_cases hd : d = c
    · simp only [splitAll, hd, if_true, List.mem_cons] at h
      obtain rfl | h := h
      · exact List.not_mem_nil
      · exact ih h
    · obtain ⟨q, qs, hq⟩ := List.exists_cons_of_ne_nil (splitAll_ne_nil c t)
      simp only [splitAll, hd, if_false, hq, consFirst, List.mem_cons] at h
      obtain rfl | h := h
      · simp [ih (hq ▸ List.mem_cons_self), Ne.symm hd]
      · exact ih (hq ▸ List.mem_cons_of_mem _ h)

theorem join_eq_intercalate (separator : Text) (ps : List Text) :
    join separator ps = separator.intercalate ps := by
  induction ps with
  | nil => rfl
  | cons p ps ih =>
    cases ps with
    | nil => simp [join]
    | cons q ps => simp [join, ih, List.intercalate]

theorem head?_join {separator p : Text} (hne : p ≠ []) (ps : List Text) :
    (join separator (p :: ps)).head? = p.head? := by
  cases ps with
  | nil => rfl
  | cons q ps => rw [join, List.append_assoc, List.head?_append_of_ne_nil _ hne]

theorem join_ne_nil {separator p : Text} (hne : p ≠ []) (ps : List Text) :
    join separator (p :: ps) ≠ [] := by
  rw [← List.isSome_head?, head?_join hne, List.isSome_head?]
  exact hne

theorem getLast?_join {separator p : Text} (hne : p ≠ []) (ps : List Text) :
    (join separator (ps ++ [p])).getLast? = p.getLast? := by
  induction ps with
  | nil => rfl
  | cons q ps ih =>
    obtain ⟨r, rs, hcons⟩ := List.exists_cons_of_ne_nil (List.concat_ne_nil p ps)
    rw [List.cons_append, hcons, join, ← hcons, List.getLast?_append, ih]
    obtain ⟨c, hc⟩ := Option.isSome_iff_exists.mp (List.getLast?_isSome.mpr hne)
    rw [hc, Option.some_or]

/-- What is in neither the pieces nor the separator is not in the joined text. -/
theorem not_mem_join {separator : Text} {ps : List Text} (hseparator : c ∉ separator)
    (h : ∀ p ∈ ps, c ∉ p) : c ∉ join separator ps := by
  induction ps with
  | nil => exact List.not_mem_nil
  | cons p ps ih =>
    have hp := h p List.mem_cons_self
    cases ps with
    | nil => exact hp
    | cons q ps =>
      rw [join, List.mem_append, List.mem_append, not_or, not_or]
      exact ⟨⟨hp, hseparator⟩, ih fun r hr => h r (List.mem_cons_of_mem p hr)⟩

/-- Pieces without the separator are split where they were joined. -/
theorem splitAll_join {ps : List Text} (h : ∀ p ∈ ps, c ∉ p) (hne : ps ≠ []) :
    splitAll c (join [c] ps) = ps := by
  rw [splitAll_eq_splitOn, join_eq_intercalate, List.splitOn_intercalate c h hne]

end FilterLine.Text
