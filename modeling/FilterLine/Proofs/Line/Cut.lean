import FilterLine.Proofs.Line.Scanner

/-!
A text cut behind its last bare separator. The scanner stands outside there, so what follows can be
replaced without touching the pieces in front. Replacing the end of the last word of a line thus
leaves its other words, and replacing the end of the last segment of a word its other segments.
-/
namespace FilterLine.Line

/-- Whether no character of a text, read from a place on, is a bare separator. -/
def Uncut (separates : Char → Bool) (p : Place) (t : Text) : Prop :=
  ∀ m ∈ scan p t, cuts separates m = false

section Uncut

variable {separates : Char → Bool}

/-- Two texts behind each other are uncut just when each is, where it stands. -/
theorem uncut_append {p : Place} {t u : Text} :
    Uncut separates p (t ++ u) ↔ Uncut separates p t ∧ Uncut separates (p.after t) u := by
  simp only [Uncut, scan_append, List.mem_append]
  constructor
  · exact fun h => ⟨fun m hm => h m (.inl hm), fun m hm => h m (.inr hm)⟩
  · rintro ⟨ht, hu⟩ m (hm | hm)
    · exact ht m hm
    · exact hu m hm

theorem uncut_singleton {c : Char} (h : separates c = false) (p : Place) :
    Uncut separates p [c] := by
  simp [Uncut, scan, cuts, h]

theorem uncut_quote (h : Separator separates) (p : Place) : Uncut separates p ['"'] :=
  uncut_singleton h.quote p

theorem uncut_of_forall {t : Text} (h : ∀ c ∈ t, separates c = false) (p : Place) :
    Uncut separates p t := by
  intro m hm
  have hletter : m.1 ∈ letters (scan p t) := List.mem_map_of_mem hm
  rw [letters_scan] at hletter
  simp [cuts, h m.1 hletter]

/-- A text without bare separators is one piece. -/
theorem splitBare_of_uncut (h : Separator separates) {t : Text} (ht : Uncut separates {} t) :
    splitBare separates t = [t] := by
  rw [splitBare_eq h, List.splitOnP_eq_singleton ht, List.map_singleton, letters_scan]

/-- A separator outside ends a piece. -/
theorem splitBare_concat (h : Separator separates) {t : Text} (ht : Uncut separates {} t)
    (houtside : Place.after {} t = {}) {c : Char} (hc : separates c = true) :
    splitBare separates (t ++ [c]) = [t, []] := by
  have hcuts : cuts separates (c, {}) = true := by simp [cuts, Place.bare, hc]
  rw [splitBare_eq h, scan_append, houtside, scan, scan,
    splitOnP_concat_separator _ hcuts, List.splitOnP_eq_singleton ht, List.singleton_append,
    List.map_cons, letters_scan]
  rfl

end Uncut

/-- Without quotes and backslashes the scanner stays where it is. -/
theorem after_plain {t : Text} (hquote : '"' ∉ t) (hbackslash : '\\' ∉ t) (quoted : Bool) :
    Place.after ⟨quoted, false⟩ t = ⟨quoted, false⟩ := by
  induction t with
  | nil => rfl
  | cons c t ih =>
    rw [Place.after_cons, Place.step_plain (List.ne_of_not_mem_cons hquote).symm
      (List.ne_of_not_mem_cons hbackslash).symm]
    exact ih (List.not_mem_of_not_mem_cons hquote) (List.not_mem_of_not_mem_cons hbackslash)

/-- A text without quotes inside a span stays inside, and one outside stays outside. -/
theorem quoted_of_scan {quoted : Bool} {t : Text} (h : unescapedQuotes t = 0) :
    ∀ m ∈ scan ⟨quoted, false⟩ t, m.2.quoted = quoted := by
  fun_induction unescapedQuotes t with
  | case1 => simp [scan]
  | case2 c r ih => simpa [scan] using ih h
  | case3 c r hne ih =>
    have hquote : c ≠ '"' := by
      rintro rfl
      simp at h
    rw [if_neg hquote, Nat.zero_add] at h
    by_cases hbackslash : c = '\\'
    · cases r with
      | nil => simp [scan]
      | cons d r => exact absurd rfl (hne d r hbackslash)
    · rw [scan, Place.step_plain hquote hbackslash]
      intro m hm
      rcases List.mem_cons.mp hm with rfl | hm
      · rfl
      · exact ih h m hm

/-- Backslashes mean the same inside a span and outside. -/
theorem escaped_after (t : Text) (quoted quoted' escaped : Bool) :
    (Place.after ⟨quoted, escaped⟩ t).escaped = (Place.after ⟨quoted', escaped⟩ t).escaped := by
  induction t generalizing quoted quoted' escaped with
  | nil => rfl
  | cons c t ih =>
    cases escaped with
    | true => exact ih _ _ _
    | false =>
      by_cases hbackslash : c = '\\'
      · subst hbackslash
        exact ih _ _ _
      · by_cases hquote : c = '"'
        · subst hquote
          exact ih _ _ _
        · rw [Place.after_cons, Place.after_cons, Place.step_plain hquote hbackslash,
            Place.step_plain hquote hbackslash]
          exact ih _ _ _

/-- A text cut behind its last bare separator: the pieces in front of the cut, what stands in front
of it, and what stands behind it. -/
structure LastCut (separates : Char → Bool) (t : Text) (pieces : List Text) (front last : Text) :
    Prop where
  text : t = front ++ last
  outside : Place.after {} front = {}
  uncut : Uncut separates {} last
  split : ∀ u, splitBare separates (front ++ u) = pieces ++ splitBare separates u
  ends : pieces = [] ∧ front = [] ∨ pieces ≠ [] ∧ ∃ a c, front = a ++ [c] ∧ separates c = true

/-- A list has a last element of some kind, or none. -/
theorem exists_last_cut {α : Type} (p : α → Bool) (l : List α) : (∀ a ∈ l, p a = false) ∨
    ∃ front a last, l = front ++ a :: last ∧ p a = true ∧ ∀ b ∈ last, p b = false := by
  induction l with
  | nil => simp
  | cons a l ih =>
    rcases ih with hl | ⟨front, b, last, rfl, hb, hlast⟩
    · cases ha : p a with
      | false => exact .inl (by simpa [ha] using hl)
      | true => exact .inr ⟨[], a, l, rfl, ha, hl⟩
    · exact .inr ⟨a :: front, b, last, rfl, hb, hlast⟩

/-- The marks of a text can be divided where the text is. -/
theorem scan_eq_append {p : Place} {t : Text} {a b : List Mark} (h : scan p t = a ++ b) :
    t = letters a ++ letters b ∧ scan p (letters a) = a ∧
      scan (p.after (letters a)) (letters b) = b := by
  induction a generalizing p t with
  | nil =>
    rw [List.nil_append] at h
    have ht : letters b = t := by rw [← h, letters_scan]
    exact ⟨ht.symm, rfl, by rw [ht]; exact h⟩
  | cons m a ih =>
    cases t with
    | nil => cases h
    | cons c t =>
      rw [scan, List.cons_append] at h
      obtain ⟨rfl, hrest⟩ := List.cons_eq_cons.mp h
      obtain ⟨ht, ha, hb⟩ := ih hrest
      exact ⟨by rw [letters_cons, List.cons_append, ← ht], by rw [letters_cons, scan, ha], hb⟩

section LastCut

variable {separates : Char → Bool} (h : Separator separates)

include h

/-- Every text can be cut behind its last bare separator: a mark that cuts is read outside, and so
is what follows it. -/
theorem exists_lastCut (t : Text) : ∃ pieces front last, LastCut separates t pieces front last := by
  rcases exists_last_cut (cuts separates) (scan {} t) with
    hnone | ⟨front, m, last, hscan, hm, hlast⟩
  · exact ⟨[], [], t, rfl, rfl, hnone, fun u => rfl, .inl ⟨rfl, rfl⟩⟩
  · obtain ⟨c, p⟩ := m
    obtain ⟨ht, hfront, hrest⟩ := scan_eq_append hscan
    have hplace : Place.after {} (letters front) = {} ∧ Place.step {} c = {} := by
      rw [letters_cons, scan, List.cons.injEq, Prod.mk.injEq] at hrest
      obtain ⟨⟨-, hp⟩, -⟩ := hrest
      obtain ⟨rfl, hstep⟩ := h.step_of_cuts hm
      exact ⟨hp, hstep⟩
    obtain ⟨houtside, hstep⟩ := hplace
    have hc : cuts separates (c, {}) = true := by
      obtain ⟨rfl, -⟩ := h.step_of_cuts hm
      exact hm
    refine ⟨(front.splitOnP (cuts separates)).map letters, letters front ++ [c], letters last,
      by simpa using ht, by simp [houtside, hstep], ?_, fun u => ?_,
      .inr ⟨by simp [List.splitOnP_ne_nil], _, c, rfl, ?_⟩⟩
    · rw [letters_cons, scan, houtside, hstep] at hrest
      rw [Uncut, (List.cons.inj hrest).2]
      exact hlast
    · have hscan : scan {} (letters front ++ [c] ++ u) = front ++ (c, {}) :: scan {} u := by
        rw [List.append_assoc, scan_append, hfront, houtside, List.singleton_append, scan, hstep]
      rw [splitBare_eq h, splitBare_eq h, hscan,
        List.splitOnP_append_cons _ _ hc, List.map_append]
    · simpa [cuts, Place.bare] using hc

variable {t front last u : Text} {pieces : List Text}

/-- What stands behind the cut can be replaced by another text without bare separators. -/
theorem LastCut.split_uncut (hcut : LastCut separates t pieces front last)
    (hu : Uncut separates {} u) : splitBare separates (front ++ u) = pieces ++ [u] := by
  rw [hcut.split, splitBare_of_uncut h hu]

/-- Where the text in place of what stands behind the cut ends outside, a separator behind it starts an
empty piece. -/
theorem LastCut.split_concat (hcut : LastCut separates t pieces front last)
    (hu : Uncut separates {} u) (houtside : Place.after {} u = {}) {c : Char}
    (hc : separates c = true) :
    splitBare separates (front ++ (u ++ [c])) = pieces ++ [u, []] := by
  rw [hcut.split, splitBare_concat h hu houtside hc]

end LastCut

section Lines

variable {line front last u : Text} {pieces : List Text}

/-- With the cursor at the end the whole line is read, closed if it is open. -/
theorem parse_length (t : Text) : CommandLine.parse t t.length =
    ⟨words (if endsQuoted t then t ++ ['"'] else t), endsQuoted t⟩ := by
  simp [CommandLine.parse]

/-- A line whose last word is replaced keeps the others. -/
theorem parse_of_uncut (hcut : LastCut isBlank line pieces front last)
    (hu : Uncut isBlank {} u) (hne : u ≠ []) :
    CommandLine.parse (front ++ u) (front ++ u).length =
      ⟨pieces.filter (· ≠ []) ++ [if (Place.after {} u).quoted then u ++ ['"'] else u],
        (Place.after {} u).quoted⟩ := by
  have hquoted : endsQuoted (front ++ u) = (Place.after {} u).quoted := by
    rw [endsQuoted_eq, Place.after_append, hcut.outside]
  have hwords : ∀ v, Uncut isBlank {} v → v ≠ [] →
      words (front ++ v) = pieces.filter (· ≠ []) ++ [v] := by
    intro v hv hv'
    rw [words, hcut.split_uncut separator_blank hv]
    simp [hv']
  rw [parse_length, hquoted]
  cases (Place.after {} u).quoted with
  | false => rw [if_neg (by simp), if_neg (by simp), hwords u hu hne]
  | true =>
    have hclosed : Uncut isBlank {} (u ++ ['"']) :=
      uncut_append.mpr ⟨hu, uncut_quote separator_blank _⟩
    rw [if_pos rfl, if_pos rfl, List.append_assoc, hwords _ hclosed (by simp)]

/-- A blank behind the last word of a line begins another. -/
theorem parse_of_blank (hcut : LastCut isBlank line pieces front last)
    (hu : Uncut isBlank {} u) (hne : u ≠ []) (houtside : Place.after {} u = {}) :
    CommandLine.parse (front ++ (u ++ [' '])) (front ++ (u ++ [' '])).length =
      ⟨pieces.filter (· ≠ []) ++ [u, []], false⟩ := by
  have hquoted : endsQuoted (front ++ (u ++ [' '])) = false := by
    simp [endsQuoted_eq, hcut.outside, houtside, Place.step]
  rw [parse_length, hquoted, if_neg (by simp), words,
    hcut.split_concat separator_blank hu houtside (by decide)]
  simp [hne]

end Lines

end FilterLine.Line
