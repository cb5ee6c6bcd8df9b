import Mathlib.Data.List.ModifyLast
import FilterLine.Proofs.Line.Scanner

/-!
Words and segments are what one scanner says they are. The words of a line are the maximal runs of
characters other than bare blanks, the segments of a word the pieces between its bare colons, and a
quote is added just when the scanner ends inside a span.
-/
namespace FilterLine.Line

/-- The maximal runs of elements that do not separate, in order. -/
inductive Runs {α : Type} (separates : α → Bool) : List α → List (List α) → Prop where
  | nil : Runs separates [] []
  | gap {a : α} {l : List α} {runs : List (List α)} : separates a = true →
      Runs separates l runs → Runs separates (a :: l) runs
  | run {run l : List α} {runs : List (List α)} : run ≠ [] → (∀ a ∈ run, separates a = false) →
      (∀ a ∈ l.head?, separates a = true) → Runs separates l runs →
      Runs separates (run ++ l) (run :: runs)

/-- A piece in front of a separator is a run, unless it is empty. -/
theorem Runs.of_piece {α : Type} {separates : α → Bool} {piece l : List α}
    {pieces : List (List α)} (hpiece : ∀ a ∈ piece, separates a = false)
    (hl : ∀ a ∈ l.head?, separates a = true) (h : Runs separates l (pieces.filter (· ≠ []))) :
    Runs separates (piece ++ l) ((piece :: pieces).filter (· ≠ [])) := by
  by_cases hne : piece = []
  · subst hne
    simpa using h
  · rw [List.filter_cons_of_pos (by simpa using hne)]
    exact .run hne hpiece hl h

/-- The pieces between separators are the maximal runs, but for the empty ones. -/
theorem runs_splitOnP {α : Type} (separates : α → Bool) (l : List α) :
    Runs separates l ((l.splitOnP separates).filter (· ≠ [])) := by
  suffices h : ∃ piece rest pieces, l.splitOnP separates = piece :: pieces ∧ l = piece ++ rest ∧
      (∀ a ∈ piece, separates a = false) ∧ (∀ a ∈ rest.head?, separates a = true) ∧
      Runs separates rest (pieces.filter (· ≠ [])) by
    obtain ⟨piece, rest, pieces, hsplit, hl, hpiece, hrest, hruns⟩ := h
    rw [hsplit, hl]
    exact hruns.of_piece hpiece hrest
  induction l with
  | nil => exact ⟨[], [], [], by simp, rfl, by simp, by simp, .nil⟩
  | cons a l ih =>
    obtain ⟨piece, rest, pieces, hsplit, hl, hpiece, hrest, hruns⟩ := ih
    rw [List.splitOnP_cons_eq_if_modifyHead, hsplit]
    by_cases ha : separates a = true
    · rw [if_pos ha]
      refine ⟨[], a :: l, piece :: pieces, rfl, rfl, by simp, by simpa using ha, .gap ha ?_⟩
      rw [hl]
      exact hruns.of_piece hpiece hrest
    · rw [if_neg ha]
      refine ⟨a :: piece, rest, pieces, rfl, by rw [hl, List.cons_append], ?_, hrest, hruns⟩
      simpa using ⟨by simpa using ha, hpiece⟩

section Pieces

variable {separates : Char → Bool}

/-- Every piece but the first is read from outside. -/
theorem scan_letters_of_pieces (h : Separator separates) {p : Place} {t : Text}
    {piece : List Mark} {pieces : List (List Mark)}
    (hsplit : (scan p t).splitOnP (cuts separates) = piece :: pieces) :
    scan p (letters piece) = piece ∧ ∀ w ∈ pieces, scan {} (letters w) = w := by
  induction t generalizing p piece pieces with
  | nil =>
    cases hsplit
    exact ⟨rfl, by simp⟩
  | cons c t ih =>
    obtain ⟨piece', pieces', hsplit'⟩ := List.exists_cons_of_ne_nil
      (List.splitOnP_ne_nil (cuts separates) (scan (p.step c) t))
    obtain ⟨hpiece, hpieces⟩ := ih hsplit'
    rw [scan, List.splitOnP_cons_eq_if_modifyHead, hsplit'] at hsplit
    by_cases hcuts : cuts separates (c, p) = true
    · rw [if_pos hcuts] at hsplit
      cases hsplit
      rw [(h.step_of_cuts hcuts).2] at hpiece
      refine ⟨rfl, fun w hw => ?_⟩
      rcases List.mem_cons.mp hw with rfl | hw
      · exact hpiece
      · exact hpieces w hw
    · rw [if_neg hcuts] at hsplit
      cases hsplit
      exact ⟨by rw [letters_cons, scan, hpiece], hpieces⟩

/-- A text read from outside is split into pieces that are read from outside. -/
theorem scan_letters_of_mem (h : Separator separates) {t : Text} {w : List Mark}
    (hw : w ∈ (scan {} t).splitOnP (cuts separates)) : scan {} (letters w) = w := by
  obtain ⟨piece, pieces, hsplit⟩ := List.exists_cons_of_ne_nil
    (List.splitOnP_ne_nil (cuts separates) (scan {} t))
  obtain ⟨hpiece, hpieces⟩ := scan_letters_of_pieces h hsplit
  rw [hsplit] at hw
  rcases List.mem_cons.mp hw with rfl | hw
  · exact hpiece
  · exact hpieces w hw

end Pieces

/-- Nothing but the colons is dropped. -/
theorem join_splitBareFrom (quoted : Bool) (t : Text) :
    Text.join [':'] (splitBareFrom (· == ':') quoted t) = t := by
  have hcons : ∀ (c : Char) (pieces : List Text), pieces ≠ [] →
      Text.join [':'] (Text.consFirst c pieces) = c :: Text.join [':'] pieces := by
    intro c pieces hne
    match pieces with
    | [] => exact absurd rfl hne
    | [p] => rfl
    | p :: q :: ps => rfl
  fun_induction splitBareFrom (· == ':') quoted t with
  | case1 => rfl
  | case2 quoted c r ih =>
    have hne := splitBareFrom_ne_nil (· == ':') quoted r
    rw [hcons _ _ (by cases h : splitBareFrom (· == ':') quoted r <;> simp [Text.consFirst]),
      hcons _ _ hne, ih]
  | case3 quoted r hr ih => rw [hcons _ _ (splitBareFrom_ne_nil _ _ r), ih]
  | case4 quoted c r hr hquote hcuts ih =>
    simp only [Bool.and_eq_true, beq_iff_eq] at hcuts
    obtain ⟨piece, pieces, hpieces⟩ :=
      List.exists_cons_of_ne_nil (splitBareFrom_ne_nil (· == ':') quoted r)
    rw [hpieces] at ih ⊢
    rw [Text.join, ih, hcuts.2]
    rfl
  | case5 quoted c r hr hquote hcuts ih => rw [hcons _ _ (splitBareFrom_ne_nil _ _ r), ih]

/-- The segments of a word joined by colons are the word. -/
theorem join_segments (w : Text) : Text.join [':'] (segments w) = w := join_splitBareFrom false w

/-- The segments of a word are cut where the line has bare colons. -/
theorem segments_letters {t : Text} {w : List Mark}
    (hw : w ∈ (scan {} t).splitOnP (cuts isBlank)) :
    segments (letters w) = (w.splitOnP (cuts (· == ':'))).map letters := by
  rw [segments, splitBare_eq separator_colon, scan_letters_of_mem separator_blank hw]

/-- The marks of the words of a text: its runs, and an empty word behind a bare blank at its end. -/
def markedWords (marks : List Mark) (runs : List (List Mark)) : List (List Mark) :=
  runs ++ if marks.getLast?.any (cuts isBlank) then [[]] else []

/-- The runs of a line, the last one closed by a quote if the line ends inside a span. -/
def closedRuns (finish : Place) (runs : List (List Mark)) : List (List Mark) :=
  if finish.quoted then runs.modifyLast (· ++ [('"', finish)]) else runs

theorem filter_letters (pieces : List (List Mark)) :
    (pieces.map letters).filter (· ≠ []) = (pieces.filter (· ≠ [])).map letters := by
  rw [List.filter_map]
  congr 2
  funext w
  simp [letters]

/-- The words of a text are its runs, with an empty one behind a bare blank at the end. -/
theorem words_eq (t : Text) : words t = (markedWords (scan {} t)
    (((scan {} t).splitOnP (cuts isBlank)).filter (· ≠ []))).map letters := by
  rw [words, splitBare_eq separator_blank, markedWords, List.map_append, filter_letters]
  congr 1
  generalize scan {} t = marks
  rcases List.eq_nil_or_concat marks with rfl | ⟨marks, a, rfl⟩
  · rfl
  · rw [List.concat_eq_append]
    by_cases ha : cuts isBlank a = true
    · have hne := List.splitOnP_ne_nil (cuts isBlank) marks
      rw [splitOnP_concat_separator marks ha]
      simp [ha, List.length_pos_iff, hne, letters]
    · have ha' : cuts isBlank a = false := by simpa using ha
      obtain ⟨init, last, hsplit⟩ := exists_last_piece (cuts isBlank) marks
      rw [splitOnP_concat hsplit ha']
      simp [ha', letters]

/-- A line that ends inside a span ends in no bare blank. -/
theorem getLast_of_quoted {t : Text} (h : (Place.after {} t).quoted = true) :
    scan {} t ≠ [] ∧ (scan {} t).getLast?.any (cuts isBlank) = false := by
  rcases List.eq_nil_or_concat t with rfl | ⟨t, c, rfl⟩
  · exact absurd h (by simp)
  · rw [List.concat_eq_append] at h ⊢
    rw [scan_append]
    refine ⟨by simp [scan], ?_⟩
    cases hcuts : cuts isBlank (c, Place.after {} t) with
    | false => simpa [scan] using hcuts
    | true =>
      rw [Place.after_append, Place.after_cons, (separator_blank.step_of_cuts hcuts).2] at h
      exact absurd h (by simp)

/-- Closing the span in which a line ends adds a quote to the last run. -/
theorem closedRuns_eq {t : Text} (h : (Place.after {} t).quoted = true) :
    ∃ init last, closedRuns (Place.after {} t)
        (((scan {} t).splitOnP (cuts isBlank)).filter (· ≠ [])) = init ++ [last] ∧ last ≠ [] ∧
      ((scan {} (t ++ ['"'])).splitOnP (cuts isBlank)).filter (· ≠ []) = init ++ [last] := by
  obtain ⟨hne, hlast⟩ := getLast_of_quoted h
  obtain ⟨init, last, hsplit⟩ := exists_last_piece (cuts isBlank) (scan {} t)
  have hlast' : last ≠ [] := last_piece_ne_nil hsplit hlast hne
  have hquote : cuts isBlank ('"', Place.after {} t) = false := by
    simp [cuts, separator_blank.quote]
  refine ⟨init.filter (· ≠ []), last ++ [('"', Place.after {} t)], ?_, by simp, ?_⟩
  · rw [closedRuns, if_pos h, hsplit, List.filter_append,
      List.filter_cons_of_pos (by simpa using hlast'), List.filter_nil, List.modifyLast_concat]
  · rw [scan_append, scan, scan, splitOnP_concat hsplit hquote, List.filter_append,
      List.filter_cons_of_pos (by simp), List.filter_nil]

/-- A line is read as one scanner marks it. It is closed just when the scanner ends inside a span,
and the word under the cursor is then not empty. Its words are the maximal runs of marks that are no
bare blanks, the last one closed, and an empty one if the line ends in a bare blank: closing the
line changes no other run. The segments of every word are what lies between the marks of bare
colons. -/
theorem parse_scan (line : Text) (cursor : Nat) :
    let l := CommandLine.parse line cursor
    let marks := scan {} (line.take cursor)
    let finish := Place.after {} (line.take cursor)
    l.quoteSynthesized = finish.quoted ∧ (l.quoteSynthesized = true → l.current ≠ []) ∧
      ∃ runs, Runs (cuts isBlank) marks runs ∧
        l.words = (markedWords marks (closedRuns finish runs)).map letters ∧
        ∀ w ∈ markedWords marks (closedRuns finish runs),
          segments (letters w) = (w.splitOnP (cuts (· == ':'))).map letters ∧
            Text.join [':'] (segments (letters w)) = letters w := by
  intro l marks finish
  have hquoted : l.quoteSynthesized = finish.quoted := endsQuoted_eq (line.take cursor)
  have hclosed : ∃ t, l.words = words t ∧ markedWords (scan {} t)
      (((scan {} t).splitOnP (cuts isBlank)).filter (· ≠ [])) =
        markedWords marks (closedRuns finish ((marks.splitOnP (cuts isBlank)).filter (· ≠ []))) := by
    refine ⟨_, rfl, ?_⟩
    cases h : endsQuoted (line.take cursor) with
    | false => simp [closedRuns, finish, ← endsQuoted_eq, h, marks]
    | true =>
      have hfinish : finish.quoted = true := by rw [← hquoted]; exact h
      obtain ⟨init, last, hruns, -, hsplit⟩ := closedRuns_eq hfinish
      have hlast : ((scan {} (line.take cursor ++ ['"'])).getLast?.any (cuts isBlank)) = false := by
        simp [scan_append, scan, cuts, separator_blank.quote]
      rw [if_pos rfl, markedWords, markedWords, hlast, (getLast_of_quoted hfinish).2, hruns, hsplit]
  obtain ⟨t, hwords, hmarked⟩ := hclosed
  have heq : l.words = _ := hwords.trans ((words_eq t).trans (by rw [hmarked]))
  refine ⟨hquoted, fun h => ?_, _, runs_splitOnP (cuts isBlank) marks, heq, fun w hw => ?_⟩
  · rw [hquoted] at h
    obtain ⟨init, last, hruns, hne, -⟩ := closedRuns_eq h
    rw [hruns, markedWords, (getLast_of_quoted h).2] at heq
    simpa [CommandLine.current, heq, letters] using hne
  · rw [← hmarked] at hw
    refine ⟨?_, join_segments _⟩
    rcases List.mem_append.mp hw with hw | hw
    · exact segments_letters (List.mem_filter.mp hw).1
    · have hnil : w = [] := by
        split at hw
        · exact List.mem_singleton.mp hw
        · exact absurd hw List.not_mem_nil
      rw [hnil]
      rfl

/-- A line whose last word holds an escaped quote, a quoted blank and a quoted colon, and ends
inside the span. -/
def quotedLine : Text := "f:a=\\\"x\\ y  g:b=\"p q:r\\\" s"

theorem parse_scan_quoted :
    (CommandLine.parse quotedLine 27).words =
        [("f:a=\\\"x\\ y" : Text), ("g:b=\"p q:r\\\" s\"" : Text)] ∧
      (CommandLine.parse quotedLine 27).quoteSynthesized = true ∧
      (CommandLine.parse quotedLine 27).current ≠ [] := by
  have hquoted : (CommandLine.parse quotedLine 27).quoteSynthesized = true := by decide
  exact ⟨by decide, hquoted, (parse_scan quotedLine 27).2.1 hquoted⟩

end FilterLine.Line
