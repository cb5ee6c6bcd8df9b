import FilterLine.Line.Context
import FilterLine.Proofs.Line.Cut

/-!
Finished words. They are the pieces in front of the last bare blank, and what is typed behind a line
goes on with its last piece; so a finished word stays as it is, whatever is typed next. A help flag
among them keeps every later context one of help.
-/
namespace FilterLine

namespace Line

variable {separates : Char → Bool}

/-- There is always a last piece. -/
theorem exists_splitBare (separates : Char → Bool) (t : Text) :
    ∃ init last, splitBare separates t = init ++ [last] := by
  rcases List.eq_nil_or_concat (splitBare separates t) with hnil | ⟨init, last, h⟩
  · exact absurd hnil (splitBareFrom_ne_nil separates false t)
  · exact ⟨init, last, by rw [h, List.concat_eq_append]⟩

/-- The pieces in front of the last one stay when more is appended. -/
theorem dropLast_splitBare_append (h : Separator separates) (t u : Text) :
    (splitBare separates t).dropLast <+: (splitBare separates (t ++ u)).dropLast := by
  obtain ⟨init, last, hsplit⟩ := exists_last_piece (cuts separates) (scan {} t)
  obtain ⟨piece, pieces, hpieces⟩ := List.exists_cons_of_ne_nil
    (List.splitOnP_ne_nil (cuts separates) (scan (Place.after {} t) u))
  have ht : splitBare separates t = init.map letters ++ [letters last] := by
    rw [splitBare_eq h, hsplit, List.map_append, List.map_singleton]
  have htu : splitBare separates (t ++ u) =
      init.map letters ++ letters (last ++ piece) :: pieces.map letters := by
    rw [splitBare_eq h, scan_append, splitOnP_append hsplit, hpieces, List.modifyHead_cons,
      List.map_append, List.map_cons]
  rw [ht, htu, List.dropLast_concat, List.dropLast_append_of_ne_nil (List.cons_ne_nil _ _)]
  exact List.prefix_append _ _

/-- A closing quote adds to the last piece only. -/
theorem splitBare_quote (h : Separator separates) {t last : Text} {init : List Text}
    (hsplit : splitBare separates t = init ++ [last]) :
    splitBare separates (t ++ ['"']) = init ++ [last ++ ['"']] := by
  obtain ⟨init', last', hmarks⟩ := exists_last_piece (cuts separates) (scan {} t)
  have hquote : cuts separates ('"', Place.after {} t) = false := by simp [cuts, h.quote]
  rw [splitBare_eq h, hmarks, List.map_append, List.map_singleton] at hsplit
  obtain ⟨rfl, rfl⟩ := concat_inj hsplit
  rw [splitBare_eq h, scan_append, scan, scan, splitOnP_concat hmarks hquote, List.map_append,
    List.map_singleton, letters, List.map_append]
  rfl

/-- A quote at the end changes no piece but the last. -/
theorem dropLast_splitBare_quote (h : Separator separates) (t : Text) :
    (splitBare separates (t ++ ['"'])).dropLast = (splitBare separates t).dropLast := by
  obtain ⟨init, last, hsplit⟩ := exists_splitBare separates t
  rw [splitBare_quote h hsplit, hsplit, List.dropLast_concat, List.dropLast_concat]

/-- All words but the last are the pieces in front that are not empty. -/
theorem dropLast_words (t : Text) :
    (words t).dropLast = (splitBare isBlank t).dropLast.filter (· ≠ []) := by
  obtain ⟨init, last, hsplit⟩ := exists_splitBare isBlank t
  rw [words, hsplit, List.dropLast_concat, List.filter_append]
  by_cases hlast : last = []
  · by_cases hinit : init = []
    · simp [hlast, hinit]
    · simp [hlast, hinit, List.length_pos_iff]
  · simp [hlast]

/-- The last word is the last piece, be it empty or not. -/
theorem getLast?_words {t last : Text} {init : List Text}
    (hsplit : splitBare isBlank t = init ++ [last]) : (words t).getLast?.getD [] = last := by
  rw [words, hsplit, List.filter_append]
  by_cases hlast : last = []
  · by_cases hinit : init = []
    · simp [hlast, hinit]
    · simp [hlast, hinit, List.length_pos_iff]
  · simp [hlast]

end Line

open Line

/-- The words before the cursor are the pieces in front of the last bare blank, but for the empty
ones. -/
theorem CommandLine.before_parse (line : Text) (cursor : Nat) :
    (parse line cursor).before =
      (splitBare isBlank (line.take cursor)).dropLast.filter (· ≠ []) := by
  rw [before, parse, dropLast_words]
  cases endsQuoted (line.take cursor) with
  | false => rfl
  | true => rw [if_pos rfl, dropLast_splitBare_quote separator_blank]

/-- The word under the cursor is the piece behind the last bare blank, closed if it has to be. -/
theorem CommandLine.current_parse {line last : Text} {cursor : Nat} {init : List Text}
    (hsplit : splitBare isBlank (line.take cursor) = init ++ [last]) :
    (parse line cursor).current =
      if endsQuoted (line.take cursor) then last ++ ['"'] else last := by
  rw [current, parse]
  cases endsQuoted (line.take cursor) with
  | false => exact getLast?_words hsplit
  | true => exact getLast?_words (splitBare_quote separator_blank hsplit)

namespace Expectation

/-- Help has been asked for by the word or before it. -/
theorem isHelp_step_eq (e : Expectation) (word : Text) :
    (e.step word).isHelp = (e.isHelp || helpFlags.contains word) := by
  by_cases hflag : word ∈ helpFlags
  · simp [step, hflag, isHelp]
  · cases hhelp : e.isHelp with
    | true => simp [isHelp_step hhelp word]
    | false =>
      simp only [step, hflag, hhelp, if_false, Bool.false_eq_true, Bool.false_or]
      have hcontains : helpFlags.contains word = false := by simpa using hflag
      rw [hcontains]
      repeat' split
      all_goals rfl

/-- Help is expected just when a word has asked for it. -/
theorem isHelp_run (words : List Text) :
    (run words).isHelp = words.any helpFlags.contains := by
  suffices h : ∀ e : Expectation,
      (words.foldl step e).isHelp = (e.isHelp || words.any helpFlags.contains) from h clause
  induction words with
  | nil => simp
  | cons word words ih =>
    intro e
    rw [List.foldl_cons, ih, isHelp_step_eq, List.any_cons, Bool.or_assoc]

end Expectation

namespace Context

def isHelp : Context → Bool
  | moduleName _ | linkedFilter _ | property _ | helpTopic _ => true
  | _ => false

/-- Once help has been asked for the context is one of those for help. -/
theorem isHelp_ofExpectation {e : Expectation} (h : e.isHelp = true) (word : Text) (q : Bool) :
    (ofExpectation e word q).isHelp = true := by
  cases e <;> first | rfl | cases h

theorem isHelp_ofLine {l : CommandLine} (h : l.helpRequested = true) :
    (ofLine l).isHelp = true := by
  refine isHelp_ofExpectation ?_ _ _
  rw [Expectation.isHelp_run]
  exact h

end Context

/-- Whatever is typed behind a text, the words that were finished in it stay the first finished words,
be the text closed by a quote or not; and once one of them asks for help, the context is one of
help. -/
theorem finished_words_stay (t u : Text) :
    let l := CommandLine.parse t t.length
    let l' := CommandLine.parse (t ++ u) (t ++ u).length
    l.before <+: l'.before ∧ (l.helpRequested = true → (Context.ofLine l').isHelp = true) := by
  intro l l'
  have hstays : l.before <+: l'.before := by
    rw [CommandLine.before_parse, CommandLine.before_parse, List.take_length, List.take_length]
    exact (dropLast_splitBare_append separator_blank t u).filter _
  refine ⟨hstays, fun hhelp => Context.isHelp_ofLine ?_⟩
  obtain ⟨flag, hflag, hmem⟩ := List.any_eq_true.mp hhelp
  exact List.any_eq_true.mpr ⟨flag, hstays.subset hflag, hmem⟩

/-- A line in which help is asked for before a quoted span is opened, which is closed only by what is
typed next. -/
def helpLine : Text := "gpac -hx module \"a "

theorem finished_words_stay_quoted :
    let l := CommandLine.parse helpLine helpLine.length
    let line : Text := helpLine ++ ("\\\" b\" -i x" : Text)
    let l' := CommandLine.parse line line.length
    l.quoteSynthesized = true ∧ l.before = [("gpac" : Text), ("-hx" : Text), ("module" : Text)] ∧
      l'.quoteSynthesized = false ∧ l.before <+: l'.before ∧
      Context.ofLine l' = .helpTopic "x" ∧ (Context.ofLine l').isHelp = true := by
  obtain ⟨hstays, hhelp⟩ := finished_words_stay helpLine ("\\\" b\" -i x" : Text)
  exact ⟨by decide, by decide, by decide, hstays, by decide, hhelp (by decide)⟩

end FilterLine
