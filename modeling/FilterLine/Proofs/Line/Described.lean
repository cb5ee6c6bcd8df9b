import FilterLine.Proofs.Line.Clause
import FilterLine.Proofs.Line.Finished

/-!
Contexts described directly. Of the finished words of a line only the last one matters, and whether any
of them asks for help; without help the word under the cursor decides wherever the last word names no
endpoint.
-/
namespace FilterLine

namespace Expectation

/-- What is expected behind a word, when help has been asked for by it or before, or not. -/
def described (help : Bool) (previous : Text) : Expectation :=
  if help then
    if previous = ("modules" : Text) ∨ previous = ("module" : Text) then helpModule
    else if previous = ("links" : Text) then helpLink
    else if previous = ("props" : Text) then helpProperty
    else .help
  else if previous = ("-i" : Text) ∨ previous = ("-src" : Text) then input
  else if previous = ("-o" : Text) ∨ previous = ("-dst" : Text) then output
  else clause

/-- A help flag is answered with help. -/
theorem described_of_mem_helpFlags {word : Text} (h : word ∈ helpFlags) :
    described true word = help := by
  have hflags : ∀ flag ∈ helpFlags, described true flag = help := by decide
  exact hflags word h

/-- What is expected behind a word depends on whether help has been asked for, and on the word. -/
theorem step_eq_described (e : Expectation) (word : Text) :
    e.step word = described (e.isHelp || helpFlags.contains word) word := by
  by_cases hflag : word ∈ helpFlags
  · have hcontains : helpFlags.contains word = true := List.contains_iff_mem.mpr hflag
    rw [hcontains, Bool.or_true, described_of_mem_helpFlags hflag, step, if_pos hflag]
  · have hcontains : helpFlags.contains word = false := by
      rw [← Bool.not_eq_true, List.contains_iff_mem]
      exact hflag
    rw [hcontains, Bool.or_false, step, if_neg hflag, described]

/-- The machine forgets all words but the last, and that one before has asked for help or not. -/
theorem run_eq_described (words : List Text) :
    run words = described (words.any helpFlags.contains) (words.getLast?.getD []) := by
  rcases List.eq_nil_or_concat words with rfl | ⟨words, word, rfl⟩
  · rfl
  · have hrun : run (words ++ [word]) = (run words).step word := by
      rw [run, List.foldl_append]
      rfl
    rw [List.concat_eq_append, hrun, step_eq_described, isHelp_run, List.any_append,
      List.getLast?_concat]
    simp

end Expectation

namespace Context

/-- The context of a word, told by the word in front of it and by whether help was asked for. -/
def described (help : Bool) (previous word : Text) (quoteSynthesized : Bool) : Context :=
  if help then
    if previous = ("modules" : Text) ∨ previous = ("module" : Text) then moduleName word
    else if previous = ("links" : Text) then linkedFilter word
    else if previous = ("props" : Text) then property word
    else helpTopic word
  else if previous = ("-i" : Text) ∨ previous = ("-src" : Text) then inputEndpoint word
  else if previous = ("-o" : Text) ∨ previous = ("-dst" : Text) then outputEndpoint word
  else if ("src=" : Text) <+: word then inputEndpoint (word.drop 4)
  else if ("dst=" : Text) <+: word then outputEndpoint (word.drop 4)
  else if word = [] then start
  else if word.head? = some '-' then flag word
  else filterClause word quoteSynthesized

/-- A word that follows neither a help flag nor an endpoint flag speaks for itself. -/
theorem ofWord_eq (word : Text) (q : Bool) : ofWord word q =
    if ("src=" : Text) <+: word then inputEndpoint (word.drop 4)
    else if ("dst=" : Text) <+: word then outputEndpoint (word.drop 4)
    else if word = [] then start
    else if word.head? = some '-' then flag word
    else filterClause word q := by
  cases hsource : Text.after? "src=" word with
  | some rest =>
    obtain rfl := Text.after?_eq_some.mp hsource
    rw [if_pos (List.prefix_append _ _)]
    simp only [ofWord, hsource]
    rfl
  | none =>
    rw [if_neg (Text.after?_eq_none.mp hsource)]
    cases hdestination : Text.after? "dst=" word with
    | some rest =>
      obtain rfl := Text.after?_eq_some.mp hdestination
      rw [if_pos (List.prefix_append _ _)]
      simp only [ofWord, hsource, hdestination]
      rfl
    | none =>
      have hnosource := Text.after?_eq_none.mp hsource
      have hnodestination := Text.after?_eq_none.mp hdestination
      rw [if_neg hnodestination]
      cases word with
      | nil => rfl
      | cons c rest =>
        rw [if_neg (List.cons_ne_nil _ _)]
        by_cases hc : c = '-'
        · subst hc
          simp only [ofWord, hsource, hdestination]
          rfl
        · rw [if_neg (by simpa using hc)]
          exact ofWord_of_isClause ⟨hnosource, hnodestination, c, rfl, hc⟩

/-- The machine gives the context that is described. -/
theorem ofLine_eq_described (l : CommandLine) :
    ofLine l = described l.helpRequested l.previous l.current l.quoteSynthesized := by
  rw [ofLine, Expectation.run_eq_described]
  change ofExpectation (Expectation.described l.helpRequested l.previous) _ _ = _
  rw [Expectation.described, described, ← ofWord_eq]
  simp only [apply_ite (ofExpectation · l.current l.quoteSynthesized)]
  rfl

/-- Whether help has been asked for can be told from the description. -/
theorem isHelp_described (help : Bool) (previous word : Text) (q : Bool) :
    (described help previous word q).isHelp = help := by
  cases help with
  | true =>
    rw [described, if_pos rfl]
    repeat' split
    all_goals rfl
  | false =>
    rw [described, if_neg (by decide)]
    repeat' split
    all_goals rfl

/-- The context of a line is the one described: with the word under the cursor, it depends on the last
finished word, on whether a finished word asks for help, and on the quote that was synthesized. It is
one of help just when help is asked for. -/
theorem ofCursor_described (line : Text) (cursor : Nat) :
    let l := CommandLine.parse line cursor
    let context := ofCursor line cursor
    context = described l.helpRequested l.previous l.current l.quoteSynthesized ∧
      (context.isHelp = true ↔ l.helpRequested = true) ∧
      ∀ line' cursor', (CommandLine.parse line' cursor').helpRequested = l.helpRequested →
        (CommandLine.parse line' cursor').previous = l.previous →
        (CommandLine.parse line' cursor').current = l.current →
        (CommandLine.parse line' cursor').quoteSynthesized = l.quoteSynthesized →
        ofCursor line' cursor' = context := by
  intro l context
  have hcontext : context = described l.helpRequested l.previous l.current l.quoteSynthesized :=
    ofLine_eq_described l
  refine ⟨hcontext, ?_, fun line' cursor' hhelp hprevious hcurrent hquote => ?_⟩
  · rw [hcontext, isHelp_described]
  · rw [ofCursor, ofLine_eq_described, hhelp, hprevious, hcurrent, hquote, ← hcontext]

/-- Two lines that have asked for help in different ways and end alike. -/
theorem ofCursor_described_links :
    ofCursor "gpac module -hx -i links a" 26 = .linkedFilter "a" ∧
      ofCursor "-h props links a" 16 = .linkedFilter "a" := by
  have hlinks : ofCursor "gpac module -hx -i links a" 26 = .linkedFilter "a" := by decide
  have hsame := (ofCursor_described "gpac module -hx -i links a" 26).2.2 "-h props links a" 16
    (by decide) (by decide) (by decide) (by decide)
  exact ⟨hlinks, hsame.trans hlinks⟩

end Context
end FilterLine
