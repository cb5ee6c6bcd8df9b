import FilterLine.Proofs.Completion.ClauseLine
import FilterLine.Proofs.Line.Words

/-!
What a clause offers when the answers are known. With options, a clause offers what its last option
does, and never falls back on the names of filters, since these hold no colon.
-/
namespace FilterLine

open Line

variable {answer : (q : Question) → q.Answer} {word filter last text name value : Text}
  {options : List Text} {quoteSynthesized : Bool}

/-- A word of several segments has a colon. -/
theorem colon_mem_of_segments (hword : segments word = filter :: options) (hne : options ≠ []) :
    ':' ∈ word := by
  obtain ⟨option, options, rfl⟩ := List.exists_cons_of_ne_nil hne
  rw [← join_segments word, hword, Text.join]
  simp

/-- The candidates of a clause are those of its last option, when the tool lists its filter. -/
theorem eval_clauseCandidates (hword : segments word = filter :: options) (hne : options ≠ []) :
    (clauseCandidates word quoteSynthesized).eval answer =
      if filter ∈ answer .filters then
        ((Clause.told answer filter options).lastOption quoteSynthesized).eval answer
      else [] := by
  have hoptions : ¬ options.isEmpty = true := by simpa using hne
  rw [clauseCandidates, hword]
  dsimp only
  rw [Inquiry.eval_bind', Inquiry.eval_question]
  by_cases hfilter : filter ∈ answer .filters
  · rw [if_neg (not_not_intro hfilter), if_pos hfilter, Inquiry.eval_bind', if_neg hoptions,
      Inquiry.eval_bind']
    rfl
  · rw [if_pos hfilter, if_neg hfilter]
    rfl

/-- No filter begins with a clause that has options. -/
theorem eval_filterClause (hword : segments word = filter :: options) (hne : options ≠ [])
    (hfilters : ∀ f ∈ answer .filters, ':' ∉ f) :
    (Context.filterClause word quoteSynthesized).candidates.eval answer =
      (clauseCandidates word quoteSynthesized).eval answer := by
  rw [Context.candidates, Inquiry.eval_bind']
  cases hfound : (clauseCandidates word quoteSynthesized).eval answer with
  | cons c found => rfl
  | nil =>
    simp only [Inquiry.eval_bind', Inquiry.eval_pure]
    rw [List.eq_nil_iff_forall_not_mem]
    intro f hf
    obtain ⟨hmem, hstarts⟩ := mem_startingWith.mp hf
    exact hfilters f hmem (hstarts.subset (colon_mem_of_segments hword hne))

/-- In a clause with options that is what its last option offers, when its filter is known. -/
theorem eval_candidates {line : Text} {cursor : Nat}
    (hcontext : Context.ofCursor line cursor = .filterClause word quoteSynthesized)
    (hword : segments word = filter :: options) (hne : options ≠ [])
    (hfilters : ∀ f ∈ answer .filters, ':' ∉ f) :
    (candidates line cursor).eval answer =
      if filter ∈ answer .filters then
        ((Clause.told answer filter options).lastOption quoteSynthesized).eval answer
      else [] := by
  rw [candidates, hcontext, eval_filterClause hword hne hfilters, eval_clauseCandidates hword hne]

namespace Clause

variable {c : Clause}

/-- An option without a value, which is no property, is completed as a name. -/
theorem lastOption_of_name (hlast : c.options.getLast? = some last)
    (hproperty : last.head? ≠ some '#') (hname : '=' ∉ last) :
    c.lastOption quoteSynthesized =
      pure (if last = [] then c.unusedNames else c.nameCandidates last) := by
  rw [lastOption, hlast]
  cases last with
  | nil => rfl
  | cons d last =>
    rw [if_neg (List.cons_ne_nil _ _)]
    split
    · rename_i h
      cases h
    · rename_i h
      cases h
    · rename_i h
      cases h
      exact absurd rfl hproperty
    · rename_i h
      cases h
      rw [Text.cutFirst?_eq_none.mpr hname]
      split <;> rfl

theorem lastOption_of_property (hlast : c.options.getLast? = some ('#' :: text)) :
    c.lastOption quoteSynthesized = propertyCandidates text c.options.dropLast := by
  rw [lastOption, hlast]
  rfl

/-- An option with a value is completed as the argument's type tells, unless it is a literal. -/
theorem lastOption_of_value {spec : ArgumentSpec}
    (hlast : c.options.getLast? = some (name ++ '=' :: value)) (hproperty : name.head? ≠ some '#')
    (hname : '=' ∉ name) (hliterals : ∀ s ∈ c.shorthands, '=' ∉ s.literal)
    (hspec : c.arg? name = some spec) :
    c.lastOption quoteSynthesized = valueCandidates c.filter spec value quoteSynthesized := by
  have hcut : Text.cutFirst? '=' (name ++ '=' :: value) = some (name, value) :=
    Text.cutFirst?_append hname
  have hshorthand : c.isShorthand (name ++ '=' :: value) = false := by
    rw [isShorthand, List.any_eq_false]
    intro s hs heq
    exact hliterals s hs (by simp [eq_of_beq heq])
  rw [lastOption, hlast]
  split
  · rename_i h
    cases h
  · rename_i h
    simp at h
  · rename_i property h
    cases name with
    | nil => cases h
    | cons d name =>
      cases h
      exact absurd rfl hproperty
  · rename_i h
    cases h
    simp only [hshorthand, Bool.false_eq_true, if_false, hcut, hspec]

end Clause

end FilterLine
