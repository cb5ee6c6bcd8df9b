import FilterLine.Line.Context

/-!
Which words are filter clauses. A word that does not begin like an endpoint or a flag is one, and
stays one when it goes on with a colon at any place; a finished clause is followed by another.
-/
namespace FilterLine

namespace Context

/-- Whether a word is a clause: it begins neither like an endpoint nor like a flag. -/
structure IsClause (word : Text) : Prop where
  source : ¬ ("src=" : Text) <+: word
  destination : ¬ ("dst=" : Text) <+: word
  head : ∃ c, word.head? = some c ∧ c ≠ '-'

variable {word : Text} {q : Bool}

/-- A word that is a clause has the context of one. -/
theorem ofWord_of_isClause (h : IsClause word) : ofWord word q = .filterClause word q := by
  obtain ⟨c, hhead, hc⟩ := h.head
  unfold ofWord
  split
  · rename_i rest hrest
    exact absurd ⟨rest, (Text.after?_eq_some.mp hrest).symm⟩ h.source
  · rename_i rest _ hrest
    exact absurd ⟨rest, (Text.after?_eq_some.mp hrest).symm⟩ h.destination
  · cases hhead
  · exact absurd (Option.some.inj hhead).symm hc
  · rfl

/-- Only a clause has the context of one. -/
theorem isClause_of_ofWord {word' : Text} {q' : Bool}
    (h : ofWord word q = .filterClause word' q') : IsClause word ∧ word' = word ∧ q' = q := by
  unfold ofWord at h
  split at h
  · cases h
  · cases h
  · cases h
  · cases h
  · rename_i word _ _ _ hnil hdash hsource hdestination
    obtain ⟨hword, hq⟩ := Context.filterClause.inj h
    refine ⟨⟨Text.after?_eq_none.mp hsource, Text.after?_eq_none.mp hdestination, ?_⟩, hword.symm,
      hq.symm⟩
    cases word with
    | nil => exact absurd rfl hnil
    | cons c rest =>
      refine ⟨c, rfl, ?_⟩
      rintro rfl
      exact hdash rest rfl

/-- What begins with a text that lacks a character begins with it in front of that character. -/
theorem prefix_of_not_mem {start a u : Text} {c : Char} (h : start <+: a ++ c :: u)
    (hc : c ∉ start) : start <+: a := by
  have hcons : a ++ [c] <+: a ++ c :: u := ⟨u, by simp⟩
  rcases List.prefix_or_prefix_of_prefix h hcons with hstart | ⟨rest, hrest⟩
  · rcases List.prefix_concat_iff.mp hstart with heq | hstarts
    · exact absurd (by rw [heq]; simp) hc
    · exact hstarts
  · exact absurd (by rw [← hrest]; simp) hc

theorem IsClause.ne_nil (h : IsClause word) : word ≠ [] := by
  obtain ⟨c, hhead, -⟩ := h.head
  rintro rfl
  cases hhead

/-- A clause goes on as a clause behind a colon. -/
theorem IsClause.colon (h : IsClause word) {a : Text} (ha : a <+: word) (u : Text) :
    IsClause (a ++ ':' :: u) := by
  refine ⟨fun hstart => h.source ((prefix_of_not_mem hstart (by decide)).trans ha),
    fun hstart => h.destination ((prefix_of_not_mem hstart (by decide)).trans ha), ?_⟩
  cases a with
  | nil => exact ⟨':', rfl, by decide⟩
  | cons d a =>
    obtain ⟨rest, rfl⟩ := ha
    exact h.head

/-- The context of a clause holds the word under the cursor, and whether a quote was synthesized. -/
theorem ofLine_eq_filterClause {l : CommandLine} (h : ofLine l = .filterClause word q) :
    Expectation.run l.before = .clause ∧ IsClause word ∧ word = l.current ∧
      q = l.quoteSynthesized := by
  rw [ofLine] at h
  cases hrun : Expectation.run l.before with
  | clause =>
    rw [hrun] at h
    obtain ⟨hclause, rfl, rfl⟩ := isClause_of_ofWord h
    exact ⟨rfl, hclause, rfl, rfl⟩
  | _ =>
    rw [hrun] at h
    cases h

end Context

/-- A clause is followed by another. -/
theorem Expectation.step_of_isClause {word : Text} (h : Context.IsClause word) :
    Expectation.clause.step word = .clause := by
  obtain ⟨c, hhead, hc⟩ := h.head
  have hne : ∀ flag : Text, flag.head? = some '-' → word ≠ flag := by
    rintro flag hflag rfl
    exact hc (Option.some.inj (hhead.symm.trans hflag))
  have hhelp : word ∉ helpFlags := by
    have hdash : ∀ flag ∈ helpFlags, flag.head? = some '-' := by decide
    exact fun hmem => hne word (hdash word hmem) rfl
  rw [Expectation.step, if_neg hhelp, if_neg (by decide), if_neg, if_neg]
  · exact not_or.mpr ⟨hne _ rfl, hne _ rfl⟩
  · exact not_or.mpr ⟨hne _ rfl, hne _ rfl⟩

end FilterLine
