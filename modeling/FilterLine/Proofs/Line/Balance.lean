import FilterLine.Proofs.Line.Finished
import FilterLine.Proofs.Line.Words

/-!
Quotes in the words of a line. Each word but the last ends outside of any span, and the last one ends
where the line ends. The quote that closes a line thus closes the span in which its last word ends,
unless the line ends in a backslash, which takes that quote with it.
-/
namespace FilterLine.Line

/-- Pieces that are read one after the other, the first from a place on and the others from outside.
All but the last end outside. -/
inductive ReadsTo : Place → List Text → Place → Prop where
  | last {p : Place} {w : Text} : ReadsTo p [w] (p.after w)
  | piece {p q : Place} {w : Text} {ws : List Text} : p.after w = {} → ReadsTo {} ws q →
      ReadsTo p (w :: ws) q

/-- A character in front goes into the first piece. -/
theorem ReadsTo.cons {p q : Place} {c : Char} {ws : List Text} (h : ReadsTo (p.step c) ws q) :
    ReadsTo p (Text.consFirst c ws) q := by
  cases h with
  | last => exact .last (w := c :: _)
  | piece hw hws => exact .piece (w := c :: _) hw hws

/-- The pieces between bare separators are read so. -/
theorem readsTo_pieces {separates : Char → Bool} (h : Separator separates) (p : Place) (t : Text) :
    ReadsTo p (((scan p t).splitOnP (cuts separates)).map letters) (p.after t) := by
  induction t generalizing p with
  | nil => exact .last
  | cons c t ih =>
    have hrest := ih (p.step c)
    cases hcuts : cuts separates (c, p) with
    | true =>
      obtain ⟨rfl, hstep⟩ := h.step_of_cuts hcuts
      rw [scan, List.splitOnP_cons_eq_if_modifyHead, if_pos hcuts]
      rw [hstep] at hrest ⊢
      rw [Place.after_cons, hstep]
      exact .piece rfl hrest
    | false =>
      rw [scan, pieces_cons hcuts]
      exact hrest.cons

/-- Pieces that are read from outside all end outside, but for the last one. -/
theorem ReadsTo.outside {p q : Place} {ws : List Text} (h : ReadsTo p ws q) (hp : p = {}) :
    ∃ init last, ws = init ++ [last] ∧ (∀ w ∈ init, Place.after {} w = {}) ∧
      Place.after {} last = q := by
  induction h with
  | last =>
    subst hp
    exact ⟨[], _, rfl, by simp, rfl⟩
  | piece hw _ ih =>
    subst hp
    obtain ⟨init, last, rfl, hinit, hlast⟩ := ih rfl
    exact ⟨_ :: init, last, rfl, List.forall_mem_cons.mpr ⟨hw, hinit⟩, hlast⟩

/-- The pieces of a text end outside, but for the last one, which ends where the text does. -/
theorem after_pieces {separates : Char → Bool} (h : Separator separates) (t : Text) :
    ∃ init last, splitBare separates t = init ++ [last] ∧
      (∀ w ∈ init, Place.after {} w = {}) ∧ Place.after {} last = Place.after {} t := by
  rw [splitBare_eq h]
  exact (readsTo_pieces h {} t).outside rfl

/-- A text has an even number of quotes just when it ends outside of any span. -/
theorem even_quotes_iff (t : Text) :
    unescapedQuotes t % 2 = 0 ↔ (Place.after {} t).quoted = false := by
  rw [← endsQuoted_eq, endsQuoted]
  simp

/-- A quote inside a span closes it, unless a backslash takes the quote. -/
theorem step_quote_of_quoted {p : Place} (h : p.quoted = true) :
    p.step '"' = ⟨p.escaped, false⟩ := by
  obtain ⟨quoted, escaped⟩ := p
  obtain rfl : quoted = true := h
  cases escaped <;> rfl

/-- A word is finished or stands under the cursor. -/
theorem mem_before_or_current {l : CommandLine} {w : Text} (h : w ∈ l.words) :
    w ∈ l.before ∨ w = l.current := by
  rcases List.eq_nil_or_concat l.words with hnil | ⟨init, last, hconcat⟩
  · exact absurd h (by simp [hnil])
  · rw [List.concat_eq_append] at hconcat
    simpa [CommandLine.before, CommandLine.current, hconcat] using h

theorem current_mem {l : CommandLine} (h : l.current ≠ []) : l.current ∈ l.words := by
  rw [CommandLine.current] at h ⊢
  cases hlast : l.words.getLast? with
  | none => exact absurd (by simp [hlast]) h
  | some w => exact List.mem_of_getLast? hlast

/-- The words of a line have an even number of quotes each, unless the line ends inside a span in a
backslash that escapes nothing: then the quote that is to close the span is escaped by it. Otherwise
that quote ends the last word outside. -/
theorem words_balance (line : Text) (cursor : Nat) :
    let t := line.take cursor
    let l := CommandLine.parse line cursor
    ((∀ w ∈ l.words, unescapedQuotes w % 2 = 0) ↔
      ¬ (l.quoteSynthesized = true ∧ (Place.after {} t).escaped = true)) ∧
    (∀ w ∈ l.before, unescapedQuotes w % 2 = 0) ∧
    (l.quoteSynthesized = true → ∃ w, l.current = w ++ ['"'] ∧
      Place.after {} w = Place.after {} t ∧ (Place.after {} w).quoted = true ∧
      ((Place.after {} t).escaped = false → Place.after {} l.current = {})) := by
  intro t l
  obtain ⟨init, last, hsplit, hinit, hlast⟩ := after_pieces separator_blank t
  have hquoted : l.quoteSynthesized = (Place.after {} t).quoted := endsQuoted_eq t
  have hcurrent : l.current = if l.quoteSynthesized then last ++ ['"'] else last :=
    CommandLine.current_parse hsplit
  have hbefore : ∀ w ∈ l.before, unescapedQuotes w % 2 = 0 := by
    intro w hw
    rw [CommandLine.before_parse, hsplit, List.dropLast_concat] at hw
    rw [even_quotes_iff, hinit w (List.mem_filter.mp hw).1]
  have hopen : l.quoteSynthesized = true → l.current = last ++ ['"'] ∧
      Place.after {} l.current = (Place.after {} t).step '"' := by
    intro hq
    rw [hcurrent, if_pos hq, Place.after_append, hlast]
    exact ⟨rfl, rfl⟩
  refine ⟨⟨fun heven ⟨hq, hescaped⟩ => ?_, fun hnot w hw => ?_⟩, hbefore, fun hq => ?_⟩
  · obtain ⟨hclosed, hafter⟩ := hopen hq
    have hmem := current_mem (l := l) (by simp [hclosed])
    have hout := (even_quotes_iff _).mp (heven _ hmem)
    rw [hafter, step_quote_of_quoted (hquoted ▸ hq), hescaped] at hout
    cases hout
  · rcases mem_before_or_current hw with hw | rfl
    · exact hbefore w hw
    · rw [even_quotes_iff]
      cases hq : l.quoteSynthesized with
      | false =>
        rw [hcurrent, hq, if_neg (by decide), hlast, ← hquoted, hq]
      | true =>
        rw [(hopen hq).2, step_quote_of_quoted (hquoted ▸ hq)]
        simpa [hq] using hnot
  · obtain ⟨hclosed, hafter⟩ := hopen hq
    refine ⟨last, hclosed, hlast, by rw [hlast, ← hquoted, hq], fun hescaped => ?_⟩
    rw [hafter, step_quote_of_quoted (hquoted ▸ hq), hescaped]

/-- A line with an escaped quote and an escaped backslash, which ends inside a span. -/
def openLine : Text := "f:a=\\\" \\\\\"\" g:b=\"\\\\ \\\" x"

theorem words_balance_open :
    let l := CommandLine.parse openLine openLine.length
    l.words = [("f:a=\\\"" : Text), ("\\\\\"\"" : Text), ("g:b=\"\\\\ \\\" x\"" : Text)] ∧
      (∀ w ∈ l.words, unescapedQuotes w % 2 = 0) ∧ Place.after {} l.current = {} := by
  obtain ⟨heven, -, hclosed⟩ := words_balance openLine openLine.length
  obtain ⟨w, -, -, -, houtside⟩ := hclosed (by decide)
  exact ⟨by decide, heven.mpr (by decide), houtside (by decide)⟩

/-- A line that ends in a lone backslash inside a span: the quote behind it does not close the span. -/
theorem words_unbalanced :
    let l := CommandLine.parse "\"\\" 2
    l.words = [("\"\\\"" : Text)] ∧ l.quoteSynthesized = true ∧
      ¬ ∀ w ∈ l.words, unescapedQuotes w % 2 = 0 := by
  decide

end FilterLine.Line
