import FilterLine.Proofs.Completion.Offers
import FilterLine.Proofs.Line.Balance
import FilterLine.Proofs.Line.Clause
import FilterLine.Proofs.Line.Finished
import FilterLine.Proofs.Text.Name
import FilterLine.Proofs.Text.Splitting

/-!
Lines that end in a clause. Such a line is what stands in front of its last word, the segments of
that word, and what is kept of the last one in front of the fragment. When the fragment is replaced
by something that the scanner leaves outside again, the last word is still one word with the same
other segments, and a separator behind it is read as one.
-/
namespace FilterLine

open Line

/-- Whether a text that is read from a place on ends outside, and holds no bare blank or colon. -/
structure Closes (p : Place) (t : Text) : Prop where
  outside : p.after t = {}
  blank : Uncut isBlank p t
  colon : Uncut (· == ':') p t

def close (quoted : Bool) (t : Text) : Text := if quoted then t ++ ['"'] else t

theorem close_append (quoted : Bool) (t u : Text) :
    close quoted (t ++ u) = t ++ close quoted u := by
  cases quoted <;> simp [close]

section Closes

variable {t : Text}

/-- A name closes: it opens no span, escapes nothing, and holds neither a blank nor a colon. -/
theorem closes_of_name (h : t.IsName) : Closes {} t where
  outside := after_plain (h.not_mem (by decide)) (h.not_mem (by decide)) false
  blank := uncut_of_forall (fun c hc => (plain_of_isWord (h.word c hc)).1) _
  colon := uncut_of_forall (fun c hc => by
    have hne : c ≠ ':' := by
      rintro rfl
      exact h.not_mem (by decide) hc
    simpa using hne) _

/-- A text without quotes is closed by putting it into quotes. -/
theorem closes_of_quoted (hquotes : unescapedQuotes t = 0)
    (hescaped : (Place.after {} t).escaped = false) : Closes {} ('"' :: t ++ ['"']) := by
  have hinside : Place.after ⟨true, false⟩ t = ⟨true, false⟩ := by
    have hquoted := quoted_after true t
    rw [escaped_after t false true false] at hescaped
    simp only [endsQuoted, hquotes] at hquoted
    exact congrArg₂ Place.mk hquoted hescaped
  have huncut : ∀ {separates : Char → Bool}, Separator separates →
      Uncut separates {} ('"' :: t ++ ['"']) := by
    intro separates h
    rw [← List.singleton_append, List.append_assoc, uncut_append, uncut_append]
    refine ⟨uncut_quote h _, fun m hm => ?_, uncut_quote h _⟩
    simp [cuts, Place.bare, quoted_of_scan hquotes m hm]
  refine ⟨?_, huncut separator_blank, huncut separator_colon⟩
  rw [List.cons_append, Place.after_cons, Place.step_quote, Place.after_append]
  change Place.after (Place.after ⟨true, false⟩ t) ['"'] = {}
  rw [hinside]
  rfl

/-- The end of a word is closed by the quote that is synthesized for it. -/
theorem closes_close {p : Place} {quoted : Bool} (hafter : p.after t = ⟨quoted, false⟩)
    (hblank : Uncut isBlank p t) (hcolon : Uncut (· == ':') p t) : Closes p (close quoted t) := by
  cases quoted with
  | false => exact ⟨hafter, hblank, hcolon⟩
  | true =>
    have hquote : ∀ {separates : Char → Bool}, Separator separates → Uncut separates p t →
        Uncut separates p (t ++ ['"']) :=
      fun h ht => uncut_append.mpr ⟨ht, uncut_quote h _⟩
    refine ⟨?_, hquote separator_blank hblank, hquote separator_colon hcolon⟩
    rw [close, if_pos rfl, Place.after_append, hafter]
    rfl

end Closes

section Fragment

variable {r front last : Text} {pieces : List Text}

theorem segments_of_cut (h : LastCut (· == ':') r pieces front last) :
    segments r = pieces ++ [last] := by
  rw [segments, h.text]
  exact h.split_uncut separator_colon h.uncut

theorem tail_getLast?_concat (hne : pieces ≠ []) :
    (pieces ++ [last]).tail.getLast? = some last := by
  obtain ⟨piece, pieces, rfl⟩ := List.exists_cons_of_ne_nil hne
  simp

/-- The fragment stands at the end of the last segment. -/
theorem exists_kept (r : Text) : ∃ pieces front kept,
    LastCut (· == ':') r pieces front (kept ++ fragment r) := by
  obtain ⟨pieces, front, last, hcut⟩ := exists_lastCut separator_colon r
  have hsegments := segments_of_cut hcut
  rcases hcut.ends with ⟨rfl, rfl⟩ | ⟨hne, -⟩
  · have hlast : fragment r = last := (fragment_of_single hsegments).trans hcut.text
    exact ⟨[], [], [], by rw [hlast]; exact hcut⟩
  · have htail : (segments r).tail.getLast? = some last := by
      rw [hsegments, tail_getLast?_concat hne]
    cases hassign : Text.cutFirst? '=' last with
    | none =>
      have hlast := fragment_of_name htail (Text.cutFirst?_eq_none.mp hassign)
      exact ⟨pieces, front, [], by rw [hlast]; exact hcut⟩
    | some cut =>
      have hlast := fragment_of_value htail hassign
      obtain ⟨heq, -⟩ := Text.cutFirst?_eq_some hassign
      refine ⟨pieces, front, cut.1 ++ ['='], ?_⟩
      rw [hlast, List.append_assoc, List.singleton_append, ← heq]
      exact hcut

/-- A quote that is synthesized for a word ends its last segment. -/
theorem segments_close (h : LastCut (· == ':') r pieces front last) (quoted : Bool) :
    segments (close quoted r) = pieces ++ [close quoted last] := by
  cases quoted with
  | false => exact segments_of_cut h
  | true =>
    have huncut : Uncut (· == ':') {} (last ++ ['"']) :=
      uncut_append.mpr ⟨h.uncut, uncut_quote separator_colon _⟩
    rw [close, if_pos rfl, h.text, List.append_assoc, segments,
      h.split_uncut separator_colon huncut]
    rfl

/-- A quote that is synthesized for a word is synthesized for its fragment. -/
theorem fragment_close (quoted : Bool) (r : Text) :
    fragment (close quoted r) = close quoted (fragment r) := by
  obtain ⟨pieces, front, last, hcut⟩ := exists_lastCut separator_colon r
  have hsegments := segments_of_cut hcut
  have hclosed := segments_close hcut quoted
  rcases hcut.ends with ⟨rfl, -⟩ | ⟨hne, -⟩
  · rw [fragment_of_single hsegments, fragment_of_single hclosed]
  · have htail : (segments r).tail.getLast? = some last := by
      rw [hsegments, tail_getLast?_concat hne]
    have htail' : (segments (close quoted r)).tail.getLast? = some (close quoted last) := by
      rw [hclosed, tail_getLast?_concat hne]
    cases hassign : Text.cutFirst? '=' last with
    | none =>
      have hno := Text.cutFirst?_eq_none.mp hassign
      rw [fragment_of_name htail hno, fragment_of_name htail']
      cases quoted <;> simpa [close] using hno
    | some cut =>
      obtain ⟨heq, hno⟩ := Text.cutFirst?_eq_some hassign
      have hassign' :
          Text.cutFirst? '=' (close quoted last) = some (cut.1, close quoted cut.2) := by
        rw [heq, close_append]
        cases quoted <;> exact Text.cutFirst?_append hno
      rw [fragment_of_value htail hassign, fragment_of_value htail' hassign']

end Fragment

/-- A line that ends in a clause, taken apart: what is written in front of the word, the segments of
the word, and the last one as what is kept and the fragment that is typed. -/
structure ClauseLine (quoted : Bool) (line : Text) (words : List Text) (before : Text)
    (segments : List Text) (front kept typed : Text) : Prop where
  line : LastCut isBlank line words before (front ++ (kept ++ typed))
  word : LastCut (· == ':') (front ++ (kept ++ typed)) segments front (kept ++ typed)
  place : Place.after {} (front ++ (kept ++ typed)) = ⟨quoted, false⟩
  run : Expectation.run (words.filter (· ≠ [])) = .clause
  clause : Context.IsClause (front ++ (kept ++ close quoted typed))
  typed : fragment (front ++ (kept ++ typed)) = typed

namespace ClauseLine

variable {quoted : Bool} {line before front kept typed body c : Text} {words segments : List Text}

/-- The word under the cursor of a line whose last word is empty is empty. -/
theorem current_of_cut (h : LastCut isBlank line words before []) :
    (CommandLine.parse line line.length).current = [] := by
  have hquoted : endsQuoted line = false := by
    rw [endsQuoted_eq, h.text, List.append_nil, h.outside]
  have hsplit : splitBare isBlank (line.take line.length) = words ++ [[]] := by
    rw [List.take_length, h.text, h.split]
    rfl
  rw [CommandLine.current_parse hsplit, List.take_length, hquoted, if_neg (by simp)]

/-- The clause under the cursor is the last word of the line, with the quote that was synthesized. -/
theorem exists_open {word : Text} {quoted : Bool}
    (hcontext : Context.ofCursor line line.length = .filterClause word quoted) :
    ∃ r, word = close quoted r ∧ quoted = endsQuoted line ∧
      Place.after {} r = Place.after {} line := by
  obtain ⟨-, -, hcurrent, hquoted⟩ := Context.ofLine_eq_filterClause hcontext
  obtain ⟨init, r, hsplit, -, hlast⟩ := after_pieces separator_blank line
  have hends : quoted = endsQuoted line := by
    rw [hquoted, CommandLine.parse, List.take_length]
  refine ⟨r, ?_, hends, hlast⟩
  rw [← List.take_length (l := line)] at hsplit
  rw [hcurrent, CommandLine.current_parse hsplit, List.take_length, ← hends]
  rfl

/-- A line whose last word is a clause can be taken apart: where no word has been begun there is no
clause. -/
theorem exists_of_context {word : Text} {quoted : Bool}
    (hcontext : Context.ofCursor line line.length = .filterClause word quoted)
    (hescaped : (Place.after {} (if quoted then word.dropLast else word)).escaped = false) :
    ∃ words before segments front kept typed,
      ClauseLine quoted line words before segments front kept typed ∧
      word = close quoted (front ++ (kept ++ typed)) := by
  obtain ⟨words, before, r, hline⟩ := exists_lastCut separator_blank line
  obtain ⟨hrun, hclause, hcurrent, hquoted⟩ := Context.ofLine_eq_filterClause hcontext
  have hne : r ≠ [] := by
    rintro rfl
    rw [current_of_cut hline] at hcurrent
    exact hclause.ne_nil hcurrent
  have hparse := parse_of_uncut hline hline.uncut hne
  rw [← hline.text] at hparse
  rw [hparse] at hrun hcurrent hquoted
  have hword : word = close quoted r := by
    rw [hcurrent, hquoted]
    simp [CommandLine.current, close]
  have hr : (if quoted then word.dropLast else word) = r := by
    rw [hword]
    cases quoted <;> simp [close]
  rw [hr] at hescaped
  obtain ⟨segments, front, kept, hcut⟩ := exists_kept r
  have htext := hcut.text
  refine ⟨words, before, segments, front, kept, fragment r, ⟨?_, ?_, ?_, ?_, ?_, ?_⟩, ?_⟩
  · rw [← htext]
    exact hline
  · rw [← htext]
    exact hcut
  · rw [← htext]
    exact congrArg₂ Place.mk hquoted.symm hescaped
  · simpa [CommandLine.before] using hrun
  · rw [← close_append, ← close_append, ← htext, ← hword]
    exact hclause
  · rw [← htext]
  · rw [← htext]
    exact hword

section Uncut

variable (a : ClauseLine quoted line words before segments front kept typed)

include a

/-- The fragment holds neither a bare blank nor a bare colon. -/
theorem uncut_typed : Uncut isBlank (Place.after {} kept) typed ∧
    Uncut (· == ':') (Place.after {} kept) typed := by
  have huncut := a.line.uncut
  rw [uncut_append, uncut_append, a.word.outside] at huncut
  exact ⟨huncut.2.2, (uncut_append.mp a.word.uncut).2⟩

/-- The last word stays one word when its fragment is replaced by something without bare blanks. -/
theorem uncut_replaced (hbody : Uncut isBlank (Place.after {} kept) body) :
    Uncut isBlank {} (front ++ (kept ++ body)) := by
  have huncut := a.line.uncut
  rw [uncut_append, uncut_append, a.word.outside] at huncut
  rw [uncut_append, uncut_append, a.word.outside]
  exact ⟨huncut.1, huncut.2.1, hbody⟩

/-- When the last word is replaced by one that is a clause once it is closed, that is the context. -/
theorem context_of_clause {u : Text} (huncut : Uncut isBlank {} u)
    (hclause : Context.IsClause (close (endsQuoted u) u)) :
    Context.ofCursor (before ++ u) (before ++ u).length =
      .filterClause (close (endsQuoted u) u) (endsQuoted u) := by
  have hne : u ≠ [] := by
    rintro rfl
    exact hclause.ne_nil rfl
  have hparse := parse_of_uncut a.line huncut hne
  rw [← endsQuoted_eq] at hparse
  rw [Context.ofCursor, hparse, Context.ofLine]
  simp only [CommandLine.before, CommandLine.current, List.dropLast_concat, List.getLast?_concat,
    Option.getD_some, a.run]
  exact Context.ofWord_of_isClause hclause

end Uncut

section Body

variable (a : ClauseLine quoted line words before segments front kept typed)
  (hbody : Closes (Place.after {} kept) body)

include a hbody

/-- When the fragment is replaced by a text that closes, the word ends outside. -/
theorem after_word : Place.after {} (front ++ (kept ++ body)) = {} := by
  rw [Place.after_append, Place.after_append, a.word.outside]
  exact hbody.outside

theorem uncut_segment : Uncut (· == ':') {} (kept ++ body) :=
  uncut_append.mpr ⟨(uncut_append.mp a.word.uncut).1, hbody.colon⟩

omit a in
theorem after_segment : Place.after {} (kept ++ body) = {} := by
  rw [Place.after_append]
  exact hbody.outside

/-- The segments are the old ones, but for the last. -/
theorem segments_word : Line.segments (front ++ (kept ++ body)) = segments ++ [kept ++ body] :=
  a.word.split_uncut separator_colon (a.uncut_segment hbody)

/-- A colon behind the text in place of the fragment starts an empty segment. -/
theorem segments_colon :
    Line.segments (front ++ (kept ++ (body ++ [':']))) = segments ++ [kept ++ body, []] := by
  rw [← List.append_assoc kept]
  exact a.word.split_concat separator_colon (a.uncut_segment hbody) (after_segment hbody) rfl

/-- An equals sign behind the text in place of the fragment stays in the last segment. -/
theorem segments_assigned :
    Line.segments (front ++ (kept ++ (body ++ ['=']))) = segments ++ [kept ++ (body ++ ['='])] := by
  refine a.word.split_uncut separator_colon ?_
  rw [← List.append_assoc, uncut_append]
  exact ⟨a.uncut_segment hbody, uncut_singleton (by decide) _⟩

/-- Behind a colon or `=` the word goes on, and is a clause. -/
theorem context_of_word {x : Char} (hx : x = ':' ∨ x = '=')
    (hclause : Context.IsClause (front ++ (kept ++ (body ++ [x])))) :
    let line' := before ++ (front ++ (kept ++ (body ++ [x])))
    (CommandLine.parse line' line'.length).quoteSynthesized = false ∧
      Context.ofCursor line' line'.length =
        .filterClause (front ++ (kept ++ (body ++ [x]))) false := by
  have happend : front ++ (kept ++ (body ++ [x])) = front ++ (kept ++ body) ++ [x] := by simp
  have hplace : Place.after {} [x] = {} ∧ isBlank x = false := by
    rcases hx with rfl | rfl <;> exact ⟨rfl, by decide⟩
  have huncut : Uncut isBlank {} (front ++ (kept ++ (body ++ [x]))) := by
    rw [happend, uncut_append]
    exact ⟨a.uncut_replaced hbody.blank, uncut_singleton hplace.2 _⟩
  have hends : endsQuoted (front ++ (kept ++ (body ++ [x]))) = false := by
    rw [happend, endsQuoted_eq, Place.after_append, a.after_word hbody, hplace.1]
  have hcontext := a.context_of_clause huncut (by rw [hends]; exact hclause)
  rw [hends] at hcontext
  exact ⟨(Context.ofLine_eq_filterClause hcontext).2.2.2.symm, hcontext⟩

/-- Behind a blank the next word begins. -/
theorem context_of_blank (hclause : Context.IsClause (front ++ (kept ++ body))) :
    let line' := before ++ (front ++ (kept ++ (body ++ [' '])))
    (CommandLine.parse line' line'.length).quoteSynthesized = false ∧
      Context.ofCursor line' line'.length = .start ∧
      (CommandLine.parse line' line'.length).previous = front ++ (kept ++ body) := by
  have happend : front ++ (kept ++ (body ++ [' '])) = front ++ (kept ++ body) ++ [' '] := by simp
  have hparse := parse_of_blank a.line (a.uncut_replaced hbody.blank) hclause.ne_nil
    (a.after_word hbody)
  rw [← happend] at hparse
  intro line'
  have hrun : Expectation.run (words.filter (· ≠ []) ++ [front ++ (kept ++ body)]) = .clause := by
    rw [Expectation.run, List.foldl_append, ← Expectation.run, a.run]
    exact Expectation.step_of_isClause hclause
  have hbefore :
      CommandLine.before ⟨words.filter (· ≠ []) ++ [front ++ (kept ++ body), []], false⟩ =
        words.filter (· ≠ []) ++ [front ++ (kept ++ body)] := by
    simp [CommandLine.before]
  refine ⟨by rw [hparse], ?_, ?_⟩
  · rw [Context.ofCursor, hparse, Context.ofLine, hbefore, hrun]
    simp [CommandLine.current, Context.ofExpectation, Context.ofWord, Text.after?]
  · rw [hparse, CommandLine.previous, hbefore]
    simp

end Body

end ClauseLine

end FilterLine
