import FilterLine.Proofs.Completion.Acceptance
import FilterLine.Proofs.Completion.ClauseAnswers
import FilterLine.Proofs.Line.Balance

/-!
Strings that are completed again. A string is ended behind a quote that closes it: the one that is open
in it, or one of the two that are put around it when it has none. What is offered then offers the same
again, and so does the string with its quote left open. Only a backslash at the end that escapes nothing
takes the closing quote.
-/
namespace FilterLine

namespace Line

variable {t : Text}

/-- A text with its quote closed: the one that is open in it, or one put in front of it if it has
none. -/
def quoteOnce (t : Text) : Text :=
  if endsQuoted t then t ++ ['"'] else if unescapedQuotes t = 0 then '"' :: t ++ ['"'] else t

/-- Whether the quote that closes a text is escaped by a backslash at its end. -/
def TakesQuote (t : Text) : Prop :=
  (Place.after {} t).escaped = true ∧ (endsQuoted t = true ∨ unescapedQuotes t = 0)

instance (t : Text) : Decidable (TakesQuote t) := inferInstanceAs (Decidable (_ ∧ _))

/-- A closed text ends outside, unless its last quote is escaped. -/
theorem quoted_quoteOnce (t : Text) :
    (Place.after {} (quoteOnce t)).quoted = decide (TakesQuote t) := by
  have hquoted := endsQuoted_eq t
  by_cases hends : endsQuoted t = true
  · rw [quoteOnce, if_pos hends, Place.after_append]
    change ((Place.after {} t).step '"').quoted = _
    rw [step_quote_of_quoted (hquoted ▸ hends)]
    simp [TakesQuote, hends]
  · by_cases hnone : unescapedQuotes t = 0
    · have hinside : (Place.after ⟨true, false⟩ t).quoted = true := by
        simpa [quoted_after] using hends
      rw [quoteOnce, if_neg hends, if_pos hnone, List.cons_append, Place.after_cons,
        Place.step_quote, Place.after_append]
      change ((Place.after ⟨true, false⟩ t).step '"').quoted = _
      rw [step_quote_of_quoted hinside, escaped_after t true false false]
      simp [TakesQuote, hnone]
    · rw [quoteOnce, if_neg hends, if_neg hnone, ← hquoted]
      simp [TakesQuote, hends, hnone]

/-- The quotes of a closed text are even in number just when the last one is not escaped. -/
theorem even_quoteOnce (t : Text) :
    unescapedQuotes (quoteOnce t) % 2 = 0 ↔ ¬ TakesQuote t := by
  rw [even_quotes_iff, quoted_quoteOnce, decide_eq_false_iff_not]

/-- What stands behind a text escapes none of its quotes. -/
theorem unescapedQuotes_le_append (t u : Text) : unescapedQuotes t ≤ unescapedQuotes (t ++ u) := by
  fun_induction unescapedQuotes t with
  | case1 => exact Nat.zero_le _
  | case2 c r ih => simpa [unescapedQuotes] using ih
  | case3 c r hne ih =>
    by_cases hbackslash : c = '\\'
    · -- only the last character is a backslash without another behind it
      cases r with
      | nil => simp [hbackslash, unescapedQuotes]
      | cons d r => exact absurd rfl (hne d r hbackslash)
    · rw [List.cons_append, unescapedQuotes]
      · exact Nat.add_le_add_left ih _
      · exact fun d r hc => absurd hc hbackslash

/-- A text without quotes, opened by one, is closed as the text itself is. -/
theorem quoteOnce_cons (hnone : unescapedQuotes t = 0) :
    endsQuoted ('"' :: t) = true ∧ quoteOnce ('"' :: t) = quoteOnce t := by
  have hcount : unescapedQuotes ('"' :: t) = 1 := by simp [unescapedQuotes, hnone]
  have hends : endsQuoted ('"' :: t) = true := by simp [endsQuoted, hcount]
  have hends' : endsQuoted t = false := by simp [endsQuoted, hnone]
  refine ⟨hends, ?_⟩
  rw [quoteOnce, quoteOnce, if_pos hends, hends', if_neg (by simp), if_pos hnone]

/-- A text with its quote closed has a quote. -/
theorem unescapedQuotes_quoteOnce_ne_zero (t : Text) : unescapedQuotes (quoteOnce t) ≠ 0 := by
  unfold quoteOnce
  split
  · rename_i hends
    have hle := unescapedQuotes_le_append t ['"']
    have hodd : unescapedQuotes t % 2 = 1 := by simpa [endsQuoted] using hends
    omega
  · split
    · simp [unescapedQuotes]
    · assumption

/-- A closed text needs no other quote. -/
theorem quoteOnce_quoteOnce (h : ¬ TakesQuote t) :
    endsQuoted (quoteOnce t) = false ∧ quoteOnce (quoteOnce t) = quoteOnce t := by
  have hends : endsQuoted (quoteOnce t) = false := by
    rw [endsQuoted_eq, quoted_quoteOnce, decide_eq_false_iff_not]
    exact h
  refine ⟨hends, ?_⟩
  rw [quoteOnce, hends, if_neg (by simp), if_neg (unescapedQuotes_quoteOnce_ne_zero t)]

/-- A text that is nowhere cut and ends in no lone backslash closes once its quote is closed. -/
theorem closes_quoteOnce (hescaped : (Place.after {} t).escaped = false)
    (hblank : Uncut isBlank {} t) (hcolon : Uncut (· == ':') {} t) : Closes {} (quoteOnce t) := by
  unfold quoteOnce
  split
  · rename_i hends
    have hafter : Place.after {} t = ⟨true, false⟩ :=
      congrArg₂ Place.mk ((endsQuoted_eq t).symm.trans hends) hescaped
    exact closes_close hafter hblank hcolon
  · rename_i hends
    split
    · rename_i hnone
      exact closes_of_quoted hnone hescaped
    · have hquoted := (endsQuoted_eq t).symm.trans (Bool.eq_false_iff.mpr hends)
      exact ⟨congrArg₂ Place.mk hquoted hescaped, hblank, hcolon⟩

end Line

open Line

variable {answer : (q : Question) → q.Answer} {filter name head v w word : Text}
  {earlier : List Text} {q : Bool}

/-- The text ended behind its closed quote, by a colon and by a blank. -/
def endedStrings (t : Text) : List Text := [quoteOnce t ++ [':'], quoteOnce t ++ [' ']]

/-- The text with its quote open, if it has no quotes or one that is open. -/
def openStrings (t : Text) : List Text :=
  if endsQuoted t then [t] else if unescapedQuotes t = 0 then ['"' :: t] else []

/-- The strings that are offered for a text. The one with its quote open stands in front if it is what
is typed, and behind the others if a quote has to be put in front of it. -/
def offeredStrings (t : Text) : List Text :=
  if endsQuoted t then openStrings t ++ endedStrings t else endedStrings t ++ openStrings t

section Offered

variable {t o : Text}

/-- With the quote that was synthesized for it a text is offered the same as without. -/
theorem stringCandidates_close (t : Text) :
    stringCandidates (close (endsQuoted t) t) (endsQuoted t) = offeredStrings t := by
  cases hends : endsQuoted t with
  | true =>
    simp [stringCandidates, offeredStrings, openStrings, endedStrings, close, quoteOnce, hends,
      Text.endsIn]
  | false =>
    by_cases hnone : unescapedQuotes t = 0
    · simp [stringCandidates, offeredStrings, openStrings, endedStrings, close, quoteOnce, hends,
        hnone]
    · simp [stringCandidates, offeredStrings, openStrings, endedStrings, close, quoteOnce, hends,
        hnone, Nat.pos_of_ne_zero hnone]

/-- A closed string is only ended. -/
theorem offeredStrings_quoteOnce (h : ¬ TakesQuote t) :
    offeredStrings (quoteOnce t) = endedStrings t := by
  obtain ⟨hends, hclosed⟩ := quoteOnce_quoteOnce h
  rw [offeredStrings, openStrings, endedStrings, hends, if_neg (by simp), if_neg (by simp),
    if_neg (unescapedQuotes_quoteOnce_ne_zero t), hclosed, List.append_nil, endedStrings]

/-- A string whose quote is open is the text itself, or is the text behind a quote. -/
theorem mem_openStrings : o ∈ openStrings t ↔ endsQuoted t = true ∧ o = t ∨
    unescapedQuotes t = 0 ∧ o = '"' :: t := by
  have hquoted : unescapedQuotes t = 0 → endsQuoted t = false := by
    intro hnone
    simp [endsQuoted, hnone]
  unfold openStrings
  split
  · rename_i hends
    have hsome : unescapedQuotes t ≠ 0 := fun hnone => by simp [hquoted hnone] at hends
    simp [hends, hsome]
  · rename_i hends
    split
    · rename_i hnone
      simp [hends, hnone]
    · rename_i hsome
      simp [hends, hsome]

/-- The text with its quote open is offered itself, and what the text is ended by. -/
theorem offeredStrings_of_open (h : o ∈ openStrings t) :
    offeredStrings o = o :: endedStrings t := by
  rcases mem_openStrings.mp h with ⟨hends, rfl⟩ | ⟨hnone, rfl⟩
  · simp [offeredStrings, openStrings, hends]
  · obtain ⟨hends, hclosed⟩ := quoteOnce_cons hnone
    simp [offeredStrings, openStrings, endedStrings, hends, hclosed]

/-- Opening a quote in front of a text cuts it nowhere. -/
theorem uncut_of_open (hescaped : (Place.after {} t).escaped = false) (hblank : Uncut isBlank {} t)
    (hcolon : Uncut (· == ':') {} t) (h : o ∈ openStrings t) :
    Uncut isBlank {} o ∧ Uncut (· == ':') {} o := by
  rcases mem_openStrings.mp h with ⟨-, rfl⟩ | ⟨hnone, rfl⟩
  · exact ⟨hblank, hcolon⟩
  · have hcloses := closes_of_quoted hnone hescaped
    exact ⟨(uncut_append.mp hcloses.blank).1, (uncut_append.mp hcloses.colon).1⟩

end Offered

/-- Whether a text can name an option with a value: it neither assigns, quotes nor escapes, and does not
begin like a property. -/
structure NamesOption (name : Text) : Prop where
  assign : '=' ∉ name
  quote : '"' ∉ name
  backslash : '\\' ∉ name
  property : name.head? ≠ some '#'

/-- Whether an argument of a filter is a string whose value is read as one. -/
structure IsString (answer : (q : Question) → q.Answer) (filter name : Text) : Prop where
  listed : filter ∈ answer .filters
  kind : ∃ spec, (answer (.filterArgs filter)).find? (·.name == name) = some spec ∧
    (answer (.argument filter name)).kind.getD spec.kind ∈ [ArgType.str, ArgType.cstr]
  name : NamesOption name
  literals : ∀ s ∈ answer (.shorthands filter), '=' ∉ s.literal

/-- Paths are offered behind the strings for a value. -/
theorem pathsBehind_valueCandidates {spec : ArgumentSpec}
    (hkind : (answer (.argument filter spec.name)).kind.getD spec.kind ∈
      [ArgType.str, ArgType.cstr]) :
    PathsBehind (fun start => answer (.paths start)) (stringCandidates v q)
      ((valueCandidates filter spec v q).eval answer) := by
  have hstrings : PathsBehind (fun start => answer (.paths start)) (stringCandidates v q)
      (Inquiry.eval answer do
        if spec.name = sourceArgument then
          pure (stringCandidates v q ++
            (← Inquiry.question (.paths (v.trimWhile (· == '"')))))
        else pure (stringCandidates v q)) := by
    by_cases hsource : spec.name = sourceArgument
    · rw [if_pos hsource]
      exact ⟨_, rfl, .inr ⟨_, rfl⟩⟩
    · rw [if_neg hsource]
      exact pathsBehind_refl _ _
  rw [valueCandidates, Inquiry.eval_bind', Inquiry.eval_question]
  simp only [List.mem_cons, List.not_mem_nil, or_false] at hkind
  rcases hkind with hkind | hkind
  · rw [hkind]
    exact hstrings
  · rw [hkind]
    exact hstrings

/-- A clause that ends in the value of a string is completed as a string. -/
theorem pathsBehind_strings (harg : IsString answer filter name) {line value : Text} {cursor : Nat}
    (hcontext : Context.ofCursor line cursor = .filterClause word q)
    (hword : segments word = filter :: (earlier ++ [name ++ '=' :: value])) :
    PathsBehind (fun start => answer (.paths start)) (stringCandidates value q)
      ((candidates line cursor).eval answer) := by
  obtain ⟨spec, hspec, hkind⟩ := harg.kind
  obtain rfl : spec.name = name := by simpa using List.find?_some hspec
  have hspec' : (Clause.told answer filter (earlier ++ [spec.name ++ '=' :: value])).arg? spec.name =
      some spec := hspec
  have hclause : (clauseCandidates word q).eval answer =
      (valueCandidates filter spec value q).eval answer := by
    rw [eval_clauseCandidates hword (by simp), if_pos harg.listed,
      Clause.lastOption_of_value List.getLast?_concat harg.name.property harg.name.assign
        harg.literals hspec']
  have hbehind := pathsBehind_valueCandidates (q := q) (v := value) hkind
  rw [candidates, hcontext, Context.candidates, Inquiry.eval_bind', hclause]
  cases hfound : (valueCandidates filter spec value q).eval answer with
  | nil =>
    obtain ⟨paths, hpaths, -⟩ := hbehind
    rw [hfound] at hpaths
    exact absurd (List.append_eq_nil_iff.mp hpaths.symm).1
      (SchemaData.stringCandidates_ne_nil value q)
  | cons c found =>
    rw [hfound] at hbehind
    exact hbehind

/-- Closing loses nothing. -/
theorem close_injective (quoted : Bool) : Function.Injective (close quoted) := by
  cases quoted with
  | false => exact fun _ _ h => h
  | true => exact fun _ _ h => List.append_cancel_right h

/-- An option that is closed as a word is closed at its value. -/
theorem close_option (quoted : Bool) (name v : Text) :
    close quoted (name ++ '=' :: v) = name ++ '=' :: close quoted v := by
  rw [close_append, ← List.singleton_append, close_append, List.singleton_append]

/-- Behind the equals sign of an option the value is read from outside. -/
theorem NamesOption.after_assignment (h : NamesOption name) :
    Place.after {} (name ++ ['=']) = {} := by
  rw [Place.after_append, after_plain h.quote h.backslash]
  rfl

section Value

variable (hcontext : Context.ofCursor (head ++ v) (head ++ v).length = .filterClause word q)
  (hword : segments word = filter :: (earlier ++ [name ++ '=' :: close q v]))
  (hname : NamesOption name)

include hcontext hword hname

/-- The value is read as the line is, from outside. -/
theorem after_value : ∃ r, word = close q r ∧ Place.after {} r = Place.after {} v ∧
    q = endsQuoted v := by
  obtain ⟨r, hr, hquoted, hlast⟩ := ClauseLine.exists_open hcontext
  obtain ⟨pieces, front, last, hcut⟩ := exists_lastCut separator_colon r
  have hsegments := segments_close hcut q
  rw [← hr, hword, ← List.cons_append, ← close_option] at hsegments
  obtain ⟨-, hoption⟩ := concat_inj hsegments
  have hafter : Place.after {} r = Place.after {} v := by
    rw [hcut.text, ← close_injective q hoption, Place.after_append, hcut.outside,
      ← List.singleton_append, ← List.append_assoc, Place.after_append, hname.after_assignment]
  refine ⟨r, hr, hafter, ?_⟩
  rw [hquoted, endsQuoted_eq, endsQuoted_eq, ← hlast, hafter]

/-- The line taken apart: its last word is the clause, its last segment the option, and the fragment
what stands behind the equals sign. -/
theorem exists_clauseLine (hescaped : (Place.after {} v).escaped = false) :
    ∃ words before front,
      ClauseLine q (head ++ v) words before (filter :: earlier) front (name ++ ['=']) v ∧
      head = before ++ (front ++ (name ++ ['='])) := by
  obtain ⟨r, hr, hafter, -⟩ := after_value hcontext hword hname
  have hopen : (if q then word.dropLast else word) = r := by
    rw [hr]
    cases q <;> simp [close]
  obtain ⟨words, before, pieces, front, kept, typed, a, htext⟩ :=
    ClauseLine.exists_of_context hcontext (by rw [hopen, hafter, hescaped])
  have hsegments := segments_close a.word q
  rw [← htext, hword, ← List.cons_append, ← close_option] at hsegments
  obtain ⟨rfl, hoption⟩ := concat_inj hsegments
  have hoption := close_injective q hoption
  obtain rfl : v = typed := by
    have htail : (Line.segments (front ++ (kept ++ typed))).tail.getLast? =
        some (name ++ '=' :: v) := by
      rw [segments_of_cut a.word, ← hoption]
      exact tail_getLast?_concat (List.cons_ne_nil _ _)
    rw [← a.typed]
    exact (fragment_of_value htail (Text.cutFirst?_append hname.assign)).symm
  have hkept : name ++ ['='] ++ v = kept ++ v := by simpa using hoption
  obtain rfl := List.append_cancel_right hkept
  have hline : head ++ v = before ++ (front ++ (name ++ ['='])) ++ v := a.line_eq
  exact ⟨words, before, front, a, List.append_cancel_right hline⟩

/-- A text without bare blanks and colons in place of the value is completed as a string. -/
theorem pathsBehind_again (harg : IsString answer filter name)
    (hescaped : (Place.after {} v).escaped = false) (hblank : Uncut isBlank {} w)
    (hcolon : Uncut (· == ':') {} w) :
    PathsBehind (fun start => answer (.paths start)) (offeredStrings w)
      ((candidates (head ++ w) (head ++ w).length).eval answer) := by
  obtain ⟨words, before, front, a, hhead⟩ := exists_clauseLine hcontext hword hname hescaped
  have hline : before ++ (front ++ (name ++ ['='] ++ w)) = head ++ w := by simp [hhead]
  have hoption : close (endsQuoted w) (name ++ ['='] ++ w) =
      name ++ '=' :: close (endsQuoted w) w := by
    rw [List.append_assoc, List.singleton_append, close_option]
  rw [← hname.after_assignment] at hblank
  have huncut : Uncut (· == ':') {} (name ++ ['='] ++ w) := by
    rw [uncut_append, hname.after_assignment]
    exact ⟨(uncut_append.mp a.word.uncut).1, hcolon⟩
  have hends : endsQuoted (front ++ (name ++ ['='] ++ w)) = endsQuoted w := by
    rw [endsQuoted_eq, Place.after_append, a.word.outside, Place.after_append,
      hname.after_assignment, endsQuoted_eq]
  have hagain := a.context_of_clause (a.uncut_replaced hblank)
    (by rw [close_append]; exact a.isClause_of_segments (List.cons_ne_nil _ _) _)
  have hcut : LastCut (· == ':') (front ++ (name ++ ['='] ++ w)) (filter :: earlier) front
      (name ++ ['='] ++ w) := ⟨rfl, a.word.outside, huncut, a.word.split, a.word.ends⟩
  have hsegments := segments_close hcut (endsQuoted w)
  rw [hoption, List.cons_append] at hsegments
  rw [hends, hline] at hagain
  rw [← stringCandidates_close]
  exact pathsBehind_strings harg hagain hsegments

end Value

/-- Whatever is answered about the tool and the paths, what is offered to end a string is offered
again for it with its quote closed, and for it with its quote open; and its closed quotes are even
in number. Only if a backslash at its end takes the quote that is to close it, an odd number of
quotes stands in front of the separator. When the quotes of the string are closed already, it is the
string itself that is completed again. -/
theorem string_closed_once (harg : IsString answer filter name)
    (hcontext : Context.ofCursor (head ++ v) (head ++ v).length = .filterClause word q)
    (hword : segments word = filter :: (earlier ++ [name ++ '=' :: close q v])) :
    let found := fun t => (candidates (head ++ t) (head ++ t).length).eval answer
    let offers := fun start => answer (.paths start)
    PathsBehind offers (offeredStrings v) (found v) ∧
    (unescapedQuotes (quoteOnce v) % 2 = 0 ↔ ¬ TakesQuote v) ∧
    (¬ TakesQuote v → PathsBehind offers (endedStrings v) (found (quoteOnce v)) ∧
      ∀ o ∈ openStrings v, PathsBehind offers (o :: endedStrings v) (found o)) := by
  intro found offers
  obtain ⟨-, -, -, rfl⟩ := after_value hcontext hword harg.name
  have hfound := pathsBehind_strings harg hcontext hword
  rw [stringCandidates_close] at hfound
  refine ⟨hfound, even_quoteOnce v, fun htakes => ?_⟩
  have hended := offeredStrings_quoteOnce htakes
  cases hescaped : (Place.after {} v).escaped with
  | true =>
    obtain ⟨hends, hsome⟩ : endsQuoted v = false ∧ unescapedQuotes v ≠ 0 := by
      simpa [TakesQuote, hescaped] using htakes
    have hclosed : quoteOnce v = v := by simp [quoteOnce, hends, hsome]
    rw [← hended, hclosed]
    refine ⟨hfound, fun o ho => ?_⟩
    simp [mem_openStrings, hends, hsome] at ho
  | false =>
    obtain ⟨words, before, front, a, -⟩ := exists_clauseLine hcontext hword harg.name hescaped
    obtain ⟨hblank, hcolon⟩ := a.uncut_typed
    rw [harg.name.after_assignment] at hblank hcolon
    have hagain : ∀ w, Uncut isBlank {} w → Uncut (· == ':') {} w →
        PathsBehind offers (offeredStrings w) (found w) :=
      fun w => pathsBehind_again hcontext hword harg.name harg hescaped
    refine ⟨?_, fun o ho => ?_⟩
    · have hcloses := closes_quoteOnce hescaped hblank hcolon
      rw [← hended]
      exact hagain _ hcloses.blank hcloses.colon
    · obtain ⟨hblank', hcolon'⟩ := uncut_of_open hescaped hblank hcolon ho
      rw [← offeredStrings_of_open ho]
      exact hagain o hblank' hcolon'

/-- The answers for a filter with a string, and one file whatever is typed. -/
def oneString (q : Question) : q.Answer := Engine.oneFilter.answer (fun _ => ["abc "]) q

def stringFound (t : Text) : List Text :=
  (candidates (("f:src=" : Text) ++ t) (("f:src=" : Text) ++ t).length).eval oneString

/-- A string with an escaped quote whose open quote holds a colon and a blank. -/
def openString : Text := "\\\"a\": b"

theorem string_closed_once_open :
    quoteOnce openString = ("\\\"a\": b\"" : Text) ∧
      unescapedQuotes (quoteOnce openString) % 2 = 0 ∧
      PathsBehind (fun _ => ["abc "]) [("\\\"a\": b\":" : Text), ("\\\"a\": b\" " : Text)]
        (stringFound "\\\"a\": b\"") := by
  have hstring : IsString oneString "f" "src" :=
    ⟨by decide, ⟨⟨"src", .str⟩, by decide, by decide⟩,
      ⟨by decide, by decide, by decide, by decide⟩, by decide +kernel⟩
  have hcontext : Context.ofCursor (("f:src=" : Text) ++ openString)
      (("f:src=" : Text) ++ openString).length =
        .filterClause "f:src=\\\"a\": b\"" true := by decide
  have hword : segments "f:src=\\\"a\": b\"" =
      ("f" : Text) :: ([] ++ [("src" : Text) ++ '=' :: close true openString]) := by decide
  obtain ⟨-, heven, hagain⟩ := string_closed_once hstring hcontext hword
  exact ⟨by decide, heven.mpr (by decide), (hagain (by decide)).1⟩

/-- A backslash at the end takes the quote that is put behind it, and completing again offers more
quotes. -/
theorem string_not_closed :
    stringFound "x\\" =
        [("\"x\\\":" : Text), ("\"x\\\" " : Text), ("\"x\\" : Text), ("abc " : Text)] ∧
      unescapedQuotes "\"x\\\"" = 1 ∧
      stringFound "\"x\\\"" =
        [("\"x\\\"" : Text), ("\"x\\\"\":" : Text), ("\"x\\\"\" " : Text), ("abc " : Text)] := by
  decide +kernel

end FilterLine
