import FilterLine.Proofs.Completion.ClauseLine
import FilterLine.Proofs.Completion.Extension

/-!
Accepting a candidate of a clause. When all names are made of letters, digits and underscores, a
candidate that ends in a separator leaves a line whose last word is closed and has the segments it
had, but for the end of the last one, which the candidate replaces: behind a colon the next option
begins, behind a blank the next word, and behind `=` the value.
-/
namespace FilterLine

open Line

def replaceEnd (t typed c : Text) : Text := t.take (t.length - typed.length) ++ c

theorem replaceEnd_append (t typed c : Text) : replaceEnd (t ++ typed) typed c = t ++ c := by
  simp [replaceEnd]

def replacedSegments (word c : Text) : List Text :=
  (Line.segments word).dropLast ++
    [replaceEnd ((Line.segments word).getLast?.getD []) (fragment word) c]

/-- Whether a text can take the place of the fragment, when the character behind it is read next. -/
structure Fits (front kept body : Text) (x : Char) : Prop where
  closes : Closes (Place.after {} kept) body
  clause : Context.IsClause (front ++ (kept ++ body))
  next : x ≠ ' ' → Context.IsClause (front ++ (kept ++ (body ++ [x])))

namespace ClauseLine

variable {quoted : Bool} {line before front kept typed body c : Text} {words segments : List Text}
  {answer : (q : Question) → q.Answer} {x : Char}

section Fits

variable (a : ClauseLine quoted line words before segments front kept typed)

include a

theorem line_eq : line = before ++ (front ++ kept) ++ typed := by
  rw [a.line.text]
  simp

theorem replaceEnd_line (c : Text) :
    replaceEnd line typed c = before ++ (front ++ (kept ++ c)) := by
  rw [a.line_eq, replaceEnd_append]
  simp

/-- The segments of the word with another end are those in front, and the last one with that end. -/
theorem replacedSegments_word (c : Text) :
    replacedSegments (front ++ (kept ++ typed)) c = segments ++ [kept ++ c] := by
  rw [replacedSegments, a.typed, segments_of_cut a.word, List.dropLast_concat,
    List.getLast?_concat, Option.getD_some, replaceEnd_append]

/-- The fragment of the word is what has been typed of it. -/
theorem fragment_word :
    fragment (close quoted (front ++ (kept ++ typed))) = close quoted typed := by
  rw [fragment_close, a.typed]

/-- The last option is the last segment, of which there are others then. -/
theorem last_option {last : Text}
    (h : (Line.segments (close quoted (front ++ (kept ++ typed)))).tail.getLast? = some last) :
    segments ≠ [] ∧ last = kept ++ close quoted typed := by
  rw [segments_close a.word, close_append] at h
  by_cases hne : segments = []
  · simp [hne] at h
  · rw [tail_getLast?_concat hne] at h
    exact ⟨hne, (Option.some.inj h).symm⟩

/-- A clause of several segments stays one whatever the last one becomes. -/
theorem isClause_of_segments (hne : segments ≠ []) (u : Text) : Context.IsClause (front ++ u) := by
  rcases a.word.ends with ⟨hnil, -⟩ | ⟨-, b, c, hfront, hc⟩
  · exact absurd hnil hne
  · have hcolon : c = ':' := by simpa using hc
    have hword := a.clause
    rw [hfront, hcolon, List.append_assoc] at hword
    rw [hfront, hcolon, List.append_assoc]
    exact hword.colon (List.prefix_append _ _) u

/-- A text that closes what it is read behind can take the place of the fragment. -/
theorem fits_of_closes (hne : segments ≠ []) (hbody : Closes (Place.after {} kept) body) :
    Fits front kept body x :=
  ⟨hbody, a.isClause_of_segments hne _, fun _ => a.isClause_of_segments hne _⟩

/-- The fragment itself fits, closed by the quote that was synthesized. -/
theorem fits_fragment (hx : x = ':' ∨ x = ' ') : Fits front kept (close quoted typed) x := by
  have hplace := a.place
  rw [Place.after_append, Place.after_append, a.word.outside] at hplace
  refine ⟨closes_close hplace a.uncut_typed.1 a.uncut_typed.2, a.clause, fun hne => ?_⟩
  have happend : front ++ (kept ++ (close quoted typed ++ [x])) =
      front ++ (kept ++ close quoted typed) ++ ':' :: [] := by simp [hx.resolve_right hne]
  rw [happend]
  exact a.clause.colon (List.prefix_refl _) []

/-- A name fits when the fragment is all of the last option. -/
theorem fits_name (hname : body.IsName)
    (hlast : (Line.segments (close quoted (front ++ (kept ++ typed)))).tail.getLast? =
      some (fragment (close quoted (front ++ (kept ++ typed))))) : Fits front kept body x := by
  obtain ⟨hsegments, hkept⟩ := a.last_option hlast
  rw [a.fragment_word] at hkept
  refine a.fits_of_closes hsegments ?_
  rw [List.self_eq_append_left.mp hkept]
  exact closes_of_name hname

end Fits

/-- A string without quotes fits in quotes. -/
theorem fits_quoted (a : ClauseLine false line words before segments front kept typed)
    (hargs : ∀ f, ∀ spec ∈ answer (.filterArgs f), spec.name.IsName)
    (hstring : StringTyped answer (front ++ (kept ++ typed))) :
    Fits front kept ('"' :: typed ++ ['"']) x := by
  obtain ⟨filter, name, spec, -, hlast, -, hspec, -, hquotes⟩ := hstring
  obtain ⟨hsegments, heq⟩ := a.last_option hlast
  rw [a.typed] at heq hquotes
  have heq' : name ++ ['='] ++ typed = kept ++ typed := by simpa [close] using heq
  have hkept := List.append_cancel_right heq'
  have hname : Text.IsName name := by
    have hspecname : spec.name = name := by simpa using List.find?_some hspec
    exact hspecname ▸ hargs filter spec (List.mem_of_find?_eq_some hspec)
  have hafter : Place.after {} kept = {} := by
    rw [← hkept, Place.after_append, (closes_of_name hname).outside]
    rfl
  have hplace := a.place
  rw [Place.after_append, Place.after_append, a.word.outside, hafter] at hplace
  refine a.fits_of_closes hsegments ?_
  rw [hafter]
  exact closes_of_quoted hquotes (by rw [hplace])

/-- What stands in front of the separator that a candidate ends in fits, unless the candidate only
repeats the fragment. A name does not end in a separator, and a list that is offered again ends in
the quote that was synthesized for it. -/
theorem fits_of_offer (a : ClauseLine quoted line words before segments front kept typed)
    (hargs : ∀ f, ∀ spec ∈ answer (.filterArgs f), spec.name.IsName)
    (hoffer : Offer Text.IsName answer (close quoted (front ++ (kept ++ typed))) quoted c)
    (hne : c ≠ typed) (hne' : c ≠ '"' :: typed) (hx : x ∈ [':', ' ', '=']) (hc : c = body ++ [x]) :
    Fits front kept body x := by
  have hfragment := a.fragment_word
  have hmark : x ∈ clauseMarks := List.mem_cons_of_mem _ (List.mem_cons_of_mem _ hx)
  cases hoffer with
  | named hname _ => exact absurd (by rw [hc]; simp) (hname.not_mem hmark)
  | property hname _ =>
    cases body with
    | nil => exact absurd (List.cons.inj hc).2 hname.ne_nil
    | cons b body => exact absurd (by rw [(List.cons.inj hc).2]; simp) (hname.not_mem hmark)
  | ended hended =>
    obtain ⟨hbody, rfl⟩ := concat_inj hc
    rw [← hbody, hfragment]
    exact a.fits_fragment hended
  | switch hlast hname _ _ =>
    obtain ⟨rfl, -⟩ := concat_inj hc
    exact a.fits_name hname hlast
  | assigned hlast hname =>
    obtain ⟨hbody, -⟩ := concat_inj hc
    rw [hbody] at hname
    exact a.fits_name hname hlast
  | list =>
    rw [hfragment] at hc hne
    cases quoted with
    | false => exact absurd rfl hne
    | true =>
      obtain ⟨-, rfl⟩ := concat_inj hc
      exact absurd hx (by decide)
  | item =>
    obtain ⟨-, rfl⟩ := concat_inj hc
    exact absurd hx (by decide)
  | reopened hquoted =>
    rw [hfragment, hquoted] at hne
    exact absurd (by simp [close]) hne
  | @quoted d hquoted hstring _ =>
    subst hquoted
    rw [hfragment] at hc
    have hc' : '"' :: typed ++ ['"'] ++ [d] = body ++ [x] := by
      rw [← hc]
      simp [close]
    obtain ⟨hbody, -⟩ := concat_inj hc'
    rw [← hbody]
    exact a.fits_quoted hargs hstring
  | opened hquoted _ =>
    rw [hfragment, hquoted] at hne'
    exact absurd (by simp [close]) hne'

end ClauseLine

namespace Engine

open PathSource

variable {tool : Tool} {reply : Text → Except (Text × FileError) (List Text)} {line : Text}
  {s s' : Session} {found : List Text}

/-- A candidate of a clause is made in one of the ways, or is the name of a filter. -/
theorem offer_or_name {answer : (q : Question) → q.Answer}
    (hspelled : Spelled Text.IsName Text.IsName answer)
    (hpaths : ∀ start, answer (.paths start) = []) {word c : Text} {quoted : Bool}
    (h : c ∈ (Context.filterClause word quoted).candidates.eval answer) :
    Offer Text.IsName answer word quoted c ∨ c.IsName := by
  unfold Context.candidates at h
  rw [Inquiry.eval_bind'] at h
  split at h
  · exact .inr (hspelled.filters c (mem_startingWith.mp h).1)
  · have hswitch : ∀ t ∈ [("true" : Text), ("false" : Text)], Text.IsName t := by
      simp only [List.forall_mem_cons, List.not_mem_nil, false_imp_iff, implies_true, and_true]
      exact ⟨by decide +kernel, by decide +kernel⟩
    exact .inl (offer_clause
      ⟨hspelled, fun t ht => ⟨ht, ht.not_mem (by decide)⟩, hswitch, hpaths⟩ h)

/-- When all names are made of word characters and the word ends in no lone backslash, a candidate
that is no path and does not just repeat the fragment leads where its last character says. The line
with the fragment replaced by the candidate needs no quote. Behind a colon an empty option follows
the segments, behind `=` the value goes on in the last one, and behind a blank a new word begins. -/
theorem accept_candidate (htool : tool.Spelled Text.IsName Text.IsName)
    (hs : Spelled Text.IsName Text.IsName s.data.known)
    (h : (complete tool (.fixed reply) line line.length).result s = (.ok found, s'))
    {word : Text} {quoted : Bool}
    (hcontext : Context.ofCursor line line.length = .filterClause word quoted) :
    let r := if quoted then word.dropLast else word
    let own := (candidates line line.length).eval s'.data.known
    (Place.after {} r).escaped = false → PathsBehind (offers reply) own found ∧
      fragment r <:+ line ∧ ∀ c ∈ own, c ≠ fragment r → c ≠ '"' :: fragment r → ∀ body,
        let line' := replaceEnd line (fragment r) c
        let accepted := CommandLine.parse line' line'.length
        let context := Context.ofCursor line' line'.length
        (c = body ++ [':'] → accepted.quoteSynthesized = false ∧
          context = .filterClause accepted.current false ∧
          Line.segments accepted.current = replacedSegments r body ++ [[]]) ∧
        (c = body ++ ['='] → accepted.quoteSynthesized = false ∧
          context = .filterClause accepted.current false ∧
          Line.segments accepted.current = replacedSegments r c) ∧
        (c = body ++ [' '] → accepted.quoteSynthesized = false ∧ context = .start ∧
          Line.segments accepted.previous = replacedSegments r body) := by
  intro r own hescaped
  have hspelled := spelled_complete htool hs h
  obtain ⟨-, hfound, -⟩ := run_leads (fun _ => True) _ h fun _ _ _ _ _ _ => trivial
  obtain ⟨words, before, segments, front, kept, typed, a, hword⟩ :=
    ClauseLine.exists_of_context hcontext hescaped
  have hr : r = front ++ (kept ++ typed) := by
    rw [show r = if quoted then word.dropLast else word from rfl, hword]
    cases quoted <;> simp [close]
  rw [hr, a.typed]
  refine ⟨hfound ▸ SchemaData.pathsBehind_candidates line line.length, ?_,
    fun c hc hne hne' body => ?_⟩
  · rw [a.line_eq]
    exact List.suffix_append _ _
  · have hfits : ∀ x ∈ [':', ' ', '='], c = body ++ [x] → Fits front kept body x := by
      intro x hx hbody
      simp only [own, candidates, hcontext] at hc
      rcases offer_or_name hspelled (fun _ => rfl) hc with hoffer | hname
      · rw [hword] at hoffer
        exact a.fits_of_offer hspelled.args hoffer hne hne' hx hbody
      · have hmark : x ∈ clauseMarks := List.mem_cons_of_mem _ (List.mem_cons_of_mem _ hx)
        exact absurd (by rw [hbody]; simp) (hname.not_mem hmark)
    rw [a.replaceEnd_line]
    refine ⟨fun hbody => ?_, fun hbody => ?_, fun hbody => ?_⟩
    · have hfit := hfits ':' (by simp) hbody
      obtain ⟨hquote, hnext⟩ := a.context_of_word hfit.closes (.inl rfl) (hfit.next (by decide))
      have hcurrent := (Context.ofLine_eq_filterClause hnext).2.2.1
      rw [hbody, ← hcurrent, a.segments_colon hfit.closes, a.replacedSegments_word,
        List.append_assoc]
      exact ⟨hquote, hnext, rfl⟩
    · have hfit := hfits '=' (by simp) hbody
      obtain ⟨hquote, hnext⟩ := a.context_of_word hfit.closes (.inr rfl) (hfit.next (by decide))
      have hcurrent := (Context.ofLine_eq_filterClause hnext).2.2.1
      rw [hbody, ← hcurrent, a.replacedSegments_word]
      exact ⟨hquote, hnext, a.segments_assigned hfit.closes⟩
    · have hfit := hfits ' ' (by simp) hbody
      obtain ⟨hquote, hnext, hprevious⟩ := a.context_of_blank hfit.closes hfit.clause
      rw [hbody, hprevious, a.segments_word hfit.closes, a.replacedSegments_word]
      exact ⟨hquote, hnext, rfl⟩

/-- A line that ends inside the quoted value of an option. -/
def quotedValue : Text := "f:mode=fast:src=\"a b"

def quotedServed : Except ToolError (List Text) × Session :=
  (complete (.failing oneFilter fun _ _ => none) (.fixed oneFile) quotedValue
    quotedValue.length).result {}

def quotedFound : List Text := ["\"a b", "\"a b\":", "\"a b\" ", "abc "]

theorem accept_candidate_in_quotes :
    quotedServed.1 = .ok quotedFound ∧
      let line' : Text := "f:mode=fast:src=\"a b\":"
      let accepted := CommandLine.parse line' line'.length
      accepted.quoteSynthesized = false ∧
        Context.ofCursor line' line'.length = .filterClause accepted.current false ∧
        Line.segments accepted.current =
          [("f" : Text), ("mode=fast" : Text), ("src=\"a b\"" : Text), []] := by
  have htool : (Tool.failing oneFilter fun _ _ => none).Spelled Text.IsName Text.IsName := by
    intro past q a ha
    cases q <;> cases ha <;> simp [Query.Spelled, oneFilter] <;> decide +kernel
  have hfound : quotedServed.1 = .ok quotedFound := by decide +kernel
  have hserved : (complete (.failing oneFilter fun _ _ => none) (.fixed oneFile) quotedValue
      quotedValue.length).result {} = (.ok quotedFound, quotedServed.2) := by
    change quotedServed = _
    rw [← hfound]
  have hcontext : Context.ofCursor quotedValue quotedValue.length =
      .filterClause (quotedValue ++ ['"']) true := by decide
  obtain ⟨-, -, haccept⟩ := accept_candidate htool SchemaData.spelled_empty hserved hcontext
    (by decide)
  have hcolon := (haccept "\"a b\":" (by decide +kernel) (by decide) (by decide) "\"a b\"").1 rfl
  exact ⟨hfound, hcolon⟩

end Engine
end FilterLine
