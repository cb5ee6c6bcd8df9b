import FilterLine.Proofs.Completion.Offers
import FilterLine.Proofs.Completion.Transparency
import FilterLine.Proofs.Line.Clause

/-!
Candidates extend what is typed. Apart from paths, which stand behind all others, a candidate begins
with the text that it completes; a string without quotes gets a quote in front, and the filters that
are offered when a clause has no candidates begin with the whole word.
-/
namespace FilterLine

/-- The text that the candidates of a context complete. -/
def Context.typed : Context → Text
  | start => []
  | moduleName t | linkedFilter t | property t | helpTopic t | inputEndpoint t | outputEndpoint t
  | flag t => t
  | filterClause word _ => fragment word

/-- The text that is completed at the cursor, without the quote that was synthesized. -/
def typed (line : Text) (cursor : Nat) : Text :=
  let t := (Context.ofCursor line cursor).typed
  if (CommandLine.parse line cursor).quoteSynthesized then t.dropLast else t

/-- The text that is completed is the start of what the context holds. -/
theorem typed_extends (line : Text) (cursor : Nat) :
    typed line cursor <+: (Context.ofCursor line cursor).typed := by
  unfold typed
  split
  · exact List.dropLast_prefix _
  · exact List.prefix_refl _

/-- Whether some candidates are others with the paths for one text behind them. -/
def PathsBehind (offers : Text → List Text) (own found : List Text) : Prop :=
  ∃ paths, found = own ++ paths ∧ (paths = [] ∨ ∃ start, paths = offers start)

theorem pathsBehind_refl (offers : Text → List Text) (own : List Text) :
    PathsBehind offers own own := ⟨[], by simp, .inl rfl⟩

namespace SchemaData

variable (d : SchemaData) (offers : Text → List Text)

/-- Whether a computation finds the same with and without paths, but for paths behind the rest, and
finds none where there is no rest. -/
def Behind (x : Inquiry (List Text)) : Prop :=
  PathsBehind offers (x.eval d.known) (x.eval (d.answer offers)) ∧
    (x.eval d.known = [] → x.eval (d.answer offers) = [])

variable {d offers}

theorem behind_of_eq {x : Inquiry (List Text)} (h : x.eval (d.answer offers) = x.eval d.known) :
    d.Behind offers x := by
  rw [Behind, h]
  exact ⟨pathsBehind_refl _ _, id⟩

/-- What is asked, if not for paths, has the same answer with and without paths. -/
theorem Behind.ask {q : Question} (hq : ∀ start, q ≠ .paths start)
    {f : q.Answer → Inquiry (List Text)} (h : ∀ a, d.Behind offers (f a)) :
    d.Behind offers (Inquiry.question q >>= f) := by
  have hsame : d.answer offers q = d.known q := by
    cases q with
    | paths start => exact absurd rfl (hq start)
    | _ => rfl
  unfold Behind
  rw [Inquiry.eval_bind', Inquiry.eval_bind', Inquiry.eval_question, Inquiry.eval_question, hsame]
  exact h _

/-- A string has candidates whatever its value is. -/
theorem stringCandidates_ne_nil (value : Text) (quoteSynthesized : Bool) :
    stringCandidates value quoteSynthesized ≠ [] := by
  unfold stringCandidates
  split
  · exact List.cons_ne_nil _ _
  · split <;> exact List.cons_ne_nil _ _

/-- Only the values of strings are completed as paths, and these have other candidates too: paths
never stand alone. -/
theorem behind_valueCandidates (filter : Text) (spec : ArgumentSpec) (value : Text)
    (quoteSynthesized : Bool) :
    d.Behind offers (valueCandidates filter spec value quoteSynthesized) := by
  have hne := stringCandidates_ne_nil value quoteSynthesized
  have hbehind : d.Behind offers (do
      let strings := stringCandidates value quoteSynthesized
      if spec.name = sourceArgument then
        pure (strings ++ (← Inquiry.question (.paths (value.trimWhile (· == '"')))))
      else pure strings) := by
    by_cases hsource : spec.name = sourceArgument
    · simp only [if_pos hsource]
      refine ⟨⟨offers (value.trimWhile (· == '"')), ?_, .inr ⟨_, rfl⟩⟩, fun h => ?_⟩
      · simp [Inquiry.question, Inquiry.eval, answer]
      · exact absurd (List.append_eq_nil_iff.mp h).1 hne
    · simp only [if_neg hsource]
      exact behind_of_eq rfl
  refine .ask (fun start => by simp) fun detail => ?_
  cases detail.kind.getD spec.kind with
  | str | cstr => exact hbehind
  | _ => exact behind_of_eq rfl

theorem behind_propertyCandidates (text : Text) (earlier : List Text) :
    d.Behind offers (propertyCandidates text earlier) := by
  unfold propertyCandidates
  split <;> exact behind_of_eq rfl

/-- Paths stand behind the other candidates of the last option. -/
theorem behind_lastOption (c : Clause) (quoteSynthesized : Bool) :
    d.Behind offers (c.lastOption quoteSynthesized) := by
  unfold Clause.lastOption
  split
  · exact behind_of_eq rfl
  · exact behind_of_eq rfl
  · exact behind_propertyCandidates _ _
  · split
    · exact behind_of_eq rfl
    · split
      · split
        · exact behind_valueCandidates _ _ _ _
        · exact behind_of_eq rfl
      · exact behind_of_eq rfl

/-- Paths stand behind the other candidates of a clause. -/
theorem behind_clauseCandidates (word : Text) (quoteSynthesized : Bool) :
    d.Behind offers (clauseCandidates word quoteSynthesized) := by
  unfold clauseCandidates
  split
  · exact behind_of_eq rfl
  · refine .ask (fun start => by simp) fun filters => ?_
    split
    · exact behind_of_eq rfl
    · refine .ask (fun start => by simp) fun args => ?_
      split
      · exact behind_of_eq rfl
      · exact .ask (fun start => by simp) fun shorthands => behind_lastOption _ _

theorem behind_helpCandidates (word : Text) : d.Behind offers (helpCandidates word) := by
  unfold helpCandidates
  refine .ask (fun start => by simp) fun filters => ?_
  by_cases hfilter : Text.beforeFirst '.' word ∈ filters
  · simp only [if_pos hfilter]
    refine .ask (fun start => by simp) fun args => ?_
    split <;> exact behind_of_eq rfl
  · simp only [if_neg hfilter]
    exact behind_of_eq rfl

/-- Paths stand behind the schemes of an endpoint. -/
theorem pathsBehind_endpointCandidates (usable : Protocol → Bool) (start : Text) :
    PathsBehind offers ((endpointCandidates usable start).eval d.known)
      ((endpointCandidates usable start).eval (d.answer offers)) := by
  refine ⟨offers start, ?_, .inr ⟨start, rfl⟩⟩
  simp [endpointCandidates, Inquiry.question, Inquiry.eval, answer]

/-- Paths stand behind all other candidates, and do not change which these are. -/
theorem pathsBehind_candidates (line : Text) (cursor : Nat) :
    PathsBehind offers ((candidates line cursor).eval d.known)
      ((candidates line cursor).eval (d.answer offers)) := by
  rw [candidates]
  cases Context.ofCursor line cursor with
  | moduleName | linkedFilter | property | start | flag => exact pathsBehind_refl _ _
  | helpTopic word => exact (behind_helpCandidates word).1
  | inputEndpoint word | outputEndpoint word => exact pathsBehind_endpointCandidates _ word
  | filterClause word quoteSynthesized =>
    have hbehind : d.Behind offers _ := behind_clauseCandidates word quoteSynthesized
    obtain ⟨⟨paths, hfound, hpaths⟩, hnone⟩ := hbehind
    unfold Context.candidates
    rw [Inquiry.eval_bind', Inquiry.eval_bind', hfound]
    cases hown : (clauseCandidates word quoteSynthesized).eval d.known with
    | nil =>
      have hnil := hnone hown
      rw [hfound, hown] at hnil
      rw [hnil]
      exact pathsBehind_refl _ _
    | cons c own => exact ⟨paths, rfl, hpaths⟩

end SchemaData

section Extends

variable {answer : (q : Question) → q.Answer} {word c : Text} {quoteSynthesized : Bool}

/-- What is ended by a space begins with the word. -/
theorem extends_of_closed {items : List Text} (h : c ∈ closed word items) : word <+: c := by
  obtain ⟨item, hitem, rfl⟩ := List.mem_map.mp h
  exact (mem_startingWith.mp hitem).2.trans (List.prefix_append _ _)

/-- Help on a filter begins with the word. -/
theorem extends_of_filterHelp {filter : Text} {args : List ArgumentSpec}
    (h : c ∈ filterHelp filter word args) : word <+: c := by
  unfold filterHelp at h
  split at h
  · rename_i heq
    rw [heq]
    rcases List.mem_cons.mp h with rfl | h
    · exact List.prefix_append _ _
    · split at h
      · exact absurd h List.not_mem_nil
      · rw [List.mem_singleton.mp h]
        exact List.prefix_append _ _
  · split at h
    · rename_i rest hrest
      obtain ⟨name, hname, rfl⟩ := List.mem_map.mp h
      rw [Text.after?_eq_some.mp hrest, List.append_assoc (filter ++ ['.']) name]
      refine (List.prefix_append_right_inj _).mpr ?_
      exact (mem_startingWith.mp hname).2.trans (List.prefix_append _ _)
    · exact absurd h List.not_mem_nil

/-- All help topics begin with the word. -/
theorem extends_of_helpCandidates (h : c ∈ (helpCandidates word).eval answer) : word <+: c := by
  have htopics : ∀ filters : List Text, c ∈ (startingWith word helpTopics).map (· ++ [' ']) ++
      startingWith word filters → word <+: c := by
    intro filters hc
    rcases List.mem_append.mp hc with hc | hc
    · obtain ⟨topic, htopic, rfl⟩ := List.mem_map.mp hc
      exact (mem_startingWith.mp htopic).2.trans (List.prefix_append _ _)
    · exact (mem_startingWith.mp hc).2
  unfold helpCandidates at h
  rw [Inquiry.eval_bind', Inquiry.eval_question] at h
  by_cases hfilter : Text.beforeFirst '.' word ∈ answer .filters
  · simp only [if_pos hfilter, Inquiry.eval_bind'] at h
    split at h
    · exact htopics _ h
    · exact extends_of_filterHelp h
  · simp only [if_neg hfilter] at h
    exact htopics _ h

/-- Outside clauses every candidate begins with what is typed. -/
theorem Context.extends_typed {context : Context}
    (hclause : ∀ word quoteSynthesized, context ≠ .filterClause word quoteSynthesized)
    (hpaths : ∀ start, answer (.paths start) = []) (h : c ∈ context.candidates.eval answer) :
    context.typed <+: c := by
  have hendpoint : ∀ {usable start}, c ∈ (endpointCandidates usable start).eval answer →
      start <+: c := by
    intro usable start hc
    simp only [endpointCandidates, Inquiry.eval_bind', Inquiry.eval_pure] at hc
    have hnone : (Inquiry.question (.paths start)).eval answer = [] := hpaths start
    rw [hnone, List.append_nil] at hc
    exact (mem_startingWith.mp hc).2
  cases context with
  | moduleName word | linkedFilter word | property word => exact extends_of_closed h
  | helpTopic word => exact extends_of_helpCandidates h
  | inputEndpoint word | outputEndpoint word => exact hendpoint h
  | start => exact List.nil_prefix
  | flag word =>
    rw [candidates, Inquiry.eval_pure] at h
    split at h
    · rename_i heq
      rw [typed, heq]
      have hdash : ∀ t ∈ globalFlags, ['-'] <+: t := by decide
      exact hdash c h
    · exact (mem_startingWith.mp h).2
  | filterClause word quoteSynthesized => exact absurd rfl (hclause word quoteSynthesized)

/-- A candidate of a clause begins with the fragment, but for a quote that may have been
synthesized, or with the fragment behind a quote. -/
theorem Offer.extends {name : Text → Prop} (h : Offer name answer word quoteSynthesized c) :
    (if quoteSynthesized then (fragment word).dropLast else fragment word) <+: c ∨
      quoteSynthesized = false ∧ StringTyped answer word ∧ '"' :: fragment word <+: c := by
  have hstarts : (if quoteSynthesized then (fragment word).dropLast else fragment word) <+:
      fragment word := by
    split
    · exact List.dropLast_prefix _
    · exact List.prefix_refl _
  cases h with
  | named _ ht => exact .inl (hstarts.trans ht)
  | property _ ht => exact .inl (hstarts.trans ht)
  | switch _ _ honly _ => exact .inl ((hstarts.trans honly).trans (List.prefix_append _ _))
  | ended _ | assigned _ _ | item => exact .inl (hstarts.trans (List.prefix_append _ _))
  | list => exact .inl hstarts
  | reopened hq =>
    rw [if_pos hq]
    exact .inl (List.prefix_refl _)
  | quoted hq hstring _ => exact .inr ⟨hq, hstring, List.prefix_append _ _⟩
  | opened hq hstring => exact .inr ⟨hq, hstring, List.prefix_refl _⟩

end Extends

namespace Engine

open PathSource

variable {tool : Tool} {reply : Text → Except (Text × FileError) (List Text)} {line : Text}
  {cursor : Nat} {s s' : Session} {found : List Text}

/-- If no literal holds a `=`, every candidate that is no path begins with what is typed. But a
string without quotes gets one in front; and the names of filters, which are offered when a clause
has no candidates, begin with the whole word. -/
theorem complete_extends_typed (htool : tool.Spelled (fun _ => True) ('=' ∉ ·))
    (hs : Spelled (fun _ => True) ('=' ∉ ·) s.data.known)
    (h : (complete tool (.fixed reply) line cursor).result s = (.ok found, s')) :
    let own := (candidates line cursor).eval s'.data.known
    PathsBehind (offers reply) own found ∧ ∀ c ∈ own, typed line cursor <+: c ∨
      (∃ word, Context.ofCursor line cursor = .filterClause word false ∧
        StringTyped s'.data.known word ∧ '"' :: typed line cursor <+: c) ∨
      ∃ word q, Context.ofCursor line cursor = .filterClause word q ∧
        (clauseCandidates word q).eval s'.data.known = [] ∧ c ∈ s'.data.known .filters ∧
        word <+: c := by
  intro own
  have hspelled := spelled_complete htool hs h
  obtain ⟨-, hfound, -⟩ := run_leads (fun _ => True) _ h fun _ _ _ _ _ _ => trivial
  refine ⟨hfound ▸ SchemaData.pathsBehind_candidates line cursor, fun c hc => ?_⟩
  by_cases hclause : ∃ word q, Context.ofCursor line cursor = .filterClause word q
  · obtain ⟨word, q, hcontext⟩ := hclause
    have htyped : typed line cursor = if q then (fragment word).dropLast else fragment word := by
      rw [(Context.ofLine_eq_filterClause hcontext).2.2.2, typed, hcontext]
      rfl
    simp only [own, candidates, hcontext, Context.candidates, Inquiry.eval_bind'] at hc
    split at hc
    · rename_i hnone
      obtain ⟨hmem, hstarts⟩ := mem_startingWith.mp hc
      exact .inr (.inr ⟨word, q, hcontext, hnone, hmem, hstarts⟩)
    · have hoffer := offer_clause
        ⟨hspelled, fun t ht => ⟨trivial, ht⟩, fun _ _ => trivial, fun start => rfl⟩ hc
      rw [htyped]
      rcases hoffer.extends with hstarts | ⟨rfl, hstring, hstarts⟩
      · exact .inl hstarts
      · exact .inr (.inl ⟨word, hcontext, hstring, hstarts⟩)
  · refine .inl ((typed_extends line cursor).trans ?_)
    exact Context.extends_typed (fun word q heq => hclause ⟨word, q, heq⟩) (fun start => rfl) hc

def oneFile (_ : Text) : Except (Text × FileError) (List Text) := .ok ["abc "]

def unquoted : Except ToolError (List Text) × Session :=
  (complete (.failing oneFilter fun _ _ => none) (.fixed oneFile) "f:src=ab" 8).result {}

def unquotedFound : List Text := ["\"ab\":", "\"ab\" ", "\"ab", "abc "]

theorem complete_extends_typed_unquoted :
    unquoted.1 = .ok unquotedFound ∧
      StringTyped unquoted.2.data.known "f:src=ab" ∧
      '"' :: typed "f:src=ab" 8 <+: ("\"ab\":" : Text) := by
  have htool : (Tool.failing oneFilter fun _ _ => none).Spelled (fun _ => True) ('=' ∉ ·) := by
    intro past q a ha
    cases q <;> cases ha <;> simp [Query.Spelled, oneFilter]
  have hfound : unquoted.1 = .ok unquotedFound := by decide +kernel
  have hserved : (complete (.failing oneFilter fun _ _ => none) (.fixed oneFile) "f:src=ab"
      8).result {} = (.ok unquotedFound, unquoted.2) := by
    change unquoted = _
    rw [← hfound]
  obtain ⟨-, hextends⟩ := complete_extends_typed htool SchemaData.spelled_empty hserved
  rcases hextends "\"ab\":" (by decide +kernel) with
    h | ⟨word, hcontext, hstring, h⟩ | ⟨word, q, -, -, h, -⟩
  · exact absurd h (by decide)
  · cases hcontext
    exact ⟨hfound, hstring, h⟩
  · exact absurd h (by decide +kernel)

end Engine
end FilterLine
