import FilterLine.Completion.Engine
import FilterLine.Proofs.Cache.Footprint
import FilterLine.Proofs.Completion.Questions

/-!
What a request asks the tool. The context tells what may be asked at all; for a filter more is asked
only when it is among those that the tool lists, and about an argument only when the first declaration
of its name is an enumeration. This holds whatever is remembered before the request, whatever the tool
answers, and also of a request that fails.
-/
namespace FilterLine

def SchemaData.Knows (d : SchemaData) (filter : Text) : Prop := ∃ l ∈ d.filters, filter ∈ l

def SchemaData.Enumerates (d : SchemaData) (filter argument : Text) : Prop :=
  ∃ specs ∈ d.args.get? filter, ∃ spec ∈ specs.find? (·.name == argument), spec.kind = .enum

/-- The queries that completion in a context may issue, told by the data that it leaves. A flag is
completed without any. -/
inductive Context.Allows (d : SchemaData) : Context → Query → Prop where
  | version {c : Context} : (∀ word, c ≠ .flag word) → Allows d c .version
  | modules {word : Text} : Allows d (.moduleName word) .modules
  | links {word : Text} : Allows d (.linkedFilter word) .filters
  | start : Allows d .start .filters
  | props {word : Text} : Allows d (.property word) .props
  | input {word : Text} : Allows d (.inputEndpoint word) .protocols
  | output {word : Text} : Allows d (.outputEndpoint word) .protocols
  | topics {word : Text} : Allows d (.helpTopic word) .filters
  | help {word : Text} : d.Knows (Text.beforeFirst '.' word) →
      Allows d (.helpTopic word) (.filterArgs (Text.beforeFirst '.' word))
  | clause {word : Text} {q : Bool} : Allows d (.filterClause word q) .filters
  /-- What a filter declares. -/
  | declared {word filter : Text} {q : Bool} {options : List Text} :
      Line.segments word = filter :: options → d.Knows filter →
      Allows d (.filterClause word q) (.filterArgs filter)
  /-- The literals of an enumeration, when there is an option. -/
  | literals {word filter argument : Text} {q : Bool} {options : List Text} :
      Line.segments word = filter :: options → d.Knows filter → options ≠ [] →
      d.Enumerates filter argument → Allows d (.filterClause word q) (.argument filter argument)
  /-- The properties, when the last option names one. -/
  | referenced {word filter last : Text} {q : Bool} {options : List Text} :
      Line.segments word = filter :: options → d.Knows filter → options.getLast? = some last →
      last.head? = some '#' → '=' ∉ last → Allows d (.filterClause word q) .props

namespace SchemaData

variable {d d' : SchemaData} {filter argument : Text}

/-- A filter that is remembered is not forgotten when more is learned. -/
theorem Knows.extends (h : d.Knows filter) (hextends : d.Extends d') : d'.Knows filter := by
  obtain ⟨l, hl, hfilter⟩ := h
  exact ⟨l, hextends.answers .filters l hl, hfilter⟩

theorem Enumerates.extends (h : d.Enumerates filter argument) (hextends : d.Extends d') :
    d'.Enumerates filter argument := by
  obtain ⟨specs, hspecs, hkind⟩ := h
  exact ⟨specs, hextends.answers (.filterArgs filter) specs hspecs, hkind⟩

end SchemaData

/-- What a context allows is allowed by all data that answers more. -/
theorem Context.grows_allows (c : Context) : Grows fun d q => c.Allows d q := by
  intro d d' q hextends h
  cases h with
  | help hknows => exact .help (hknows.extends hextends)
  | declared hword hknows => exact .declared hword (hknows.extends hextends)
  | literals hword hknows hne henum =>
    exact .literals hword (hknows.extends hextends) hne (henum.extends hextends)
  | referenced hword hknows hlast hhead hname =>
    exact .referenced hword (hknows.extends hextends) hlast hhead hname
  | version hflag => exact .version hflag
  | _ => constructor

namespace Inquiry

variable {m : Type → Type} [Monad m] [LawfulMonad m] {α β : Type}

theorem run_question (answer : (q : Question) → m q.Answer) (q : Question) :
    (question q).run answer = answer q := by
  simp [question, run]

theorem run_bind (answer : (q : Question) → m q.Answer) (x : Inquiry α) (f : α → Inquiry β) :
    (x >>= f).run answer = x.run answer >>= fun a => (f a).run answer := by
  change (x.bind f).run answer = _
  induction x with
  | done a => simp [Inquiry.bind, run]
  | ask q next ih => simp [Inquiry.bind, run, ih]

end Inquiry

namespace Engine

open Act Inquiry

variable {tool : Tool} {paths : PathSource} {allowed : SchemaData → Query → Prop} {s s' : Session}
  {α β : Type}

abbrev Asks (tool : Tool) (paths : PathSource) (allowed : SchemaData → Query → Prop)
    (x : Inquiry α) (s : Session) : Prop := Act.Asks allowed (x.run (answer tool paths)) s

theorem asks_done (a : α) : Asks tool paths allowed (pure a) s := asks_pure a

/-- A computation asks no more than is allowed if its first part and what follows it do not. -/
theorem Asks.next (hgrows : Grows allowed) {x : Inquiry α} {f : α → Inquiry β}
    (hx : Asks tool paths allowed x s)
    (hf : ∀ a s', (x.run (answer tool paths)).result s = (.ok a, s') →
      Asks tool paths allowed (f a) s') : Asks tool paths allowed (x >>= f) s := by
  rw [Asks, run_bind]
  exact hx.bind hgrows hf

theorem asks_paths (start : Text) : Asks tool paths allowed (question (.paths start)) s := by
  rw [Asks, run_question]
  have hresult : (∃ found, (answer tool paths (.paths start)).result s = (.ok found, s)) ∨
      ∃ directory e, (answer tool paths (.paths start)).result s =
        (.ok [], s.noted (.unlisted directory e)) := by
    rw [answer, result_bind_ok (result_get s)]
    cases paths s.journal start with
    | ok found => exact .inl ⟨found, rfl⟩
    | error failure => exact .inr ⟨failure.1, failure.2, rfl⟩
  obtain ⟨found, hresult⟩ | ⟨directory, e, hresult⟩ := hresult
  · apply asks_of_queries <;> rw [hresult]
  · apply asks_of_queries
    · rw [hresult]
      simp [Session.queries, Session.noted, Event.query?]
    · rw [hresult]
      rfl

/-- A question about the tool asks what its accessor needs. -/
theorem asks_question {q : Question} {l : Lookup} (hq : q.lookup? = some l)
    (hallowed : ∀ d query, (s.Current → s.data.Extends d) → l.Needs query → query.Due d →
      allowed d query) : Asks tool paths allowed (question q) s := by
  rw [Asks, run_question]
  cases q <;> cases hq <;> exact (Lookup.leads_act _ (fun _ h => h) s).asks hallowed

section Clause

variable {word filter : Text} {quoted : Bool} {options : List Text} {specs : List ArgumentSpec}

/-- A value is completed with what is told about an argument whose declaration is known. -/
theorem asks_valueCandidates {spec : ArgumentSpec} (hword : Line.segments word = filter :: options)
    (hne : options ≠ []) (hs : s.Current) (hknows : s.data.Knows filter)
    (hspecs : s.data.args.get? filter = some specs)
    (hspec : specs.find? (·.name == spec.name) = some spec) (value : Text) (q : Bool) :
    Asks tool paths (fun d query => (Context.filterClause word quoted).Allows d query)
      (valueCandidates filter spec value q) s := by
  apply Asks.next (Context.grows_allows _)
  · apply asks_question (l := .argument filter spec.name) rfl
    intro d query hextends hneeds hdue
    have hextends := hextends hs
    cases hneeds with
    | inl heq => exact heq ▸ .declared hword (hknows.extends hextends)
    | inr heq =>
      subst heq
      obtain ⟨specs', hspecs', hkind⟩ := hdue
      have hsame := hextends.answers (.filterArgs filter) specs hspecs
      cases hspecs'.symm.trans hsame
      exact .literals hword (hknows.extends hextends) hne
        ⟨specs, hsame, spec, hspec, hkind spec hspec⟩
  · intro detail s' _
    cases detail.kind.getD spec.kind with
    | str | cstr =>
      by_cases hsource : spec.name = sourceArgument
      · simp only [if_pos hsource]
        exact (asks_paths _).next (Context.grows_allows _) fun _ _ _ => asks_done _
      · simp only [if_neg hsource]
        exact asks_done _
    | _ => exact asks_done _

/-- The properties are only asked for when the option has no value. -/
theorem asks_propertyCandidates {text : Text} (hword : Line.segments word = filter :: options)
    (hs : s.Current) (hknows : s.data.Knows filter) (hlast : options.getLast? = some ('#' :: text))
    (earlier : List Text) :
    Asks tool paths (fun d query => (Context.filterClause word quoted).Allows d query)
      (propertyCandidates text earlier) s := by
  unfold propertyCandidates
  split
  · exact asks_done _
  · rename_i hcut
    have hname : '=' ∉ '#' :: text := by simpa using Text.cutFirst?_eq_none.mp hcut
    refine Asks.next (Context.grows_allows _) ?_ fun _ _ _ => asks_done _
    apply asks_question (l := .props) rfl
    intro d query hextends hneeds _
    cases hneeds
    exact .referenced hword (hknows.extends (hextends hs)) hlast rfl hname

/-- The last option needs the detail of one argument, or the properties. -/
theorem asks_lastOption {shorthands : List EnumShorthand}
    (hword : Line.segments word = filter :: options) (hne : options ≠ []) (hs : s.Current)
    (hknows : s.data.Knows filter) (hspecs : s.data.args.get? filter = some specs) (q : Bool) :
    Asks tool paths (fun d query => (Context.filterClause word quoted).Allows d query)
      (Clause.lastOption ⟨filter, options, specs, shorthands⟩ q) s := by
  unfold Clause.lastOption
  split
  · exact asks_done _
  · exact asks_done _
  · rename_i text hlast
    exact asks_propertyCandidates hword hs hknows hlast _
  · split
    · exact asks_done _
    · split
      · rename_i name value _
        split
        · rename_i spec hspec
          have hname : spec.name = name := by simpa using List.find?_some hspec
          exact asks_valueCandidates hword hne hs hknows hspecs (hname ▸ hspec) value q
        · exact asks_done _
      · exact asks_done _

/-- The shorthands of a filter need the literals of the enumerations among what it declares. An
argument has a first declaration, which tells whether it is one. -/
theorem asks_shorthands (hword : Line.segments word = filter :: options) (hne : options ≠ [])
    (hs : s.Current) (hknows : s.data.Knows filter)
    (hspecs : s.data.args.get? filter = some specs) :
    Asks tool paths (fun d query => (Context.filterClause word quoted).Allows d query)
      (question (.shorthands filter)) s := by
  rw [Asks, run_question]
  let may (query : Query) : Prop := query = .filterArgs filter ∨
    ∃ spec ∈ SchemaData.enums specs, query = .argument filter spec.name
  have hleads : Leads tool may (Cache.shorthands tool filter) s _ :=
    Cache.leads_shorthands_declared hs hspecs (.inl rfl) fun spec hspec => .inr ⟨spec, hspec, rfl⟩
  apply hleads.asks
  intro d query hextends hmay hdue
  have hextends := hextends hs
  rcases hmay with rfl | ⟨spec, hspec, rfl⟩
  · exact .declared hword (hknows.extends hextends)
  · obtain ⟨specs', hspecs', hkind⟩ := hdue
    have hsame := hextends.answers (.filterArgs filter) specs hspecs
    cases hspecs'.symm.trans hsame
    obtain ⟨first, hfirst⟩ : ∃ first, specs.find? (·.name == spec.name) = some first := by
      rw [← Option.isSome_iff_exists, List.find?_isSome]
      exact ⟨spec, (List.mem_filter.mp hspec).1, by simp⟩
    exact .literals hword (hknows.extends hextends) hne
      ⟨specs, hsame, first, hfirst, hkind first hfirst⟩

/-- A clause needs the filters, and then what its filter declares. -/
theorem asks_clauseCandidates (word : Text) (quoted q : Bool) :
    Asks tool paths (fun d query => (Context.filterClause word quoted).Allows d query)
      (clauseCandidates word q) s := by
  have hgrows := (Context.filterClause word quoted).grows_allows
  unfold clauseCandidates
  split
  · exact asks_done _
  · rename_i filter options hword
    have hfilters : Asks tool paths
        (fun d query => (Context.filterClause word quoted).Allows d query) (question .filters) s := by
      apply asks_question (l := .filters) rfl
      intro d query _ hneeds _
      cases hneeds
      exact .clause
    apply hfilters.next hgrows
    intro filters s₁ h₁
    rw [run_question] at h₁
    obtain ⟨-, hcurrent₁, hknown⟩ := Lookup.act_ok (l := .filters) (fun _ _ => trivial) h₁
    by_cases hfilter : filter ∈ filters
    · rw [if_neg (not_not_intro hfilter)]
      have hknows₁ : s₁.data.Knows filter := ⟨filters, hknown, hfilter⟩
      have hdeclared : Asks tool paths
          (fun d query => (Context.filterClause word quoted).Allows d query)
          (question (.filterArgs filter)) s₁ := by
        apply asks_question (l := .filterArgs filter) rfl
        intro d query hextends hneeds _
        cases hneeds
        exact .declared hword (hknows₁.extends (hextends hcurrent₁))
      have hkept₁ := hdeclared.kept hcurrent₁
      apply hdeclared.next hgrows
      intro specs s₂ h₂
      rw [h₂] at hkept₁
      rw [run_question] at h₂
      obtain ⟨-, hcurrent₂, hspecs⟩ :=
        Lookup.act_ok (l := .filterArgs filter) (fun _ _ => trivial) h₂
      have hknows₂ := hknows₁.extends hkept₁.2
      by_cases hoptions : options.isEmpty = true
      · rw [if_pos hoptions]
        exact asks_done _
      · rw [if_neg hoptions]
        have hne : options ≠ [] := by simpa using hoptions
        have hshorthands : Asks tool paths
            (fun d query => (Context.filterClause word quoted).Allows d query)
            (question (.shorthands filter)) s₂ :=
          asks_shorthands hword hne hcurrent₂ hknows₂ hspecs
        have hkept₂ := hshorthands.kept hcurrent₂
        apply hshorthands.next hgrows
        intro shorthands s₃ h₃
        rw [h₃] at hkept₂
        obtain ⟨hcurrent₃, hextends⟩ := hkept₂
        exact asks_lastOption hword hne hcurrent₃ (hknows₂.extends hextends)
          (hextends.answers (.filterArgs filter) specs hspecs) q
    · rw [if_pos hfilter]
      exact asks_done _

end Clause

/-- Help needs the filters, and the arguments of one that is named. -/
theorem asks_helpCandidates (word : Text) :
    Asks tool paths (fun d query => (Context.helpTopic word).Allows d query)
      (helpCandidates word) s := by
  have hgrows := (Context.helpTopic word).grows_allows
  have hfilters : Asks tool paths (fun d query => (Context.helpTopic word).Allows d query)
      (question .filters) s := by
    apply asks_question (l := .filters) rfl
    intro d query _ hneeds _
    cases hneeds
    exact .topics
  apply hfilters.next hgrows
  intro filters s₁ h₁
  rw [run_question] at h₁
  obtain ⟨-, hcurrent, hknown⟩ := Lookup.act_ok (l := .filters) (fun _ _ => trivial) h₁
  by_cases hfilter : Text.beforeFirst '.' word ∈ filters
  · simp only [if_pos hfilter]
    have hknows : s₁.data.Knows (Text.beforeFirst '.' word) := ⟨filters, hknown, hfilter⟩
    apply Asks.next hgrows
    · apply asks_question (l := .filterArgs _) rfl
      intro d query hextends hneeds _
      cases hneeds
      exact .help (hknows.extends (hextends hcurrent))
    · intro specs s₂ _
      split <;> exact asks_done _
  · simp only [if_neg hfilter]
    exact asks_done _

/-- An endpoint needs the protocols. -/
theorem asks_endpointCandidates {c : Context} (h : ∀ d, c.Allows d .protocols)
    (usable : Protocol → Bool) (start : Text) :
    Asks tool paths (fun d query => c.Allows d query) (endpointCandidates usable start) s := by
  apply Asks.next c.grows_allows
  · apply asks_question (l := .protocols) rfl
    intro d query _ hneeds _
    cases hneeds
    exact h d
  · intro protocols s₁ _
    exact (asks_paths start).next c.grows_allows fun _ _ _ => asks_done _

/-- A context is completed with the queries that it allows, besides that for the version. -/
theorem asks_candidates (tool : Tool) (paths : PathSource) (c : Context) (s : Session) :
    Asks tool paths (fun d query => c.Allows d query) c.candidates s := by
  have hone : ∀ {q : Question} {l : Lookup} {f : q.Answer → List Text}, q.lookup? = some l →
      (∀ d query, l.Needs query → c.Allows d query) →
      Asks tool paths (fun d query => c.Allows d query) (question q >>= fun a => pure (f a)) s :=
    fun hq hneeds => (asks_question hq fun d query _ h _ => hneeds d query h).next c.grows_allows
      fun _ _ _ => asks_done _
  cases c with
  | moduleName word => exact hone (l := .modules) rfl fun _ _ h => h ▸ .modules
  | linkedFilter word => exact hone (l := .filters) rfl fun _ _ h => h ▸ .links
  | property word => exact hone (l := .props) rfl fun _ _ h => h ▸ .props
  | start => exact hone (l := .filters) rfl fun _ _ h => h ▸ .start
  | helpTopic word => exact asks_helpCandidates word
  | inputEndpoint word => exact asks_endpointCandidates (fun _ => .input) _ word
  | outputEndpoint word => exact asks_endpointCandidates (fun _ => .output) _ word
  | flag word => exact asks_done _
  | filterClause word quoted =>
    apply (asks_clauseCandidates word quoted quoted).next (Context.grows_allows _)
    intro found s₁ _
    cases found with
    | cons c found => exact asks_done _
    | nil =>
      apply Asks.next (Context.grows_allows _)
      · apply asks_question (l := .filters) rfl
        intro d query _ hneeds _
        cases hneeds
        exact .clause
      · exact fun _ _ _ => asks_done _

/-- Whatever is remembered, whatever the tool answers and whether the request succeeds or fails, it
issues only queries that its context allows. -/
theorem complete_asks (tool : Tool) (paths : PathSource) (line : Text) (cursor : Nat)
    (s : Session) :
    let s' := ((complete tool paths line cursor).result s).2
    ∃ issued, s'.queries = s.queries ++ issued ∧
      ∀ q ∈ issued, (Context.ofCursor line cursor).Allows s'.data q := by
  intro s'
  by_cases hflag : ∃ word, Context.ofCursor line cursor = .flag word
  · obtain ⟨word, hcontext⟩ := hflag
    have hsame : s' = s := by
      simp only [s', complete, candidates, hcontext]
      rfl
    exact ⟨[], by rw [hsame, List.append_nil], by simp⟩
  · obtain ⟨issued, hqueries, hall⟩ :=
      (asks_candidates tool paths (Context.ofCursor line cursor) s).issues
    refine ⟨issued, hqueries, fun q hq => ?_⟩
    cases hall q hq with
    | inl hversion =>
      rw [hversion]
      exact .version fun word hcontext => hflag ⟨word, hcontext⟩
    | inr hallowed => exact hallowed.2

end Engine
end FilterLine
