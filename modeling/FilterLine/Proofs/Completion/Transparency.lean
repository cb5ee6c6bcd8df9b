import FilterLine.Proofs.Cache.History
import FilterLine.Proofs.Completion.Requests

/-!
Requests to a tool whose answers do not change but which may fail at any time. What is remembered is
right after any requests, even if they failed midway, so a request that succeeds gives what a first
one would have given had nothing failed; and it succeeds just when none of its own queries fails.
-/
namespace FilterLine

def Reply.answer (r : Reply) (offers : Text → List Text) : (q : Question) → q.Answer
  | .filters => r .filters
  | .modules => r .modules
  | .props => r .props
  | .protocols => r .protocols
  | .filterArgs f => r (.filterArgs f)
  | .argument f a => r.detail f a
  | .shorthands f => r.shorthands f
  | .paths start => offers start

variable {r : Reply} {fails : List Query → Query → Option ToolError} {s s' : Session}

/-- Sound data answers rightly what it settles. -/
theorem SchemaData.Sound.answer {d : SchemaData} (h : d.Sound r) {q : Question}
    (hq : ∀ f ∈ q.filter?, '.' ∉ f) (hsettles : d.Settles q) (offers : Text → List Text) :
    r.answer offers q = d.answer offers q := by
  cases q with
  | paths start => rfl
  | _ =>
    obtain ⟨v, hv⟩ := Option.isSome_iff_exists.mp (hsettles _ rfl)
    have hvalue := h.known? (Question.plain_of_filter? hq rfl) hv
    simp only [Lookup.known?] at hv
    simp only [SchemaData.answer, hv, Option.getD_some]
    exact hvalue.symm

/-- A step that concerns no filter with a dot in its name keeps sound data sound. -/
theorem Gain.sound (h : Gain (.failing r fails) Query.Plain s s') (hs : s.data.Sound r) :
    s'.data.Sound r := by
  cases h with
  | told _ _ => exact hs
  | reset _ _ => exact SchemaData.sound_empty r
  | @learned q a hq _ hask ha =>
    rw [Session.stored_data, Tool.failing_ok ha, ← kept_of_mayAsk hs hq hask]
    exact hs.learn hq
  | declared hf _ _ hspecs hfind hkind =>
    rw [Session.stored_data, ← kept_of_declared hs hf hspecs hfind hkind]
    exact hs.learn hf
  | derived hf _ _ hspecs hdetailed => exact hs.derive hf hspecs hdetailed

/-- Whether no list of filters but the right one is remembered. -/
def SchemaData.ListsRightly (r : Reply) (d : SchemaData) : Prop := ∀ l ∈ d.filters, l = r .filters

/-- Whatever the names of the filters, the list of them is right. -/
theorem Gain.listsRightly {may : Query → Prop} (h : Gain (.failing r fails) may s s')
    (hs : s.data.ListsRightly r) : s'.data.ListsRightly r := by
  cases h with
  | @learned q a _ _ _ ha =>
    rw [Tool.failing_ok ha]
    cases q with
    | filters =>
      intro l hl
      cases hl
      rfl
    | _ => exact hs
  | reset _ _ =>
    intro l hl
    cases hl
  | _ => exact hs

namespace Engine

open PathSource

variable {reply : Text → Except (Text × FileError) (List Text)} {line : Text} {cursor : Nat}
  {outcome : Except ToolError (List Text)}

/-- A request concerns only filters that the tool lists. -/
theorem plain_of_listsRightly (hlisted : ∀ f ∈ r .filters, '.' ∉ f) {d : SchemaData}
    (hd : d.ListsRightly r) {q : Question}
    (hq : q ∈ (candidates line cursor).questions (d.answer (offers reply))) :
    ∀ f ∈ q.filter?, '.' ∉ f := by
  intro f hf
  have hmem : f ∈ d.filters.getD [] := asksListed_candidates line cursor q hq f hf
  cases hfilters : d.filters with
  | none =>
    rw [hfilters] at hmem
    exact absurd hmem List.not_mem_nil
  | some l =>
    rw [hfilters] at hmem
    rw [hd l hfilters] at hmem
    exact hlisted f hmem

/-- A request leaves sound data sound, and what it leads to concerns no filter with a dot in its
name. -/
theorem complete_leads (hlisted : ∀ f ∈ r .filters, '.' ∉ f) (hs : s.data.Sound r)
    (h : (complete (.failing r fails) (.fixed reply) line cursor).result s = (outcome, s')) :
    s'.data.Sound r ∧ Leads (.failing r fails) Query.Plain (offers reply)
      (candidates line cursor) s s' outcome := by
  have hany := run_leads (fun _ => True) _ h fun _ _ _ _ _ _ => trivial
  have hright : s'.data.ListsRightly r :=
    hany.preserve (fun _ _ hs hgain => hgain.listsRightly hs) hs.filters
  have hleads := run_leads Query.Plain _ h fun q hq l hl query hquery =>
    (Question.plain_of_filter? (plain_of_listsRightly hlisted hright hq) hl).needs hquery
  exact ⟨hleads.preserve (fun _ _ hs hgain => hgain.sound hs) hs, hleads⟩

/-- What a request gives that succeeds is determined by the right answers alone. -/
theorem complete_eq (hlisted : ∀ f ∈ r .filters, '.' ∉ f) (hs : s.data.Sound r)
    {found : List Text}
    (h : (complete (.failing r fails) (.fixed reply) line cursor).result s = (.ok found, s')) :
    found = (candidates line cursor).eval (r.answer (offers reply)) := by
  obtain ⟨hsound, -, hfound, hsettles⟩ := complete_leads hlisted hs h
  rw [hfound]
  refine (Inquiry.eval_congr fun q hq => ?_).symm
  exact hsound.answer (plain_of_listsRightly hlisted hsound.filters hq) (hsettles q hq) _

variable (reply line cursor) in
/-- A request fails only with the error of a query that failed. -/
theorem complete_ok (hlisted : ∀ f ∈ r .filters, '.' ∉ f) (hs : s.data.Sound r) :
    ∃ s', (complete (.failing r fun _ _ => none) (.fixed reply) line cursor).result s =
      (.ok ((candidates line cursor).eval (r.answer (offers reply))), s') := by
  rcases h : (complete (.failing r fun _ _ => none) (.fixed reply) line cursor).result s with
    ⟨outcome, s'⟩
  cases outcome with
  | ok found => exact ⟨s', by rw [complete_eq hlisted hs h]⟩
  | error e =>
    obtain ⟨-, s₁, -, hrefused⟩ := complete_leads hlisted hs h
    obtain ⟨-, -, he⟩ := hrefused
    exact nomatch Tool.failing_error he

/-- Requests learn right answers only. -/
theorem sound_serve (hlisted : ∀ f ∈ r .filters, '.' ∉ f) (requests : List (Text × Nat))
    (hs : s.data.Sound r) :
    (serve (.failing r fails) (.fixed reply) requests s).data.Sound r := by
  refine serve_preserve (P := fun s => s.data.Sound r) (fun s line cursor hs => ?_) requests hs
  exact (complete_leads hlisted hs rfl).1

section Failing

variable {past asked before after : List Query} {q q' : Query} {e : ToolError}

/-- A query that is answered does not fail. -/
theorem not_fails_of_answersAll (h : (Tool.failing r fails).AnswersAll past asked)
    (heq : asked = before ++ q :: after) : fails (past ++ before) q ≠ some e := by
  intro he
  obtain ⟨a, ha⟩ := h before q after heq
  simp [Tool.failing, he] at ha

/-- Of queries that are answered but for the last one, no other fails. -/
theorem last_of_fails (h : (Tool.failing r fails).AnswersAll past asked)
    (heq : asked ++ [q] = before ++ q' :: after) (he : fails (past ++ before) q' = some e) :
    before = asked ∧ q' = q ∧ after = [] := by
  rcases List.eq_nil_or_concat after with rfl | ⟨init, last, rfl⟩
  · obtain ⟨rfl, hq⟩ := List.append_inj' heq rfl
    exact ⟨rfl, (List.cons.inj hq).1.symm, rfl⟩
  · rw [List.concat_eq_append, ← List.cons_append, ← List.append_assoc] at heq
    obtain ⟨hinit, -⟩ := List.append_inj' heq rfl
    exact absurd he (not_fails_of_answersAll h hinit)

end Failing

variable (fails reply line cursor) in
/-- After any requests, whether they succeeded or failed midway, a request fails with an error just
when a query issued during it fails, which is then the last one and the error is its own; and a
request that succeeds gives exactly what it would give first of all if nothing ever failed. -/
theorem requests_transparent (hlisted : ∀ f ∈ r .filters, '.' ∉ f)
    (requests : List (Text × Nat)) :
    let s := serve (.failing r fails) (.fixed reply) requests {}
    let served := (complete (.failing r fails) (.fixed reply) line cursor).result s
    ∃ issued, served.2.queries = s.queries ++ issued ∧
      (∀ e, served.1 = .error e →
        ∃ before q, issued = before ++ [q] ∧ fails (s.queries ++ before) q = some e) ∧
      (∀ before q after e, issued = before ++ q :: after →
        fails (s.queries ++ before) q = some e → after = [] ∧ served.1 = .error e) ∧
      ∀ found, served.1 = .ok found →
        ((complete (.failing r fun _ _ => none) (.fixed reply) line cursor).result {}).1 =
          .ok found := by
  intro s served
  have hs : s.data.Sound r := sound_serve hlisted requests (SchemaData.sound_empty r)
  rcases h : served with ⟨outcome, s'⟩
  have hleads := (complete_leads hlisted hs h).2
  cases outcome with
  | ok found =>
    obtain ⟨issued, hissued, hall⟩ := Advances.answers hleads.1
    refine ⟨issued, hissued, fun e he => ?_, fun before q after e heq he => ?_,
      fun found' hfound => ?_⟩
    · cases he
    · exact absurd he (not_fails_of_answersAll hall heq)
    · cases hfound
      obtain ⟨s'', hfresh⟩ := complete_ok reply line cursor hlisted (s := {})
        (SchemaData.sound_empty r)
      rw [hfresh, complete_eq hlisted hs h]
  | error e =>
    obtain ⟨s₁, hadvances, hrefused⟩ := hleads
    obtain ⟨asked, hasked, hall⟩ := Advances.answers hadvances
    obtain ⟨-, -, he⟩ := hrefused
    rename_i q
    have hlast := Tool.failing_error he
    rw [hasked] at hlast
    refine ⟨asked ++ [q], ?_, fun e' he' => ?_, fun before q' after e' heq he' => ?_,
      fun found hfound => nomatch hfound⟩
    · rw [Session.queries_noted, hasked, List.append_assoc]
    · cases he'
      exact ⟨asked, q, rfl, hlast⟩
    · obtain ⟨rfl, rfl, rfl⟩ := last_of_fails hall heq he'
      cases hlast.symm.trans he'
      exact ⟨rfl, rfl⟩

/-- A tool with one filter that has an enumeration. -/
def oneFilter : Reply
  | .version => none
  | .filters => ["f"]
  | .modules | .props => []
  | .protocols => []
  | .filterArgs _ => [⟨"mode", .enum⟩, ⟨"src", .str⟩]
  | .argument _ _ => ⟨some .enum, ["fast", "slow"]⟩

def failsFourth (past : List Query) (_ : Query) : Option ToolError :=
  if past.length = 3 then some (.exit "tool" none) else none

theorem requests_transparent_again :
    let tool := Tool.failing oneFilter failsFourth
    let paths := PathSource.fixed fun _ => .ok []
    let s := serve tool paths [("f:", 2)] {}
    ((complete tool paths "f:" 2).result {}).1 = .error (.exit "tool" none) ∧
      ((complete tool paths "f:" 2).result s).1 =
        .ok [("mode" : Text), ("src" : Text), ("fast" : Text), ("slow" : Text)] ∧
      ((complete (.failing oneFilter fun _ _ => none) paths "f:" 2).result {}).1 =
        .ok [("mode" : Text), ("src" : Text), ("fast" : Text), ("slow" : Text)] := by
  intro tool paths s
  have hlisted : ∀ f ∈ oneFilter .filters, '.' ∉ f := by decide
  have hfound : ((complete tool paths "f:" 2).result s).1 = .ok _ := rfl
  obtain ⟨issued, -, -, -, hfresh⟩ := requests_transparent failsFourth (fun _ => .ok [])
    "f:" 2 hlisted [("f:", 2)]
  exact ⟨rfl, rfl, hfresh _ hfound⟩

end Engine
end FilterLine
