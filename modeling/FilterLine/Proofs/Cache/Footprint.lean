import FilterLine.Proofs.Cache.Lookup

/-!
What an action asks the tool. The queries that it issues are judged by the data that it leaves, be it
that it succeeds or that a query fails: nothing is dropped from data that is current, so what the data
allowed on the way is still allowed at the end.
-/
namespace FilterLine

/-- Whether it is left to the tool to answer a query. An argument that is declared otherwise than as
an enumeration is not asked about. -/
def Query.Due (d : SchemaData) : Query → Prop
  | .argument f a => ∃ specs, d.args.get? f = some specs ∧
      ∀ spec ∈ specs.find? (·.name == a), spec.kind = .enum
  | _ => True

/-- Whether what some data allows is allowed by all data that answers more. -/
def Grows (allowed : SchemaData → Query → Prop) : Prop :=
  ∀ d d' q, d.Extends d' → allowed d q → allowed d' q

/-- Whether a session goes on to another in which no query is added but that for the version and, once
the data is current, queries that it allows. -/
def Issues (allowed : SchemaData → Query → Prop) (s s' : Session) : Prop :=
  ∃ issued, s'.queries = s.queries ++ issued ∧
    ∀ q ∈ issued, q = .version ∨ s'.Current ∧ allowed s'.data q

variable {tool : Tool} {may : Query → Prop} {allowed : SchemaData → Query → Prop}
  {s s' s'' : Session}

/-- A query that is left to the tool stays so when more is known. -/
theorem Query.Due.extends {d d' : SchemaData} {q : Query} (h : q.Due d) (hextends : d.Extends d') :
    q.Due d' := by
  cases q with
  | argument f a =>
    obtain ⟨specs, hspecs, hkind⟩ := h
    exact ⟨specs, hextends.answers (.filterArgs f) specs hspecs, hkind⟩
  | _ => trivial

/-- A query that may be asked is left to the tool. -/
theorem Session.MayAsk.due {q : Query} (h : s.MayAsk q) : q.Due s.data := by
  cases q with
  | argument f a => exact h.2.2
  | _ => trivial

namespace Issues

theorem of_queries (h : s'.queries = s.queries) : Issues allowed s s' :=
  ⟨[], by rw [h, List.append_nil], by simp⟩

theorem of_asked {q : Query} (h : s'.queries = s.queries ++ [q])
    (hq : q = .version ∨ s'.Current ∧ allowed s'.data q) : Issues allowed s s' := by
  refine ⟨[q], h, fun q' hq' => ?_⟩
  rw [List.mem_singleton.mp hq']
  exact hq

theorem refl : Issues allowed s s := of_queries rfl

/-- What was allowed stays so as long as current data is only added to. -/
theorem trans (hgrows : Grows allowed) (h : Issues allowed s s')
    (hkept : s'.Current → s''.Current ∧ s'.data.Extends s''.data) (h' : Issues allowed s' s'') :
    Issues allowed s s'' := by
  obtain ⟨issued, hqueries, hall⟩ := h
  obtain ⟨issued', hqueries', hall'⟩ := h'
  refine ⟨issued ++ issued', by rw [hqueries', hqueries, List.append_assoc], fun q hq => ?_⟩
  cases List.mem_append.mp hq with
  | inl hq =>
    apply (hall q hq).imp_right
    intro hq
    obtain ⟨hcurrent, hextends⟩ := hkept hq.1
    exact ⟨hcurrent, hgrows _ _ q hextends hq.2⟩
  | inr hq => exact hall' q hq

/-- What was allowed stays allowed where more is. -/
theorem mono {allowed' : SchemaData → Query → Prop} (h : Issues allowed s s')
    (hallowed : ∀ q, allowed s'.data q → allowed' s'.data q) : Issues allowed' s s' := by
  obtain ⟨issued, hqueries, hall⟩ := h
  exact ⟨issued, hqueries, fun q hq => (hall q hq).imp_right (And.imp_right (hallowed q))⟩

end Issues

theorem grows_due : Grows fun d q => may q ∧ q.Due d :=
  fun _ _ _ hextends h => ⟨h.1, h.2.extends hextends⟩

/-- A step that succeeds issues at most one query, which is due. -/
theorem Gain.issues (h : Gain tool may s s') : Issues (fun d q => may q ∧ q.Due d) s s' := by
  cases h with
  | told _ _ => exact .of_asked (s.queries_told _) (.inl rfl)
  | @learned q a hmay hq hask _ =>
    have hextends := SchemaData.extends_learn hask.missing a
    exact .of_asked (by simp) (.inr ⟨hask.current hq, hmay, hask.due.extends hextends⟩)
  | _ => exact .of_queries (by simp)

/-- Steps that succeed ask what they may, and only where the tool has to answer. -/
theorem Gains.issues (h : Gains tool may s s') : Issues (fun d q => may q ∧ q.Due d) s s' := by
  induction h with
  | refl => exact .refl
  | tail _ hstep ih => exact ih.trans grows_due hstep.extends hstep.issues

/-- A query that fails is one that may be asked and that the tool has to answer. -/
theorem Refused.issues {e : ToolError} (h : Refused tool may e s s') :
    Issues (fun d q => may q ∧ q.Due d) s s' := by
  obtain ⟨hmay, hask, -⟩ := h
  rename_i q
  apply Issues.of_asked (s.queries_noted q)
  by_cases hq : q = .version
  · exact .inl hq
  · exact .inr ⟨hask.current hq, hmay.resolve_left hq, hask.due⟩

namespace Act

variable {α β : Type} {x : Act α} {Q : α → Session → Prop}

/-- Whether an action, from a session on, asks no more than what is allowed by the data it leaves, and
drops no current data. -/
structure Asks (allowed : SchemaData → Query → Prop) (x : Act α) (s : Session) : Prop where
  issues : Issues allowed s (x.result s).2
  kept : s.Current → (x.result s).2.Current ∧ s.data.Extends (x.result s).2.data

theorem asks_of_queries (hqueries : (x.result s).2.queries = s.queries)
    (hcache : (x.result s).2.cache = s.cache) : Asks allowed x s where
  issues := .of_queries hqueries
  kept hs := by
    simp only [Session.Current, Session.live, Session.version, Session.data, hcache]
    exact ⟨hs, .refl _⟩

theorem asks_pure (a : α) : Asks allowed (pure a) s := asks_of_queries rfl rfl

/-- An action goes on asking where the one before it has succeeded. -/
theorem Asks.bind (hgrows : Grows allowed) {f : α → Act β} (hx : Asks allowed x s)
    (hf : ∀ a s', x.result s = (.ok a, s') → Asks allowed (f a) s') : Asks allowed (x >>= f) s := by
  rcases hresult : x.result s with ⟨r, s'⟩
  obtain ⟨hissues, hkept⟩ := hx
  rw [hresult] at hissues hkept
  cases r with
  | error e =>
    have hbind : (x >>= f).result s = _ := result_bind_error hresult f
    constructor
    · rw [hbind]
      exact hissues
    · rw [hbind]
      exact hkept
  | ok a =>
    have hbind : (x >>= f).result s = _ := result_bind_ok hresult f
    obtain ⟨hissues', hkept'⟩ := hf a s' hresult
    constructor
    · rw [hbind]
      exact hissues.trans hgrows hkept' hissues'
    · intro hs
      obtain ⟨hcurrent, hextends⟩ := hkept hs
      obtain ⟨hcurrent', hextends'⟩ := hkept' hcurrent
      rw [hbind]
      exact ⟨hcurrent', hextends.trans hextends'⟩

/-- An action that is made of steps asks what these may ask and is due by the data that is left. -/
theorem Leads.asks (h : Leads tool may x s Q)
    (hallowed : ∀ d q, (s.Current → s.data.Extends d) → may q → q.Due d → allowed d q) :
    Asks allowed x s := by
  obtain ⟨hissues, hkept⟩ : Issues (fun d q => may q ∧ q.Due d) s (x.result s).2 ∧
      (s.Current → (x.result s).2.Current ∧ s.data.Extends (x.result s).2.data) := by
    unfold Leads at h
    rcases hresult : x.result s with ⟨r, s'⟩
    rw [hresult] at h
    cases r with
    | ok a => exact ⟨h.1.issues, h.1.extends⟩
    | error e =>
      obtain ⟨s₁, hgains, hrefused⟩ := h
      have hlast : s₁.Current → s'.Current ∧ s₁.data.Extends s'.data :=
        (Move.refused hrefused).extends
      refine ⟨hgains.issues.trans grows_due hlast hrefused.issues, fun hs => ?_⟩
      obtain ⟨hcurrent, hextends⟩ := hgains.extends hs
      exact ⟨(hlast hcurrent).1, hextends.trans (hlast hcurrent).2⟩
  refine ⟨hissues.mono fun q hq => ?_, hkept⟩
  exact hallowed _ q (fun hs => (hkept hs).2) hq.1 hq.2

end Act
end FilterLine
