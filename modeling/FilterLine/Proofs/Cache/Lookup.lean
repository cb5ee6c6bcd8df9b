import FilterLine.Proofs.Cache.Act

/-!
The accessors together. Each is made of steps that succeed, up to a query that fails, and one that
succeeds leaves current data in which its answer is remembered; from then on it gives that answer
without doing anything.
-/
namespace FilterLine

inductive Lookup where
  | filters
  | modules
  | props
  | protocols
  | filterArgs (filter : Text)
  | argument (filter argument : Text)
  | shorthands (filter : Text)
  deriving DecidableEq, Repr

namespace Lookup

abbrev Answer : Lookup → Type
  | filters | modules | props => List Text
  | protocols => List Protocol
  | filterArgs _ => List ArgumentSpec
  | argument _ _ => ArgumentDetail
  | shorthands _ => List EnumShorthand

def act (tool : Tool) : (l : Lookup) → Act l.Answer
  | filters => Cache.filters tool
  | modules => Cache.modules tool
  | props => Cache.props tool
  | protocols => Cache.protocols tool
  | filterArgs f => Cache.filterArgs tool f
  | argument f a => Cache.argument tool f a
  | shorthands f => Cache.shorthands tool f

def known? : (l : Lookup) → SchemaData → Option l.Answer
  | filters, d => d.filters
  | modules, d => d.modules
  | props, d => d.props
  | protocols, d => d.protocols
  | filterArgs f, d => d.args.get? f
  | argument f a, d => d.details.get? (detailKey f a)
  | shorthands f, d => d.shorthands.get? f

/-- The queries an accessor may need besides the version. -/
def Needs : Lookup → Query → Prop
  | filters, q => q = .filters
  | modules, q => q = .modules
  | props, q => q = .props
  | protocols, q => q = .protocols
  | filterArgs f, q => q = .filterArgs f
  | argument f a, q => q = .filterArgs f ∨ q = .argument f a
  | shorthands f, q => q = .filterArgs f ∨ ∃ a, q = .argument f a

end Lookup

namespace Cache

open Act

variable {tool : Tool} {may : Query → Prop} {s : Session}

/-- An accessor that only asks one query. -/
theorem leads_query {q : Query} (hmay : may q) (hq : q ≠ .version)
    (hask : ∀ s' : Session, s'.Current → q.known? s'.data = none → s'.MayAsk q) :
    Leads tool may (fromMemory tool q.known? (ask tool q) q.learn) s fun a s' =>
      s'.Current ∧ q.known? s'.data = some a ∧
        (s.Current → s'.data = s.data ∨ s'.data = q.learn a s.data) := by
  refine leads_fromMemory (fun a s' hcurrent hsame ha => ?_) fun s' hcurrent hsame hnone => ?_
  · exact ⟨hcurrent, ha, fun hs => .inl (by rw [hsame hs])⟩
  · refine (leads_learn hmay hq (hask s' hcurrent hnone)).mono fun a s'' _ h => ?_
    exact ⟨h.1, h.2.1, fun hs => .inr (by rw [h.2.2, hsame hs])⟩

/-- An answer that is missing is asked for, and remembered from then on. -/
theorem leads_fetch {q : Query} (hmay : may q) (hq : q ≠ .version)
    (hask : ∀ s' : Session, s'.Current → q.known? s'.data = none → s'.MayAsk q) :
    Leads tool may (fromMemory tool q.known? (ask tool q) q.learn) s fun a s' =>
      s'.Current ∧ q.known? s'.data = some a :=
  (leads_query hmay hq hask).mono fun _ _ _ h => ⟨h.1, h.2.1⟩

/-- The arguments of a filter are remembered once they have been given, and of current data nothing
else is changed. -/
theorem leads_filterArgs {f : Text} (hmay : may (.filterArgs f)) :
    Leads tool may (filterArgs tool f) s fun specs s' =>
      s'.Current ∧ s'.data.args.get? f = some specs ∧
        (s.Current → s'.data.details = s.data.details ∧
          s'.data.shorthands = s.data.shorthands) := by
  refine (leads_query hmay (by simp) fun s' hs hnone => ⟨hs, hnone⟩).mono fun specs s' _ h => ?_
  refine ⟨h.1, h.2.1, fun hs => ?_⟩
  rcases h.2.2 hs with hdata | hdata
  · rw [hdata]
    exact ⟨rfl, rfl⟩
  · rw [hdata]
    exact ⟨rfl, rfl⟩

/-- The detail of an argument is remembered once it has been given. The tool is asked for it unless
the listing declares another type than an enumeration. -/
theorem leads_argument {f a : Text} (hargs : may (.filterArgs f)) (hmay : may (.argument f a)) :
    Leads tool may (argument tool f a) s fun detail s' =>
      s'.Current ∧ s'.data.details.get? (detailKey f a) = some detail ∧
        (s.Current → s'.data.shorthands = s.data.shorthands) := by
  refine leads_fromMemory (fun detail s' hcurrent hsame hdetail => ?_)
    fun s' hcurrent hsame hnone => ?_
  · exact ⟨hcurrent, hdetail, fun hs => by rw [hsame hs]⟩
  rw [bind_assoc]
  refine (leads_filterArgs hargs).bind fun specs s'' _ h => ?_
  obtain ⟨hcurrent', hspecs, hframe⟩ := h
  obtain ⟨hdetails, hshorthands⟩ := hframe hcurrent
  have hnone' : s''.data.details.get? (detailKey f a) = none := by
    rw [hdetails]
    exact hnone
  have hsame' : s.Current → s''.data.shorthands = s.data.shorthands := fun hs => by
    rw [hshorthands, hsame hs]
  have hasks : (∀ spec ∈ specs.find? (·.name == a), spec.kind = .enum) →
      Leads tool may (do
        let detail ← ask tool (.argument f a)
        remember fun d => { d with details := d.details.insert (detailKey f a) detail }
        pure detail) s'' fun detail s' =>
        s'.Current ∧ s'.data.details.get? (detailKey f a) = some detail ∧
          (s.Current → s'.data.shorthands = s.data.shorthands) := fun hkind =>
    (leads_learn hmay (by simp) ⟨hcurrent', hnone', specs, hspecs, hkind⟩).mono fun _ _ _ h =>
      ⟨h.1, h.2.1, fun hs => by rw [h.2.2]; exact hsame' hs⟩
  cases hfind : specs.find? (·.name == a) with
  | none => exact hasks (by simp [hfind])
  | some spec =>
    by_cases hkind : spec.kind = .enum
    · simp only [if_pos hkind]
      exact hasks (by simpa [hfind] using hkind)
    · simp only [if_neg hkind, pure_bind]
      refine leads_of_ok (result_bind_ok (result_remember _ s'') _) (.single (.declared hmay
        hcurrent' hnone' hspecs hfind hkind)) ⟨hcurrent', ?_, hsame'⟩
      exact (Table.get?_insert ..).trans (if_pos rfl)

/-- The details of some arguments, one after the other. Each stays remembered while the next ones
are fetched. -/
theorem leads_listed {f : Text} (hargs : may (.filterArgs f)) (specs : List ArgumentSpec)
    (hmay : ∀ spec ∈ specs, may (.argument f spec.name)) (hs : s.Current) :
    Leads tool may (specs.mapM fun spec => do
        pure (spec.name, (← argument tool f spec.name).values)) s fun listed s' =>
      s'.Current ∧ s'.data.shorthands = s.data.shorthands ∧
        (∀ spec ∈ specs, (s'.data.details.get? (detailKey f spec.name)).isSome) ∧
        listed = specs.map fun spec => (spec.name, s'.data.literals f spec.name) := by
  induction specs generalizing s with
  | nil => exact leads_pure ⟨hs, rfl, by simp, rfl⟩
  | cons spec specs ih =>
    rw [List.mapM_cons, bind_assoc]
    refine (leads_argument hargs (hmay spec List.mem_cons_self)).bind fun detail s' _ h => ?_
    obtain ⟨hcurrent, hdetail, hsame⟩ := h
    rw [pure_bind]
    have hrest := fun spec hspec => hmay spec (List.mem_cons_of_mem _ hspec)
    refine (ih hrest hcurrent).bind fun listed s'' hgains h => ?_
    obtain ⟨hcurrent', hsame', hdetails, hlisted⟩ := h
    have hdetail' : s''.data.details.get? (detailKey f spec.name) = some detail :=
      (hgains.extends hcurrent).2.answers (.argument f spec.name) detail hdetail
    refine leads_pure ⟨hcurrent', by rw [hsame', hsame hs], ?_, ?_⟩
    · simp only [List.mem_cons, forall_eq_or_imp]
      exact ⟨by rw [hdetail']; rfl, hdetails⟩
    · rw [hlisted, List.map_cons, SchemaData.literals, hdetail']

/-- The shorthands follow from the declarations of the filter and the details of its enumerations. -/
theorem leads_shorthands_of {f : Text} (hargs : may (.filterArgs f))
    (hdeclared : ∀ s' : Session, s'.Current → (s.Current → s' = s) →
      Leads tool may (filterArgs tool f) s' fun specs s'' =>
        (s''.Current ∧ s''.data.args.get? f = some specs ∧
          (s'.Current → s''.data.details = s'.data.details ∧
            s''.data.shorthands = s'.data.shorthands)) ∧
        ∀ spec ∈ SchemaData.enums specs, may (.argument f spec.name)) :
    Leads tool may (shorthands tool f) s fun found s' =>
      s'.Current ∧ s'.data.shorthands.get? f = some found := by
  refine leads_fromMemory (fun found s' hcurrent _ hfound => ⟨hcurrent, hfound⟩)
    fun s' hcurrent hsame' hnone => ?_
  rw [bind_assoc]
  refine (hdeclared s' hcurrent hsame').bind fun specs s₁ _ h => ?_
  obtain ⟨⟨hcurrent₁, hspecs, hframe⟩, hmay⟩ := h
  rw [bind_assoc]
  refine (leads_listed hargs (SchemaData.enums specs) hmay hcurrent₁).bind
    fun listed s₂ hgains h => ?_
  obtain ⟨hcurrent₂, hsame, hdetailed, rfl⟩ := h
  rw [pure_bind]
  have hnone₂ : s₂.data.shorthands.get? f = none := by
    rw [hsame, (hframe hcurrent).2]
    exact hnone
  have hspecs₂ : s₂.data.args.get? f = some specs :=
    (hgains.extends hcurrent₁).2.answers (.filterArgs f) specs hspecs
  refine leads_of_ok (result_bind_ok (result_remember _ s₂) _)
    (.single (.derived hargs hcurrent₂ hnone₂ hspecs₂ hdetailed)) ⟨hcurrent₂, ?_⟩
  exact (Table.get?_insert ..).trans (if_pos rfl)

/-- The shorthands of a filter are remembered once they have been given. -/
theorem leads_shorthands {f : Text} (hargs : may (.filterArgs f))
    (hmay : ∀ a, may (.argument f a)) :
    Leads tool may (shorthands tool f) s fun found s' =>
      s'.Current ∧ s'.data.shorthands.get? f = some found :=
  leads_shorthands_of hargs fun _ _ _ =>
    (leads_filterArgs hargs).mono fun _ _ _ h => ⟨h, fun spec _ => hmay spec.name⟩

/-- When the declarations are remembered as current, only the enumerations among them are asked
about. -/
theorem leads_shorthands_declared {f : Text} {specs : List ArgumentSpec} (hs : s.Current)
    (hspecs : s.data.args.get? f = some specs) (hargs : may (.filterArgs f))
    (hmay : ∀ spec ∈ SchemaData.enums specs, may (.argument f spec.name)) :
    Leads tool may (shorthands tool f) s fun found s' =>
      s'.Current ∧ s'.data.shorthands.get? f = some found := by
  refine leads_shorthands_of hargs fun s' _ hsame => ?_
  obtain rfl := hsame hs
  have hhit : (filterArgs tool f).result s' = (.ok specs, s') :=
    result_fromMemory_hit hs hspecs
  exact leads_of_ok hhit .refl ⟨⟨hs, hspecs, fun _ => ⟨rfl, rfl⟩⟩, hmay⟩

end Cache

namespace Lookup

open Act Cache

variable {tool : Tool} {may : Query → Prop} {s s' : Session}

/-- An accessor is made of steps, and its answer is remembered as current. -/
theorem leads_act (l : Lookup) (hmay : ∀ q, l.Needs q → may q) (s : Session) :
    Leads tool may (l.act tool) s fun v s' => s'.Current ∧ l.known? s'.data = some v := by
  cases l with
  | filters => exact leads_fetch (q := .filters) (hmay _ rfl) (by simp) fun _ hs h => ⟨hs, h⟩
  | modules => exact leads_fetch (q := .modules) (hmay _ rfl) (by simp) fun _ hs h => ⟨hs, h⟩
  | props => exact leads_fetch (q := .props) (hmay _ rfl) (by simp) fun _ hs h => ⟨hs, h⟩
  | protocols => exact leads_fetch (q := .protocols) (hmay _ rfl) (by simp) fun _ hs h => ⟨hs, h⟩
  | filterArgs f =>
    exact leads_fetch (q := .filterArgs f) (hmay _ rfl) (by simp) fun _ hs h => ⟨hs, h⟩
  | argument f a =>
    exact (leads_argument (hmay _ (.inl rfl)) (hmay _ (.inr rfl))).mono fun _ _ _ h =>
      ⟨h.1, h.2.1⟩
  | shorthands f =>
    exact leads_shorthands (hmay _ (.inl rfl)) fun a => hmay _ (.inr ⟨a, rfl⟩)

/-- What is remembered as current is given at once, and the session stays as it is. -/
theorem result_act {l : Lookup} {v : l.Answer} (h : s.Current) (hv : l.known? s.data = some v) :
    (l.act tool).result s = (.ok v, s) := by
  cases l with
  | filterArgs f =>
    rw [act, Cache.filterArgs]
    exact result_fromMemory_hit h hv
  | argument f a =>
    rw [act, Cache.argument]
    exact result_fromMemory_hit h hv
  | shorthands f =>
    rw [act, Cache.shorthands]
    exact result_fromMemory_hit h hv
  | _ => exact result_fromMemory_hit h hv

/-- Data that answers more finds the same for every accessor. -/
theorem known?_extends {d d' : SchemaData} (h : d.Extends d') {l : Lookup} {v : l.Answer}
    (hv : l.known? d = some v) : l.known? d' = some v := by
  cases l with
  | filters => exact h.answers .filters v hv
  | modules => exact h.answers .modules v hv
  | props => exact h.answers .props v hv
  | protocols => exact h.answers .protocols v hv
  | filterArgs f => exact h.answers (.filterArgs f) v hv
  | argument f a => exact h.answers (.argument f a) v hv
  | shorthands f => exact h.shorthands f v hv

/-- An answer that is given is remembered, and the data is current. -/
theorem act_ok {l : Lookup} (hmay : ∀ q, l.Needs q → may q) {v : l.Answer}
    (h : (l.act tool).result s = (.ok v, s')) :
    Gains tool may s s' ∧ s'.Current ∧ l.known? s'.data = some v := by
  have hleads : Leads tool may (l.act tool) s _ := leads_act l hmay s
  rw [Leads, h] at hleads
  exact hleads

/-- An accessor fails with a query, after steps that succeed. -/
theorem act_error {l : Lookup} (hmay : ∀ q, l.Needs q → may q) {e : ToolError}
    (h : (l.act tool).result s = (.error e, s')) :
    ∃ s₁, Gains tool may s s₁ ∧ Refused tool may e s₁ s' := by
  have hleads : Leads tool may (l.act tool) s _ := leads_act l hmay s
  rw [Leads, h] at hleads
  exact hleads

/-- An accessor that fails does so with the error of its last query. -/
theorem act_refused {l : Lookup} {e : ToolError} (h : (l.act tool).result s = (.error e, s')) :
    ∃ asked q, s'.queries = s.queries ++ asked ++ [q] ∧
      tool (s.queries ++ asked) q = .error e := by
  obtain ⟨s₁, hgains, hrefused⟩ := act_error (fun _ _ => trivial) h
  obtain ⟨asked, hasked⟩ := Gains.queries hgains
  cases hrefused with
  | @mk q _ _ he => exact ⟨asked, q, by rw [Session.queries_noted, hasked], by rw [← hasked, he]⟩

/-- An accessor takes some steps and may fail with a query. -/
theorem moves_act (l : Lookup) (hmay : ∀ q, l.Needs q → may q) (s : Session) :
    Moves tool may s ((l.act tool).result s).2 := by
  rcases h : (l.act tool).result s with ⟨r, s'⟩
  cases r with
  | ok v => exact moves_of_gains (act_ok hmay h).1
  | error e =>
    obtain ⟨s₁, hgains, hrefused⟩ := act_error hmay h
    exact (moves_of_gains hgains).tail (.refused hrefused)

end Lookup
end FilterLine
