import FilterLine.Proofs.Cache.Run

/-!
A session asks for nothing twice. A query that has been answered stays answered: what it told is
remembered as current, and nothing that is current is ever dropped. So no query is answered a second
time, and an accessor that has succeeded gives the same answer from then on, without a trace.
-/
namespace FilterLine

namespace Query

/-- Where the answer to a query is kept. The details of arguments share one table. -/
inductive Slot where
  | version
  | filters
  | modules
  | props
  | protocols
  | args (filter : Text)
  | detail (key : Text)
  deriving DecidableEq, Repr

def slot : Query → Slot
  | version => .version
  | filters => .filters
  | modules => .modules
  | props => .props
  | protocols => .protocols
  | filterArgs f => .args f
  | argument f a => .detail (detailKey f a)

theorem slot_version {q : Query} : q.slot = .version ↔ q = .version := by
  cases q <;> simp [slot]

/-- Queries that share a place are remembered together. -/
theorem known?_isSome_of_slot {q q' : Query} (h : q.slot = q'.slot) (d : SchemaData) :
    (q.known? d).isSome = (q'.known? d).isSome := by
  cases q <;> cases q' <;> simp only [slot, reduceCtorEq, Slot.args.injEq, Slot.detail.injEq] at h
  case filterArgs f f' => rw [h]
  case argument f a f' a' => simp only [known?, h]
  all_goals rfl

end Query

namespace Tool

/-- The queries that the tool answers, among those that follow on some others. -/
def answered (tool : Tool) : (past : List Query) → List Query → List Query
  | _, [] => []
  | past, q :: rest =>
    match tool past q with
    | .ok _ => q :: answered tool (past ++ [q]) rest
    | .error _ => answered tool (past ++ [q]) rest

variable {tool : Tool} {q : Query}

theorem answered_append (past xs ys : List Query) :
    tool.answered past (xs ++ ys) = tool.answered past xs ++ tool.answered (past ++ xs) ys := by
  induction xs generalizing past with
  | nil => simp [answered]
  | cons x xs ih =>
    simp only [List.cons_append, answered]
    cases tool past x with
    | ok a => simp [ih]
    | error e => simp [ih]

theorem answered_ok {past : List Query} {a : q.Answer} (h : tool past q = .ok a) :
    tool.answered [] (past ++ [q]) = tool.answered [] past ++ [q] := by
  simp [answered_append, answered, h]

theorem answered_error {past : List Query} {e : ToolError} (h : tool past q = .error e) :
    tool.answered [] (past ++ [q]) = tool.answered [] past := by
  simp [answered_append, answered, h]

end Tool

/-- Whether every query but the version comes after one for the version that was answered. -/
def VersionFirst (tool : Tool) (queries : List Query) : Prop :=
  ∀ past q rest, queries = past ++ q :: rest → q ≠ .version →
    .version ∈ tool.answered [] past

/-- Once the version has been answered any query may follow. -/
theorem VersionFirst.concat {tool : Tool} {queries : List Query} {q : Query}
    (h : VersionFirst tool queries) (hq : q ≠ .version → .version ∈ tool.answered [] queries) :
    VersionFirst tool (queries ++ [q]) := by
  intro past q' rest heq hq'
  rcases List.eq_nil_or_concat rest with rfl | ⟨init, last, rfl⟩
  · obtain ⟨rfl, hlast⟩ := List.append_inj' heq rfl
    cases hlast
    exact hq hq'
  · rw [List.concat_eq_append, ← List.cons_append, ← List.append_assoc] at heq
    obtain ⟨hinit, -⟩ := List.append_inj' heq rfl
    exact h past q' init hinit hq'

/-- What was answered is remembered, so nothing is answered twice. -/
structure Once (tool : Tool) (s : Session) : Prop where
  distinct : ((tool.answered [] s.queries).map Query.slot).Nodup
  version : .version ∈ tool.answered [] s.queries ↔ s.live.isSome
  remembered : ∀ q ∈ tool.answered [] s.queries, q ≠ .version →
    s.Current ∧ (q.known? s.data).isSome
  first : VersionFirst tool s.queries

namespace Once

variable {tool : Tool} {may : Query → Prop} {s s' : Session}

/-- Data is only known to be current when the version has been answered. -/
theorem version_of_current (h : Once tool s) (hs : s.Current) :
    .version ∈ tool.answered [] s.queries := by
  rw [h.version, hs]
  rfl

/-- A step that asks nothing and takes nothing back. -/
theorem of_extends (h : Once tool s) (hqueries : s'.queries = s.queries) (hlive : s'.live = s.live)
    (hextends : s.Current → s'.Current ∧ s.data.Extends s'.data) : Once tool s' where
  distinct := by
    rw [hqueries]
    exact h.distinct
  version := by
    rw [hqueries, hlive]
    exact h.version
  remembered q hq hne := by
    rw [hqueries] at hq
    obtain ⟨hcurrent, hsome⟩ := h.remembered q hq hne
    obtain ⟨a, ha⟩ := Option.isSome_iff_exists.mp hsome
    obtain ⟨hcurrent', hextends'⟩ := hextends hcurrent
    exact ⟨hcurrent', by rw [hextends'.answers q a ha]; rfl⟩
  first := by
    rw [hqueries]
    exact h.first

/-- Before the version is known nothing has been answered, so the version is answered once. -/
theorem told (h : Once tool s) {v : Option Text} (hnone : s.live = none)
    (hv : tool s.queries .version = .ok v) : Once tool (s.told v) := by
  have hanswered : tool.answered [] (s.told v).queries =
      tool.answered [] s.queries ++ [.version] := by
    rw [Session.queries_told, Tool.answered_ok hv]
  have honly : ∀ q ∈ tool.answered [] s.queries, q = .version := by
    intro q hq
    apply Decidable.byContradiction
    intro hne
    exact nomatch hnone.symm.trans (h.remembered q hq hne).1
  have hnot : .version ∉ tool.answered [] s.queries := by
    rw [h.version, hnone]
    simp
  have hnil : tool.answered [] s.queries = [] := by
    rw [List.eq_nil_iff_forall_not_mem]
    intro q hq
    exact hnot (honly q hq ▸ hq)
  rw [hnil, List.nil_append] at hanswered
  refine ⟨by rw [hanswered]; simp, by rw [hanswered]; simp, fun q hq hne => ?_, ?_⟩
  · rw [hanswered] at hq
    exact absurd (List.mem_singleton.mp hq) hne
  · rw [Session.queries_told]
    exact h.first.concat fun hne => absurd rfl hne

/-- An answer that is missing is not kept in its place, so nothing that shares the place has been
answered. -/
theorem learned (h : Once tool s) {q : Query} {a : q.Answer} (hq : q ≠ .version)
    (hask : s.MayAsk q) (ha : tool s.queries q = .ok a) :
    Once tool ((s.noted (.asked q)).stored (q.learn a)) := by
  have hcurrent := hask.current hq
  have hversion := h.version_of_current hcurrent
  have hextends : s.data.Extends (q.learn a s.data) := SchemaData.extends_learn hask.missing a
  have hanswered : tool.answered [] ((s.noted (.asked q)).stored (q.learn a)).queries =
      tool.answered [] s.queries ++ [q] := by
    rw [Session.queries_stored, Session.queries_noted, Tool.answered_ok ha]
  refine ⟨?_, ?_, fun q' hq' hne => ?_, ?_⟩
  · rw [hanswered, List.map_append, List.nodup_append]
    refine ⟨h.distinct, by simp, fun slot hslot slot' hslot' heq => ?_⟩
    obtain ⟨q', hq', rfl⟩ := List.mem_map.mp hslot
    have hsame : q'.slot = q.slot := heq.trans (List.mem_singleton.mp hslot')
    have hne : q' ≠ .version := fun hq' => hq (Query.slot_version.mp (hsame ▸ hq' ▸ rfl))
    have hsome := (h.remembered q' hq' hne).2
    rw [Query.known?_isSome_of_slot hsame, hask.missing] at hsome
    cases hsome
  · rw [hanswered]
    exact ⟨fun _ => h.version.mp hversion, fun _ => List.mem_append_left _ hversion⟩
  · refine ⟨hcurrent, ?_⟩
    rw [hanswered] at hq'
    rcases List.mem_append.mp hq' with hq' | hq'
    · obtain ⟨b, hb⟩ := Option.isSome_iff_exists.mp (h.remembered q' hq' hne).2
      exact Option.isSome_iff_exists.mpr ⟨b, hextends.answers q' b hb⟩
    · rw [List.mem_singleton.mp hq']
      exact Option.isSome_iff_exists.mpr ⟨a, Cache.known?_learn hq a s.data⟩
  · rw [Session.queries_stored, Session.queries_noted]
    exact h.first.concat fun _ => hversion

/-- No step that succeeds answers a query a second time. -/
theorem gain (h : Once tool s) (hgain : Gain tool may s s') : Once tool s' := by
  cases hgain with
  | told hnone hv => exact h.told hnone hv
  | reset hlive hne =>
    refine h.of_extends (by simp) rfl fun hcurrent => ?_
    exact absurd (Option.some.inj (hcurrent.symm.trans hlive)) hne
  | learned _ hq hask ha => exact h.learned hq hask ha
  | declared _ hcurrent hnone _ _ _ =>
    refine h.of_extends (by simp) rfl fun hcurrent => ?_
    exact ⟨hcurrent, SchemaData.extends_learn (q := .argument _ _) hnone _⟩
  | derived _ hcurrent hnone _ _ =>
    refine h.of_extends (by simp) rfl fun hcurrent => ?_
    exact ⟨hcurrent, SchemaData.extends_derive hnone _⟩

/-- A query that fails answers nothing. -/
theorem refused (h : Once tool s) {e : ToolError} (hrefused : Refused tool may e s s') :
    Once tool s' := by
  obtain ⟨hmay, hask, he⟩ := hrefused
  rename_i q
  have hanswered : tool.answered [] (s.noted (.asked q)).queries =
      tool.answered [] s.queries := by
    rw [Session.queries_noted, Tool.answered_error he]
  constructor
  · rw [hanswered]
    exact h.distinct
  · rw [hanswered]
    exact h.version
  · rw [hanswered]
    exact h.remembered
  · rw [Session.queries_noted]
    exact h.first.concat fun hq => h.version_of_current (hask.current hq)

theorem move (h : Once tool s) (hmove : Move tool may s s') : Once tool s' := by
  cases hmove with
  | gain hgain => exact h.gain hgain
  | refused hrefused => exact h.refused hrefused

/-- A session that has asked nothing has answered nothing twice. -/
theorem of_new (hqueries : s.queries = []) (hlive : s.live = none) : Once tool s := by
  constructor
  · simp [hqueries, Tool.answered]
  · simp [hqueries, hlive, Tool.answered]
  · simp [hqueries, Tool.answered]
  · intro past q rest heq
    simp [hqueries] at heq

/-- At its start a session has asked for the version at most. -/
theorem start {o : Origin} (h : o.start tool = some s) : Once tool s := by
  cases Origin.started_of_start h with
  | new _ => exact of_new rfl rfl
  | taken _ => exact of_new rfl rfl
  | @blank v _ hv =>
    have htold : Once tool (Session.told {} v) := (of_new rfl rfl).told rfl hv
    exact htold.of_extends rfl rfl fun _ => ⟨rfl, .refl _⟩

end Once

/-- An accessor that has given an answer gives it again, whatever happens in between, and leaves the
session and its journal as they are: it asks nothing and offers nothing for keeping. In a whole run
no answer is fetched twice, and none before that of the version. -/
theorem asked_once {tool : Tool} {o : Origin} {s : Session} (h : o.start tool = some s) :
    (∀ (before after : List Lookup) (l : Lookup) (v : l.Answer) (s₁ : Session),
      (l.act tool).result (Lookup.runAll tool before s) = (.ok v, s₁) →
      (l.act tool).result (Lookup.runAll tool after s₁) =
        (.ok v, Lookup.runAll tool after s₁)) ∧
    ∀ calls : List Lookup, let queries := (Lookup.runAll tool calls s).queries
      ((tool.answered [] queries).map Query.slot).Nodup ∧ VersionFirst tool queries := by
  constructor
  · intro before after l v s₁ hv
    obtain ⟨-, hcurrent, hknown⟩ := Lookup.act_ok (fun _ _ => trivial) hv
    obtain ⟨hcurrent', hextends⟩ := (Lookup.moves_runAll after s₁).extends hcurrent
    exact Lookup.result_act hcurrent' (Lookup.known?_extends hextends hknown)
  · intro calls
    have honce := (Lookup.moves_runAll calls s).preserve (fun _ _ => Once.move) (Once.start h)
    exact ⟨honce.distinct, honce.first⟩

/-- A tool that fails every other query and never gives the same list twice. -/
def Tool.moody : Tool := fun past q =>
  if past.length % 2 = 0 then .error (.exit "tool" none)
  else .ok (match q with
    | .version => some "1"
    | .filters | .modules | .props => [Text.decimal past.length]
    | .protocols => []
    | .filterArgs _ => [⟨"mode", .enum⟩]
    | .argument _ _ => ⟨none, [Text.decimal past.length]⟩)

theorem asked_once_moody :
    let s := Lookup.runAll .moody [.filters, .filters] {}
    let s₁ := (Lookup.filters.act .moody |>.result s).2
    let s₂ := Lookup.runAll .moody [.shorthands "f", .modules, .shorthands "f"] s₁
    (Lookup.filters.act .moody).result s = (.ok ["3"], s₁) ∧
      (Lookup.filters.act .moody).result s₂ = (.ok ["3"], s₂) ∧
      ((Tool.moody.answered [] s.queries).map Query.slot).Nodup := by
  have hstart : Origin.memory.start .moody = some {} := rfl
  have hfirst : (Lookup.filters.act .moody).result (Lookup.runAll .moody [.filters, .filters] {}) =
      (.ok ["3"], _) := rfl
  obtain ⟨hagain, honce⟩ := asked_once hstart
  exact ⟨hfirst, hagain _ _ _ _ _ hfirst, (honce _).1⟩

end FilterLine
