import FilterLine.Proofs.Cache.KeptFile

/-!
What becomes of a snapshot that belongs to another version. Nothing an accessor does depends on more
of a session than what it remembers and what it has asked, and the data of another version is dropped
before any of it is looked at. So two sessions that start from such data go on alike, whatever the
data was.
-/
namespace FilterLine

/-- Whether two sessions remember the same, have asked the same and have offered the same. -/
structure Session.Alike (s t : Session) : Prop where
  cache : s.cache = t.cache
  queries : s.queries = t.queries
  offered : offeredIn s.journal = offeredIn t.journal

namespace Session.Alike

variable {s t : Session}

theorem noted (h : s.Alike t) (q : Query) : (s.noted (.asked q)).Alike (t.noted (.asked q)) := by
  refine ⟨h.cache, ?_, ?_⟩
  · rw [queries_noted, queries_noted, h.queries]
  · rw [Session.noted, Session.noted, offeredIn_append, offeredIn_append, h.offered]

theorem told (h : s.Alike t) (v : Option Text) : (s.told v).Alike (t.told v) := by
  refine ⟨?_, ?_, (h.noted .version).offered⟩
  · rw [Session.told, Session.told, h.cache]
  · rw [queries_told, queries_told, h.queries]

/-- What was dropped does not show. -/
theorem reset (hlive : s.live = t.live) (hqueries : s.queries = t.queries)
    (hoffered : offeredIn s.journal = offeredIn t.journal) (v : Option Text) :
    (s.reset v).Alike (t.reset v) := by
  refine ⟨?_, ?_, ?_⟩
  · rw [Session.reset, Session.reset, hlive]
  · rw [queries_reset, queries_reset, hqueries]
  · rw [Session.reset, Session.reset, offeredIn_append, offeredIn_append, hoffered]
    rfl

theorem stored (h : s.Alike t) (store : SchemaData → SchemaData) :
    (s.stored store).Alike (t.stored store) := by
  refine ⟨?_, ?_, ?_⟩
  · rw [Session.stored, Session.stored, data, data, h.cache]
  · rw [queries_stored, queries_stored, h.queries]
  · rw [Session.stored, Session.stored, offeredIn_append, offeredIn_append, h.offered, data, data,
      h.cache]

end Session.Alike

namespace Act

variable {α β : Type}

/-- Whether an action does the same in sessions that are alike. -/
def Uniform (x : Act α) : Prop :=
  ∀ s t : Session, s.Alike t →
    (x.result s).1 = (x.result t).1 ∧ (x.result s).2.Alike (x.result t).2

theorem uniform_pure (a : α) : Uniform (pure a) := fun _ _ h => ⟨rfl, h⟩

/-- An action does the same in sessions that are alike if each of its parts does. -/
theorem Uniform.bind {x : Act α} {f : α → Act β} (hx : Uniform x) (hf : ∀ a, Uniform (f a)) :
    Uniform (x >>= f) := by
  intro s t h
  obtain ⟨hanswer, hafter⟩ := hx s t h
  rcases hs : x.result s with ⟨r, s'⟩
  rcases ht : x.result t with ⟨r', t'⟩
  rw [hs, ht] at hanswer hafter
  obtain rfl : r = r' := hanswer
  rw [result_bind, result_bind, hs, ht]
  cases r with
  | ok a => exact hf a s' t' hafter
  | error e => exact ⟨rfl, hafter⟩

/-- An action that looks at the session first, but only at what is the same in both. -/
theorem uniform_get {f : Session → Act α}
    (hf : ∀ s t : Session, s.Alike t → f s = f t ∧ Uniform (f s)) : Uniform (get >>= f) := by
  intro s t h
  obtain ⟨hsame, huniform⟩ := hf s t h
  rw [result_bind_ok (result_get s), result_bind_ok (result_get t), ← hsame]
  exact huniform s t h

end Act

namespace Cache

open Act

variable {tool : Tool}

theorem uniform_ask (q : Query) : Uniform (ask tool q) := by
  intro s t h
  rw [result_ask, result_ask, h.queries]
  exact ⟨rfl, h.noted q⟩

theorem uniform_remember (store : SchemaData → SchemaData) : Uniform (remember store) :=
  fun _ _ h => ⟨rfl, h.stored store⟩

theorem uniform_liveVersion : Uniform (liveVersion tool) := by
  intro s t h
  have hlive : s.live = t.live := by rw [Session.live, h.cache]
  rw [result_liveVersion, result_liveVersion, hlive, h.queries]
  cases t.live with
  | some v => exact ⟨rfl, h⟩
  | none =>
    cases tool t.queries .version with
    | ok v => exact ⟨rfl, h.told v⟩
    | error e => exact ⟨rfl, h.noted .version⟩

/-- Once the version is known, what belongs to another is dropped. -/
theorem result_ensureCurrent_of_live {s s' : Session} {v : Option Text}
    (h : (liveVersion tool).result s = (.ok v, s')) :
    (ensureCurrent tool).result s = (.ok (), if s'.version = v then s' else s'.reset v) := by
  rw [ensureCurrent, result_bind_ok h, result_bind_ok (result_get s')]
  by_cases hv : s'.version = v
  · rw [if_neg (not_not_intro hv), if_pos hv, result_pure]
  · rw [if_pos hv, if_neg hv]
    rfl

theorem uniform_ensureCurrent : Uniform (ensureCurrent tool) := by
  intro s t h
  have huniform : Uniform (liveVersion tool) := uniform_liveVersion
  obtain ⟨hanswer, hafter⟩ := huniform s t h
  rcases hs : (liveVersion tool).result s with ⟨r, s'⟩
  rcases ht : (liveVersion tool).result t with ⟨r', t'⟩
  rw [hs, ht] at hanswer hafter
  obtain rfl : r = r' := hanswer
  cases r with
  | error e =>
    rw [ensureCurrent, result_bind_error hs, result_bind_error ht]
    exact ⟨rfl, hafter⟩
  | ok v =>
    have hversion : s'.version = t'.version := by rw [Session.version, hafter.cache]
    have hlive : s'.live = t'.live := by rw [Session.live, hafter.cache]
    rw [result_ensureCurrent_of_live hs, result_ensureCurrent_of_live ht, hversion]
    refine ⟨rfl, ?_⟩
    by_cases hv : t'.version = v
    · simpa only [if_pos hv] using hafter
    · simpa only [if_neg hv] using .reset hlive hafter.queries hafter.offered v

variable {α : Type} {read : SchemaData → Option α} {fetch : Act α}
  {store : α → SchemaData → SchemaData}

/-- Sessions that are alike find the same in memory, or fetch the same. -/
theorem uniform_fromMemory (hfetch : Uniform fetch) :
    Uniform (fromMemory tool read fetch store) := by
  refine uniform_ensureCurrent.bind fun _ => uniform_get fun s t h => ⟨by rw [h.cache], ?_⟩
  cases read s.cache.snapshot.data with
  | some a => exact uniform_pure a
  | none => exact hfetch.bind fun a => (uniform_remember (store a)).bind fun _ => uniform_pure a

theorem uniform_filterArgs (f : Text) : Uniform (filterArgs tool f) :=
  uniform_fromMemory (uniform_ask _)

theorem uniform_argument (f a : Text) : Uniform (argument tool f a) := by
  refine uniform_fromMemory ((uniform_filterArgs f).bind fun specs => ?_)
  cases specs.find? (·.name == a) with
  | none => exact uniform_ask _
  | some spec =>
    by_cases hkind : spec.kind = .enum
    · simp only [if_pos hkind]
      exact uniform_ask _
    · simp only [if_neg hkind]
      exact uniform_pure _

theorem uniform_listed (f : Text) (specs : List ArgumentSpec) :
    Uniform (specs.mapM fun spec => do
      pure (spec.name, (← argument tool f spec.name).values)) := by
  induction specs with
  | nil => exact uniform_pure []
  | cons spec specs ih =>
    rw [List.mapM_cons]
    refine Uniform.bind ?_ fun _ => ih.bind fun _ => uniform_pure _
    exact (uniform_argument f spec.name).bind fun _ => uniform_pure _

theorem uniform_shorthands (f : Text) : Uniform (shorthands tool f) :=
  uniform_fromMemory ((uniform_filterArgs f).bind fun specs =>
    (uniform_listed f (SchemaData.enums specs)).bind fun _ => uniform_pure _)

/-- An accessor begins by making sure of the version, so all that counts is where that leads. -/
theorem result_fromMemory_congr {s t : Session}
    (h : (ensureCurrent tool).result s = (ensureCurrent tool).result t) :
    (fromMemory tool read fetch store).result s = (fromMemory tool read fetch store).result t := by
  rw [fromMemory, result_bind, result_bind, h]

end Cache

namespace Lookup

open Act Cache

variable {tool : Tool} {s t : Session}

/-- Every accessor does the same in sessions that are alike. -/
theorem uniform_act (l : Lookup) : Uniform (l.act tool) := by
  cases l with
  | filterArgs f => exact uniform_filterArgs f
  | argument f a => exact uniform_argument f a
  | shorthands f => exact uniform_shorthands f
  | _ => exact uniform_fromMemory (uniform_ask _)

/-- An accessor looks at the version first, so what that comes to decides the rest. -/
theorem result_act_congr (l : Lookup)
    (h : (ensureCurrent tool).result s = (ensureCurrent tool).result t) :
    (l.act tool).result s = (l.act tool).result t := by
  cases l with
  | filterArgs f =>
    rw [act, Cache.filterArgs]
    exact result_fromMemory_congr h
  | argument f a =>
    rw [act, Cache.argument]
    exact result_fromMemory_congr h
  | shorthands f =>
    rw [act, Cache.shorthands]
    exact result_fromMemory_congr h
  | _ => exact result_fromMemory_congr h

/-- Sessions that are alike stay alike under any calls. -/
theorem alike_runAll (calls : List Lookup) (h : s.Alike t) :
    (runAll tool calls s).Alike (runAll tool calls t) := by
  induction calls generalizing s t with
  | nil => exact h
  | cons l calls ih => exact ih (uniform_act l s t h).2

end Lookup

/-- Whether a session knows the version of the tool, and all that it remembers and has offered bears
this version. -/
structure Session.Stamped (v : Option Text) (s : Session) : Prop where
  live : s.live = some v
  keeps : s.Keeps fun snapshot => snapshot.version = v

/-- A step leaves everything stamped with the version that is known. -/
theorem Session.Stamped.move {v : Option Text} {tool : Tool} {may : Query → Prop} {s s' : Session}
    (h : s.Stamped v) (hmove : Move tool may s s') : s'.Stamped v := by
  cases hmove with
  | refused hrefused =>
    cases hrefused
    exact ⟨h.live, h.keeps.noted _⟩
  | gain hgain =>
    cases hgain with
    | told hnone _ => exact nomatch hnone.symm.trans h.live
    | reset hlive _ => exact ⟨h.live, h.keeps.reset (Option.some.inj (hlive.symm.trans h.live))⟩
    | learned _ _ _ _ => exact ⟨h.live, (h.keeps.noted _).stored h.keeps.snapshot⟩
    | declared _ _ _ _ _ _ => exact ⟨h.live, h.keeps.stored h.keeps.snapshot⟩
    | derived _ _ _ _ _ => exact ⟨h.live, h.keeps.stored h.keeps.snapshot⟩

namespace Origin

variable {tool : Tool} {v : Option Text} {held : Snapshot}

/-- The session that has found the snapshot of its file to belong to another version. -/
def renewed (held : Snapshot) (v : Option Text) : Session := ((taken held).told v).reset v

/-- A session starts from the snapshot that its file keeps. -/
theorem start_taken {content : Bytes} (h : Snapshot.load? content = some held) :
    (file (some content)).start tool = some (taken held) := by
  rw [start, Option.bind_some, h]
  rfl

theorem stamped_renewed (held : Snapshot) (v : Option Text) : (renewed held v).Stamped v :=
  ⟨rfl, rfl, fun snapshot hmem => by simp [renewed, taken, Session.told, Session.reset] at hmem⟩

theorem result_liveVersion_taken (hv : tool [] .version = .ok v) :
    (Cache.liveVersion tool).result (taken held) = (.ok v, (taken held).told v) := by
  have hask : tool (taken held).queries .version = .ok v := hv
  have hresult : (Cache.liveVersion tool).result (taken held) = _ :=
    Cache.result_liveVersion (taken held)
  rw [hask] at hresult
  exact hresult

/-- An accessor that is called on an outdated snapshot goes on as if nothing had been there. -/
theorem result_act_taken (hv : tool [] .version = .ok v) (hne : held.version ≠ v) (l : Lookup) :
    (l.act tool).result (taken held) = (l.act tool).result (renewed held v) := by
  have hother : ((taken held).told v).version ≠ v := hne
  have hcurrent : (renewed held v).Current := rfl
  refine Lookup.result_act_congr l ?_
  rw [Cache.result_ensureCurrent_of_live (result_liveVersion_taken hv), if_neg hother,
    Cache.result_ensureCurrent hcurrent, renewed]

/-- When the version is found to be another one nothing is left of the snapshot, so the session
might as well have been renewed before. -/
theorem result_runAll_taken (hv : tool [] .version = .ok v) (hne : held.version ≠ v)
    (calls : List Lookup) (l : Lookup) :
    (l.act tool).result (Lookup.runAll tool calls (taken held)) =
      (l.act tool).result (Lookup.runAll tool calls (renewed held v)) := by
  cases calls with
  | nil => exact result_act_taken hv hne l
  | cons c calls =>
    rw [Lookup.runAll, Lookup.runAll, List.foldl_cons, List.foldl_cons, result_act_taken hv hne c]

/-- A session that is renewed does not depend on what its file kept. -/
theorem alike_renewed (held held' : Snapshot) (v : Option Text) :
    (renewed held v).Alike (renewed held' v) :=
  Session.Alike.reset (s := (taken held).told v) (t := (taken held').told v) rfl rfl rfl v

end Origin

/-- Two sessions that start from files of another version than that of their tool give the same
answers and the same errors, ask the same queries in the same order, and remember and offer the same
snapshots, all of the right version. So nothing in the files ever shows. -/
theorem outdated_leaves_no_trace {tool : Tool} {v : Option Text} (hv : tool [] .version = .ok v)
    {content content' : Bytes} {held held' : Snapshot}
    (hload : Snapshot.load? content = some held) (hload' : Snapshot.load? content' = some held')
    (hne : held.version ≠ v) (hne' : held'.version ≠ v) :
    ∃ s s', (Origin.file (some content)).start tool = some s ∧
      (Origin.file (some content')).start tool = some s' ∧
      ∀ (calls : List Lookup) (l : Lookup),
        let (r, t) := (l.act tool).result (Lookup.runAll tool calls s)
        let (r', t') := (l.act tool).result (Lookup.runAll tool calls s')
        r = r' ∧ t.queries = t'.queries ∧ t.cache.snapshot = t'.cache.snapshot ∧ t.version = v ∧
          offeredIn t.journal = offeredIn t'.journal ∧
          ∀ snapshot ∈ offeredIn t.journal, snapshot.version = v := by
  refine ⟨_, _, Origin.start_taken hload, Origin.start_taken hload', fun calls l => ?_⟩
  rw [Origin.result_runAll_taken hv hne, Origin.result_runAll_taken hv hne']
  have halike : (Lookup.runAll tool calls (Origin.renewed held v)).Alike
      (Lookup.runAll tool calls (Origin.renewed held' v)) :=
    Lookup.alike_runAll calls (Origin.alike_renewed held held' v)
  obtain ⟨hanswer, hafter⟩ := Lookup.uniform_act l _ _ halike
  have hmoves : Moves tool (fun _ => True) (Origin.renewed held v) _ :=
    (Lookup.moves_runAll calls _).trans (Lookup.moves_act l (fun _ _ => trivial) _)
  have hstamped := hmoves.preserve (fun _ _ => Session.Stamped.move)
    (Origin.stamped_renewed held v)
  exact ⟨hanswer, hafter.queries, congrArg Cache.snapshot hafter.cache, hstamped.keeps.snapshot,
    hafter.offered, fun snapshot hmem => hstamped.keeps.offered snapshot (mem_offeredIn hmem)⟩

/-- A tool that fails the second query it has. -/
def Tool.stumbling : Tool := fun past q =>
  if past.length = 1 then .error (.exit "tool" (some 1))
  else .ok (match q with
    | .version => some "2"
    | .filters | .modules | .props => ["new"]
    | .protocols => []
    | .filterArgs _ => [⟨"mode", .enum⟩]
    | .argument _ _ => ⟨some .enum, ["fast"]⟩)

def Snapshot.rumour : Snapshot where
  data := {
    filters := some ["old"]
    shorthands := ⟨[("f", [⟨"slow", "mode"⟩])], by decide⟩ }

def Snapshot.hearsay : Snapshot where
  version := some "1"
  data := { filters := some [], props := some ["Gone"] }

theorem outdated_leaves_no_trace_stumbling : ∃ content content' s s',
    Snapshot.load? content = some .rumour ∧ Snapshot.load? content' = some .hearsay ∧
    (Origin.file (some content)).start .stumbling = some s ∧
    (Origin.file (some content')).start .stumbling = some s' ∧
    let (r, t) := ((Lookup.shorthands "f").act .stumbling).result
      (Lookup.runAll .stumbling [.filters] s)
    let (r', t') := ((Lookup.shorthands "f").act .stumbling).result
      (Lookup.runAll .stumbling [.filters] s')
    r = .ok [⟨"fast", "mode"⟩] ∧ t.data.filters = none ∧
      r = r' ∧ t.queries = t'.queries ∧ t.cache.snapshot = t'.cache.snapshot := by
  have hload : Snapshot.load? (Utf8.encode Snapshot.rumour.save) = some .rumour :=
    Snapshot.load?_save
      ⟨by simp [Snapshot.rumour, Table.empty], by simp [Snapshot.rumour, Table.empty]⟩
  have hload' : Snapshot.load? (Utf8.encode Snapshot.hearsay.save) = some .hearsay :=
    Snapshot.load?_save
      ⟨by simp [Snapshot.hearsay, Table.empty], by simp [Snapshot.hearsay, Table.empty]⟩
  have hv : Tool.stumbling [] .version = .ok (some "2") := rfl
  obtain ⟨s, s', hs, hs', hall⟩ :=
    outdated_leaves_no_trace hv hload hload' (by decide) (by decide)
  obtain rfl : Origin.taken .rumour = s :=
    Option.some.inj ((Origin.start_taken hload).symm.trans hs)
  obtain ⟨hanswer, hqueries, hsnapshot, -⟩ := hall [.filters] (.shorthands "f")
  exact ⟨_, _, _, s', hload, hload', hs, hs', rfl, rfl, hanswer, hqueries, hsnapshot⟩

end FilterLine
