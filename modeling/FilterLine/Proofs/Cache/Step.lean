import Mathlib.Logic.Relation
import FilterLine.Proofs.Schema.Table
import FilterLine.Schema.Cache

/-!
What a session can do, one step at a time. A step learns the version of the tool, drops what belongs
to another version, or adds one entry that was missing; the only other thing that happens is a query
that fails. Everything that is true of every session is shown of these steps, and the accessors are
shown to be made of them.
-/
namespace FilterLine

namespace Session

abbrev data (s : Session) : SchemaData := s.cache.snapshot.data

abbrev version (s : Session) : Option Text := s.cache.snapshot.version

abbrev live (s : Session) : Option (Option Text) := s.cache.live

/-- Whether the data is known to belong to the running tool. -/
def Current (s : Session) : Prop := s.live = some s.version

def noted (s : Session) (e : Event) : Session := { s with journal := s.journal ++ [e] }

def told (s : Session) (v : Option Text) : Session where
  cache := { s.cache with live := some v }
  journal := s.journal ++ [.asked .version]

/-- The session that has dropped the data of another version. -/
def reset (s : Session) (v : Option Text) : Session where
  cache := { snapshot := { version := v }, live := s.live }
  journal := s.journal ++ [.outdated s.version v]

/-- The session that has changed its data and offered the snapshot. -/
def stored (s : Session) (store : SchemaData → SchemaData) : Session where
  cache := { s.cache with snapshot := { s.cache.snapshot with data := store s.data } }
  journal := s.journal ++ [.offered { s.cache.snapshot with data := store s.data }]

@[simp] theorem noted_cache (s : Session) (e : Event) : (s.noted e).cache = s.cache := rfl
@[simp] theorem told_snapshot (s : Session) (v : Option Text) :
    (s.told v).cache.snapshot = s.cache.snapshot := rfl
@[simp] theorem told_live (s : Session) (v : Option Text) : (s.told v).live = some v := rfl
@[simp] theorem reset_live (s : Session) (v : Option Text) : (s.reset v).live = s.live := rfl
@[simp] theorem reset_snapshot (s : Session) (v : Option Text) :
    (s.reset v).cache.snapshot = { version := v } := rfl
@[simp] theorem stored_live (s : Session) (store : SchemaData → SchemaData) :
    (s.stored store).live = s.live := rfl
@[simp] theorem stored_version (s : Session) (store : SchemaData → SchemaData) :
    (s.stored store).version = s.version := rfl
@[simp] theorem stored_data (s : Session) (store : SchemaData → SchemaData) :
    (s.stored store).data = store s.data := rfl

@[simp] theorem queries_noted (s : Session) (q : Query) :
    (s.noted (.asked q)).queries = s.queries ++ [q] := by
  simp [queries, noted, Event.query?]

@[simp] theorem queries_told (s : Session) (v : Option Text) :
    (s.told v).queries = s.queries ++ [.version] := by
  simp [queries, told, Event.query?]

@[simp] theorem queries_reset (s : Session) (v : Option Text) :
    (s.reset v).queries = s.queries := by
  simp [queries, reset, Event.query?]

@[simp] theorem queries_stored (s : Session) (store : SchemaData → SchemaData) :
    (s.stored store).queries = s.queries := by
  simp [queries, stored, Event.query?]

/-- Whether the snapshot in memory and all that were offered have a property. -/
structure Keeps (P : Snapshot → Prop) (s : Session) : Prop where
  snapshot : P s.cache.snapshot
  offered : ∀ snapshot, .offered snapshot ∈ s.journal → P snapshot

variable {P : Snapshot → Prop} {s : Session}

theorem mem_noted {q : Query} {snapshot : Snapshot} :
    .offered snapshot ∈ (s.noted (.asked q)).journal ↔ .offered snapshot ∈ s.journal := by
  simp [noted]

theorem mem_reset {v : Option Text} {snapshot : Snapshot} :
    .offered snapshot ∈ (s.reset v).journal ↔ .offered snapshot ∈ s.journal := by
  simp [reset]

theorem Keeps.noted (h : s.Keeps P) (q : Query) : (s.noted (.asked q)).Keeps P :=
  ⟨h.snapshot, fun snapshot hmem => h.offered snapshot (mem_noted.mp hmem)⟩

theorem Keeps.told (h : s.Keeps P) (v : Option Text) : (s.told v).Keeps P :=
  ⟨h.snapshot, (h.noted .version).offered⟩

theorem Keeps.reset (h : s.Keeps P) {v : Option Text} (hv : P { version := v }) :
    (s.reset v).Keeps P :=
  ⟨hv, fun snapshot hmem => h.offered snapshot (mem_reset.mp hmem)⟩

theorem Keeps.stored (h : s.Keeps P) {store : SchemaData → SchemaData}
    (hstore : P { s.cache.snapshot with data := store s.data }) : (s.stored store).Keeps P := by
  refine ⟨hstore, fun snapshot hmem => ?_⟩
  rcases List.mem_append.mp hmem with hmem | hmem
  · exact h.offered snapshot hmem
  · cases List.mem_singleton.mp hmem
    exact hstore

end Session

namespace Query

/-- What is remembered as the answer to a query. The version is no part of the data. -/
def known? : (q : Query) → SchemaData → Option q.Answer
  | version, _ => none
  | filters, d => d.filters
  | modules, d => d.modules
  | props, d => d.props
  | protocols, d => d.protocols
  | filterArgs f, d => d.args.get? f
  | argument f a, d => d.details.get? (detailKey f a)

def learn : (q : Query) → q.Answer → SchemaData → SchemaData
  | version, _, d => d
  | filters, l, d => { d with filters := some l }
  | modules, l, d => { d with modules := some l }
  | props, l, d => { d with props := some l }
  | protocols, l, d => { d with protocols := some l }
  | filterArgs f, l, d => { d with args := d.args.insert f l }
  | argument f a, x, d => { d with details := d.details.insert (detailKey f a) x }

end Query

namespace SchemaData

def literals (d : SchemaData) (filter argument : Text) : List Text :=
  match d.details.get? (detailKey filter argument) with
  | some detail => detail.values
  | none => []

def enums (specs : List ArgumentSpec) : List ArgumentSpec := specs.filter (·.kind = .enum)

def listed (d : SchemaData) (filter : Text) (specs : List ArgumentSpec) : List (Text × List Text) :=
  (enums specs).map fun spec => (spec.name, d.literals filter spec.name)

/-- Whether the details of every enumeration are remembered. -/
def Detailed (d : SchemaData) (filter : Text) (specs : List ArgumentSpec) : Prop :=
  ∀ spec ∈ enums specs, (d.details.get? (detailKey filter spec.name)).isSome

def derive (filter : Text) (specs : List ArgumentSpec) (d : SchemaData) : SchemaData :=
  { d with
    shorthands := d.shorthands.insert filter
      (EnumShorthand.derive (specs.map (·.name)) (d.listed filter specs)) }

/-- Whether the second data answers whatever the first answers, and in the same way. -/
structure Extends (d d' : SchemaData) : Prop where
  answers : ∀ (q : Query) (a : q.Answer), q.known? d = some a → q.known? d' = some a
  shorthands : ∀ f l, d.shorthands.get? f = some l → d'.shorthands.get? f = some l

theorem Extends.refl (d : SchemaData) : d.Extends d := ⟨fun _ _ h => h, fun _ _ h => h⟩

theorem Extends.trans {d d' d'' : SchemaData} (h : d.Extends d') (h' : d'.Extends d'') :
    d.Extends d'' :=
  ⟨fun q a ha => h'.answers q a (h.answers q a ha),
    fun f l hl => h'.shorthands f l (h.shorthands f l hl)⟩

/-- Learning an answer that is missing takes nothing away. -/
theorem extends_learn {q : Query} {d : SchemaData} (h : q.known? d = none) (a : q.Answer) :
    d.Extends (q.learn a d) := by
  refine ⟨fun q' b hb => ?_, fun f l hl => ?_⟩
  · cases q <;> cases q' <;> first
      | exact hb
      | exact Table.get?_insert_of_none h hb
      | exact nomatch h.symm.trans hb
  · cases q <;> exact hl

/-- Deriving shorthands that are missing takes nothing away. -/
theorem extends_derive {d : SchemaData} {f : Text} (h : d.shorthands.get? f = none)
    (specs : List ArgumentSpec) : d.Extends (d.derive f specs) := by
  refine ⟨fun q a ha => ?_, fun f' l hl => ?_⟩
  · cases q <;> exact ha
  · exact Table.get?_insert_of_none h hl

end SchemaData

open SchemaData

/-- Whether a session in this state may ask a query: the answer is missing and, except for the
version itself, the data is current. The type of an argument must not be declared already. -/
def Session.MayAsk (s : Session) : Query → Prop
  | .version => s.live = none
  | .argument f a => s.Current ∧ s.data.details.get? (detailKey f a) = none ∧
      ∃ specs, s.data.args.get? f = some specs ∧
        ∀ spec ∈ specs.find? (·.name == a), spec.kind = .enum
  | q => s.Current ∧ q.known? s.data = none

/-- The steps of a session that succeed, all queries being among those it may make. -/
inductive Gain (tool : Tool) (may : Query → Prop) (s : Session) : Session → Prop where
  | told {v : Option Text} : s.live = none → tool s.queries .version = .ok v →
      Gain tool may s (s.told v)
  | reset {v : Option Text} : s.live = some v → s.version ≠ v → Gain tool may s (s.reset v)
  | learned {q : Query} {a : q.Answer} : may q → q ≠ .version → s.MayAsk q →
      tool s.queries q = .ok a → Gain tool may s ((s.noted (.asked q)).stored (q.learn a))
  | declared {f a : Text} {specs : List ArgumentSpec} {spec : ArgumentSpec} :
      may (.argument f a) → s.Current → s.data.details.get? (detailKey f a) = none →
      s.data.args.get? f = some specs → specs.find? (·.name == a) = some spec →
      spec.kind ≠ .enum →
      Gain tool may s (s.stored ((Query.argument f a).learn { kind := some spec.kind }))
  | derived {f : Text} {specs : List ArgumentSpec} : may (.filterArgs f) → s.Current →
      s.data.shorthands.get? f = none → s.data.args.get? f = some specs →
      s.data.Detailed f specs → Gain tool may s (s.stored (SchemaData.derive f specs))

abbrev Gains (tool : Tool) (may : Query → Prop) : Session → Session → Prop :=
  Relation.ReflTransGen (Gain tool may)

inductive Refused (tool : Tool) (may : Query → Prop) (e : ToolError) (s : Session) :
    Session → Prop where
  | mk {q : Query} : q = .version ∨ may q → s.MayAsk q → tool s.queries q = .error e →
      Refused tool may e s (s.noted (.asked q))

inductive Move (tool : Tool) (may : Query → Prop) (s : Session) : Session → Prop where
  | gain {s' : Session} : Gain tool may s s' → Move tool may s s'
  | refused {e : ToolError} {s' : Session} : Refused tool may e s s' → Move tool may s s'

abbrev Moves (tool : Tool) (may : Query → Prop) : Session → Session → Prop :=
  Relation.ReflTransGen (Move tool may)

variable {tool : Tool} {may : Query → Prop} {s s' : Session}

theorem Session.MayAsk.missing {q : Query} (h : s.MayAsk q) : q.known? s.data = none := by
  cases q with
  | version => rfl
  | argument f a => exact h.2.1
  | _ => exact h.2

theorem Session.MayAsk.current {q : Query} (h : s.MayAsk q) (hq : q ≠ .version) : s.Current := by
  cases q with
  | version => exact absurd rfl hq
  | _ => exact h.1

/-- A step from current data leaves it current and takes nothing back. -/
theorem Gain.extends (h : Gain tool may s s') (hs : s.Current) :
    s'.Current ∧ s.data.Extends s'.data := by
  cases h with
  | told hnone _ => exact nomatch hnone.symm.trans hs
  | reset hlive hne => exact absurd (Option.some.inj (hs.symm.trans hlive)) hne
  | learned _ _ hask _ => exact ⟨hs, extends_learn hask.missing _⟩
  | declared _ _ hnone _ _ _ =>
    exact ⟨hs, extends_learn (q := .argument _ _) hnone _⟩
  | derived _ _ hnone _ _ => exact ⟨hs, extends_derive hnone _⟩

/-- Current data stays current, and is only added to. -/
theorem Move.extends (h : Move tool may s s') (hs : s.Current) :
    s'.Current ∧ s.data.Extends s'.data := by
  cases h with
  | gain h => exact h.extends hs
  | refused h =>
    cases h
    exact ⟨hs, .refl _⟩

/-- What every move preserves holds however a session goes on. -/
theorem Moves.preserve {P : Session → Prop} (h : Moves tool may s s')
    (hmove : ∀ s s', P s → Move tool may s s' → P s') (hs : P s) : P s' := by
  induction h with
  | refl => exact hs
  | tail _ hlast ih => exact hmove _ _ ih hlast

/-- However a session goes on, what it remembers as current stays so. -/
theorem Moves.extends (h : Moves tool may s s') (hs : s.Current) :
    s'.Current ∧ s.data.Extends s'.data := by
  have hmove : ∀ t t' : Session, t.Current ∧ s.data.Extends t.data → Move tool may t t' →
      t'.Current ∧ s.data.Extends t'.data := by
    intro t t' ht hmove
    obtain ⟨hcurrent, hextends⟩ := hmove.extends ht.1
    exact ⟨hcurrent, ht.2.trans hextends⟩
  exact h.preserve hmove ⟨hs, .refl _⟩

theorem moves_of_gains (h : Gains tool may s s') : Moves tool may s s' := by
  induction h with
  | refl => exact .refl
  | tail _ hstep ih => exact ih.tail (.gain hstep)

theorem Gains.extends (h : Gains tool may s s') (hs : s.Current) :
    s'.Current ∧ s.data.Extends s'.data := Moves.extends (moves_of_gains h) hs

/-- Queries are only added. -/
theorem Gain.queries (h : Gain tool may s s') : ∃ asked, s'.queries = s.queries ++ asked := by
  cases h with
  | told _ _ => exact ⟨_, s.queries_told _⟩
  | learned _ _ _ _ => exact ⟨_, by rw [Session.queries_stored, Session.queries_noted]⟩
  | _ => exact ⟨[], by simp⟩

/-- Steps add queries behind those that have been asked. -/
theorem Gains.queries (h : Gains tool may s s') : ∃ asked, s'.queries = s.queries ++ asked := by
  induction h with
  | refl => exact ⟨[], by simp⟩
  | tail _ hstep ih =>
    obtain ⟨asked, hasked⟩ := ih
    obtain ⟨more, hmore⟩ := hstep.queries
    exact ⟨asked ++ more, by rw [hmore, hasked, List.append_assoc]⟩

end FilterLine
