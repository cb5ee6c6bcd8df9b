import FilterLine.Proofs.Cache.Run
import FilterLine.Proofs.Schema.Shorthand
import FilterLine.Proofs.Schema.SnapshotFile

/-!
The shorthands that a session remembers. They follow from the arguments and the details remembered
beside them, whatever the tool has answered and in whatever order: these are fetched before, and
nothing takes them back. Only the data of a file is taken as it stands.
-/
namespace FilterLine

namespace SchemaData

/-- Whether some literals are exactly those that one enumeration of a filter lists alone and that no
argument has as its name, each once, in the order in which they are first listed. -/
structure Exact (d : SchemaData) (filter : Text) (specs : List ArgumentSpec)
    (found : List EnumShorthand) : Prop where
  once : (found.map (·.literal)).Nodup
  sole : ∀ v a, ⟨v, a⟩ ∈ found ↔ v ∉ specs.map (·.name) ∧
    ∀ b, (∃ spec ∈ specs, spec.kind = .enum ∧ spec.name = b ∧ v ∈ d.literals filter b) ↔ b = a
  ordered :
    let listed := (enums specs).flatMap fun spec => d.literals filter spec.name
    found.Pairwise fun s s' => listed.idxOf s.literal < listed.idxOf s'.literal

/-- Whether all shorthands follow from the arguments and the details. -/
def Derived (d : SchemaData) : Prop :=
  ∀ f found, d.shorthands.get? f = some found → ∃ specs, d.args.get? f = some specs ∧
    d.Detailed f specs ∧ found = EnumShorthand.derive (specs.map (·.name)) (d.listed f specs)

variable {d d' : SchemaData} {f : Text} {specs : List ArgumentSpec}

/-- The tally keeps exactly the literals that may stand alone. -/
theorem exact_derive (d : SchemaData) (f : Text) (specs : List ArgumentSpec) :
    d.Exact f specs (EnumShorthand.derive (specs.map (·.name)) (d.listed f specs)) := by
  refine ⟨EnumShorthand.nodup_derive _ _, fun v a => ?_, ?_⟩
  · rw [EnumShorthand.mem_derive]
    have hlisted : ∀ b, (∃ l ∈ d.listed f specs, l.1 = b ∧ v ∈ l.2) ↔
        ∃ spec ∈ specs, spec.kind = .enum ∧ spec.name = b ∧ v ∈ d.literals f b := fun b => by
      simp only [listed, enums, List.mem_map, List.mem_filter, decide_eq_true_eq]
      constructor
      · rintro ⟨_, ⟨spec, ⟨hspec, hkind⟩, rfl⟩, rfl, hv⟩
        exact ⟨spec, hspec, hkind, rfl, hv⟩
      · rintro ⟨spec, hspec, hkind, rfl, hv⟩
        exact ⟨_, ⟨spec, ⟨hspec, hkind⟩, rfl⟩, rfl, hv⟩
    simp only [hlisted]
  · have hordered := EnumShorthand.pairwise_derive (specs.map (·.name)) (d.listed f specs)
    rw [listed, List.flatMap_map] at hordered
    exact hordered

theorem derived_empty : ({} : SchemaData).Derived := by
  intro f found h
  cases h

/-- Once all details are remembered, learning more changes none of the literals. -/
theorem literals_extends (h : d.Extends d') (hdetailed : d.Detailed f specs) :
    d'.Detailed f specs ∧ d'.listed f specs = d.listed f specs := by
  have hsame : ∀ spec ∈ enums specs, ∃ detail,
      d.details.get? (detailKey f spec.name) = some detail ∧
        d'.details.get? (detailKey f spec.name) = some detail := fun spec hspec => by
    obtain ⟨detail, hdetail⟩ := Option.isSome_iff_exists.mp (hdetailed spec hspec)
    exact ⟨detail, hdetail, h.answers (.argument f spec.name) detail hdetail⟩
  constructor
  · intro spec hspec
    obtain ⟨detail, -, hdetail⟩ := hsame spec hspec
    rw [hdetail]
    rfl
  · refine List.map_congr_left fun spec hspec => ?_
    obtain ⟨detail, hdetail, hdetail'⟩ := hsame spec hspec
    rw [literals, literals, hdetail, hdetail']

/-- What the shorthands follow from stays. -/
theorem Derived.of_extends (h : d.Derived) (hextends : d.Extends d')
    (hsame : d'.shorthands = d.shorthands) : d'.Derived := by
  intro f found hfound
  rw [hsame] at hfound
  obtain ⟨specs, hspecs, hdetailed, rfl⟩ := h f found hfound
  obtain ⟨hdetailed', hlisted⟩ := literals_extends hextends hdetailed
  exact ⟨specs, hextends.answers (.filterArgs f) specs hspecs, hdetailed', by rw [hlisted]⟩

/-- Deriving shorthands leaves data whose shorthands follow from it. -/
theorem Derived.derive (h : d.Derived) (hspecs : d.args.get? f = some specs)
    (hdetailed : d.Detailed f specs) : (d.derive f specs).Derived := by
  intro f' found hfound
  have hget : (d.derive f specs).shorthands.get? f' = if f' = f then some _ else _ :=
    Table.get?_insert ..
  rw [hget] at hfound
  by_cases hf : f' = f
  · rw [if_pos hf, Option.some.injEq] at hfound
    rw [hf]
    exact ⟨specs, hspecs, hdetailed, hfound.symm⟩
  · rw [if_neg hf] at hfound
    exact h f' found hfound

end SchemaData

/-- Whether all shorthands follow from the arguments and the details, those of the snapshots that
were offered for keeping included. -/
abbrev Session.Ruled (s : Session) : Prop := s.Keeps fun snapshot => snapshot.data.Derived

/-- Whether a session has done nothing to the snapshot of its file. -/
structure Session.Holds (held : Snapshot) (s : Session) : Prop where
  snapshot : s.cache.snapshot = held
  silent : ∀ snapshot, .offered snapshot ∉ s.journal

variable {tool : Tool} {may : Query → Prop} {s s' : Session} {held : Snapshot}

namespace Session

/-- A step that succeeds leaves shorthands that follow from the data. -/
theorem Ruled.gain (h : s.Ruled) (hgain : Gain tool may s s') : s'.Ruled := by
  cases hgain with
  | told _ _ => exact h.told _
  | reset _ _ => exact h.reset SchemaData.derived_empty
  | @learned q a _ _ hask _ =>
    have hsame : (q.learn a s.data).shorthands = s.data.shorthands := by
      cases q <;> rfl
    exact (h.noted q).stored
      (h.snapshot.of_extends (SchemaData.extends_learn hask.missing a) hsame)
  | declared _ _ hnone _ _ _ =>
    have hextends := SchemaData.extends_learn (q := .argument _ _) hnone
    exact h.stored (h.snapshot.of_extends (hextends _) rfl)
  | derived _ _ _ hspecs hdetailed => exact h.stored (h.snapshot.derive hspecs hdetailed)

theorem Ruled.move (h : s.Ruled) (hmove : Move tool may s s') : s'.Ruled := by
  cases hmove with
  | gain hgain => exact h.gain hgain
  | refused hrefused =>
    cases hrefused
    exact h.noted _

theorem Holds.noted (h : s.Holds held) (q : Query) : (s.noted (.asked q)).Holds held :=
  ⟨h.snapshot, fun snapshot hmem => h.silent snapshot (mem_noted.mp hmem)⟩

/-- What can have become of the snapshot of a file: it belongs to the running tool, it is untouched,
or it is gone. -/
inductive Resolved (held : Snapshot) (s : Session) : Prop where
  | own : s.live = some held.version → Resolved held s
  | untouched : s.Holds held → Resolved held s
  | gone : s.live ≠ none → s.Ruled → Resolved held s

/-- A version that is known stays known. -/
theorem live_move (hmove : Move tool may s s') {v : Option Text} (h : s.live = some v) :
    s'.live = some v := by
  cases hmove with
  | gain hgain =>
    cases hgain with
    | told hnone _ => exact nomatch h.symm.trans hnone
    | _ => exact h
  | refused hrefused =>
    cases hrefused
    exact h

/-- A step leaves the snapshot of the file untouched, or finds it current, or drops it. -/
theorem Holds.move (h : s.Holds held) (hmove : Move tool may s s') : s'.Resolved held := by
  have hversion : s.Current → s.live = some held.version := by
    intro hcurrent
    rw [hcurrent, version, h.snapshot]
  cases hmove with
  | gain hgain =>
    cases hgain with
    | told _ _ => exact .untouched ⟨h.snapshot, (h.noted .version).silent⟩
    | @reset v hlive _ =>
      have hknown : (s.reset v).live ≠ none := by simp [hlive]
      refine .gone hknown ⟨SchemaData.derived_empty, fun snapshot hmem => ?_⟩
      exact absurd (mem_reset.mp hmem) (h.silent snapshot)
    | learned _ hq hask _ => exact .own (hversion (hask.current hq))
    | declared _ hcurrent _ _ _ _ => exact .own (hversion hcurrent)
    | derived _ hcurrent _ _ _ => exact .own (hversion hcurrent)
  | refused hrefused =>
    cases hrefused
    exact .untouched (h.noted _)

theorem Resolved.move (h : s.Resolved held) (hmove : Move tool may s s') : s'.Resolved held := by
  cases h with
  | own hlive => exact .own (live_move hmove hlive)
  | untouched hholds => exact hholds.move hmove
  | gone hlive hruled =>
    obtain ⟨v, hv⟩ := Option.ne_none_iff_exists'.mp hlive
    have hknown : s'.live ≠ none := by simp [live_move hmove hv]
    exact .gone hknown (hruled.move hmove)

/-- A session that has no snapshot to start from. -/
theorem ruled_start {o : Origin} (h : o.start tool = some s) (hheld : o.held = none) :
    s.Ruled := by
  cases Origin.started_of_start h with
  | new _ => exact Origin.keeps_new SchemaData.derived_empty
  | taken hsome => exact nomatch hheld.symm.trans hsome
  | blank _ _ => exact Origin.keeps_blank SchemaData.derived_empty

theorem holds_start {o : Origin} (h : o.start tool = some s) (hheld : o.held = some held) :
    s.Holds held := by
  cases Origin.started_of_start h with
  | new hnone => exact nomatch hnone.symm.trans hheld
  | taken hsome =>
    cases hsome.symm.trans hheld
    exact ⟨rfl, by simp [Origin.taken]⟩
  | blank hnone _ => exact nomatch hnone.symm.trans hheld

/-- Once the running tool is known not to be that of the file, the file's data is gone. -/
theorem Resolved.ruled (h : s.Resolved held) (hsettled : s.Settled) {v : Option Text}
    (hlive : s.live = some v) (hne : v ≠ held.version) : s.Ruled := by
  cases h with
  | own hsame => exact absurd (Option.some.inj (hlive.symm.trans hsame)) hne
  | untouched hholds =>
    cases hsettled with
    | inl hnone => exact nomatch hlive.symm.trans hnone
    | inr hcurrent =>
      rw [Current, version, hholds.snapshot] at hcurrent
      exact absurd (Option.some.inj (hlive.symm.trans hcurrent)) hne
  | gone _ hruled => exact hruled

end Session

/-- Whatever the tool answers, all shorthands that a session remembers, and all that it has offered
for keeping, are exactly the literals that stand for one argument only. A session that starts from a
file is no exception once its tool turns out to be another than the file's; until the version is
known it leaves the snapshot of the file alone. -/
theorem shorthands_exact {tool : Tool} {o : Origin} {s₀ : Session} (h : o.start tool = some s₀)
    (calls : List Lookup) : let s := Lookup.runAll tool calls s₀
    (∀ held, o.held = some held → s.live = none → s.Holds held) ∧
    ((∀ held, o.held = some held → ∃ v, s.live = some v ∧ v ≠ held.version) →
      ∀ d, d = s.data ∨ (∃ version, .offered ⟨version, d⟩ ∈ s.journal) →
        ∀ f found, d.shorthands.get? f = some found →
          ∃ specs, d.args.get? f = some specs ∧ d.Exact f specs found) := by
  intro s
  have hmoves : Moves tool (fun _ => True) s₀ s := Lookup.moves_runAll calls s₀
  have hsettled : s.Settled := Lookup.settled_runAll calls (Origin.settled_start h)
  have hresolved : ∀ held, o.held = some held → s.Resolved held := by
    intro held hheld
    have hstart : s₀.Resolved held := .untouched (Session.holds_start h hheld)
    exact hmoves.preserve (fun _ _ => Session.Resolved.move) hstart
  constructor
  · intro held hheld hnone
    cases hresolved held hheld with
    | own hlive => exact nomatch hnone.symm.trans hlive
    | untouched hholds => exact hholds
    | gone hlive _ => exact absurd hnone hlive
  · intro hother d hd f found hfound
    have hruled : s.Ruled := by
      cases hheld : o.held with
      | none => exact hmoves.preserve (fun _ _ => Session.Ruled.move) (Session.ruled_start h hheld)
      | some held =>
        obtain ⟨v, hlive, hne⟩ := hother held hheld
        exact (hresolved held hheld).ruled hsettled hlive hne
    have hderived : d.Derived := by
      rcases hd with rfl | ⟨version, hmem⟩
      · exact hruled.snapshot
      · exact hruled.offered _ hmem
    obtain ⟨specs, hspecs, -, rfl⟩ := hderived f found hfound
    exact ⟨specs, hspecs, SchemaData.exact_derive d f specs⟩

/-- A tool with a filter two of whose enumerations share a literal, and list the name of a third
argument. -/
def Tool.quarrel : Tool := .fixed fun q => .ok (match q with
  | .version => some "2"
  | .filters | .modules | .props => []
  | .protocols => []
  | .filterArgs _ => [⟨"mode", .enum⟩, ⟨"kind", .enum⟩, ⟨"name", .str⟩]
  | .argument _ a => ⟨some .enum, if a = "mode" then ["a", "b", "b"] else ["c", "a", "name"]⟩)

def Snapshot.stale : Snapshot where
  version := some "1"
  data := { shorthands := ⟨[("f", [⟨"x", "mode"⟩, ⟨"x", "kind"⟩])], by decide⟩ }

theorem shorthands_exact_quarrel :
    let s := Lookup.runAll .quarrel [.shorthands "f"] (Origin.taken .stale)
    s.data.shorthands.get? "f" = some [⟨"b", "mode"⟩, ⟨"c", "kind"⟩] ∧
      ∃ specs, s.data.args.get? "f" = some specs ∧
        s.data.Exact "f" specs [⟨"b", "mode"⟩, ⟨"c", "kind"⟩] := by
  have hparsed : Snapshot.stale.Parsed :=
    ⟨by simp [Snapshot.stale, Table.empty], by simp [Snapshot.stale, Table.empty]⟩
  obtain ⟨content, hcontent⟩ : ∃ content, Snapshot.load? content = some .stale :=
    ⟨_, Snapshot.load?_save hparsed⟩
  have hstart : (Origin.file (some content)).start .quarrel = some (Origin.taken .stale) := by
    rw [Origin.start, Option.bind_some, hcontent]
    rfl
  have hlive : (Lookup.runAll .quarrel [.shorthands "f"] (Origin.taken .stale)).live =
      some (some ("2" : Text)) := rfl
  have hfound : (Lookup.runAll .quarrel [.shorthands "f"]
      (Origin.taken .stale)).data.shorthands.get? "f" =
      some [⟨"b", "mode"⟩, ⟨"c", "kind"⟩] := rfl
  refine ⟨hfound, (shorthands_exact hstart [.shorthands "f"]).2 (fun held hheld => ?_) _
    (.inl rfl) "f" _ hfound⟩
  cases hcontent.symm.trans hheld
  exact ⟨_, hlive, by decide⟩

end FilterLine
