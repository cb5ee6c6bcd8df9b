import FilterLine.Proofs.Cache.Once
import FilterLine.Proofs.Cache.Outdated

/-!
What a session leaves behind. Whatever it learns it offers at once, so while writes succeed the file
keeps what is remembered. There is one gap: data of another version is dropped without a write, and
until the tool has answered something the file is as it was found. A session that is opened on the
file afterwards has all the answers that were given before.
-/
namespace FilterLine

def Tool.Parsed (tool : Tool) : Prop :=
  ∀ past q a, tool past q = .ok a → q.Parsed a

theorem Origin.parsed_held {o : Origin} {s : Snapshot} (h : o.held = some s) : s.Parsed := by
  cases o with
  | memory => cases h
  | file content =>
    obtain ⟨bytes, -, hload⟩ := Option.bind_eq_some_iff.mp h
    exact Snapshot.parsed_of_load? hload

namespace Session

variable {tool : Tool} {may : Query → Prop} {s s' : Session} {held : Option Snapshot}

/-- Neither success nor failure brings in a type that was not read from a tag. -/
theorem keeps_parsed_move (htool : tool.Parsed) (h : s.Keeps Snapshot.Parsed)
    (hmove : Move tool may s s') : s'.Keeps Snapshot.Parsed := by
  cases hmove with
  | refused hrefused =>
    cases hrefused
    exact h.noted _
  | gain hgain =>
    cases hgain with
    | told _ _ => exact h.told _
    | reset _ _ => exact h.reset SchemaData.parsed_empty
    | learned _ _ _ ha =>
      exact (h.noted _).stored (SchemaData.Parsed.learned h.snapshot (htool _ _ _ ha))
    | @declared f a specs spec _ _ _ hspecs hfind _ =>
      have hspec : spec.kind.Parsed :=
        SchemaData.Parsed.specs h.snapshot hspecs (List.mem_of_find?_eq_some hfind)
      have hdetail : (Query.argument f a).Parsed { kind := some spec.kind } := by
        intro k hk
        cases hk
        exact hspec
      exact h.stored (SchemaData.Parsed.learned h.snapshot hdetail)
    | derived _ _ _ _ _ =>
      have hparsed : s.data.Parsed := h.snapshot
      exact h.stored ⟨hparsed.args, hparsed.details⟩

/-- A file keeps types that were read from tags, so a session starts with no others. -/
theorem keeps_parsed_start {o : Origin} (h : o.start tool = some s) :
    s.Keeps Snapshot.Parsed := by
  cases Origin.started_of_start h with
  | new _ => exact Origin.keeps_new SchemaData.parsed_empty
  | taken hsome => exact Origin.keeps_taken (Origin.parsed_held hsome)
  | blank _ _ => exact Origin.keeps_blank SchemaData.parsed_empty

/-- Whether what was remembered has been dropped and the tool has answered nothing since. Before that
nothing but the version is asked. -/
structure Emptied (tool : Tool) (s : Session) : Prop where
  dropped : ∃ held live, .outdated held live ∈ s.journal
  unanswered : ∀ q ∈ tool.answered [] s.queries, q = .version

/-- How the snapshot in memory stands to the snapshots that were offered, and to the one that was
found in the file. -/
inductive Kept (tool : Tool) (found : Option Snapshot) (s : Session) : Prop where
  /-- It was offered, and nothing has changed since. -/
  | offered : s.Current → (offeredIn s.journal).getLast? = some s.cache.snapshot →
      ¬ s.Emptied tool → Kept tool found s
  /-- It is that of the file. -/
  | found : offeredIn s.journal = [] → found = some s.cache.snapshot →
      (∀ held live, .outdated held live ∉ s.journal) → Kept tool found s
  /-- It has no data, and there is nothing to offer yet. -/
  | emptied : offeredIn s.journal = [] → s.Current → s.data = {} → s.Emptied tool →
      Kept tool found s

theorem offeredIn_noted (s : Session) (q : Query) :
    offeredIn (s.noted (.asked q)).journal = offeredIn s.journal := by
  simp [noted, offeredIn, Event.offered?]

/-- A change of the data offers the snapshot that has it. -/
theorem getLast?_offeredIn_stored (s : Session) (store : SchemaData → SchemaData) :
    (offeredIn (s.stored store).journal).getLast? = some (s.stored store).cache.snapshot := by
  simp [stored, offeredIn, Event.offered?]

theorem emptied_stored {store : SchemaData → SchemaData} :
    (s.stored store).Emptied tool ↔ s.Emptied tool := by
  have hmem : ∀ held live, .outdated held live ∈ (s.stored store).journal ↔
      .outdated held live ∈ s.journal := by simp [stored]
  constructor
  · intro h
    obtain ⟨held, live, hdropped⟩ := h.dropped
    exact ⟨⟨held, live, (hmem _ _).mp hdropped⟩, by simpa using h.unanswered⟩
  · intro h
    obtain ⟨held, live, hdropped⟩ := h.dropped
    exact ⟨⟨held, live, (hmem _ _).mpr hdropped⟩, by simpa using h.unanswered⟩

theorem mem_outdated_noted {v live : Option Text} {q : Query} :
    .outdated v live ∈ (s.noted (.asked q)).journal ↔ .outdated v live ∈ s.journal := by
  simp [noted]

/-- A session that has data is not one that was emptied. -/
theorem Kept.not_emptied (h : s.Kept tool held) (hdata : s.data ≠ {}) : ¬ s.Emptied tool := by
  cases h with
  | offered _ _ hnot => exact hnot
  | found _ _ hnone =>
    rintro ⟨⟨v, live, hmem⟩, -⟩
    exact hnone v live hmem
  | emptied _ _ hempty _ => exact absurd hempty hdata

/-- Being told the version offers nothing and drops nothing. -/
theorem Kept.told (h : s.Kept tool held) (hnone : s.live = none) (v : Option Text) :
    (s.told v).Kept tool held := by
  cases h with
  | offered hcurrent _ _ => exact nomatch hnone.symm.trans hcurrent
  | found hsilent hfound hkept =>
    refine .found ((offeredIn_noted s .version).trans hsilent) hfound fun v' live hmem => ?_
    exact hkept v' live (mem_outdated_noted.mp hmem)
  | emptied _ hcurrent _ _ => exact nomatch hnone.symm.trans hcurrent

/-- Data of another version is that of the file, and it is dropped before the tool has answered
anything but its version. -/
theorem Kept.reset (h : s.Kept tool held) (honce : Once tool s) {v : Option Text}
    (hlive : s.live = some v) (hne : s.version ≠ v) : (s.reset v).Kept tool held := by
  have hnot : ¬ s.Current := fun hcurrent =>
    hne (Option.some.inj (hcurrent.symm.trans hlive))
  cases h with
  | offered hcurrent _ _ => exact absurd hcurrent hnot
  | found hsilent _ _ =>
    have hsilent' : offeredIn (s.reset v).journal = [] := by
      rw [Session.reset, offeredIn_append, hsilent]
      rfl
    refine .emptied hsilent' hlive rfl ⟨⟨s.version, v, by simp [Session.reset]⟩, fun q hq => ?_⟩
    rw [queries_reset] at hq
    apply Decidable.byContradiction
    intro hq'
    exact hnot (honce.remembered q hq hq').1
  | emptied _ hcurrent _ _ => exact absurd hcurrent hnot

/-- A step that succeeds offers what it changes, or drops what belongs to another version. -/
theorem Kept.gain (h : s.Kept tool held) (honce : Once tool s) (hgain : Gain tool may s s') :
    s'.Kept tool held := by
  cases hgain with
  | told hnone _ => exact h.told hnone _
  | reset hlive hne => exact h.reset honce hlive hne
  | @learned q a _ hq hask ha =>
    refine .offered (hask.current hq) (getLast?_offeredIn_stored _ _) ?_
    rw [emptied_stored]
    rintro ⟨-, hunanswered⟩
    rw [queries_noted, Tool.answered_ok ha] at hunanswered
    exact hq (hunanswered q (by simp))
  | declared _ hcurrent _ hspecs _ _ =>
    refine .offered hcurrent (getLast?_offeredIn_stored _ _) ?_
    rw [emptied_stored]
    refine h.not_emptied fun hempty => ?_
    rw [hempty] at hspecs
    cases hspecs
  | derived _ hcurrent _ hspecs _ =>
    refine .offered hcurrent (getLast?_offeredIn_stored _ _) ?_
    rw [emptied_stored]
    refine h.not_emptied fun hempty => ?_
    rw [hempty] at hspecs
    cases hspecs

/-- A query that fails changes nothing that could be offered. -/
theorem Kept.refused (h : s.Kept tool held) {e : ToolError} (hrefused : Refused tool may e s s') :
    s'.Kept tool held := by
  obtain ⟨-, -, he⟩ := hrefused
  rename_i q
  have hemptied : (s.noted (.asked q)).Emptied tool ↔ s.Emptied tool := by
    constructor
    · rintro ⟨⟨v, live, hmem⟩, hunanswered⟩
      rw [queries_noted, Tool.answered_error he] at hunanswered
      exact ⟨⟨v, live, mem_outdated_noted.mp hmem⟩, hunanswered⟩
    · rintro ⟨⟨v, live, hmem⟩, hunanswered⟩
      refine ⟨⟨v, live, mem_outdated_noted.mpr hmem⟩, ?_⟩
      rw [queries_noted, Tool.answered_error he]
      exact hunanswered
  have hsame := offeredIn_noted s q
  cases h with
  | offered hcurrent hlast hnot =>
    exact .offered hcurrent (hsame ▸ hlast) (hemptied.not.mpr hnot)
  | found hsilent hfound hnone =>
    exact .found (hsame.trans hsilent) hfound fun v live hmem =>
      hnone v live (mem_outdated_noted.mp hmem)
  | emptied hsilent hcurrent hdata h =>
    exact .emptied (hsame.trans hsilent) hcurrent hdata (hemptied.mpr h)

theorem Kept.move (h : s.Kept tool held) (honce : Once tool s) (hmove : Move tool may s s') :
    s'.Kept tool held := by
  cases hmove with
  | gain hgain => exact h.gain honce hgain
  | refused hrefused => exact h.refused hrefused

/-- A session starts from the snapshot of its file, or from a blank one that it offers. -/
theorem Kept.start (h : (Cache.start tool held).result {} = (.ok (), s)) : s.Kept tool held := by
  cases held with
  | some snapshot =>
    have hresult : (Cache.start tool (some snapshot)).result {} = (.ok (), Origin.taken snapshot) :=
      rfl
    cases hresult.symm.trans h
    exact .found rfl rfl (by simp [Origin.taken])
  | none =>
    cases hversion : tool [] .version with
    | error e => cases (Origin.result_start_error hversion).symm.trans h
    | ok v =>
      cases (Origin.result_start_ok hversion).symm.trans h
      refine .offered rfl rfl ?_
      rintro ⟨⟨v', live, hmem⟩, -⟩
      simp [Origin.blank] at hmem

/-- What is remembered is in the file, unless it was emptied; then nothing has been written. -/
theorem Kept.file {d : Disk} {path : Text} (h : s.Kept tool (CacheFile.load d path).snapshot?)
    (hparsed : s.cache.snapshot.Parsed) (hwrites : CacheFile.WritesSucceed path d s.journal) :
    (¬ s.Emptied tool → (CacheFile.load (CacheFile.keepOffered path d s.journal) path).snapshot? =
      some s.cache.snapshot) ∧
    (s.Emptied tool → CacheFile.keepOffered path d s.journal = d) := by
  cases h with
  | offered _ hlast hnot =>
    exact ⟨fun _ => CacheFile.snapshot?_load_keepOffered hwrites hlast hparsed,
      fun h => absurd h hnot⟩
  | found hsilent hfound hnone =>
    rw [CacheFile.keepOffered_of_none hsilent]
    exact ⟨fun _ => hfound, fun _ => rfl⟩
  | emptied hsilent _ _ h =>
    exact ⟨fun hnot => absurd h hnot, fun _ => CacheFile.keepOffered_of_none hsilent⟩

end Session

namespace Lookup

variable {tool : Tool} {s : Session}

theorem known?_empty (l : Lookup) : l.known? {} = none := by
  cases l <;> rfl

def Gave (tool : Tool) (s : Session) (calls : List Lookup) (l : Lookup) (v : l.Answer) : Prop :=
  ∃ before after s', calls = before ++ l :: after ∧
    (l.act tool).result (runAll tool before s) = (.ok v, s')

theorem runAll_append (before after : List Lookup) (s : Session) :
    runAll tool (before ++ after) s = runAll tool after (runAll tool before s) :=
  List.foldl_append

/-- An answer that was given is remembered until the end. -/
theorem Gave.known? {calls : List Lookup} {l : Lookup} {v : l.Answer} (h : Gave tool s calls l v) :
    l.known? (runAll tool calls s).data = some v := by
  obtain ⟨before, after, s', rfl, hv⟩ := h
  obtain ⟨-, hcurrent, hknown⟩ := act_ok (fun _ _ => trivial) hv
  have hrun : runAll tool (before ++ l :: after) s = runAll tool after s' := by
    rw [runAll_append, runAll, List.foldl_cons, hv, runAll]
  rw [hrun]
  exact known?_extends ((moves_runAll after s').extends hcurrent).2 hknown

end Lookup

namespace Origin

variable {tool : Tool} {held : Snapshot}

/-- The snapshot of a file answers as soon as the version is known to be the same. -/
theorem result_act_own (hversion : tool [] .version = .ok held.version) {l : Lookup} {v : l.Answer}
    (hv : l.known? held.data = some v) :
    (l.act tool).result (taken held) = (.ok v, (taken held).told held.version) := by
  have hcurrent : ((taken held).told held.version).Current := rfl
  have hsame : ((taken held).told held.version).version = held.version := rfl
  have hensure : (Cache.ensureCurrent tool).result (taken held) =
      (Cache.ensureCurrent tool).result ((taken held).told held.version) := by
    rw [Cache.result_ensureCurrent_of_live (result_liveVersion_taken hversion), if_pos hsame,
       Cache.result_ensureCurrent hcurrent]
  rw [Lookup.result_act_congr l hensure]
  exact Lookup.result_act hcurrent hv

/-- Accessors that find their answers in the file need nothing but the version of the tool. -/
theorem runAll_own (hversion : tool [] .version = .ok held.version) {calls : List Lookup}
    (hcalls : ∀ l ∈ calls, ∃ v, l.known? held.data = some v) (hne : calls ≠ []) :
    Lookup.runAll tool calls (taken held) = (taken held).told held.version := by
  have hhits : ∀ calls : List Lookup, (∀ l ∈ calls, ∃ v, l.known? held.data = some v) →
      Lookup.runAll tool calls ((taken held).told held.version) =
        (taken held).told held.version := by
    intro calls hcalls
    induction calls with
    | nil => rfl
    | cons l calls ih =>
      obtain ⟨v, hv⟩ := hcalls l (by simp)
      have hresult : (l.act tool).result ((taken held).told held.version) = (.ok v, _) :=
        Lookup.result_act rfl hv
      rw [Lookup.runAll, List.foldl_cons, hresult]
      exact ih fun k hk => hcalls k (List.mem_cons_of_mem _ hk)
  cases calls with
  | nil => exact absurd rfl hne
  | cons l calls =>
    obtain ⟨v, hv⟩ := hcalls l (by simp)
    rw [Lookup.runAll, List.foldl_cons, result_act_own hversion hv]
    exact hhits calls fun k hk => hcalls k (List.mem_cons_of_mem _ hk)

/-- A session on a file of the running version gives what the file keeps, and asks for nothing but
the version. -/
theorem act_own (hversion : tool [] .version = .ok held.version) {calls : List Lookup}
    (hcalls : ∀ l ∈ calls, ∃ v, l.known? held.data = some v) {l : Lookup} {v : l.Answer}
    (hv : l.known? held.data = some v) :
    ∃ s, (l.act tool).result (Lookup.runAll tool calls (taken held)) = (.ok v, s) ∧
      s.queries = [.version] := by
  refine ⟨(taken held).told held.version, ?_, rfl⟩
  by_cases hne : calls = []
  · subst hne
    exact result_act_own hversion hv
  · rw [runAll_own hversion hcalls hne]
    exact Lookup.result_act rfl hv

end Origin

/-- While writes succeed, the file behind a session keeps exactly what is remembered: after every
call that succeeds, and after one that fails unless data of another version was dropped and nothing
has been fetched since; then the disk is as it was found. A session of the same version that is
opened on what a call that succeeded has left gives all answers that were given before, and asks for
nothing but the version. -/
theorem durable_across_reopening {tool : Tool} (htool : tool.Parsed) {d : Disk} {path : Text}
    {s₀ s : Session}
    (hstart : (Cache.start tool (CacheFile.load d path).snapshot?).result {} = (.ok (), s₀))
    {calls : List Lookup} {l : Lookup} {r : Except ToolError l.Answer}
    (hcall : (l.act tool).result (Lookup.runAll tool calls s₀) = (r, s))
    (hwrites : CacheFile.WritesSucceed path d s.journal) :
    let d' := CacheFile.keepOffered path d s.journal
    ((∃ v, r = .ok v) ∨ ¬ s.Emptied tool →
      (CacheFile.load d' path).snapshot? = some s.cache.snapshot) ∧
    (s.Emptied tool → d' = d) ∧
    ((∃ v, r = .ok v) → ∀ (v : Option Text) (tool' : Tool), s.live = some v →
      tool' [] .version = .ok v →
      ∃ s₁, (Cache.start tool' (CacheFile.load d' path).snapshot?).result {} = (.ok (), s₁) ∧
        s₁.queries = [] ∧
        ∀ again : List Lookup, (∀ k ∈ again, ∃ w, Lookup.Gave tool s₀ (calls ++ [l]) k w) →
          ∀ k w, Lookup.Gave tool s₀ (calls ++ [l]) k w →
            ∃ s₂, (k.act tool').result (Lookup.runAll tool' again s₁) = (.ok w, s₂) ∧
              s₂.queries = [.version]) := by
  intro d'
  have hrun : Lookup.runAll tool (calls ++ [l]) s₀ = s := by
    rw [Lookup.runAll_append, Lookup.runAll, List.foldl_cons, hcall, List.foldl_nil]
  have hmoves : Moves tool (fun _ => True) s₀ s := hrun ▸ Lookup.moves_runAll (calls ++ [l]) s₀
  have horigin : (Origin.file (d.read path).toOption).start tool = some s₀ := by
    rw [Origin.start, ← CacheFile.snapshot?_load, hstart]
  have hkept : Once tool s ∧ s.Kept tool (CacheFile.load d path).snapshot? := by
    refine hmoves.preserve
      (P := fun t => Once tool t ∧ t.Kept tool (CacheFile.load d path).snapshot?)
      (fun t t' h hmove => ⟨h.1.move hmove, h.2.move h.1 hmove⟩) ⟨Once.start horigin, .start hstart⟩
  have hparsed₀ : s₀.Keeps Snapshot.Parsed := Session.keeps_parsed_start horigin
  have hparsed : s.Keeps Snapshot.Parsed :=
    hmoves.preserve (fun _ _ => Session.keeps_parsed_move htool) hparsed₀
  obtain ⟨hsaved, hsame⟩ := hkept.2.file hparsed.snapshot hwrites
  have hok : (∃ v, r = .ok v) → s.Current ∧ ¬ s.Emptied tool := by
    rintro ⟨v, rfl⟩
    obtain ⟨-, hcurrent, hknown⟩ := Lookup.act_ok (fun _ _ => trivial) hcall
    refine ⟨hcurrent, hkept.2.not_emptied fun hempty => ?_⟩
    rw [hempty, Lookup.known?_empty] at hknown
    cases hknown
  refine ⟨?_, hsame, ?_⟩
  · rintro (hv | hnot)
    · exact hsaved (hok hv).2
    · exact hsaved hnot
  · intro hv v tool' hlive hversion
    obtain ⟨hcurrent, hnot⟩ := hok hv
    cases Option.some.inj (hlive.symm.trans hcurrent)
    rw [hsaved hnot]
    have hknown : ∀ k w, Lookup.Gave tool s₀ (calls ++ [l]) k w → k.known? s.data = some w :=
      fun k w hgave => hrun ▸ hgave.known?
    refine ⟨Origin.taken s.cache.snapshot, rfl, rfl, fun again hagain k w hgave => ?_⟩
    refine Origin.act_own hversion (fun k hk => ?_) (hknown k w hgave)
    obtain ⟨w, hw⟩ := hagain k hk
    exact ⟨w, hknown k w hw⟩

/-- A disk with one file, which an older version has left. -/
def Disk.inherited : Disk where
  root := .directory [("c", .file (Utf8.encode Snapshot.hearsay.save))]

theorem durable_across_reopening_stumbling :
    let t := Lookup.runAll .stumbling [.filters] (Origin.taken .hearsay)
    let s := Lookup.runAll .stumbling [.filters, .shorthands "f"] (Origin.taken .hearsay)
    let d := CacheFile.keepOffered "c" .inherited s.journal
    t.Emptied .stumbling ∧ CacheFile.keepOffered "c" .inherited t.journal = .inherited ∧
      (CacheFile.load d "c").snapshot? = some s.cache.snapshot ∧
      ∃ s₁ s₂, (Cache.start .stumbling (CacheFile.load d "c").snapshot?).result {} = (.ok (), s₁) ∧
        ((Lookup.shorthands "f").act .stumbling).result s₁ = (.ok [⟨"fast", "mode"⟩], s₂) ∧
        s₂.queries = [.version] := by
  have henum : ArgType.enum.Parsed := ⟨"enum", by decide⟩
  have htool : Tool.stumbling.Parsed := by
    intro past q a ha
    simp only [Tool.stumbling] at ha
    split at ha
    · cases ha
    · cases ha
      cases q <;> simp [Query.Parsed, ArgumentDetail.Parsed, henum]
  have hload : (CacheFile.load .inherited "c").snapshot? = some .hearsay := by
    have hread : Disk.inherited.read "c" = .ok (Utf8.encode Snapshot.hearsay.save) := rfl
    rw [CacheFile.snapshot?_load, hread, Except.toOption, Option.bind_some]
    exact Snapshot.load?_save
      ⟨by simp [Snapshot.hearsay, Table.empty], by simp [Snapshot.hearsay, Table.empty]⟩
  have hstart : (Cache.start .stumbling (CacheFile.load .inherited "c").snapshot?).result {} =
      (.ok (), Origin.taken .hearsay) := by
    rw [hload]
    rfl
  have hemptied : (Lookup.runAll .stumbling [.filters] (Origin.taken .hearsay)).Emptied
      .stumbling :=
    ⟨⟨some "1", some "2", by decide⟩, by decide⟩
  have hfails : (Lookup.filters.act .stumbling).result (Lookup.runAll .stumbling []
      (Origin.taken .hearsay)) = (.error (.exit "tool" (some 1)), _) := rfl
  have hanswers : ((Lookup.shorthands "f").act .stumbling).result (Lookup.runAll .stumbling
      [.filters] (Origin.taken .hearsay)) = (.ok [⟨"fast", "mode"⟩], _) := rfl
  obtain ⟨-, hsame, -⟩ := durable_across_reopening htool hstart hfails trivial
  obtain ⟨hsaved, -, hreopen⟩ := durable_across_reopening htool hstart hanswers
    ⟨rfl, rfl, rfl, trivial⟩
  obtain ⟨s₁, hs₁, -, hagain⟩ := hreopen ⟨_, rfl⟩ (some "2") .stumbling rfl rfl
  obtain ⟨s₂, hs₂, hqueries⟩ := hagain [] (by simp) (.shorthands "f") _
    ⟨[.filters], [], _, rfl, rfl⟩
  exact ⟨hemptied, hsame hemptied, hsaved (.inl ⟨_, rfl⟩), s₁, s₂, hs₁, hs₂, hqueries⟩

end FilterLine
