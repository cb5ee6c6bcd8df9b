import FilterLine.Proofs.Cache.Reference
import FilterLine.Proofs.Cache.Run

/-!
Sessions that share one file. They are opened on it at any time, their calls and their writes come
in any order, and the tool behind each may be another release, newer or older. Every snapshot, in
memory or in the file, is right for the version that it bears, and each session looks at its
snapshot only after it has made sure of the version: so none ever gives an answer that its own tool
would not give.
-/
namespace FilterLine

/-- The releases of a tool. Those of one version are the same. -/
structure Releases (ι : Type) where
  reply : ι → Reply
  same : ∀ i j, reply i .version = reply j .version → reply i = reply j
  parsed : ∀ i, (reply i).Parsed

variable {ι : Type} {releases : Releases ι} {i : ι} {s s' : Session}

/-- Whether a snapshot is right for every release of the version that it bears. -/
structure Snapshot.Sound (releases : Releases ι) (s : Snapshot) : Prop where
  parsed : s.Parsed
  data : ∀ i, releases.reply i .version = s.version → s.data.Sound (releases.reply i)

/-- Whether a session of a release knows no version but the right one, and all its snapshots are
sound. -/
structure Session.Faithful (releases : Releases ι) (i : ι) (s : Session) : Prop where
  live : ∀ v, s.live = some v → v = releases.reply i .version
  keeps : s.Keeps (Snapshot.Sound releases)

/-- A snapshot with right answers of one release is right for every release of its version. -/
theorem Snapshot.sound_of_release {s : Snapshot} (hversion : s.version = releases.reply i .version)
    (hparsed : s.Parsed) (hsound : s.data.Sound (releases.reply i)) : s.Sound releases := by
  refine ⟨hparsed, fun j hj => ?_⟩
  rw [releases.same j i (hj.trans hversion)]
  exact hsound

/-- A snapshot without data says nothing wrong. -/
theorem Snapshot.sound_blank (releases : Releases ι) (v : Option Text) :
    ({ version := v } : Snapshot).Sound releases :=
  ⟨SchemaData.parsed_empty, fun i _ => SchemaData.sound_empty (releases.reply i)⟩

/-- A query that may be asked is one whose answer is to be kept as it is. -/
theorem kept_of_mayAsk {r : Reply} (h : s.data.Sound r) {q : Query} (hq : q.Plain)
    (hask : s.MayAsk q) : r.kept q = r q := by
  cases q with
  | argument f a =>
    obtain ⟨-, -, specs, hspecs, hkind⟩ := hask
    cases h.args f hq specs hspecs
    simp only [Reply.kept, Reply.detail]
    cases hfind : (r (.filterArgs f)).find? (·.name == a) with
    | none => rfl
    | some spec => exact if_pos (hkind spec hfind)
  | _ => rfl

/-- An argument of another type has no literals. -/
theorem kept_of_declared {r : Reply} (h : s.data.Sound r) {f a : Text} (hf : '.' ∉ f)
    {specs : List ArgumentSpec} {spec : ArgumentSpec} (hspecs : s.data.args.get? f = some specs)
    (hfind : specs.find? (·.name == a) = some spec) (hkind : spec.kind ≠ .enum) :
    r.kept (.argument f a) = { kind := some spec.kind } := by
  cases h.args f hf specs hspecs
  simp only [Reply.kept, Reply.detail, hfind, if_neg hkind]

namespace Session.Faithful

/-- The data of a session that is current is right for its own release. -/
theorem sound (h : s.Faithful releases i) (hs : s.Current) :
    s.version = releases.reply i .version ∧ s.data.Sound (releases.reply i) := by
  have hversion := h.live s.version hs
  exact ⟨hversion, h.keeps.snapshot.data i hversion.symm⟩

/-- What a current session stores is sound if it is right for its own release. -/
theorem stored (h : s.Faithful releases i) (hs : s.Current) {store : SchemaData → SchemaData}
    (hparsed : (store s.data).Parsed) (hsound : (store s.data).Sound (releases.reply i)) :
    (s.stored store).Faithful releases i :=
  ⟨h.live, h.keeps.stored (Snapshot.sound_of_release (h.sound hs).1 hparsed hsound)⟩

variable {fails : List Query → Query → Option ToolError}

/-- A step that succeeds leaves a session faithful. -/
theorem gain (h : s.Faithful releases i)
    (hgain : Gain (.failing (releases.reply i) fails) Query.Plain s s') :
    s'.Faithful releases i := by
  have hparsed := h.keeps.snapshot.parsed
  cases hgain with
  | told _ hv =>
    refine ⟨fun v hlive => ?_, h.keeps.told _⟩
    cases hlive
    exact Tool.failing_ok hv
  | @reset v _ _ => exact ⟨h.live, h.keeps.reset (Snapshot.sound_blank releases v)⟩
  | @learned q a hq hne hask ha =>
    have hcurrent := hask.current hne
    have hsound := (h.sound hcurrent).2
    have hnoted : (s.noted (.asked q)).Faithful releases i := ⟨h.live, h.keeps.noted q⟩
    rw [Tool.failing_ok ha, ← kept_of_mayAsk hsound hq hask]
    exact hnoted.stored hcurrent (SchemaData.Parsed.learn hparsed (releases.parsed i) _)
      (hsound.learn hq)
  | declared hf hcurrent _ hspecs hfind hkind =>
    have hsound := (h.sound hcurrent).2
    rw [← kept_of_declared hsound hf hspecs hfind hkind]
    exact h.stored hcurrent (SchemaData.Parsed.learn hparsed (releases.parsed i) _)
      (hsound.learn hf)
  | derived hf hcurrent _ hspecs hdetailed =>
    exact h.stored hcurrent ⟨hparsed.args, hparsed.details⟩
      ((h.sound hcurrent).2.derive hf hspecs hdetailed)

/-- Whether a step succeeds or fails, the session stays faithful. -/
theorem move (h : s.Faithful releases i)
    (hmove : Move (.failing (releases.reply i) fails) Query.Plain s s') :
    s'.Faithful releases i := by
  cases hmove with
  | gain hgain => exact h.gain hgain
  | refused hrefused =>
    cases hrefused
    exact ⟨h.live, h.keeps.noted _⟩

/-- Whatever an accessor answers is right. -/
theorem value (h : s.Faithful releases i) {l : Lookup} (hl : l.Plain) {v : l.Answer}
    (hv : (l.act (.failing (releases.reply i) fails)).result s = (.ok v, s')) :
    v = l.value (releases.reply i) := by
  obtain ⟨hgains, hcurrent, hknown⟩ := Lookup.act_ok (fun _ hq => hl.needs hq) hv
  have hfaithful := (moves_of_gains hgains).preserve (fun _ _ => move) h
  exact (hfaithful.sound hcurrent).2.known? hl hknown

end Session.Faithful

def Event.offered? : Event → Option Snapshot
  | offered s => some s
  | _ => none

def offeredIn (journal : List Event) : List Snapshot := journal.filterMap Event.offered?

theorem mem_offeredIn {journal : List Event} {snapshot : Snapshot}
    (h : snapshot ∈ offeredIn journal) : .offered snapshot ∈ journal := by
  obtain ⟨e, he, hoffered⟩ := List.mem_filterMap.mp h
  cases e with
  | offered s =>
    cases hoffered
    exact he
  | _ => cases hoffered

/-- A session that is open on the file, with the snapshots that it has offered and that have not
been written yet. -/
structure Instance (ι : Type) where
  release : ι
  fails : List Query → Query → Option ToolError
  session : Session
  unwritten : List Snapshot

def Instance.tool (releases : Releases ι) (c : Instance ι) : Tool :=
  .failing (releases.reply c.release) c.fails

structure World (ι : Type) where
  file : Option Bytes := none
  instances : List (Instance ι) := []

namespace World

/-- What can happen next: a session is opened, an accessor of one is called, or one writes the
oldest snapshot that it has to write. -/
inductive Action (ι : Type) where
  | opened (release : ι) (fails : List Query → Query → Option ToolError)
  | called (n : Nat) (l : Lookup)
  | written (n : Nat) (succeeds : Bool)

/-- One thing after the other happens. Opening reads the file once, and a write that fails leaves
the file as it was. What a call offers is written at any time afterwards. -/
def act (releases : Releases ι) (w : World ι) : Action ι → World ι
  | .opened i fails =>
    match (Origin.file w.file).start (.failing (releases.reply i) fails) with
    | some s => { w with instances := w.instances ++ [⟨i, fails, s, offeredIn s.journal⟩] }
    | none => w
  | .called n l =>
    match w.instances[n]? with
    | some c =>
      let s := ((l.act (c.tool releases)).result c.session).2
      let offered := offeredIn (s.journal.drop c.session.journal.length)
      let c' := { c with session := s, unwritten := c.unwritten ++ offered }
      { w with instances := w.instances.set n c' }
    | none => w
  | .written n succeeds =>
    match w.instances[n]? with
    | some ⟨i, fails, session, s :: rest⟩ =>
      { file := if succeeds then some (Utf8.encode s.save) else w.file
        instances := w.instances.set n ⟨i, fails, session, rest⟩ }
    | _ => w

def run (releases : Releases ι) (actions : List (Action ι)) : World ι :=
  actions.foldl (act releases) {}

theorem run_concat (releases : Releases ι) (actions : List (Action ι)) (a : Action ι) :
    run releases (actions ++ [a]) = act releases (run releases actions) a :=
  List.foldl_concat ..

/-- Whether an action calls no accessor with a name of a filter that has a dot. -/
def Action.Plain : Action ι → Prop
  | called _ l => l.Plain
  | _ => True

end World

structure Instance.Sound (releases : Releases ι) (c : Instance ι) : Prop where
  session : c.session.Faithful releases c.release
  unwritten : ∀ s ∈ c.unwritten, s.Sound releases

structure World.Sound (releases : Releases ι) (w : World ι) : Prop where
  file : ∀ s, (Origin.file w.file).held = some s → s.Sound releases
  instances : ∀ c ∈ w.instances, c.Sound releases

/-- A session is faithful from its start if what it finds in the file is sound. -/
theorem Session.Faithful.start {fails : List Query → Query → Option ToolError} {o : Origin}
    (h : o.start (.failing (releases.reply i) fails) = some s)
    (hheld : ∀ snapshot, o.held = some snapshot → snapshot.Sound releases) :
    s.Faithful releases i := by
  cases Origin.started_of_start h with
  | new _ => exact ⟨by simp, Origin.keeps_new (Snapshot.sound_blank releases none)⟩
  | taken hsome => exact ⟨by simp [Origin.taken], Origin.keeps_taken (hheld _ hsome)⟩
  | blank _ hv =>
    refine ⟨fun v' hlive => ?_, Origin.keeps_blank (Snapshot.sound_blank releases _)⟩
    cases hlive
    exact Tool.failing_ok hv

namespace World

variable {w : World ι}

theorem Sound.set (h : w.Sound releases) {c : Instance ι} (hc : c.Sound releases) (n : Nat) :
    { w with instances := w.instances.set n c }.Sound releases := by
  refine ⟨h.file, fun c' hc' => ?_⟩
  rcases List.mem_or_eq_of_mem_set hc' with hc' | rfl
  · exact h.instances c' hc'
  · exact hc

/-- Opening a session takes over what the file keeps, which is sound. -/
theorem Sound.opened (h : w.Sound releases) (i : ι)
    (fails : List Query → Query → Option ToolError) :
    (w.act releases (.opened i fails)).Sound releases := by
  simp only [act]
  cases hstart : (Origin.file w.file).start (.failing (releases.reply i) fails) with
  | none => exact h
  | some s =>
    have hfaithful : s.Faithful releases i := Session.Faithful.start hstart h.file
    refine ⟨h.file, fun c hc => ?_⟩
    rcases List.mem_append.mp hc with hc | hc
    · exact h.instances c hc
    · rw [List.mem_singleton.mp hc]
      exact ⟨hfaithful, fun s hs => hfaithful.keeps.offered s (mem_offeredIn hs)⟩

/-- A call learns right answers and offers them. -/
theorem Sound.called (h : w.Sound releases) (n : Nat) {l : Lookup} (hl : l.Plain) :
    (w.act releases (.called n l)).Sound releases := by
  simp only [act]
  cases hn : w.instances[n]? with
  | none => exact h
  | some c =>
    have hc := h.instances c (List.mem_of_getElem? hn)
    have hmoves : Moves (c.tool releases) Query.Plain c.session
        ((l.act (c.tool releases)).result c.session).2 :=
      Lookup.moves_act l (fun _ hq => hl.needs hq) c.session
    have hfaithful := hmoves.preserve (fun _ _ => Session.Faithful.move) hc.session
    refine h.set ⟨hfaithful, fun s hs => ?_⟩ n
    rcases List.mem_append.mp hs with hs | hs
    · exact hc.unwritten s hs
    · exact hfaithful.keeps.offered s (List.mem_of_mem_drop (mem_offeredIn hs))

/-- What is written has been offered by a session, so it is sound. -/
theorem Sound.written (h : w.Sound releases) (n : Nat) (succeeds : Bool) :
    (w.act releases (.written n succeeds)).Sound releases := by
  simp only [act]
  cases hn : w.instances[n]? with
  | none => exact h
  | some c =>
    have hc := h.instances c (List.mem_of_getElem? hn)
    obtain ⟨i, fails, session, unwritten⟩ := c
    cases unwritten with
    | nil => exact h
    | cons s rest =>
      have hs : s.Sound releases := hc.unwritten s (by simp)
      have hrest : Instance.Sound releases ⟨i, fails, session, rest⟩ :=
        ⟨hc.session, fun s' hs' => hc.unwritten s' (List.mem_cons_of_mem _ hs')⟩
      refine ⟨fun s' hs' => ?_, (h.set hrest n).instances⟩
      cases succeeds with
      | false => exact h.file s' hs'
      | true =>
        simp only [if_true, Origin.held_file, Snapshot.load?_save hs.parsed,
          Option.some.injEq] at hs'
        exact hs' ▸ hs

/-- Whatever happens next leaves the world sound. -/
theorem Sound.act (h : w.Sound releases) {a : Action ι} (ha : a.Plain) :
    (w.act releases a).Sound releases := by
  cases a with
  | opened i fails => exact h.opened i fails
  | called n l => exact h.called n ha
  | written n succeeds => exact h.written n succeeds

theorem Sound.foldl (h : w.Sound releases) {actions : List (Action ι)}
    (hplain : ∀ a ∈ actions, a.Plain) : (actions.foldl (World.act releases) w).Sound releases := by
  induction actions generalizing w with
  | nil => exact h
  | cons a actions ih =>
    exact ih (h.act (hplain a (by simp))) fun b hb => hplain b (List.mem_cons_of_mem _ hb)

/-- Whatever has happened, the world is sound. -/
theorem sound_run {actions : List (Action ι)} (h : ∀ a ∈ actions, a.Plain) :
    (run releases actions).Sound releases := by
  refine Sound.foldl ⟨fun s hs => ?_, by simp⟩ h
  cases hs

end World

/-- Whatever has happened to the file and to the sessions on it, an accessor that succeeds gives the
right answer for the release behind its own session, and one that fails does so with the error of
the last query that it issued. -/
theorem history_transparent {actions : List (World.Action ι)} (hplain : ∀ a ∈ actions, a.Plain)
    {n : Nat} {c : Instance ι} (hc : (World.run releases actions).instances[n]? = some c)
    {l : Lookup} (hl : l.Plain) :
    match (l.act (c.tool releases)).result c.session with
    | (.ok v, _) => v = l.value (releases.reply c.release)
    | (.error e, s) => ∃ asked q, s.queries = c.session.queries ++ asked ++ [q] ∧
        c.fails (c.session.queries ++ asked) q = some e := by
  have hfaithful := ((World.sound_run hplain).instances c (List.mem_of_getElem? hc)).session
  rcases hresult : (l.act (c.tool releases)).result c.session with ⟨r, s⟩
  cases r with
  | ok v => exact hfaithful.value hl hresult
  | error e =>
    obtain ⟨asked, q, hqueries, he⟩ := Lookup.act_refused hresult
    exact ⟨asked, q, hqueries, Tool.failing_error he⟩

/-- A release and the next one, which gives other answers. -/
def Releases.pair : Releases Bool where
  reply newer
    | .version => some (if newer then "2" else "1")
    | .filters => [if newer then "new" else "old"]
    | .modules | .props => []
    | .protocols => []
    | .filterArgs _ => [⟨"mode", .enum⟩]
    | .argument _ _ => ⟨some .enum, [if newer then "fast" else "slow"]⟩
  same i j h := by
    cases i <;> cases j <;> first | rfl | simp at h
  parsed i := by
    refine ⟨fun f spec hspec => ?_, fun f a k hk => ?_⟩
    · rw [List.mem_singleton.mp hspec]
      exact ⟨"enum", by decide⟩
    · cases hk
      exact ⟨"enum", by decide⟩

/-- What the older release knows once it has been asked for the arguments of a filter. -/
def Snapshot.begun : Snapshot where
  version := some "1"
  data := { args := ⟨[("f", [⟨"mode", .enum⟩])], by decide⟩ }

/-- The older release is asked for shorthands, and has only written part of what it has learned when
the next release is opened on its file. -/
def World.upgrade : List (World.Action Bool) :=
  [.opened false fun _ _ => none, .called 0 (.shorthands "f"), .written 0 true, .written 0 true] ++
    [.opened true fun _ _ => none]

/-- When the next release is opened, the older one has written only part of what it has offered. -/
theorem World.run_upgrade : ∃ c, (run .pair upgrade).instances =
    [c, ⟨true, fun _ _ => none, Origin.taken .begun, []⟩] := by
  have hparsed : Snapshot.begun.Parsed := by
    refine ⟨fun e he spec hspec => ?_, by simp [Snapshot.begun, Table.empty]⟩
    rw [List.mem_singleton.mp he] at hspec
    rw [List.mem_singleton.mp hspec]
    exact ⟨"enum", by decide⟩
  obtain ⟨c, hc⟩ : ∃ c, run .pair (upgrade.take 4) =
      ⟨some (Utf8.encode Snapshot.begun.save), [c]⟩ := ⟨_, rfl⟩
  refine ⟨c, ?_⟩
  rw [upgrade, run_concat]
  change (act .pair (run .pair (upgrade.take 4)) _).instances = _
  rw [hc, act, Origin.start, Option.bind_some, Snapshot.load?_save hparsed]
  rfl

theorem history_transparent_pair : ∃ c s, (World.run .pair World.upgrade).instances[1]? = some c ∧
    c.session.version = some ("1" : Text) ∧
    ((Lookup.shorthands "f").act (c.tool .pair)).result c.session =
      (.ok [⟨"fast", "mode"⟩], s) ∧
    [⟨"fast", "mode"⟩] = (Lookup.shorthands "f").value (Releases.pair.reply true) := by
  obtain ⟨c, hinstances⟩ := World.run_upgrade
  have hplain : ∀ a ∈ World.upgrade, a.Plain := by
    simp [World.upgrade, World.Action.Plain, Lookup.Plain]
  have hc : (World.run .pair World.upgrade).instances[1]? =
      some ⟨true, fun _ _ => none, Origin.taken .begun, []⟩ := by
    rw [hinstances]
    rfl
  have hvalue := history_transparent hplain hc (l := .shorthands "f") (by simp [Lookup.Plain])
  exact ⟨_, _, hc, rfl, rfl, hvalue⟩

end FilterLine
