import FilterLine.Arguments.Reader

/-!
Options that name a path are never left empty. A value is looked at in one place, where it is put
into its slot; reading a name, letters, an unnamed value or a whole level only puts values into slots
and turns on switches, so what these two keep holds after a level has been read if it held before.
-/
namespace FilterLine.Arguments

variable {α β : Type} {level : Level} {p q : Progress}

/-- What comes of two steps has come of the first one and then of the second. -/
theorem bind_eq_ok {x : Except UsageError α} {f : α → Except UsageError β} {b : β} :
    x >>= f = .ok b ↔ ∃ a, x = .ok a ∧ f a = .ok b := by
  constructor
  · intro h
    cases x with
    | error e => cases h
    | ok a => exact ⟨a, rfl, h⟩
  · rintro ⟨a, rfl, h⟩
    exact h

/-- No path that has been given is empty. -/
structure Given.PathsFilled (g : Given) : Prop where
  configPath : g.configPath ≠ some []
  cachePath : g.cachePath ≠ some []

/-- A slot that is filled with a path is not filled with the empty text. -/
theorem Given.fill_path {old slot : Option Text} {v v' : Text} (hfill : fill old v = .ok slot)
    (hpath : path v = .ok v') : slot ≠ some [] := by
  have hne : v ≠ [] := by
    rintro rfl
    cases hpath
  rw [fill] at hfill
  split at hfill
  · cases hfill
  · cases hfill
    simpa using hne

/-- No value that is put into its slot is an empty path. -/
theorem Given.PathsFilled.put {g g' : Given} {s : Slot} {v : Text} (hg : g.PathsFilled)
    (h : g.put s v = .ok g') : g'.PathsFilled := by
  cases s with
  | configPath =>
    obtain ⟨slot, hfill, h⟩ := bind_eq_ok.mp h
    obtain ⟨v', hpath, h⟩ := bind_eq_ok.mp h
    cases h
    exact ⟨fill_path hfill hpath, hg.cachePath⟩
  | cachePath =>
    obtain ⟨slot, hfill, h⟩ := bind_eq_ok.mp h
    obtain ⟨v', hpath, h⟩ := bind_eq_ok.mp h
    cases h
    exact ⟨hg.configPath, fill_path hfill hpath⟩
  | binary =>
    obtain ⟨slot, -, h⟩ := bind_eq_ok.mp h
    cases h
    exact ⟨hg.configPath, hg.cachePath⟩
  | cursor =>
    rw [Given.put] at h
    split at h
    · cases h
      exact ⟨hg.configPath, hg.cachePath⟩
    · cases h
  | line =>
    cases h
    exact ⟨hg.configPath, hg.cachePath⟩
  | shell =>
    cases h
    exact ⟨hg.configPath, hg.cachePath⟩

theorem Given.PathsFilled.turnOn {g g' : Given} {s : Switch} (hg : g.PathsFilled)
    (h : g.turnOn s = .ok g') : g'.PathsFilled := by
  rw [Given.turnOn] at h
  split at h
  · cases h
  · cases h
    exact ⟨hg.configPath, hg.cachePath⟩

namespace Progress

/-- No path that has been looked at so far is empty. The value that waits may be. -/
def PathsFilled (p : Progress) : Prop := p.given.PathsFilled

/-- The value that waited is no empty path once it has been looked at. -/
theorem PathsFilled.settle (hp : p.PathsFilled) (h : p.settle = .ok q) : q.PathsFilled := by
  rw [Progress.settle] at h
  split at h
  · cases h
    exact hp
  · cases h
  · obtain ⟨g, hput, h⟩ := bind_eq_ok.mp h
    cases h
    exact Given.PathsFilled.put hp hput

theorem PathsFilled.name {m : Meaning} (hp : p.PathsFilled) (h : p.name m = .ok q) :
    q.PathsFilled := by
  obtain ⟨p', hsettle, h⟩ := bind_eq_ok.mp h
  have hp' := hp.settle hsettle
  cases m with
  | slot s =>
    cases h
    exact hp'
  | switch s =>
    obtain ⟨g, hturn, h⟩ := bind_eq_ok.mp h
    cases h
    exact Given.PathsFilled.turnOn hp' hturn
  | help => cases h
  | version => cases h

theorem PathsFilled.attached {s : Slot} {v : Text} (hp : p.PathsFilled)
    (h : p.attached s v = .ok q) : q.PathsFilled := by
  obtain ⟨p', hsettle, h⟩ := bind_eq_ok.mp h
  obtain ⟨g, hput, h⟩ := bind_eq_ok.mp h
  cases h
  exact Given.PathsFilled.put (hp.settle hsettle) hput

/-- Letters fill no path with the empty text. -/
theorem PathsFilled.letters {cs : Text} (hp : p.PathsFilled) (h : p.letters level cs = .ok q) :
    q.PathsFilled := by
  induction cs generalizing p with
  | nil =>
    cases h
    exact hp
  | cons c cs ih =>
    unfold Progress.letters at h
    split at h
    · cases h
    · exact hp.attached h
    · exact hp.attached h
    · obtain ⟨p', hname, h⟩ := bind_eq_ok.mp h
      exact ih (hp.name hname) h

theorem PathsFilled.unnamed {afterSeparator : Bool} {v : Text} (hp : p.PathsFilled)
    (h : p.unnamed level afterSeparator v = .ok q) : q.PathsFilled := by
  rw [Progress.unnamed] at h
  split at h
  · obtain ⟨p', hsettle, h⟩ := bind_eq_ok.mp h
    have hp' := hp.settle hsettle
    cases h
    exact hp'
  · cases h

theorem PathsFilled.value {v : Text} (hp : p.PathsFilled) (h : p.value level v = .ok q) :
    q.PathsFilled := by
  rw [Progress.value] at h
  split at h
  · cases h
    exact hp
  · exact hp.unnamed h

/-- No argument fills a path with the empty text. -/
theorem PathsFilled.argument {a : Text} (hp : p.PathsFilled) (h : p.argument level a = .ok q) :
    q.PathsFilled := by
  rw [Progress.argument] at h
  split at h
  · split at h
    · exact hp.attached h
    · cases h
    · exact hp.name h
    · split at h
      · exact hp.value h
      · cases h
  · split at h
    · exact hp.value h
    · exact hp.letters h
  · exact hp.value h
  · exact hp.value h

theorem PathsFilled.unnamedAll {as : List Text} (hp : p.PathsFilled)
    (h : as.foldlM (fun p a => p.unnamed level true a) p = .ok q) : q.PathsFilled := by
  induction as generalizing p with
  | nil =>
    cases h
    exact hp
  | cons a as ih =>
    rw [List.foldlM_cons] at h
    obtain ⟨p', hunnamed, h⟩ := bind_eq_ok.mp h
    exact ih (hp.unnamed hunnamed) h

/-- No arguments of a level fill a path with the empty text. -/
theorem PathsFilled.readLevel {as : List Text} {rest : Option (Name × List Text)}
    (hp : p.PathsFilled) (h : readLevel level as p = .ok (q, rest)) : q.PathsFilled := by
  induction as generalizing p with
  | nil =>
    cases h
    exact hp
  | cons a as ih =>
    rw [Arguments.readLevel] at h
    split at h
    · cases h
    · split at h
      · cases h
        exact hp
      · split at h
        · obtain ⟨p', hall, h⟩ := bind_eq_ok.mp h
          cases h
          exact hp.unnamedAll hall
        · obtain ⟨p', hargument, h⟩ := bind_eq_ok.mp h
          exact ih (hp.argument hargument) h

theorem pathsFilled_start (level : Level) : (start level).PathsFilled := ⟨nofun, nofun⟩

end Progress

/-- What stands behind the command counts, and what stands in front of it only where that is
missing; so neither leaves an empty path. -/
theorem Given.PathsFilled.invocation {inner outer : Given} (command : Command)
    (hinner : inner.PathsFilled) (houter : outer.PathsFilled) :
    (invocation command outer inner).configPath ≠ some [] ∧
      (invocation command outer inner).cachePath ≠ some [] := by
  constructor
  · intro hempty
    rcases Option.or_eq_some_iff.mp hempty with hgiven | ⟨-, hgiven⟩
    · exact hinner.configPath hgiven
    · exact houter.configPath hgiven
  · intro hempty
    rcases Option.or_eq_some_iff.mp hempty with hgiven | ⟨-, hgiven⟩
    · exact hinner.cachePath hgiven
    · exact houter.cachePath hgiven

/-- Arguments that ask for something do not give an empty path. -/
theorem paths_parse {args : List Text} {i : Invocation} (h : parse args = .ok i) :
    i.configPath ≠ some [] ∧ i.cachePath ≠ some [] := by
  obtain ⟨⟨outer, rest⟩, hread, h⟩ := bind_eq_ok.mp h
  have houter := (Progress.pathsFilled_start none).readLevel hread
  cases rest with
  | none =>
    obtain ⟨_, -, h⟩ := bind_eq_ok.mp h
    cases h
  | some rest =>
    obtain ⟨⟨inner, _⟩, hreadInner, h⟩ := bind_eq_ok.mp h
    have hinner := (Progress.pathsFilled_start (some rest.1)).readLevel hreadInner
    obtain ⟨inner', hinner', h⟩ := bind_eq_ok.mp h
    obtain ⟨command, -, h⟩ := bind_eq_ok.mp h
    obtain ⟨outer', houter', h⟩ := bind_eq_ok.mp h
    cases h
    exact Given.PathsFilled.invocation command (hinner.settle hinner') (houter.settle houter')

end FilterLine.Arguments
