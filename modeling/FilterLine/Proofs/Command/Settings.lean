import FilterLine.Proofs.Arguments.PathOptions
import FilterLine.Proofs.Command.Printed

/-!
Which settings a run goes by. Those of the settings file, or the defaults, are overridden by the
environment and then looked at: where something is wrong with them the defaults take their place.
The options override them after that, and nobody looks again. An option that names a path cannot be
empty, but the program that is to be asked may be blank when it is given as an option.
-/
namespace FilterLine

namespace Config

/-- Settings that have been looked at stay usable under options exactly when these do not name a
blank program. -/
theorem fault?_withOverride {o : Override} {c : Config} (hc : c.Valid)
    (ho : o.cachePath ≠ some []) :
    (c.withOverride o).cachePath ≠ [] ∧
      ((c.withOverride o).fault? = none ↔ ∀ b ∈ o.binary, Text.trim b ≠ []) := by
  obtain ⟨hbinary, hpath⟩ := hc
  have hkept : (c.withOverride o).cachePath ≠ [] := by
    rw [withOverride]
    cases hcache : o.cachePath with
    | none => exact hpath
    | some path =>
      rintro rfl
      exact ho hcache
  refine ⟨hkept, ?_⟩
  rw [fault?_eq_none, Valid, and_iff_left hkept, withOverride]
  cases o.binary with
  | none => simpa using hbinary
  | some b => simp

end Config

namespace Run

variable {w : Surroundings} {args : List Text} {i : Invocation}

/-- Whatever the settings file and the environment say, a run whose settings file can be read has
settings, the cache path among them is not empty, and something is wrong with them exactly when a
blank program is given as an option. -/
theorem settings_usable (hargs : Arguments.parse args = .ok i)
    (hfile : w.disk.isFile (configPath w i) = true →
      ∃ c, configAt w.home w.disk (configPath w i) = .ok c) :
    ∃ c s, (loadConfig w (configPath w i) (override i)).result { disk := w.disk } = (.ok c, s) ∧
      c.cachePath ≠ [] ∧ (c.fault? = none ↔ ∀ b ∈ i.binary, Text.trim b ≠ []) := by
  have hpath : (override i).cachePath ≠ some [] := (Arguments.paths_parse hargs).2
  obtain ⟨err, hload⟩ := result_loadConfig w i
  obtain ⟨c, hsettings⟩ : ∃ c : Config,
      settings w i = .ok (c.effective w.environment w.home (override i)).1 := by
    rw [settings]
    split
    · obtain ⟨c, hc⟩ := hfile ‹_›
      exact ⟨c, by rw [hc]; rfl⟩
    · exact ⟨Config.standard w.home, rfl⟩
  rw [hsettings] at hload
  exact ⟨_, _, hload, Config.fault?_withOverride (Config.valid_orStandard _ _) hpath⟩

/-- Surroundings in which there is no program, with a settings file and one variable. -/
def setUp (content name value : Text) : Surroundings where
  home := some "home"
  environment := fun n => if n = name then some value else none
  programs := Shelf.runner []
  disk := { root := .directory [("settings", .file (Utf8.encode content))] }
  now := []

/-- A settings file without a cache path and a blank program in the environment. -/
def setUpBadly : Surroundings := setUp "cache.path = ''" "GPAC_COMPLETE_BINARY" " "

def keptInvocation : Invocation where
  command := .config true false
  configPath := some "settings"
  cachePath := some "kept"

theorem settings_usable_badly :
    Arguments.parse ["-c", "settings", "--cache", "kept", "config", "--show"] =
        .ok keptInvocation ∧
      (setUpBadly.disk.isFile (configPath setUpBadly keptInvocation) = true →
        ∃ c, configAt setUpBadly.home setUpBadly.disk (configPath setUpBadly keptInvocation) =
          .ok c) ∧
      ∃ c s, (loadConfig setUpBadly (configPath setUpBadly keptInvocation)
          (override keptInvocation)).result { disk := setUpBadly.disk } = (.ok c, s) ∧
        c.cachePath ≠ [] ∧ c.fault? = none := by
  have hargs : Arguments.parse ["-c", "settings", "--cache", "kept", "config", "--show"] =
      .ok keptInvocation := rfl
  have hfile : setUpBadly.disk.isFile (configPath setUpBadly keptInvocation) = true →
      ∃ c, configAt setUpBadly.home setUpBadly.disk (configPath setUpBadly keptInvocation) =
        .ok c := by
    intro _
    have hread : (configAt setUpBadly.home setUpBadly.disk
        (configPath setUpBadly keptInvocation)).toOption.isSome = true := by decide +kernel
    cases hc : configAt setUpBadly.home setUpBadly.disk (configPath setUpBadly keptInvocation) with
    | ok c => exact ⟨c, rfl⟩
    | error e =>
      rw [hc] at hread
      cases hread
  obtain ⟨c, s, hload, hpath, hfault⟩ := settings_usable hargs hfile
  exact ⟨hargs, hfile, c, s, hload, hpath, hfault.mpr nofun⟩

def blankInvocation : Invocation where
  command := .config true false
  binary := some " "

/-- A blank program that an option names is taken without a warning, though something is wrong with
the settings then. The same program from the environment gives way to the default. -/
theorem blank_option_taken :
    let unset := setUp [] "HOME" "home"
    let blank := setUp [] "GPAC_COMPLETE_BINARY" " "
    Arguments.parse ["config", "--show", "--gpac", " "] = .ok blankInvocation ∧
      unset.disk.isFile (configPath unset blankInvocation) = false ∧
      (loadConfig unset (configPath unset blankInvocation) (override blankInvocation)).result
          { disk := unset.disk } =
        (.ok { Config.standard unset.home with binary := " " }, { disk := unset.disk }) ∧
      Config.fault? { Config.standard unset.home with binary := " " } =
        some (.invalid "gpac.binary" " ") ∧
      settings blank { command := .config true false } = .ok (Config.standard blank.home) := by
  refine ⟨rfl, by decide +kernel, ?_, by decide +kernel, ?_⟩
  · unfold loadConfig
    rw [result_bind_ok (result_get _)]
    dsimp only
    rw [if_neg (by decide +kernel)]
    rfl
  · rw [settings, if_neg (by decide +kernel)]
    rfl

end Run
end FilterLine
