import FilterLine.Config.LogLevel

/-!
The settings, each with a default. Environment variables override what the settings file says, and
command-line options override both.
-/
namespace FilterLine

structure Config where
  /-- The program that is asked. -/
  binary : Text
  /-- The file that keeps the snapshot. -/
  cachePath : Text
  /-- Whether the snapshot is kept in the file at all. -/
  cacheEnabled : Bool
  level : LogLevel
  /-- The file that the log goes to; without one it goes to the error stream. -/
  logFile : Option Text
  /-- Whether log lines begin with the time. -/
  timestamps : Bool
  deriving DecidableEq, Repr

inductive ConfigError where
  /-- The text is not TOML, or a setting has a value of the wrong type. -/
  | malformed
  | invalid (field value : Text)
  deriving DecidableEq, Repr

/-- The text that reports the reason. What exactly is malformed is not told. -/
def ConfigError.message : ConfigError → Text
  | malformed => "Invalid config format: not TOML, or a setting of the wrong type"
  | invalid field value => "Invalid value '" ++ value ++ "' for field '" ++ field ++ "'"

/-- The settings that an option can override. -/
structure Override where
  binary : Option Text := none
  cachePath : Option Text := none
  /-- The snapshot is not to be kept. -/
  noCache : Bool := false
  level : Option LogLevel := none
  deriving DecidableEq, Repr

abbrev Environment := (name : Text) → Option Text

namespace Config

def below (directory path : Text) : Text :=
  if directory.endsIn '/' then directory ++ path else directory ++ '/' :: path

/-- The path of the cache file for a home directory, the working directory standing in for a
missing one. -/
def defaultCachePath (home : Option Text) : Text :=
  below (home.getD ['.']) ".cache/gpac/gpac_autocomplete.json"

/-- The path of the settings file: in the configuration directory that the environment names, which
must be absolute, or else below the home directory. -/
def defaultPath (env : Environment) (home : Option Text) : Text :=
  let directory := match (env "XDG_CONFIG_HOME").filter (·.head? = some '/'), home with
    | some d, _ => d
    | none, some h => below h ".config"
    | none, none => ['.']
  below directory "gpac-complete/config.toml"

/-- The settings of one who has set nothing. Only errors are logged: anything more would land in the
line that is being completed. -/
def standard (home : Option Text) : Config where
  binary := "gpac"
  cachePath := defaultCachePath home
  cacheEnabled := true
  level := .error
  logFile := none
  timestamps := true

def setVariable? (env : Environment) (name : Text) : Option Text := (env name).filter (· ≠ [])

/-- The settings as the environment overrides them. A level that does not exist is ignored. -/
def withEnvironment (env : Environment) (c : Config) : Config :=
  { c with
    binary := (setVariable? env "GPAC_COMPLETE_BINARY").getD c.binary
    cachePath := (setVariable? env "GPAC_COMPLETE_CACHE").getD c.cachePath
    level := ((env "GPAC_COMPLETE_LOG").bind LogLevel.ofVariable?).getD c.level }

def withOverride (o : Override) (c : Config) : Config :=
  { c with
    binary := o.binary.getD c.binary
    cachePath := o.cachePath.getD c.cachePath
    cacheEnabled := c.cacheEnabled && !o.noCache
    level := o.level.getD c.level }

/-- The first thing wrong with the settings: a blank program, or an empty cache path. -/
def fault? (c : Config) : Option ConfigError :=
  if c.binary.trim = [] then some (.invalid "gpac.binary" c.binary)
  else if c.cachePath = [] then some (.invalid "cache.path" [])
  else none

def Valid (c : Config) : Prop := c.binary.trim ≠ [] ∧ c.cachePath ≠ []

instance (c : Config) : Decidable c.Valid := inferInstanceAs (Decidable (_ ∧ _))

/-- Nothing is wrong with settings just when they can be used. -/
theorem fault?_eq_none {c : Config} : c.fault? = none ↔ c.Valid := by
  by_cases h : c.binary.trim = [] <;> by_cases h' : c.cachePath = [] <;> simp [fault?, Valid, h, h']

theorem below_ne_nil (directory path : Text) (h : path ≠ []) : below directory path ≠ [] := by
  unfold below
  split <;> simp [h]

/-- The defaults can be used. -/
theorem valid_standard (home : Option Text) : (standard home).Valid :=
  ⟨by change Text.trim "gpac" ≠ []; decide, below_ne_nil _ _ (by decide)⟩

/-- The settings, or the defaults if something is wrong with them; and what that is. -/
def orStandard (home : Option Text) (c : Config) : Config × Option ConfigError :=
  match c.fault? with
  | none => (c, none)
  | some e => (standard home, some e)

/-- The settings that a run uses, given those of the settings file, and what was wrong before the
options were looked at. -/
def effective (env : Environment) (home : Option Text) (o : Override) (c : Config) :
    Config × Option ConfigError :=
  let r := orStandard home (c.withEnvironment env)
  (r.1.withOverride o, r.2)

/-- Settings that cannot be used give way to some that can. -/
theorem valid_orStandard (home : Option Text) (c : Config) : (orStandard home c).1.Valid := by
  unfold orStandard
  split
  · exact fault?_eq_none.1 ‹_›
  · exact valid_standard home

end Config
end FilterLine
