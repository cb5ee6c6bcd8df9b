import FilterLine.Config.Basic
import FilterLine.Toml.Reader
import FilterLine.Toml.Writer

/-!
The settings file: a TOML document with one table for each group of settings. Missing settings have
their defaults and unknown ones are ignored. A group may also be an array, which gives its settings
in order. Reading what is written gives the same settings.
-/
namespace FilterLine

namespace Toml

/-- The values of the named settings of a group, where they are given. A group may be left out; a
date holds no settings. -/
def group? (names : List Text) : Option Toml → Option (List (Option Toml))
  | none | some .date => some (names.map fun _ => none)
  | some (.table _ es) =>
    if fitsEntries (es.filter fun e => e.1 ∉ names) then some (names.map (es.lookup ·)) else none
  | some (.array items) => some (inOrder items)
  | some (.tables items) => some (inOrder (items.map (.table .header)))
  | some _ => none
where
  /-- The settings of a group written as an array. -/
  inOrder (items : List Toml) : List (Option Toml) :=
    (items.take names.length).map some ++ List.replicate (names.length - items.length) none

def string? : Toml → Option Text
  | string t => some t
  | _ => none

def boolean? : Toml → Option Bool
  | boolean b => some b
  | _ => none

/-- A log level: its name, or a table or array-valued entry of that name which holds nothing. -/
def level? : Toml → Option LogLevel
  | string t => LogLevel.ofName? t
  | table _ [(name, table _ [])] | table _ [(name, array [])] => LogLevel.ofName? name
  | _ => none

def setting? {α : Type} (standard : α) (read : Toml → Option α) : Option Toml → Option α
  | some v => read v
  | none => some standard

end Toml

namespace Config

def ofToml? (home : Option Text) (es : Toml.Entries) : Option Config := do
  let d := standard home
  match ← Toml.group? ["gpac", "cache", "logging"] (some (.table .header es)) with
  | [gpac, cache, logging] =>
    match ← Toml.group? ["binary"] gpac, ← Toml.group? ["path", "enabled"] cache,
        ← Toml.group? ["level", "file_path", "timestamps"] logging with
    | [binary], [path, enabled], [level, file, timestamps] =>
      some {
        binary := ← Toml.setting? d.binary Toml.string? binary
        cachePath := ← Toml.setting? d.cachePath Toml.string? path
        cacheEnabled := ← Toml.setting? d.cacheEnabled Toml.boolean? enabled
        level := ← Toml.setting? d.level Toml.level? level
        logFile := ← Toml.setting? d.logFile (fun v => v.string?.map some) file
        timestamps := ← Toml.setting? d.timestamps Toml.boolean? timestamps }
    | _, _, _ => none
  | _ => none

def ofText? (home : Option Text) (t : Text) : Option Config := (Toml.parse? t).bind (ofToml? home)

def line (name value : Text) : Text := name ++ " = " ++ value ++ "\n"

def render (c : Config) : Text :=
  "[gpac]\n" ++ line "binary" (Toml.writeString c.binary) ++
  "\n[cache]\n" ++ line "path" (Toml.writeString c.cachePath) ++
    line "enabled" (Toml.writeBool c.cacheEnabled) ++
  "\n[logging]\n" ++ line "level" (Toml.writeString c.level.name) ++
    (match c.logFile with
      | some path => line "file_path" (Toml.writeString path)
      | none => []) ++
    line "timestamps" (Toml.writeBool c.timestamps)

end Config
end FilterLine
