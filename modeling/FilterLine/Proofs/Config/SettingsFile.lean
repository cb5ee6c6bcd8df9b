import FilterLine.Config.Document
import FilterLine.Proofs.Toml.Lines

/-!
The settings file gives back the settings it was written from, whatever texts they hold. Every setting
has a line of its own, so none comes from a default but the log file where there is none.
-/
namespace FilterLine

open Toml

namespace Config

def logFileLines (c : Config) : List Statement :=
  match c.logFile with
  | some path => [.entry "file_path" (.string path)]
  | none => []

def lines (c : Config) : List Statement :=
  [.header "gpac", .entry "binary" (.string c.binary), .blank,
    .header "cache", .entry "path" (.string c.cachePath),
      .entry "enabled" (.boolean c.cacheEnabled), .blank,
    .header "logging", .entry "level" (.string c.level.name)] ++
    c.logFileLines ++ [.entry "timestamps" (.boolean c.timestamps)]

/-- The settings file has one line for each setting, under the headers of the groups. -/
theorem render_eq (c : Config) : c.render = c.lines.flatMap Statement.write := by
  have hrender : c.render = (Statement.header "gpac").write ++
      (Statement.entry "binary" (.string c.binary)).write ++
      (Statement.blank.write ++ (Statement.header "cache").write) ++
      (Statement.entry "path" (.string c.cachePath)).write ++
      (Statement.entry "enabled" (.boolean c.cacheEnabled)).write ++
      (Statement.blank.write ++ (Statement.header "logging").write) ++
      (Statement.entry "level" (.string c.level.name)).write ++
      (match c.logFile with
        | some path => (Statement.entry "file_path" (.string path)).write
        | none => []) ++
      (Statement.entry "timestamps" (.boolean c.timestamps)).write := rfl
  rw [hrender, lines, logFileLines]
  cases c.logFile <;>
    simp only [List.flatMap_cons, List.flatMap_nil, List.append_assoc, List.append_nil,
      List.cons_append, List.nil_append]

theorem keyBare_lines (c : Config) : ∀ s ∈ c.lines, s.KeyBare := by
  have hfile : ∀ s ∈ c.logFileLines, s.KeyBare := by
    rw [logFileLines]
    cases c.logFile with
    | none => exact fun _ hs => absurd hs List.not_mem_nil
    | some path => exact List.forall_mem_singleton.mpr (show Bare "file_path" by decide)
  intro s hs
  rw [lines, List.mem_append, List.mem_append] at hs
  rcases hs with (hs | hs) | hs
  · simp only [List.mem_cons, List.not_mem_nil, or_false] at hs
    rcases hs with rfl | rfl | rfl | rfl | rfl | rfl | rfl | rfl | rfl
    · exact (show Bare "gpac" by decide)
    · exact (show Bare "binary" by decide)
    · trivial
    · exact (show Bare "cache" by decide)
    · exact (show Bare "path" by decide)
    · exact (show Bare "enabled" by decide)
    · trivial
    · exact (show Bare "logging" by decide)
    · exact (show Bare "level" by decide)
  · exact hfile s hs
  · obtain rfl := List.mem_singleton.mp hs
    exact (show Bare "timestamps" by decide)

/-- The groups of settings, each under its name. -/
def document (c : Config) : Entries :=
  [("gpac", .table .header [("binary", .string c.binary)]),
   ("cache", .table .header [("path", .string c.cachePath), ("enabled", .boolean c.cacheEnabled)]),
   ("logging", .table .header (("level", .string c.level.name) ::
      match c.logFile with
      | some path => [("file_path", .string path), ("timestamps", .boolean c.timestamps)]
      | none => [("timestamps", .boolean c.timestamps)]))]

/-- The settings file is read as the document that it writes. -/
theorem parse?_render (c : Config) : parse? c.render = some c.document := by
  rw [render_eq, parse?_write c.keyBare_lines, lines, logFileLines, document]
  cases c.logFile <;> rfl

/-- The settings are read back from the document. -/
theorem ofToml?_document (home : Option Text) (c : Config) : ofToml? home c.document = some c := by
  have hlevel : ofToml? home c.document =
      (level? (.string c.level.name)).bind fun level => some { c with level := level } := by
    rw [document]
    cases c.logFile <;> rfl
  rw [hlevel, level?, LogLevel.ofName?_name]
  rfl

/-- Settings are read back from the file that is written for them, each as it was. -/
theorem settings_read_back (home : Option Text) (c : Config) : ofText? home c.render = some c := by
  rw [ofText?, parse?_render]
  exact ofToml?_document home c

end Config
end FilterLine
