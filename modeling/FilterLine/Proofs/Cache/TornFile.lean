import FilterLine.Proofs.Cache.KeptFile
import FilterLine.Proofs.Json.Soundness

/-!
Files whose writing was interrupted. A snapshot is written as one object, which is not read before its
last brace; so what is left of a file that was cut off, be it inside a character, keeps no snapshot at
all, and a session that is opened on it starts anew.
-/
namespace FilterLine

/-- No start of the file of a snapshot keeps a snapshot. -/
theorem Snapshot.load?_cut {s : Snapshot} {content : Bytes} (h : content <+: Utf8.encode s.save)
    (hne : content ≠ Utf8.encode s.save) : load? content = none := by
  rw [load?]
  cases hdecode : Utf8.decode? content with
  | none => rfl
  | some t =>
    obtain ⟨hinit, hencode⟩ := Utf8.prefix_of_decode? h hdecode
    have ht : t ≠ s.save := by
      rintro rfl
      exact hne hencode.symm
    have hwrites : Json.Writes s.save (.value s.toJson) := s.printed_toJson .spread 0
    have hobject : ∀ digits, s.toJson ≠ .number digits := fun digits => by
      simp [toJson, Json.record]
    rw [Option.bind_some, ofText?, hwrites.parse?_cut hobject hinit ht, Option.bind_none]

/-- What an interrupted write has left of the file of a snapshot, however little is missing, keeps no
snapshot wherever it is found. A session that is opened on it starts from an empty snapshot of the
running version, if that can be found out, and never from part of what was written. -/
theorem torn_file_starts_blank {s : Snapshot} {content : Bytes}
    (h : content <+: Utf8.encode s.save) (hne : content ≠ Utf8.encode s.save) :
    Snapshot.load? content = none ∧
    (∀ (d : Disk) (path : Text), d.read path = .ok content →
      (CacheFile.load d path).snapshot? = none) ∧
    ∀ tool : Tool,
      (Origin.file (some content)).start tool = (tool [] .version).toOption.map Origin.blank := by
  have hload : Snapshot.load? content = none := Snapshot.load?_cut h hne
  refine ⟨hload, fun d path hread => ?_, fun tool => ?_⟩
  · rw [CacheFile.snapshot?_load, hread]
    exact hload
  · rw [Origin.start, Option.bind_some, hload]
    cases hversion : tool [] .version with
    | ok v =>
      rw [Origin.result_start_ok hversion]
      rfl
    | error e =>
      rw [Origin.result_start_error hversion]
      rfl

/-- A snapshot of a version whose name takes four bytes. -/
def Snapshot.clapper : Snapshot where
  version := some [Char.ofNat 0x1f3ac]
  data := { filters := some ["mux"] }

theorem torn_file_starts_blank_clapper :
    let content := (Utf8.encode Snapshot.clapper.save).take 18
    Utf8.decode? (content.take 16) ≠ none ∧ Utf8.decode? content = none ∧
      Snapshot.load? content = none ∧
      (Origin.file (some content)).start (.fixed fun
        | .version => .ok (some "1")
        | _ => .error (.exit "tool" none)) =
        some (Origin.blank (some "1")) := by
  have hne : (Utf8.encode Snapshot.clapper.save).take 18 ≠ Utf8.encode Snapshot.clapper.save := by
    decide
  obtain ⟨hload, -, hstart⟩ := torn_file_starts_blank (List.take_prefix ..) hne
  exact ⟨by decide, by decide, hload, hstart _⟩

end FilterLine
