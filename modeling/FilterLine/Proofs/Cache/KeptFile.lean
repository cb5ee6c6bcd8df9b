import FilterLine.Proofs.Cache.History
import FilterLine.Proofs.Files.Disk
import FilterLine.Schema.CacheFile

/-!
The file behind a session. What is loaded from a file depends on its content alone, and while all
writes succeed the file keeps the last snapshot that was offered; as long as none has been offered,
nothing on the disk has changed.
-/
namespace FilterLine

theorem offeredIn_append (xs ys : List Event) :
    offeredIn (xs ++ ys) = offeredIn xs ++ offeredIn ys := List.filterMap_append

/-- The event that offered the last of some snapshots. -/
theorem exists_last_offered {journal : List Event} {s : Snapshot}
    (h : (offeredIn journal).getLast? = some s) :
    ∃ before after, journal = before ++ .offered s :: after ∧ offeredIn after = [] := by
  obtain ⟨init, hinit⟩ := List.getLast?_eq_some_iff.mp h
  obtain ⟨before, rest, rfl, -, hrest⟩ := List.filterMap_eq_append_iff.mp hinit
  obtain ⟨skipped, e, after, rfl, -, he, hafter⟩ := List.filterMap_eq_cons_iff.mp hrest
  cases e with
  | offered s' =>
    cases he
    exact ⟨before ++ skipped, after, by simp, hafter⟩
  | _ => cases he

namespace CacheFile

variable {d : Disk} {path : Text} {journal : List Event} {s : Snapshot}

/-- A file is loaded as what its content keeps. -/
theorem snapshot?_load (d : Disk) (path : Text) :
    (load d path).snapshot? = (d.read path).toOption.bind Snapshot.load? := by
  rw [load, Disk.readText]
  cases d.read path with
  | error e => rfl
  | ok content =>
    have hload : Snapshot.load? content = (Utf8.decode? content).bind Snapshot.ofText? := rfl
    rw [Except.toOption, Option.bind_some, hload]
    cases hdecode : Utf8.decode? content with
    | none =>
      simp only [bind, Except.bind, hdecode]
      rfl
    | some t =>
      simp only [bind, Except.bind, hdecode, Option.bind_some]
      cases Snapshot.ofText? t <;> rfl

/-- A snapshot that has been written is loaded again. -/
theorem snapshot?_load_keep (hparsed : s.Parsed) (h : (keep path d s).2 = none) :
    (load (keep path d s).1 path).snapshot? = some s := by
  rw [keep] at h ⊢
  cases hparents : d.makeParents path with
  | error e =>
    rw [hparents] at h
    cases h
  | ok d₁ =>
    simp only [hparents] at h ⊢
    cases hwrite : d₁.write path (Utf8.encode s.save) with
    | error e =>
      rw [hwrite] at h
      cases h
    | ok d₂ =>
      simp only
      rw [snapshot?_load, Disk.read_write hwrite, Except.toOption, Option.bind_some,
        Snapshot.load?_save hparsed]

theorem keepOffered_append (path : Text) (d : Disk) (xs ys : List Event) :
    keepOffered path d (xs ++ ys) = keepOffered path (keepOffered path d xs) ys :=
  List.foldl_append

/-- Without a snapshot on offer the file is left alone. -/
theorem keepOffered_of_none (h : offeredIn journal = []) : keepOffered path d journal = d := by
  induction journal generalizing d with
  | nil => rfl
  | cons e journal ih =>
    cases e with
    | offered s => cases h
    | _ => exact ih h

/-- Whether every snapshot that is offered can be written when its turn comes. -/
def WritesSucceed (path : Text) : Disk → List Event → Prop
  | _, [] => True
  | d, .offered s :: journal =>
    (keep path d s).2 = none ∧ WritesSucceed path (keep path d s).1 journal
  | d, _ :: journal => WritesSucceed path d journal

theorem WritesSucceed.right {xs ys : List Event} (h : WritesSucceed path d (xs ++ ys)) :
    WritesSucceed path (keepOffered path d xs) ys := by
  induction xs generalizing d with
  | nil => exact h
  | cons e xs ih =>
    cases e with
    | offered s => exact ih h.2
    | _ => exact ih h

/-- The file keeps the last snapshot that was offered. -/
theorem snapshot?_load_keepOffered (hwrites : WritesSucceed path d journal)
    (hlast : (offeredIn journal).getLast? = some s) (hparsed : s.Parsed) :
    (load (keepOffered path d journal) path).snapshot? = some s := by
  obtain ⟨before, after, rfl, hafter⟩ := exists_last_offered hlast
  have hdisk : keepOffered path d (before ++ .offered s :: after) =
      (keep path (keepOffered path d before) s).1 := by
    rw [keepOffered_append]
    exact keepOffered_of_none hafter
  rw [hdisk]
  exact snapshot?_load_keep hparsed hwrites.right.1

end CacheFile
end FilterLine
