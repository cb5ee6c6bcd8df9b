import FilterLine.Files.Disk
import FilterLine.Schema.Cache
import FilterLine.Schema.SnapshotFile

/-!
A cache kept in a file. The file is read once, when the session starts, and written whole whenever a
snapshot is offered; a file that cannot be read, or that keeps no snapshot, is as good as none, and a
write that fails leaves the session as it is.
-/
namespace FilterLine.CacheFile

inductive Loaded where
  | unreadable (e : FileError)
  | corrupt (content : Text)
  | held (s : Snapshot)

def Loaded.snapshot? : Loaded → Option Snapshot
  | held s => some s
  | _ => none

def load (d : Disk) (path : Text) : Loaded :=
  match d.readText path with
  | .error e => .unreadable e
  | .ok content =>
    match Snapshot.ofText? content with
    | some s => .held s
    | none => .corrupt content

/-- Writes a snapshot to a path, making the directories above it. What was done before a failure
stays done. -/
def keep (path : Text) (d : Disk) (s : Snapshot) : Disk × Option FileError :=
  match d.makeParents path with
  | .error e => (d, some e)
  | .ok d =>
    match d.write path (Utf8.encode s.save) with
    | .error e => (d, some e)
    | .ok d => (d, none)

/-- Writes the snapshots offered, one after the other. -/
def keepOffered (path : Text) (d : Disk) (journal : List Event) : Disk :=
  journal.foldl (fun d e => match e with
    | .offered s => (keep path d s).1
    | _ => d) d

end FilterLine.CacheFile
