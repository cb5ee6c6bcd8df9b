import FilterLine.Command.Run

/-!
The helper as a program. It looks at the files that the run may touch, runs, prints, and writes back
what has changed. Programs are not started from here, so every query of the tool fails.
-/
namespace FilterLine.Main

def pathOf (names : List Text) : String :=
  String.ofList ('/' :: Text.join ['/'] names)

/-- What stands at a place whose parent is a directory. -/
def look (names : List Text) : IO (Option Tree) := do
  try
    let content ← IO.FS.readBinFile (pathOf names)
    return some (.file content.toList)
  catch
    | .inappropriateType .. => return some .empty
    | _ => return none

def placesOf (d : Disk) (path : Text) : List (List Text) :=
  (Disk.movingParts path).foldl (fun (places : List (List Text)) part =>
    let here := places.getLast?.getD (d.start path)
    places ++ [if part = ['.', '.'] then here.dropLast else here ++ [part]]) []

/-- The disk with what stands on the way to a path. -/
def load (d : Disk) (path : Text) : IO Disk :=
  (placesOf d path).foldlM (fun d names => do
    if (d.at? names).isNone && (d.at? names.dropLast).any Tree.isDirectory then
      match ← look names with
      | some t => return d.put names t
      | none => return d
    else return d) d

def save (before after : Disk) (path : Text) : IO Unit := do
  match (placesOf before path).getLast? with
  | none => return
  | some names =>
    match before.at? names, after.at? names with
    | some (.file old), some (.file new) => unless old = new do write names new
    | none, some (.file new) => write names new
    | some (.file _), none => IO.FS.removeFile (pathOf names)
    | _, _ => return
where
  /-- Writes a file, making the directories above it. -/
  write (names : List Text) (content : Bytes) : IO Unit := do
    IO.FS.createDirAll (pathOf names.dropLast)
    IO.FS.writeBinFile (pathOf names) (ByteArray.mk content.toArray)

/-- The environment variables that the helper looks up. -/
def variableNames : List String :=
  ["GPAC_COMPLETE_BINARY", "GPAC_COMPLETE_CACHE", "GPAC_COMPLETE_LOG", "XDG_CONFIG_HOME"]

/-- The surroundings of this process, with an empty disk. -/
def surroundings : IO Surroundings := do
  let values ← variableNames.mapM fun name => do
    return (name.toList, (← IO.getEnv name).map String.toList)
  let home := ((← IO.getEnv "HOME").map String.toList).filter (· ≠ [])
  let here := Disk.movingParts (← IO.currentDir).toString.toList
  return {
    home := home
    environment := fun name => (values.lookup name).join
    programs := fun _ _ _ => .error "Operation not permitted (os error 1)"
    disk := { root := Tree.empty.put here .empty, here := here }
    now := Text.decimal (← IO.monoMsNow) }

end FilterLine.Main

open FilterLine in
def main (args : List String) : IO UInt32 := do
  let args := args.map String.toList
  let mut w ← Main.surroundings
  let mut paths := []
  if let .ok i := Arguments.parse args then
    w := { w with disk := ← Main.load w.disk (Run.configPath w i) }
    paths := Run.files w i
    w := { w with disk := ← paths.foldlM Main.load w.disk }
  let outcome := Outcome.of w args
  paths.forM (Main.save w.disk outcome.disk)
  (← IO.getStdout).putStr (String.ofList outcome.out)
  (← IO.getStderr).putStr (String.ofList outcome.err)
  return outcome.status.toUInt32
