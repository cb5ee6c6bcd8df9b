import FilterLine.Arguments.Reader
import FilterLine.Command.Failure
import FilterLine.Command.Log
import FilterLine.Completion.Engine
import FilterLine.Config.Document
import FilterLine.Shell.Hook

/-!
One run of the helper: from its arguments, the environment, the programs and the files that exist, to
what it prints, the status it exits with and the files that it leaves. A request whose candidates
cannot all be computed prints nothing.
-/
namespace FilterLine

/-- What a run finds. -/
structure Surroundings where
  home : Option Text
  environment : Environment
  /-- The programs that can be started when the disk is as given. -/
  programs : Disk → Runner
  disk : Disk
  /-- The time, as it stands in front of log lines. -/
  now : Text

structure Trace where
  disk : Disk
  out : Text := []
  err : Text := []
  /-- The programs started, each with its arguments. -/
  started : List (List Text) := []

structure Outcome extends Trace where
  status : Nat

/-- A step of a run. -/
abbrev Run (α : Type) := ExceptT Failure (StateM Trace) α

namespace Run

def print (t : Text) : Run Unit := modify fun s => { s with out := s.out ++ t }

def printLine (t : Text) : Run Unit := print (t ++ ['\n'])

/-- Prints a line to the error stream. -/
def report (t : Text) : Run Unit := modify fun s => { s with err := s.err ++ t ++ ['\n'] }

/-- The log: to a file, or to the error stream. -/
structure Sink where
  logger : Logger
  file : Option Text

def log (sink : Sink) (l : LogLine) : Run Unit :=
  if sink.logger.level.shows l.level then
    let t := l.render sink.logger
    modify fun s =>
      match sink.file with
      | some path => { s with disk := ((s.disk.append path (Utf8.encode t)).toOption).getD s.disk }
      | none => { s with err := s.err ++ t }
  else pure ()

/-- Opens the log file, making the directories above it. Without it the log goes to the error
stream. -/
def openLog (now : Text) (c : Config) : Run Sink := do
  let logger := { level := c.level, stamp := if c.timestamps then now ++ [' '] else [] }
  match c.logFile with
  | none => pure { logger := logger, file := none }
  | some path =>
    match (← get).disk.makeParents path with
    | .error e => fail logger path e
    | .ok d =>
      modify fun s => { s with disk := d }
      match d.append path [] with
      | .error e => fail logger path e
      | .ok d =>
        modify fun s => { s with disk := d }
        pure { logger := logger, file := some path }
where
  /-- Goes on without the file. -/
  fail (logger : Logger) (path : Text) (e : FileError) : Run Sink := do
    report ("Warning: cannot open log file " ++ path ++ ": " ++ e.message)
    pure { logger := logger, file := none }

def configAt (home : Option Text) (disk : Disk) (path : Text) : Except Failure Config :=
  match disk.readText path with
  | .error e => .error (.file e)
  | .ok t =>
    match Config.ofText? home t with
    | some c => .ok c
    | none => .error (.config .malformed)

/-- The settings of this run. Settings that cannot be used give way to the defaults, with a
warning. -/
def loadConfig (w : Surroundings) (path : Text) (o : Override) : Run Config := do
  let disk := (← get).disk
  let c ← if disk.isFile path then MonadExcept.ofExcept (configAt w.home disk path)
    else pure (Config.standard w.home)
  let (c, fault) := c.effective w.environment w.home o
  if let some e := fault then
    report ("Warning: Configuration validation failed: " ++ (Failure.config e).message)
    report "Using default configuration instead."
  pure c

/-- What an event does to the files, the log and the list of started programs. -/
def event (sink : Sink) (runner : Runner) (binary : Text) (keepAt : Option Text) (e : Event) :
    Run Unit := do
  (LogLine.ofEvent runner binary e).forM (log sink)
  match e, keepAt with
  | .asked q, _ =>
    if (runner binary (Program.arguments q)).toOption.isSome then
      modify fun s => { s with started := s.started ++ [binary :: Program.arguments q] }
  | .offered snapshot, some path =>
    let (disk, failure) := CacheFile.keep path (← get).disk snapshot
    modify fun s => { s with disk := disk }
    if let some e := failure then log sink (.unwritten path e)
  | _, _ => pure ()

/-- What happens while a session starts: the cache file, if there is one, is read. -/
def startSession (sink : Sink) (tool : Tool) (keepAt : Option Text) :
    Run (Except ToolError Unit × Session) := do
  match keepAt with
  | none => pure (.ok (), {})
  | some path =>
    let loaded := CacheFile.load (← get).disk path
    (LogLine.ofLoaded path loaded).forM (log sink)
    pure ((Cache.start tool loaded.snapshot?).run.run {})

/-- The paths that complete a text, after the snapshots offered so far have been written. -/
def pathsOn (home : Option Text) (disk : Disk) (keepAt : Option Text) : PathSource :=
  fun past start =>
    let disk := match keepAt with
      | some path => CacheFile.keepOffered path disk past
      | none => disk
    Paths.complete disk.list home start false

/-- Prints the candidates for a line, one on each line. -/
def complete (w : Surroundings) (sink : Sink) (c : Config) (cursor : Nat) (line : Text) :
    Run Unit := do
  let disk := (← get).disk
  let runner := w.programs disk
  let tool := Program.tool runner c.binary
  let keepAt := if c.cacheEnabled then some c.cachePath else none
  let (opened, session) ← startSession sink tool keepAt
  session.journal.forM (event sink runner c.binary keepAt)
  let _ ← MonadExcept.ofExcept (opened.mapError Failure.tool)
  log sink (.context (.ofCursor line cursor))
  let (found, after) :=
    (Engine.complete tool (pathsOn w.home disk keepAt) line cursor).run.run session
  (after.journal.drop session.journal.length).forM (event sink runner c.binary keepAt)
  let candidates ← MonadExcept.ofExcept (found.mapError Failure.tool)
  log sink (.count candidates.length)
  candidates.forM printLine

def init (shell : Text) : Run Unit := do
  print (← MonadExcept.ofExcept ((Shell.hookFor shell).mapError Failure.config))

/-- Prints the snapshot in the cache file, removes the file, or tells where it is. -/
def cache (sink : Sink) (path : Text) (display clear : Bool) : Run Unit := do
  if display then
    let loaded := CacheFile.load (← get).disk path
    (LogLine.ofLoaded path loaded).forM (log sink)
    match loaded.snapshot? with
    | some s => printLine s.save
    | none => printLine ("No schema cache at " ++ path)
  if clear then
    match (← get).disk.remove path with
    | .ok disk =>
      modify fun s => { s with disk := disk }
      printLine ("Removed " ++ path)
    | .error .notFound => printLine ("No schema cache at " ++ path)
    | .error e => throw (.file e)
  if !display && !clear then printLine ("Schema cache: " ++ path)

/-- The line that tells whether the settings file can be used. -/
def verdict (home : Option Text) (disk : Disk) (path : Text) : Text :=
  if disk.holds path then
    match configAt home disk path with
    | .error e => "❌ Failed to load configuration: " ++ e.message
    | .ok c =>
      match c.fault? with
      | some e => "❌ Configuration validation failed: " ++ (Failure.config e).message
      | none => "✅ Configuration is valid"
  else "❌ Configuration file does not exist"

def config (home : Option Text) (c : Config) (path : Text) (display validate : Bool) :
    Run Unit := do
  if validate then
    printLine ("Validating configuration file: " ++ path)
    printLine (verdict home (← get).disk path)
  if display then
    printLine ("Configuration file: " ++ path)
    printLine []
    printLine "=== Effective Configuration ==="
    printLine []
    printLine c.render

def override (i : Invocation) : Override where
  binary := i.binary
  cachePath := i.cachePath
  noCache := i.noCache
  level := if i.veryVerbose then some .trace else if i.verbose then some .debug else none

def configPath (w : Surroundings) (i : Invocation) : Text :=
  i.configPath.getD (Config.defaultPath w.environment w.home)

/-- The files, apart from the settings file, that a run may read or write. -/
def files (w : Surroundings) (i : Invocation) : List Text :=
  match ((loadConfig w (configPath w i) (override i)).run.run { disk := w.disk }).1 with
  | .ok c => c.cachePath :: c.logFile.toList
  | .error _ => []

def perform (w : Surroundings) (i : Invocation) : Run Unit := do
  let path := configPath w i
  let c ← loadConfig w path (override i)
  let sink ← openLog w.now c
  match i.command with
  | .complete cursor line => complete w sink c cursor line
  | .init shell => init shell
  | .cache display clear => cache sink c.cachePath display clear
  | .config display validate => config w.home c path display validate

end Run

/-- The outcome of a run with some arguments. -/
def Outcome.of (w : Surroundings) (args : List Text) : Outcome :=
  match Arguments.parse args with
  | .error e =>
    let t := e.message ++ ['\n']
    if e.status = 0 then { disk := w.disk, out := t, status := 0 }
    else { disk := w.disk, err := t, status := e.status }
  | .ok i =>
    match (Run.perform w i).run.run { disk := w.disk } with
    | (.ok (), s) => { s with status := 0 }
    | (.error e, s) =>
      { s with err := s.err ++ "Error: " ++ e.message ++ ['\n'], status := 1 }

end FilterLine
