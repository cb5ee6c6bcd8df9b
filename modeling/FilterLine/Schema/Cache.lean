import FilterLine.Files.FileError
import FilterLine.Schema.Shorthand
import FilterLine.Schema.Snapshot
import FilterLine.Schema.Tool

/-!
The memory in front of the tool. An accessor first makes sure that what is remembered belongs to the
version of the tool that runs now, and drops everything at once if it does not; then it answers from
memory, or asks the tool, remembers the answer and offers the whole snapshot for keeping. All it does
on the way is written into a journal.
-/
namespace FilterLine

inductive Event where
  /-- The tool was asked. -/
  | asked (q : Query)
  /-- What was remembered belongs to another version and was dropped. -/
  | outdated (held live : Option Text)
  /-- The snapshot was offered for keeping. -/
  | offered (s : Snapshot)
  /-- A directory could not be listed. -/
  | unlisted (directory : Text) (e : FileError)
  deriving DecidableEq, Repr

def Event.query? : Event → Option Query
  | asked q => some q
  | _ => none

/-- A snapshot, and the version of the running tool once it is known. -/
structure Cache where
  snapshot : Snapshot := {}
  live : Option (Option Text) := none
  deriving DecidableEq, Repr

/-- A cache with the journal of what it did. -/
structure Session where
  cache : Cache := {}
  journal : List Event := []
  deriving DecidableEq, Repr

def Session.queries (s : Session) : List Query := s.journal.filterMap Event.query?

/-- A step of a session: it may fail, and what it did before failing stays done. -/
abbrev Act (α : Type) := ExceptT ToolError (StateM Session) α

namespace Cache

variable (tool : Tool)

def note (e : Event) : Act Unit := modify fun s => { s with journal := s.journal ++ [e] }

def ask (q : Query) : Act q.Answer := do
  let past := (← get).queries
  note (.asked q)
  match tool past q with
  | .ok a => pure a
  | .error e => throw e

/-- The version of the running tool, asked for once. -/
def liveVersion : Act (Option Text) := do
  match (← get).cache.live with
  | some v => pure v
  | none =>
    let v ← ask tool .version
    modify fun s => { s with cache := { s.cache with live := some v } }
    pure v

/-- Drops everything remembered if it belongs to another version than the running one. -/
def ensureCurrent : Act Unit := do
  let live ← liveVersion tool
  let held := (← get).cache.snapshot.version
  if held ≠ live then
    note (.outdated held live)
    modify fun s => { s with cache := { s.cache with snapshot := { version := live } } }

/-- Remembers something and offers the snapshot for keeping. -/
def remember (store : SchemaData → SchemaData) : Act Unit := do
  modify fun s =>
    { s with cache.snapshot.data := store s.cache.snapshot.data }
  note (.offered (← get).cache.snapshot)

/-- Answers from memory, or by `fetch`, whose answer is remembered. -/
def fromMemory {α : Type} (read : SchemaData → Option α) (fetch : Act α)
    (store : α → SchemaData → SchemaData) : Act α := do
  ensureCurrent tool
  match read (← get).cache.snapshot.data with
  | some a => pure a
  | none =>
    let a ← fetch
    remember (store a)
    pure a

def filters : Act (List Text) :=
  fromMemory tool (·.filters) (ask tool .filters) fun a d => { d with filters := some a }

def modules : Act (List Text) :=
  fromMemory tool (·.modules) (ask tool .modules) fun a d => { d with modules := some a }

def props : Act (List Text) :=
  fromMemory tool (·.props) (ask tool .props) fun a d => { d with props := some a }

def protocols : Act (List Protocol) :=
  fromMemory tool (·.protocols) (ask tool .protocols) fun a d => { d with protocols := some a }

def filterArgs (filter : Text) : Act (List ArgumentSpec) :=
  fromMemory tool (·.args.get? filter) (ask tool (.filterArgs filter)) fun a d =>
    { d with args := d.args.insert filter a }

/-- The detail of an argument. The declared type is enough unless it is an enumeration, or there is
no such declaration. -/
def argument (filter argument : Text) : Act ArgumentDetail :=
  fromMemory tool (·.details.get? (detailKey filter argument))
    (do
      match (← filterArgs tool filter).find? (·.name == argument) with
      | some spec =>
        if spec.kind = .enum then ask tool (.argument filter argument)
        else pure { kind := some spec.kind }
      | none => ask tool (.argument filter argument))
    fun a d => { d with details := d.details.insert (detailKey filter argument) a }

def shorthands (filter : Text) : Act (List EnumShorthand) :=
  fromMemory tool (·.shorthands.get? filter)
    (do
      let args ← filterArgs tool filter
      let listed ← (args.filter (·.kind = .enum)).mapM fun spec => do
        pure (spec.name, (← argument tool filter spec.name).values)
      pure (EnumShorthand.derive (args.map (·.name)) listed))
    fun a d => { d with shorthands := d.shorthands.insert filter a }

/-- Starts a session from a snapshot read from a file; without one, from an empty snapshot that
bears the version of the running tool and is offered for keeping. -/
def start (held : Option Snapshot) : Act Unit := do
  match held with
  | some s => set { cache := { snapshot := s } : Session }
  | none =>
    let v ← ask tool .version
    modify fun s => { s with cache := { snapshot := { version := v }, live := some v } }
    note (.offered { version := v })

end Cache
end FilterLine
