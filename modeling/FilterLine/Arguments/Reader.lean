import FilterLine.Arguments.Basic

/-!
Reading the arguments. A value is not looked at before the next option or unnamed value comes, or the
arguments end: an unknown option is therefore reported before a bad value in front of it. An option or
switch may be given once at each level, and what is given after the command counts.
-/
namespace FilterLine.Arguments

/-- What has been given at one level. -/
structure Given where
  configPath : Option Text := none
  binary : Option Text := none
  cachePath : Option Text := none
  cursor : Option Nat := none
  line : Option Text := none
  shell : Option Text := none
  switches : List Switch := []
  deriving DecidableEq, Repr

def maxCursor : Nat := 18446744073709551615

/-- A cursor: decimal digits, possibly after a plus. -/
def cursor? (t : Text) : Option Nat :=
  let ds : Text := match t with
    | '+' :: r => r
    | _ => t
  let n := ds.foldl (fun n c => n * 10 + (c.toNat - '0'.toNat)) 0
  if ds ≠ [] ∧ ds.all Char.isDigit ∧ n ≤ maxCursor then some n else none

namespace Given

def fill {α : Type} (old : Option α) (v : α) : Except UsageError (Option α) :=
  if old.isSome then .error .repeated else .ok (some v)

/-- The path that a value is. -/
def path (v : Text) : Except UsageError Text := if v = [] then .error .valueMissing else .ok v

def put (g : Given) (s : Slot) (v : Text) : Except UsageError Given :=
  match s with
  | .configPath => do
    let old ← fill g.configPath v
    let _ ← path v
    .ok { g with configPath := old }
  | .binary => do .ok { g with binary := ← fill g.binary v }
  | .cachePath => do
    let old ← fill g.cachePath v
    let _ ← path v
    .ok { g with cachePath := old }
  | .cursor =>
    match cursor? v with
    | some n => .ok { g with cursor := some n }
    | none => .error .valueMalformed
  | .line => .ok { g with line := some v }
  | .shell => .ok { g with shell := some v }

def turnOn (g : Given) (s : Switch) : Except UsageError Given :=
  if s ∈ g.switches then .error .repeated else .ok { g with switches := s :: g.switches }

def has (g : Given) (s : Switch) : Bool := s ∈ g.switches

end Given

/-- How far a level has been read: what was given, the slot whose value has not been looked at yet,
and the slots of the unnamed values to come. -/
structure Progress where
  given : Given := {}
  pending : Option (Slot × Option Text) := none
  expected : List Slot
  deriving DecidableEq, Repr

def Progress.start (level : Level) : Progress := { expected := positions level }

namespace Progress

/-- Looks at the value that has not been looked at yet. -/
def settle (p : Progress) : Except UsageError Progress :=
  match p.pending with
  | none => .ok p
  | some (_, none) => .error .valueMissing
  | some (s, some v) => do .ok { p with given := ← p.given.put s v, pending := none }

def isWaiting (p : Progress) : Bool :=
  match p.pending with
  | some (_, none) => true
  | _ => false

def name (p : Progress) (m : Meaning) : Except UsageError Progress := do
  let p ← p.settle
  match m with
  | .slot s => .ok { p with pending := some (s, none) }
  | .switch s => .ok { p with given := ← p.given.turnOn s }
  | .help => .error .help
  | .version => .error .version

def attached (p : Progress) (s : Slot) (v : Text) : Except UsageError Progress := do
  let p ← p.settle
  .ok { p with given := ← p.given.put s v }

/-- Reads letters. The rest after the letter of a slot is its value, without an equals sign in
front. -/
def letters (level : Level) : (cs : Text) → Progress → Except UsageError Progress
  | [], p => .ok p
  | c :: cs, p =>
    match (Arguments.letters level).lookup c, cs with
    | none, _ => .error .argumentUnknown
    | some (.slot s), '=' :: v => p.attached s v
    | some (.slot s), c :: v => p.attached s (c :: v)
    | some m, cs => do letters level cs (← p.name m)

/-- Whether the next unnamed value may look like an unknown option. -/
def admitsHyphen (p : Progress) : Bool := p.expected.head?.any Slot.admitsHyphen

def unnamed (level : Level) (afterSeparator : Bool) (v : Text) (p : Progress) :
    Except UsageError Progress :=
  match p.expected with
  | s :: expected => do .ok { (← p.settle) with pending := some (s, some v), expected := expected }
  | [] =>
    .error (if level.isNone ∧ ¬(afterSeparator ∧ isCommandWord v) then .commandUnknown
      else .argumentUnknown)

/-- Reads a value: of the option that waits for one, or an unnamed one. -/
def value (level : Level) (v : Text) (p : Progress) : Except UsageError Progress :=
  match p.pending with
  | some (s, none) => .ok { p with pending := some (s, some v) }
  | _ => p.unnamed level false v

def argument (level : Level) (a : Text) (p : Progress) : Except UsageError Progress :=
  match Shape.of a with
  | .long n v =>
    match (longNames level).lookup n, v with
    | some (.slot s), some v => p.attached s v
    | some _, some _ => .error .valueUnexpected
    | some m, none => p.name m
    | none, _ => if p.admitsHyphen then p.value level a else .error .argumentUnknown
  | .letters cs =>
    if p.admitsHyphen && cs.any (fun c => ((Arguments.letters level).lookup c).isNone) then
      p.value level a
    else p.letters level cs
  | .separator | .plain => p.value level a

end Progress

def helpOn : List Text → UsageError
  | [] => .help
  | [a] => if isCommandWord a then .help else .commandUnknown
  | _ => .commandUnknown

/-- Reads the arguments of a level, up to the name of a command where one may stand: the level as far
as it was read, and the command with the arguments after it. -/
def readLevel (level : Level) : List Text → Progress →
    Except UsageError (Progress × Option (Name × List Text))
  | [], p => .ok (p, none)
  | a :: as, p =>
    if level.isNone && !p.isWaiting && a == helpWord then .error (helpOn as)
    else match (if level.isNone && !p.isWaiting then name? a else none) with
      | some n => .ok (p, some (n, as))
      | none =>
        if Shape.of a = .separator then do
          .ok (← as.foldlM (fun p a => p.unnamed level true a) p, none)
        else do readLevel level as (← p.argument level a)

def Given.command (g : Given) : Name → Except UsageError Command
  | .complete =>
    match g.cursor, g.line with
    | some cursor, some line => .ok (.complete cursor line)
    | _, _ => .error .argumentMissing
  | .init =>
    match g.shell with
    | some shell => .ok (.init shell)
    | none => .error .argumentMissing
  | .cache => .ok (.cache (g.has .display) (g.has .clear))
  | .config => .ok (.config (g.has .display) (g.has .validate))

/-- A command together with what was given in front of it and after its name. -/
def invocation (command : Command) (outer inner : Given) : Invocation where
  command := command
  configPath := inner.configPath.or outer.configPath
  binary := inner.binary.or outer.binary
  cachePath := inner.cachePath.or outer.cachePath
  noCache := inner.has .noCache || outer.has .noCache
  verbose := inner.has .verbose || outer.has .verbose
  veryVerbose := inner.has .veryVerbose || outer.has .veryVerbose

/-- What arguments ask for. -/
def parse (args : List Text) : Except UsageError Invocation := do
  let (outer, rest) ← readLevel none args (.start none)
  match rest with
  | none =>
    let outer ← outer.settle
    .error (if outer.given = {} then .nothingGiven else .commandMissing)
  | some (name, args) =>
    let (inner, _) ← readLevel (some name) args (.start (some name))
    let inner ← inner.settle
    let command ← inner.given.command name
    let outer ← outer.settle
    .ok (invocation command outer.given inner.given)

end FilterLine.Arguments
