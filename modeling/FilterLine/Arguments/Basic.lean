import FilterLine.Text.Basic

/-!
The command line of the helper itself: what can be asked of it, and the names under which options are
known. Options that apply to every command may stand in front of the command or after it.
-/
namespace FilterLine

inductive Command where
  /-- Complete a line with the cursor after some characters. -/
  | complete (cursor : Nat) (line : Text)
  /-- Print the hook of a shell. -/
  | init (shell : Text)
  /-- Print or remove the cache file. -/
  | cache (display clear : Bool)
  /-- Print or check the settings. -/
  | config (display validate : Bool)
  deriving DecidableEq, Repr

/-- A command with the options that apply to every command. -/
structure Invocation where
  command : Command
  configPath : Option Text := none
  binary : Option Text := none
  cachePath : Option Text := none
  noCache : Bool := false
  verbose : Bool := false
  veryVerbose : Bool := false
  deriving DecidableEq, Repr

/-- Why arguments ask for nothing that can be done. A request for help or for the version is one of
the reasons, and the only one that counts as a success. -/
inductive UsageError where
  | help
  | version
  /-- There are no arguments. -/
  | nothingGiven
  | commandMissing
  | commandUnknown
  | argumentMissing
  | argumentUnknown
  /-- An option or switch is given twice. -/
  | repeated
  /-- An option lacks its value, or has an empty one that must not be empty. -/
  | valueMissing
  /-- The cursor is not a number. -/
  | valueMalformed
  /-- A switch is given a value. -/
  | valueUnexpected
  deriving DecidableEq, Repr

namespace UsageError

def status : UsageError → Nat
  | help | version => 0
  | _ => 2

/-- A line that reports the reason, in words of its own. What a caller can rely on is the status. -/
def message : UsageError → Text
  | help | nothingGiven =>
    "Usage: gpac-complete [OPTIONS] (complete CURSOR LINE | init SHELL | cache [--show] [--clear] | config [--show] [--validate])"
  | version => "gpac-complete 0.3.0"
  | commandMissing => "error: a command is required"
  | commandUnknown => "error: unrecognized command"
  | argumentMissing => "error: a required argument was not provided"
  | argumentUnknown => "error: unexpected argument"
  | repeated => "error: an argument cannot be used multiple times"
  | valueMissing => "error: a value is required but none was supplied"
  | valueMalformed => "error: invalid digit found in CURSOR"
  | valueUnexpected => "error: unexpected value for a switch"

end UsageError

namespace Arguments

inductive Name where
  | complete
  | init
  | cache
  | config
  deriving DecidableEq, Repr

/-- The part of the arguments that is being read: the one in front of the command, or its own. -/
abbrev Level := Option Name

/-- A place that holds a value. -/
inductive Slot where
  | configPath
  | binary
  | cachePath
  | cursor
  | line
  | shell
  deriving DecidableEq, Repr

inductive Switch where
  | noCache
  | verbose
  | veryVerbose
  | display
  | clear
  | validate
  deriving DecidableEq, Repr

inductive Meaning where
  | slot (s : Slot)
  | switch (s : Switch)
  | help
  | version
  deriving DecidableEq, Repr

def name? (t : Text) : Option Name :=
  if t = ("complete" : Text) then some .complete
  else if t = ("init" : Text) then some .init
  else if t = ("cache" : Text) then some .cache
  else if t = ("config" : Text) then some .config
  else none

def helpWord : Text := "help"

/-- Whether a word names a command or asks for help on one. -/
def isCommandWord (t : Text) : Bool := (name? t).isSome || t == helpWord

def commonNames : List (Text × Meaning) :=
  [("config", .slot .configPath), ("gpac", .slot .binary), ("cache", .slot .cachePath),
   ("no-cache", .switch .noCache), ("verbose", .switch .verbose), ("vv", .switch .veryVerbose),
   ("help", .help)]

def longNames : Level → List (Text × Meaning)
  | none => ("version", .version) :: commonNames
  | some .cache => ("show", .switch .display) :: ("clear", .switch .clear) :: commonNames
  | some .config => ("show", .switch .display) :: ("validate", .switch .validate) :: commonNames
  | some _ => commonNames

def commonLetters : List (Char × Meaning) :=
  [('c', .slot .configPath), ('v', .switch .verbose), ('h', .help)]

def letters : Level → List (Char × Meaning)
  | none => ('V', .version) :: commonLetters
  | some _ => commonLetters

/-- The values that a level expects without a name, in order. -/
def positions : Level → List Slot
  | some .complete => [.cursor, .line]
  | some .init => [.shell]
  | _ => []

/-- Whether an unnamed value may look like an option that is not known. -/
def Slot.admitsHyphen : Slot → Bool
  | .line => true
  | _ => false

/-- How an argument is written. -/
inductive Shape where
  /-- Two hyphens alone: no option follows. -/
  | separator
  /-- A long name, possibly with a value attached. -/
  | long (name : Text) (value : Option Text)
  /-- Letters after one hyphen. -/
  | letters (cs : Text)
  | plain
  deriving DecidableEq, Repr

def Shape.of : Text → Shape
  | ['-', '-'] => .separator
  | '-' :: '-' :: r =>
    match Text.cutFirst? '=' r with
    | some (name, value) => .long name (some value)
    | none => .long r none
  | '-' :: c :: r => .letters (c :: r)
  | _ => .plain

end Arguments
end FilterLine
