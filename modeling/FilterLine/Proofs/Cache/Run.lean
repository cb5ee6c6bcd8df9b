import FilterLine.Proofs.Cache.Lookup
import FilterLine.Schema.SnapshotFile

/-!
Whole runs. A session starts without data or from a file, and then any accessors are called on it;
it goes on after a call that fails. Whatever moves preserve holds throughout a run.
-/
namespace FilterLine

/-- Whether the data is current if the version of the tool is known. -/
def Session.Settled (s : Session) : Prop := s.live = none ∨ s.Current

theorem Refused.settled {tool : Tool} {may : Query → Prop} {e : ToolError} {s s' : Session}
    (h : Refused tool may e s s') : s'.Settled := by
  cases h with
  | @mk q _ hask _ =>
    by_cases hq : q = .version
    · subst hq
      exact .inl hask
    · exact .inr (hask.current hq)

namespace Lookup

def runAll (tool : Tool) (calls : List Lookup) (s : Session) : Session :=
  calls.foldl (fun s l => ((l.act tool).result s).2) s

variable {tool : Tool}

/-- A run of accessors is made of the same moves as each of them. -/
theorem moves_runAll (calls : List Lookup) (s : Session) :
    Moves tool (fun _ => True) s (runAll tool calls s) := by
  induction calls generalizing s with
  | nil => exact .refl
  | cons l calls ih => exact (moves_act l (fun _ _ => trivial) s).trans (ih _)

/-- After an accessor, and whether or not it fails, the data is current if the version is known. -/
theorem settled_act (l : Lookup) (s : Session) : ((l.act tool).result s).2.Settled := by
  rcases h : (l.act tool).result s with ⟨r, s'⟩
  cases r with
  | ok v => exact .inr (act_ok (fun _ _ => trivial) h).2.1
  | error e =>
    obtain ⟨s₁, -, hrefused⟩ := act_error (fun _ _ => trivial) h
    exact hrefused.settled

theorem settled_runAll {s : Session} (calls : List Lookup) (h : s.Settled) :
    (runAll tool calls s).Settled := by
  induction calls generalizing s with
  | nil => exact h
  | cons l calls ih => exact ih (settled_act l s)

end Lookup

/-- Where a session gets its first data from: it has none, or a file, which may be missing. -/
inductive Origin where
  | memory
  | file (content : Option Bytes)

namespace Origin

def held : Origin → Option Snapshot
  | memory => none
  | file content => content.bind Snapshot.load?

/-- The session at its start. A file that keeps no snapshot is replaced, for which the version must
be known; if it cannot be found out there is no session. -/
def start (tool : Tool) : Origin → Option Session
  | memory => some {}
  | file content =>
    match (Cache.start tool (content.bind Snapshot.load?)).result {} with
    | (.ok _, s) => some s
    | (.error _, _) => none

variable {tool : Tool}

theorem held_file (content : Bytes) : (file (some content)).held = Snapshot.load? content := rfl

def taken (s : Snapshot) : Session where
  cache := { snapshot := s }

/-- The session that starts without a snapshot and has been told the version of the tool. -/
def blank (v : Option Text) : Session where
  cache := { snapshot := { version := v }, live := some v }
  journal := [.asked .version, .offered { version := v }]

/-- Without a snapshot the tool is asked for its version, which the blank snapshot bears. -/
theorem result_start_ok {v : Option Text} (h : tool [] .version = .ok v) :
    (Cache.start tool none).result {} = (.ok (), blank v) := by
  have hask : (Cache.ask tool .version).result {} = _ := Cache.result_ask .version {}
  have hresult : tool (Session.queries {}) .version = .ok v := h
  rw [hresult] at hask
  exact Act.result_bind_ok hask _

/-- Without a snapshot and without a version there is no session. -/
theorem result_start_error {e : ToolError} (h : tool [] .version = .error e) :
    (Cache.start tool none).result {} = (.error e, { journal := [.asked .version] }) := by
  have hask : (Cache.ask tool .version).result {} = _ := Cache.result_ask .version {}
  have hresult : tool (Session.queries {}) .version = .error e := h
  rw [hresult] at hask
  exact Act.result_bind_error hask _

inductive Started (tool : Tool) (o : Origin) : Session → Prop where
  | new : o.held = none → Started tool o {}
  | taken {snapshot : Snapshot} : o.held = some snapshot → Started tool o (taken snapshot)
  | blank {v : Option Text} : o.held = none → tool [] .version = .ok v → Started tool o (blank v)

/-- A session has no file, or takes over a snapshot, or starts from a blank one. -/
theorem started_of_start {o : Origin} {s : Session} (h : o.start tool = some s) :
    Started tool o s := by
  cases o with
  | memory =>
    cases h
    exact .new rfl
  | file content =>
    simp only [start] at h
    cases hheld : content.bind Snapshot.load? with
    | some snapshot =>
      rw [hheld] at h
      cases h
      exact .taken hheld
    | none =>
      rw [hheld] at h
      cases hversion : tool [] .version with
      | ok v =>
        rw [result_start_ok hversion] at h
        cases h
        exact .blank hheld hversion
      | error e =>
        rw [result_start_error hversion] at h
        cases h

theorem keeps_new {P : Snapshot → Prop} (h : P {}) : Session.Keeps P {} :=
  ⟨h, fun snapshot hmem => by simp at hmem⟩

theorem keeps_taken {P : Snapshot → Prop} {s : Snapshot} (h : P s) : (taken s).Keeps P :=
  ⟨h, fun snapshot hmem => by simp [taken] at hmem⟩

theorem keeps_blank {P : Snapshot → Prop} {v : Option Text} (h : P { version := v }) :
    (blank v).Keeps P := by
  refine ⟨h, fun snapshot hmem => ?_⟩
  simp only [blank, List.mem_cons, reduceCtorEq, List.not_mem_nil, or_false, false_or,
    Event.offered.injEq] at hmem
  rw [hmem]
  exact h

theorem settled_start {o : Origin} {s : Session} (h : o.start tool = some s) : s.Settled := by
  cases started_of_start h with
  | new _ => exact .inl rfl
  | taken _ => exact .inl rfl
  | blank _ _ => exact .inr rfl

end Origin
end FilterLine
