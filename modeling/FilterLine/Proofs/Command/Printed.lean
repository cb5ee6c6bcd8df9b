import FilterLine.Command.Run
import FilterLine.Program.Shelf
import FilterLine.Proofs.Text.Splitting

/-!
What a request for candidates prints. Everything in front of the printing, the log and the cache file
included, leaves the output alone, so a request that fails has printed nothing. The candidates stand on
lines of their own only where none of them holds a line feed: nothing keeps a file name, or a piece of
the line that is echoed, from holding one, and then the lines are not the candidates.
-/
namespace FilterLine

namespace Text

/-- The lines of a text in which each line is ended by a line feed. -/
def endedLines (t : Text) : List Text := (splitAll '\n' t).dropLast

/-- A line is ended by its line feed. -/
theorem endedLines_cons {t : Text} (u : Text) (h : '\n' ∉ t) :
    endedLines (t ++ '\n' :: u) = t :: endedLines u := by
  rw [endedLines, splitAll_append_cons_self, splitAll_of_not_mem h, List.singleton_append,
    List.dropLast_cons_of_ne_nil (splitAll_ne_nil _ _)]
  rfl

/-- Texts can be read back from their lines exactly when none of them holds a line feed. -/
theorem endedLines_flatMap (ts : List Text) :
    endedLines (ts.flatMap (· ++ ['\n'])) = ts ↔ ∀ t ∈ ts, '\n' ∉ t := by
  constructor
  · intro h t ht
    rw [← h] at ht
    exact not_mem_of_mem_splitAll (List.dropLast_subset _ ht)
  · intro h
    induction ts with
    | nil => rfl
    | cons t ts ih =>
      rw [List.flatMap_cons, List.append_assoc, List.singleton_append,
        endedLines_cons _ (h t List.mem_cons_self), ih fun u hu => h u (List.mem_cons_of_mem _ hu)]

end Text

namespace Run

variable {α β : Type}

/-- What a step of a run gives, and the trace it leaves. -/
def result (x : Run α) (s : Trace) : Except Failure α × Trace := x.run.run s

/-- After a success the next step goes on from the trace that the first one leaves. -/
theorem result_bind_ok {x : Run α} {s s' : Trace} {a : α} (h : x.result s = (.ok a, s'))
    (f : α → Run β) : (x >>= f).result s = (f a).result s' := by
  simp only [result, ExceptT.run_bind, StateT.run_bind] at h ⊢
  rw [h]
  rfl

/-- After a failure nothing more is done. -/
theorem result_bind_error {x : Run α} {s s' : Trace} {e : Failure}
    (h : x.result s = (.error e, s')) (f : α → Run β) :
    (x >>= f).result s = (.error e, s') := by
  simp only [result, ExceptT.run_bind, StateT.run_bind] at h ⊢
  rw [h]
  rfl

theorem result_get (s : Trace) : (get : Run Trace).result s = (.ok s, s) := rfl

/-! ### Printing -/

/-- A step ends in a result, and adds a text to what has been printed. -/
def Prints (x : Run α) (s : Trace) (r : Except Failure α) (t : Text) : Prop :=
  ∃ s', x.result s = (r, s') ∧ s'.out = s.out ++ t

/-- A step that succeeds and prints nothing, wherever it is done. -/
def Quiet (x : Run α) : Prop := ∀ s, ∃ a, Prints x s (.ok a) []

/-- What is printed first stands in front of what is printed next. -/
theorem Prints.bind {x : Run α} {f : α → Run β} {s : Trace} {a : α} {r : Except Failure β}
    {t u : Text} (h : Prints x s (.ok a) t) (hf : ∀ s', Prints (f a) s' r u) :
    Prints (x >>= f) s r (t ++ u) := by
  obtain ⟨s', hx, ht⟩ := h
  obtain ⟨s'', hfa, hu⟩ := hf s'
  exact ⟨s'', (result_bind_ok hx f).trans hfa, by rw [hu, ht, List.append_assoc]⟩

/-- What a step prints after a quiet one is all that is printed. -/
theorem Quiet.then {x : Run α} {f : α → Run β} {s : Trace} {r : Except Failure β} {t : Text}
    (h : Quiet x) (hf : ∀ a s', Prints (f a) s' r t) : Prints (x >>= f) s r t := by
  obtain ⟨a, ha⟩ := h s
  exact ha.bind (hf a)

theorem quiet_pure (a : α) : Quiet (pure a) := fun s => ⟨a, s, rfl, (List.append_nil _).symm⟩

/-- Quiet steps one after the other are quiet. -/
theorem Quiet.bind {x : Run α} {f : α → Run β} (h : Quiet x) (hf : ∀ a, Quiet (f a)) :
    Quiet (x >>= f) := by
  intro s
  obtain ⟨a, s', hx, hout⟩ := h s
  obtain ⟨b, s'', hfa, hout'⟩ := hf a s'
  exact ⟨b, s'', (result_bind_ok hx f).trans hfa, by rw [hout', hout, List.append_nil]⟩

theorem quiet_modify {f : Trace → Trace} (h : ∀ s, (f s).out = s.out) :
    Quiet (modify f : Run Unit) :=
  fun s => ⟨(), f s, rfl, (h s).trans (List.append_nil _).symm⟩

theorem quiet_get : Quiet (get : Run Trace) := fun s => ⟨s, s, rfl, (List.append_nil _).symm⟩

theorem quiet_forM {f : α → Run Unit} (h : ∀ a, Quiet (f a)) (as : List α) :
    Quiet (as.forM f) := by
  induction as with
  | nil => exact quiet_pure ()
  | cons a as ih => exact (h a).bind fun _ => ih

theorem prints_printLine (t : Text) (s : Trace) :
    Prints (printLine t) s (.ok ()) (t ++ ['\n']) := ⟨_, rfl, rfl⟩

/-- Texts are printed on lines of their own. -/
theorem prints_lines (ts : List Text) (s : Trace) :
    Prints (ts.forM printLine) s (.ok ()) (ts.flatMap (· ++ ['\n'])) := by
  induction ts generalizing s with
  | nil => exact ⟨s, rfl, (List.append_nil _).symm⟩
  | cons t ts ih => exact (prints_printLine t s).bind ih

/-! ### What does not print -/

/-- The log is not part of the output. -/
theorem quiet_log (sink : Sink) (l : LogLine) : Quiet (log sink l) := by
  unfold log
  split
  · refine quiet_modify fun s => ?_
    cases sink.file <;> rfl
  · exact quiet_pure ()

/-- What an event does to files and log is not part of the output. -/
theorem quiet_event (sink : Sink) (runner : Runner) (binary : Text) (keepAt : Option Text)
    (e : Event) : Quiet (event sink runner binary keepAt e) := by
  refine (quiet_forM (quiet_log sink) _).bind fun _ => ?_
  cases e with
  | asked q =>
    dsimp only
    split
    · exact quiet_modify fun _ => rfl
    · exact quiet_pure ()
  | offered snapshot =>
    cases keepAt with
    | none => exact quiet_pure ()
    | some path =>
      refine quiet_get.bind fun s => ?_
      generalize CacheFile.keep path s.disk snapshot = kept
      obtain ⟨disk, failure⟩ := kept
      refine Quiet.bind (x := modify fun s => { s with disk := disk })
        (quiet_modify fun _ => rfl) fun _ => ?_
      cases failure with
      | some e => exact quiet_log _ _
      | none => exact quiet_pure ()
  | outdated held live => exact quiet_pure ()
  | unlisted directory e => exact quiet_pure ()

def opened (tool : Tool) (disk : Disk) : Option Text → Except ToolError Unit × Session
  | none => (.ok (), {})
  | some path => (Cache.start tool (CacheFile.load disk path).snapshot?).run.run {}

/-- A session starts without printing. -/
theorem prints_startSession (sink : Sink) (tool : Tool) (keepAt : Option Text) (s : Trace) :
    Prints (startSession sink tool keepAt) s (.ok (opened tool s.disk keepAt)) [] := by
  cases keepAt with
  | none => exact ⟨s, rfl, (List.append_nil _).symm⟩
  | some path =>
    obtain ⟨a, s', hlog, hout⟩ :=
      quiet_forM (quiet_log sink) (LogLine.ofLoaded path (CacheFile.load s.disk path)) s
    exact ⟨s', (result_bind_ok (result_get s) _).trans (result_bind_ok hlog _), hout⟩

/-! ### A request for candidates -/

/-- Candidates are printed on lines of their own, and a failure prints nothing. -/
def Announces (x : Run Unit) (s : Trace) (r : Except Failure (List Text)) : Prop :=
  Prints x s (r.map fun _ => ()) ((r.toOption.getD []).flatMap (· ++ ['\n']))

/-- A quiet step in front leaves what is announced as it is. -/
theorem Quiet.announces {x : Run α} {f : α → Run Unit} {s : Trace} {r : Except Failure (List Text)}
    (h : Quiet x) (hf : ∀ a s', Announces (f a) s' r) : Announces (x >>= f) s r := h.then hf

/-- A result that is there is passed on, and one that is a failure ends the run. -/
theorem announces_ofExcept (r : Except Failure α) {f : α → Run Unit} {s : Trace}
    {g : α → Except Failure (List Text)} (h : ∀ a, Announces (f a) s (g a)) :
    Announces (MonadExcept.ofExcept r >>= f) s (r >>= g) := by
  cases r with
  | ok a => exact h a
  | error e => exact ⟨s, rfl, (List.append_nil _).symm⟩

def keptAt (c : Config) : Option Text := if c.cacheEnabled then some c.cachePath else none

/-- The candidates that the engine finds for a line when the disk is as given. -/
def found (w : Surroundings) (c : Config) (disk : Disk) (cursor : Nat) (line : Text) :
    Except Failure (List Text) := do
  let tool := Program.tool (w.programs disk) c.binary
  let (start, session) := opened tool disk (keptAt c)
  let _ ← start.mapError Failure.tool
  let engine := Engine.complete tool (pathsOn w.home disk (keptAt c)) line cursor
  let candidates ← (engine.run.run session).1.mapError Failure.tool
  .ok candidates

/-- Completion prints the candidates that the engine finds on the disk as it is. -/
theorem announces_complete (w : Surroundings) (sink : Sink) (c : Config) (cursor : Nat)
    (line : Text) (s : Trace) :
    Announces (complete w sink c cursor line) s (found w c s.disk cursor line) := by
  unfold Announces Prints complete
  rw [result_bind_ok (result_get s)]
  refine (prints_startSession sink _ _ s).bind fun s₁ => ?_
  refine (quiet_forM (quiet_event sink _ _ _) _).announces fun _ s₂ => ?_
  refine announces_ofExcept _ fun _ => ?_
  refine (quiet_log sink _).announces fun _ s₃ => ?_
  refine (quiet_forM (quiet_event sink _ _ _) _).announces fun _ s₄ => ?_
  refine announces_ofExcept _ fun candidates => ?_
  refine (quiet_log sink _).announces fun _ s₅ => ?_
  exact prints_lines candidates s₅

/-- The disk once the log file has been opened. -/
def withLogFile (disk : Disk) (c : Config) : Disk :=
  match c.logFile with
  | none => disk
  | some path =>
    match disk.makeParents path with
    | .error _ => disk
    | .ok disk => (disk.append path []).toOption.getD disk

/-- The log is opened without printing, and whatever comes of it the run goes on. The directories
above the file are there then, whether or not the file can be opened. -/
theorem result_openLog (now : Text) (c : Config) (s : Trace) :
    ∃ sink s', (openLog now c).result s = (.ok sink, s') ∧ s'.out = s.out ∧
      s'.disk = withLogFile s.disk c := by
  unfold openLog withLogFile
  cases c.logFile with
  | none => exact ⟨_, s, rfl, rfl, rfl⟩
  | some path =>
    rw [result_bind_ok (result_get s)]
    cases hparents : s.disk.makeParents path with
    | error e => exact ⟨_, _, rfl, rfl, by simp only [hparents]⟩
    | ok d =>
      have hset : (modify fun s => { s with disk := d } : Run Unit).result s =
          (.ok (), { s with disk := d }) := rfl
      simp only [hparents]
      rw [result_bind_ok hset]
      cases d.append path [] with
      | error e => exact ⟨_, _, rfl, rfl, rfl⟩
      | ok d => exact ⟨_, _, rfl, rfl, rfl⟩

def settings (w : Surroundings) (i : Invocation) : Except Failure Config := do
  let c ← if w.disk.isFile (configPath w i) then configAt w.home w.disk (configPath w i)
    else .ok (Config.standard w.home)
  .ok (c.effective w.environment w.home (override i)).1

/-- Settings that cannot be used are reported, which leaves only the error stream changed. -/
theorem result_warning (c : Config) (fault : Option ConfigError) (s : Trace) :
    ∃ err, Run.result (do
      if let some e := fault then
        report ("Warning: Configuration validation failed: " ++ (Failure.config e).message)
        report "Using default configuration instead."
      pure c) s = (.ok c, { s with err := err }) := by
  cases fault with
  | none => exact ⟨_, rfl⟩
  | some e => exact ⟨_, rfl⟩

/-- Loading the settings may warn, but prints nothing. -/
theorem result_loadConfig (w : Surroundings) (i : Invocation) :
    ∃ err, (loadConfig w (configPath w i) (override i)).result { disk := w.disk } =
      (settings w i, { disk := w.disk, err := err }) := by
  unfold loadConfig settings
  rw [result_bind_ok (result_get _)]
  dsimp only
  split
  · cases configAt w.home w.disk (configPath w i) with
    | error e => exact ⟨_, rfl⟩
    | ok c => exact result_warning _ _ _
  · exact result_warning _ _ _

/-- The candidates that the engine finds for a line, the log file being open. -/
def candidates (w : Surroundings) (i : Invocation) (cursor : Nat) (line : Text) :
    Except Failure (List Text) := do
  let c ← settings w i
  found w c (withLogFile w.disk c) cursor line

/-- A run that is asked for candidates prints those that the engine finds. -/
theorem announces_perform (w : Surroundings) {i : Invocation} {cursor : Nat} {line : Text}
    (hcommand : i.command = .complete cursor line) :
    Announces (perform w i) { disk := w.disk } (candidates w i cursor line) := by
  obtain ⟨err, hload⟩ := result_loadConfig w i
  unfold Announces Prints perform candidates
  cases hsettings : settings w i with
  | error e =>
    rw [hsettings] at hload
    exact ⟨_, result_bind_error hload _, rfl⟩
  | ok c =>
    rw [hsettings] at hload
    obtain ⟨sink, s', hopen, hout, hdisk⟩ := result_openLog w.now c { disk := w.disk, err := err }
    rw [result_bind_ok hload, result_bind_ok hopen, hcommand]
    have h := announces_complete w sink c cursor line s'
    rw [Announces, Prints, hout, hdisk] at h
    exact h

end Run

namespace Outcome

variable {w : Surroundings} {args : List Text} {i : Invocation} {cursor : Nat} {line : Text}

/-- A request that finds candidates prints them and ends with status 0. -/
theorem of_candidates (hargs : Arguments.parse args = .ok i)
    (hcommand : i.command = .complete cursor line) {found : List Text}
    (hfound : Run.candidates w i cursor line = .ok found) :
    (Outcome.of w args).status = 0 ∧
      (Outcome.of w args).out = found.flatMap (· ++ ['\n']) := by
  obtain ⟨s', hperform, hout⟩ := Run.announces_perform w hcommand
  rw [Run.result, hfound] at hperform
  rw [hfound] at hout
  have hof : Outcome.of w args = { s' with status := 0 } := by
    simp only [Outcome.of, hargs, hperform, Except.map]
  rw [hof]
  exact ⟨rfl, hout⟩

/-- A request that fails prints nothing and ends with status 1. -/
theorem of_failure (hargs : Arguments.parse args = .ok i)
    (hcommand : i.command = .complete cursor line) {e : Failure}
    (hfound : Run.candidates w i cursor line = .error e) :
    (Outcome.of w args).status = 1 ∧ (Outcome.of w args).out = [] := by
  obtain ⟨s', hperform, hout⟩ := Run.announces_perform w hcommand
  rw [Run.result, hfound] at hperform
  rw [hfound] at hout
  have hof : Outcome.of w args =
      { s' with err := s'.err ++ "Error: " ++ e.message ++ ['\n'], status := 1 } := by
    simp only [Outcome.of, hargs, hperform, Except.map]
  rw [hof]
  exact ⟨rfl, hout⟩

/-- A request ends with status 0 and its candidates on lines of their own, or with status 1 and
without output. The lines are the candidates exactly when no candidate holds a line feed. -/
theorem complete_prints (w : Surroundings) (args : List Text) (i : Invocation) (cursor : Nat)
    (line : Text) (hargs : Arguments.parse args = .ok i)
    (hcommand : i.command = .complete cursor line) :
    match Run.candidates w i cursor line with
    | .ok found => (Outcome.of w args).status = 0 ∧
        (Outcome.of w args).out = found.flatMap (· ++ ['\n']) ∧
        (Text.endedLines (Outcome.of w args).out = found ↔ ∀ c ∈ found, '\n' ∉ c)
    | .error _ => (Outcome.of w args).status = 1 ∧ (Outcome.of w args).out = [] := by
  cases hfound : Run.candidates w i cursor line with
  | ok found =>
    obtain ⟨hstatus, hout⟩ := of_candidates hargs hcommand hfound
    exact ⟨hstatus, hout, hout ▸ Text.endedLines_flatMap found⟩
  | error e => exact of_failure hargs hcommand hfound

/-- A tool that knows its version and lists no protocols. -/
def toolShelf : Shelf :=
  [("gpac", [([], { err := Utf8.encode "GPAC version 2.4\n", status := some 0 }),
    ("-ha protocols -logs=ncl", { out := Utf8.encode "Protocols:\n", status := some 0 })])]

def oneFile (name : Text) : Surroundings where
  home := none
  environment := fun _ => none
  programs := toolShelf.runner
  disk := { root := .directory [(name, .file [])] }
  now := []

def inputArguments : List Text := ["--no-cache", "complete", "8", "gpac -i "]

def inputInvocation : Invocation := { command := .complete 8 "gpac -i ", noCache := true }

theorem complete_prints_clip :
    (Outcome.of (oneFile "clip") inputArguments).status = 0 ∧
      (Outcome.of (oneFile "clip") inputArguments).out = "clip \n" ∧
      Text.endedLines (Outcome.of (oneFile "clip") inputArguments).out = [("clip " : Text)] := by
  have hsorted : Run.candidates (oneFile "clip") inputInvocation 8 "gpac -i " =
      .ok (List.mergeSort [("clip " : Text)] fun a b => !decide (b < a)) := rfl
  rw [List.mergeSort_singleton] at hsorted
  have h := complete_prints (oneFile "clip") inputArguments inputInvocation 8 "gpac -i " rfl rfl
  rw [hsorted] at h
  obtain ⟨hstatus, hout, hlines⟩ := h
  exact ⟨hstatus, hout, hlines.mpr (by decide)⟩

/-- A name that holds a line feed is one candidate, but it is printed as two lines. -/
theorem complete_cuts_name :
    Arguments.parse inputArguments = .ok inputInvocation ∧
      Run.candidates (oneFile "a\nb") inputInvocation 8 "gpac -i " = .ok [("a\nb " : Text)] ∧
      (Outcome.of (oneFile "a\nb") inputArguments).status = 0 ∧
      Text.endedLines (Outcome.of (oneFile "a\nb") inputArguments).out =
        [("a" : Text), ("b " : Text)] := by
  have hsorted : Run.candidates (oneFile "a\nb") inputInvocation 8 "gpac -i " =
      .ok (List.mergeSort [("a\nb " : Text)] fun a b => !decide (b < a)) := rfl
  rw [List.mergeSort_singleton] at hsorted
  have hargs : Arguments.parse inputArguments = .ok inputInvocation := rfl
  obtain ⟨hstatus, hout⟩ := of_candidates hargs rfl hsorted
  exact ⟨hargs, hsorted, hstatus, by rw [hout]; decide⟩

end Outcome
end FilterLine
