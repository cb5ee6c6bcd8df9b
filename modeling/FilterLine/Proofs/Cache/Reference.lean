import FilterLine.Proofs.Cache.Lookup
import FilterLine.Proofs.Schema.SnapshotFile

/-!
What the accessors should give. For a tool whose answers do not change each accessor has one right
answer, and data is sound if it holds no other. Names of filters must be without dots: the key of a
detail would not tell where the name of the filter ends.
-/
namespace FilterLine

/-- Whether the types in the answer to a query were read from tags. -/
def Query.Parsed : (q : Query) → q.Answer → Prop
  | filterArgs _, specs => ∀ spec ∈ specs, spec.kind.Parsed
  | argument _ _, detail => detail.Parsed
  | _, _ => True

/-- What a tool answers when it does not fail. -/
abbrev Reply := (q : Query) → q.Answer

namespace Reply

def detail (r : Reply) (filter argument : Text) : ArgumentDetail :=
  match (r (.filterArgs filter)).find? (·.name == argument) with
  | some spec =>
    if spec.kind = .enum then r (.argument filter argument) else { kind := some spec.kind }
  | none => r (.argument filter argument)

def shorthands (r : Reply) (filter : Text) : List EnumShorthand :=
  let specs := r (.filterArgs filter)
  EnumShorthand.derive (specs.map (·.name)) ((SchemaData.enums specs).map fun spec =>
    (spec.name, (r.detail filter spec.name).values))

def kept (r : Reply) : (q : Query) → q.Answer
  | .version => r .version
  | .filters => r .filters
  | .modules => r .modules
  | .props => r .props
  | .protocols => r .protocols
  | .filterArgs f => r (.filterArgs f)
  | .argument f a => r.detail f a

structure Parsed (r : Reply) : Prop where
  args : ∀ f, ∀ spec ∈ r (.filterArgs f), spec.kind.Parsed
  details : ∀ f a, (r (.argument f a)).Parsed

theorem Parsed.detail {r : Reply} (h : r.Parsed) (f a : Text) : (r.detail f a).Parsed := by
  unfold Reply.detail
  cases hfind : (r (.filterArgs f)).find? (·.name == a) with
  | none => exact h.details f a
  | some spec =>
    by_cases hkind : spec.kind = .enum
    · simp only [if_pos hkind]
      exact h.details f a
    · simp only [if_neg hkind]
      intro k hk
      cases hk
      exact h.args f spec (List.mem_of_find?_eq_some hfind)

theorem Parsed.kept {r : Reply} (h : r.Parsed) (q : Query) : q.Parsed (r.kept q) := by
  cases q with
  | filterArgs f => exact h.args f
  | argument f a => exact h.detail f a
  | _ => trivial

end Reply

/-- The tool that answers so, except that some queries fail. -/
def Tool.failing (r : Reply) (fails : List Query → Query → Option ToolError) : Tool :=
  fun past q => match fails past q with
    | some e => .error e
    | none => .ok (r q)

/-- Whether no name of a filter in a query has a dot. -/
def Query.Plain : Query → Prop
  | filterArgs f | argument f _ => '.' ∉ f
  | _ => True

namespace Lookup

def Plain : Lookup → Prop
  | filterArgs f | argument f _ | shorthands f => '.' ∉ f
  | _ => True

def value (r : Reply) : (l : Lookup) → l.Answer
  | filters => r .filters
  | modules => r .modules
  | props => r .props
  | protocols => r .protocols
  | filterArgs f => r (.filterArgs f)
  | argument f a => r.detail f a
  | shorthands f => r.shorthands f

theorem Plain.needs {l : Lookup} (h : l.Plain) {q : Query} (hq : l.Needs q) : q.Plain := by
  cases l with
  | argument f a => rcases hq with rfl | rfl <;> exact h
  | shorthands f => rcases hq with rfl | ⟨a, rfl⟩ <;> exact h
  | _ =>
    cases hq
    exact h

end Lookup

/-- What the tool answers is the right answer. -/
theorem Tool.failing_ok {r : Reply} {fails : List Query → Query → Option ToolError}
    {past : List Query} {q : Query} {a : q.Answer} (h : Tool.failing r fails past q = .ok a) :
    a = r q := by
  unfold Tool.failing at h
  cases hfails : fails past q with
  | some e =>
    rw [hfails] at h
    cases h
  | none =>
    rw [hfails] at h
    cases h
    rfl

/-- The tool fails just where it is made to fail. -/
theorem Tool.failing_error {r : Reply} {fails : List Query → Query → Option ToolError}
    {past : List Query} {q : Query} {e : ToolError} (h : Tool.failing r fails past q = .error e) :
    fails past q = some e := by
  unfold Tool.failing at h
  cases hfails : fails past q with
  | some e' =>
    rw [hfails] at h
    cases h
    rfl
  | none =>
    rw [hfails] at h
    cases h

/-- Without dots in the names of filters a key tells the filter and the argument. -/
theorem detailKey_inj {f f' a a' : Text} (hf : '.' ∉ f) (hf' : '.' ∉ f')
    (h : detailKey f a = detailKey f' a') : f = f' ∧ a = a' := by
  induction f generalizing f' with
  | nil =>
    cases f' with
    | nil => exact ⟨rfl, List.cons.inj h |>.2⟩
    | cons c f' =>
      cases (List.cons.inj h).1
      simp at hf'
  | cons c f ih =>
    cases f' with
    | nil =>
      cases (List.cons.inj h).1
      simp at hf
    | cons c' f' =>
      obtain ⟨rfl, htail⟩ := List.cons.inj h
      obtain ⟨rfl, ha⟩ := ih (fun hc => hf (List.mem_cons_of_mem _ hc))
        (fun hc => hf' (List.mem_cons_of_mem _ hc)) htail
      exact ⟨rfl, ha⟩

namespace SchemaData

/-- Whether data holds right answers only. -/
structure Sound (r : Reply) (d : SchemaData) : Prop where
  filters : ∀ l ∈ d.filters, l = r .filters
  modules : ∀ l ∈ d.modules, l = r .modules
  props : ∀ l ∈ d.props, l = r .props
  protocols : ∀ l ∈ d.protocols, l = r .protocols
  args : ∀ f, '.' ∉ f → ∀ specs ∈ d.args.get? f, specs = r (.filterArgs f)
  details : ∀ f a, '.' ∉ f → ∀ x ∈ d.details.get? (detailKey f a), x = r.detail f a
  shorthands : ∀ f, '.' ∉ f → ∀ l ∈ d.shorthands.get? f, l = r.shorthands f

variable {r : Reply} {d : SchemaData} {f : Text}

theorem sound_empty (r : Reply) : ({} : SchemaData).Sound r := by
  refine ⟨?_, ?_, ?_, ?_, ?_, ?_, ?_⟩ <;> simp [Table.get?_empty]

/-- What is found in sound data is right. -/
theorem Sound.known? (h : d.Sound r) {l : Lookup} (hl : l.Plain) {v : l.Answer}
    (hv : l.known? d = some v) : v = l.value r := by
  cases l with
  | filters => exact h.filters v hv
  | modules => exact h.modules v hv
  | props => exact h.props v hv
  | protocols => exact h.protocols v hv
  | filterArgs f => exact h.args f hl v hv
  | argument f a => exact h.details f a hl v hv
  | shorthands f => exact h.shorthands f hl v hv

theorem mem_get?_insert {α : Type} {t : Table α} {k key : Text} {x v : α}
    (h : v ∈ (t.insert k x).get? key) : (key = k ∧ v = x) ∨ v ∈ t.get? key := by
  rw [Table.get?_insert] at h
  by_cases hk : key = k
  · rw [if_pos hk] at h
    cases h
    exact .inl ⟨hk, rfl⟩
  · rw [if_neg hk] at h
    exact .inr h

/-- Data that learns a right answer stays sound. -/
theorem Sound.learn (h : d.Sound r) {q : Query} (hq : q.Plain) :
    (q.learn (r.kept q) d).Sound r := by
  cases q with
  | version => exact h
  | filters => exact { h with filters := by simp [Query.learn, Reply.kept] }
  | modules => exact { h with modules := by simp [Query.learn, Reply.kept] }
  | props => exact { h with props := by simp [Query.learn, Reply.kept] }
  | protocols => exact { h with protocols := by simp [Query.learn, Reply.kept] }
  | filterArgs f =>
    refine { h with args := fun f' hf' specs hspecs => ?_ }
    rcases mem_get?_insert hspecs with ⟨rfl, rfl⟩ | hspecs
    · rfl
    · exact h.args f' hf' specs hspecs
  | argument f a =>
    refine { h with details := fun f' a' hf' x hx => ?_ }
    rcases mem_get?_insert hx with ⟨hkey, rfl⟩ | hx
    · obtain ⟨rfl, rfl⟩ := detailKey_inj hf' hq hkey
      rfl
    · exact h.details f' a' hf' x hx

/-- Shorthands that follow from right answers are right. -/
theorem Sound.derive (h : d.Sound r) (hf : '.' ∉ f) {specs : List ArgumentSpec}
    (hspecs : d.args.get? f = some specs) (hdetailed : d.Detailed f specs) :
    (d.derive f specs).Sound r := by
  refine { h with shorthands := fun f' hf' l hl => ?_ }
  rcases mem_get?_insert hl with ⟨rfl, rfl⟩ | hl
  · cases h.args f' hf specs hspecs
    have hlisted : d.listed f' (r (.filterArgs f')) = (enums (r (.filterArgs f'))).map fun spec =>
        (spec.name, (r.detail f' spec.name).values) := by
      refine List.map_congr_left fun spec hspec => ?_
      obtain ⟨x, hx⟩ := Option.isSome_iff_exists.mp (hdetailed spec hspec)
      rw [literals, hx, h.details f' spec.name hf x hx]
    rw [hlisted]
    rfl
  · exact h.shorthands f' hf' l hl

theorem Parsed.specs (h : d.Parsed) {specs : List ArgumentSpec}
    (hspecs : d.args.get? f = some specs) {spec : ArgumentSpec} (hspec : spec ∈ specs) :
    spec.kind.Parsed :=
  h.args _ (Table.mem_of_get? hspecs) spec hspec

/-- Data stays parsed when it learns an answer that is. -/
theorem Parsed.learned (h : d.Parsed) {q : Query} {a : q.Answer} (ha : q.Parsed a) :
    (q.learn a d).Parsed := by
  cases q with
  | filterArgs f =>
    refine ⟨fun e he => ?_, h.details⟩
    rcases Table.mem_insert he with rfl | he
    · exact ha
    · exact h.args e he
  | argument f x =>
    refine ⟨h.args, fun e he => ?_⟩
    rcases Table.mem_insert he with rfl | he
    · exact ha
    · exact h.details e he
  | _ => exact ⟨h.args, h.details⟩

theorem Parsed.learn (h : d.Parsed) (hr : r.Parsed) (q : Query) :
    (q.learn (r.kept q) d).Parsed := h.learned (hr.kept q)

end SchemaData
end FilterLine
