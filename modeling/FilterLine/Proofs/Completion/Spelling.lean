import FilterLine.Proofs.Completion.Requests
import FilterLine.Proofs.Schema.Shorthand

/-!
How the names and literals of a schema are spelled. If the tool uses names of one kind only, and
literals of one kind only, then no others are ever remembered.
-/
namespace FilterLine

variable {name literal : Text → Prop}

/-- Whether an answer of the tool has only names of one kind and literals of another. -/
def Query.Spelled (name literal : Text → Prop) : (q : Query) → q.Answer → Prop
  | .filters, l | .props, l => ∀ t ∈ l, name t
  | .filterArgs _, l => ∀ spec ∈ l, name spec.name
  | .argument _ _, detail => ∀ v ∈ detail.values, literal v
  | .version, _ | .modules, _ | .protocols, _ => True

theorem Query.Spelled.mono {name' literal' : Text → Prop} (hname : ∀ t, name t → name' t)
    (hliteral : ∀ t, literal t → literal' t) {q : Query} {a : q.Answer} (h : q.Spelled name literal a) :
    q.Spelled name' literal' a := by
  cases q with
  | filters | props => exact fun t ht => hname t (h t ht)
  | filterArgs f => exact fun spec hspec => hname _ (h spec hspec)
  | argument f arg => exact fun v hv => hliteral v (h v hv)
  | version | modules | protocols => trivial

def Tool.Spelled (name literal : Text → Prop) (tool : Tool) : Prop :=
  ∀ past q a, tool past q = .ok a → q.Spelled name literal a

/-- Whether the answers of a completion have only names of one kind and literals of another. -/
structure Spelled (name literal : Text → Prop) (answer : (q : Question) → q.Answer) : Prop where
  filters : ∀ t ∈ answer .filters, name t
  props : ∀ t ∈ answer .props, name t
  args : ∀ f, ∀ spec ∈ answer (.filterArgs f), name spec.name
  values : ∀ f a, ∀ v ∈ (answer (.argument f a)).values, literal v
  shorthands : ∀ f, ∀ s ∈ answer (.shorthands f), literal s.literal

namespace SchemaData

abbrev known (d : SchemaData) : (q : Question) → q.Answer := d.answer fun _ => []

variable {d : SchemaData}

theorem spelled_empty : Spelled name literal ({} : SchemaData).known :=
  ⟨by simp [answer], by simp [answer], by simp [answer, Table.get?_empty],
    by simp [answer, Table.get?_empty], by simp [answer, Table.get?_empty]⟩

theorem known_learn_args (f f' : Text) (l : List ArgumentSpec) :
    ((Query.filterArgs f).learn l d).known (.filterArgs f') =
      if f' = f then l else d.known (.filterArgs f') := by
  simp only [known, answer, Query.learn, Table.get?_insert]
  split <;> rfl

theorem known_learn_argument (f a f' a' : Text) (detail : ArgumentDetail) :
    ((Query.argument f a).learn detail d).known (.argument f' a') =
      if detailKey f' a' = detailKey f a then detail else d.known (.argument f' a') := by
  simp only [known, answer, Query.learn, Table.get?_insert]
  split <;> rfl

/-- Only the shorthands of the filter are changed by deriving them. -/
theorem known_derive_shorthands (f f' : Text) (specs : List ArgumentSpec) :
    (d.derive f specs).known (.shorthands f') =
      if f' = f then EnumShorthand.derive (specs.map (·.name)) (d.listed f specs)
      else d.known (.shorthands f') := by
  simp only [known, answer, derive, Table.get?_insert]
  split <;> rfl

/-- The literals of an argument are those that its detail lists. -/
theorem mem_values_of_literals {f a v : Text} (h : v ∈ d.literals f a) :
    v ∈ (d.known (.argument f a)).values := by
  unfold literals at h
  simp only [known, answer]
  cases hdetail : d.details.get? (detailKey f a) with
  | some detail =>
    rw [hdetail] at h
    exact h
  | none =>
    rw [hdetail] at h
    exact absurd h List.not_mem_nil

/-- What is remembered stays spelled so when an answer that is spelled so is learned. -/
theorem spelled_learn (h : Spelled name literal d.known) {q : Query} {a : q.Answer}
    (ha : q.Spelled name literal a) : Spelled name literal (q.learn a d).known := by
  cases q with
  | filters => exact { h with filters := ha }
  | props => exact { h with props := ha }
  | filterArgs f =>
    refine { h with args := fun f' => ?_ }
    rw [known_learn_args]
    split
    · exact ha
    · exact h.args f'
  | argument f arg =>
    refine { h with values := fun f' arg' => ?_ }
    rw [known_learn_argument]
    split
    · exact ha
    · exact h.values f' arg'
  | version | modules | protocols => exact { h with }

/-- The shorthands are literals of the arguments. -/
theorem spelled_derive (h : Spelled name literal d.known) (f : Text) (specs : List ArgumentSpec) :
    Spelled name literal (d.derive f specs).known := by
  refine { h with shorthands := fun f' => ?_ }
  rw [known_derive_shorthands]
  split
  · intro s hs
    obtain ⟨v, a⟩ := s
    obtain ⟨l, hl, -, hv⟩ := ((EnumShorthand.mem_derive.mp hs).2 a).mpr rfl
    obtain ⟨spec, -, rfl⟩ := List.mem_map.mp hl
    exact h.values f spec.name v (mem_values_of_literals hv)
  · exact h.shorthands f'

end SchemaData

variable {tool : Tool} {may : Query → Prop} {s s' : Session}

/-- What is remembered stays spelled as the tool spells it. -/
theorem Gain.spelled (htool : tool.Spelled name literal) (h : Gain tool may s s')
    (hs : Spelled name literal s.data.known) : Spelled name literal s'.data.known := by
  cases h with
  | told _ _ => exact hs
  | reset _ _ => exact SchemaData.spelled_empty
  | learned _ _ _ ha => exact SchemaData.spelled_learn hs (htool _ _ _ ha)
  | declared _ _ _ _ _ _ =>
    exact SchemaData.spelled_learn (q := .argument _ _) hs fun v hv => absurd hv List.not_mem_nil
  | derived _ _ _ _ _ => exact SchemaData.spelled_derive hs _ _

/-- A request leaves what is remembered spelled as the tool spells it. -/
theorem Engine.spelled_complete (htool : tool.Spelled name literal)
    {reply : Text → Except (Text × FileError) (List Text)} {line : Text} {cursor : Nat}
    {outcome : Except ToolError (List Text)} (hs : Spelled name literal s.data.known)
    (h : (complete tool (.fixed reply) line cursor).result s = (outcome, s')) :
    Spelled name literal s'.data.known :=
  (run_leads (fun _ => True) _ h fun _ _ _ _ _ _ => trivial).preserve
    (P := fun d => Spelled name literal d.known) (fun _ _ hs hgain => hgain.spelled htool hs) hs

end FilterLine
