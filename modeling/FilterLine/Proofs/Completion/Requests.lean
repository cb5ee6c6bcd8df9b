import FilterLine.Completion.Engine
import FilterLine.Proofs.Cache.Once
import FilterLine.Proofs.Completion.Questions

/-!
Requests in front of a cache. A request that succeeds gives what the remembered data says once it is
over, and no query failed on the way; a request that fails does so with the error of its last query.
When the answers of the tool do not change, what is remembered is right, and so what any request
gives is what a first one would give.
-/
namespace FilterLine

/-- A step of serving a request that does not fail: one of the cache, or that a directory cannot be
listed. -/
inductive Advance (tool : Tool) (may : Query → Prop) (s : Session) : Session → Prop where
  | gain {s' : Session} : Gain tool may s s' → Advance tool may s s'
  | unlisted (directory : Text) (e : FileError) :
      Advance tool may s (s.noted (.unlisted directory e))

abbrev Advances (tool : Tool) (may : Query → Prop) : Session → Session → Prop :=
  Relation.ReflTransGen (Advance tool may)

/-- Whether the tool answers all of some queries, asked after some others. -/
def Tool.AnswersAll (tool : Tool) (past asked : List Query) : Prop :=
  ∀ before q after, asked = before ++ q :: after → ∃ a, tool (past ++ before) q = .ok a

variable {tool : Tool} {may : Query → Prop} {s s' : Session}

theorem Tool.answersAll_nil (past : List Query) : tool.AnswersAll past [] := by
  intro before q after h
  simp at h

/-- One more query that is answered keeps all of them answered. -/
theorem Tool.AnswersAll.concat {past asked : List Query} {q : Query}
    (h : tool.AnswersAll past asked) (hq : ∃ a, tool (past ++ asked) q = .ok a) :
    tool.AnswersAll past (asked ++ [q]) := by
  intro before q' after heq
  rcases List.eq_nil_or_concat after with rfl | ⟨init, last, rfl⟩
  · obtain ⟨rfl, hlast⟩ := List.append_inj' heq rfl
    cases hlast
    exact hq
  · rw [List.concat_eq_append, ← List.cons_append, ← List.append_assoc] at heq
    obtain ⟨hinit, -⟩ := List.append_inj' heq rfl
    exact h before q' init hinit

namespace Session

@[simp] theorem queries_unlisted (s : Session) (directory : Text) (e : FileError) :
    (s.noted (.unlisted directory e)).queries = s.queries := by
  simp [queries, noted, Event.query?]

end Session

theorem advances_of_gains (h : Gains tool may s s') : Advances tool may s s' := by
  induction h with
  | refl => exact .refl
  | tail _ hstep ih => exact ih.tail (.gain hstep)

/-- A step that does not fail asks at most one query, which is answered. -/
theorem Advance.answers (h : Advance tool may s s') :
    s'.queries = s.queries ∨
      ∃ q, s'.queries = s.queries ++ [q] ∧ ∃ a, tool s.queries q = .ok a := by
  cases h with
  | gain h =>
    cases h with
    | told _ hv => exact .inr ⟨.version, by simp, _, hv⟩
    | learned _ _ _ ha => exact .inr ⟨_, by simp, _, ha⟩
    | _ => exact .inl (by simp)
  | unlisted directory e => exact .inl (by simp)

/-- Until something fails all queries are answered. -/
theorem Advances.answers (h : Advances tool may s s') :
    ∃ asked, s'.queries = s.queries ++ asked ∧ tool.AnswersAll s.queries asked := by
  induction h with
  | refl => exact ⟨[], by simp, tool.answersAll_nil _⟩
  | tail _ hstep ih =>
    obtain ⟨asked, hasked, hall⟩ := ih
    rcases hstep.answers with hsame | ⟨q, hq, ha⟩
    · exact ⟨asked, by rw [hsame, hasked], hall⟩
    · rw [hasked] at hq ha
      exact ⟨asked ++ [q], by rw [hq, List.append_assoc], hall.concat ha⟩

/-- What every step preserves holds however a request goes on. -/
theorem Advances.preserve {P : Session → Prop} (h : Advances tool may s s')
    (hstep : ∀ s s', P s → Advance tool may s s' → P s') (hs : P s) : P s' := by
  induction h with
  | refl => exact hs
  | tail _ hlast ih => exact hstep _ _ ih hlast

namespace SchemaData

/-- What the remembered data answers. A question that it does not settle has an empty answer. -/
def answer (d : SchemaData) (offers : Text → List Text) : (q : Question) → q.Answer
  | .filters => d.filters.getD []
  | .modules => d.modules.getD []
  | .props => d.props.getD []
  | .protocols => d.protocols.getD []
  | .filterArgs f => (d.args.get? f).getD []
  | .argument f a => (d.details.get? (detailKey f a)).getD { kind := none }
  | .shorthands f => (d.shorthands.get? f).getD []
  | .paths start => offers start

/-- Whether the remembered data settles a question. -/
def Settles (d : SchemaData) (q : Question) : Prop := ∀ l ∈ q.lookup?, (l.known? d).isSome

/-- What some data settles is settled by data that answers more. -/
theorem Settles.extends {d d' : SchemaData} {q : Question} (h : d.Settles q)
    (hextends : d.Extends d') : d'.Settles q := by
  intro l hl
  obtain ⟨v, hv⟩ := Option.isSome_iff_exists.mp (h l hl)
  rw [Lookup.known?_extends hextends hv]
  rfl

/-- What some data settles has the same answer in data that answers more. -/
theorem answer_extends {d d' : SchemaData} {q : Question} (h : d.Settles q)
    (hextends : d.Extends d') (offers : Text → List Text) :
    d'.answer offers q = d.answer offers q := by
  cases q with
  | paths start => rfl
  | _ =>
    obtain ⟨v, hv⟩ := Option.isSome_iff_exists.mp (h _ rfl)
    have hv' := Lookup.known?_extends hextends hv
    simp only [Lookup.known?] at hv hv'
    simp only [answer, hv, hv']

end SchemaData

namespace PathSource

def offers (reply : Text → Except (Text × FileError) (List Text)) (start : Text) : List Text :=
  match reply start with
  | .ok found => found
  | .error _ => []

end PathSource

namespace Engine

open Act PathSource

variable {reply : Text → Except (Text × FileError) (List Text)} {α : Type}

theorem result_paths (start : Text) (s : Session) :
    (answer tool (.fixed reply) (.paths start)).result s =
      (.ok (offers reply start), match reply start with
        | .ok _ => s
        | .error (directory, e) => s.noted (.unlisted directory e)) := by
  unfold offers answer fixed
  rw [result_bind_ok (result_get s)]
  cases reply start with
  | ok found => rfl
  | error failure => rfl

/-- An answer that is given is the one that is remembered from then on. -/
theorem answer_ok {q : Question} {a : q.Answer}
    (hmay : ∀ l ∈ q.lookup?, ∀ query, l.Needs query → may query)
    (h : (answer tool (.fixed reply) q).result s = (.ok a, s')) :
    Advances tool may s s' ∧ (q.lookup?.isSome → s'.Current) ∧ s'.data.Settles q ∧
      a = s'.data.answer (offers reply) q := by
  cases q with
  | paths start =>
    rw [result_paths] at h
    cases h
    refine ⟨?_, by simp [Question.lookup?], by simp [SchemaData.Settles, Question.lookup?], rfl⟩
    split
    · exact .refl
    · exact .single (.unlisted _ _)
  | _ =>
    obtain ⟨hgains, hcurrent, hknown⟩ := Lookup.act_ok (hmay _ rfl) h
    refine ⟨advances_of_gains hgains, fun _ => hcurrent, fun l hl => ?_, ?_⟩
    · cases hl
      rw [hknown]
      rfl
    · simp only [Lookup.known?] at hknown
      simp only [SchemaData.answer, hknown, Option.getD_some]

/-- A question fails with a query, after steps that do not. -/
theorem answer_error {q : Question} {e : ToolError}
    (hmay : ∀ l ∈ q.lookup?, ∀ query, l.Needs query → may query)
    (h : (answer tool (.fixed reply) q).result s = (.error e, s')) :
    ∃ s₁, Advances tool may s s₁ ∧ Refused tool may e s₁ s' := by
  cases q with
  | paths start =>
    rw [result_paths] at h
    cases h
  | _ =>
    obtain ⟨s₁, hgains, hrefused⟩ := Lookup.act_error (hmay _ rfl) h
    exact ⟨s₁, advances_of_gains hgains, hrefused⟩

theorem session_answer {q : Question} {l : Lookup} (h : l ∈ q.lookup?) :
    ((answer tool (.fixed reply) q).result s).2 = ((l.act tool).result s).2 := by
  cases q <;> cases h <;> rfl

/-- A question leaves current data current, and only adds to it. -/
theorem extends_answer (q : Question) (hs : s.Current) :
    ((answer tool (.fixed reply) q).result s).2.Current ∧
      s.data.Extends ((answer tool (.fixed reply) q).result s).2.data := by
  cases hlookup : q.lookup? with
  | some l =>
    rw [session_answer hlookup]
    exact (Lookup.moves_act l (fun _ _ => trivial) s).extends hs
  | none =>
    cases q <;> cases hlookup
    rw [result_paths]
    split <;> exact ⟨hs, .refl _⟩

/-- Nothing that is remembered as current is lost while questions are answered. -/
theorem extends_run {x : Inquiry α} {r : Except ToolError α}
    (h : (x.run (answer tool (.fixed reply))).result s = (r, s')) (hs : s.Current) :
    s'.Current ∧ s.data.Extends s'.data := by
  induction x generalizing s with
  | done a =>
    cases h
    exact ⟨hs, .refl _⟩
  | ask q next ih =>
    have hanswer : ((answer tool (.fixed reply) q).result s).2.Current ∧ _ :=
      extends_answer q hs
    rw [Inquiry.run, result_bind] at h
    rcases hq : (answer tool (.fixed reply) q).result s with ⟨rq, s₁⟩
    rw [hq] at h hanswer
    obtain ⟨hcurrent, hextends⟩ := hanswer
    cases rq with
    | ok a =>
      obtain ⟨hcurrent', hextends'⟩ := ih a h hcurrent
      exact ⟨hcurrent', hextends.trans hextends'⟩
    | error e =>
      cases h
      exact ⟨hcurrent, hextends⟩

/-- What a computation leads to in front of a cache. When it ends, its outcome is what the data says
that is remembered by then, and that data settles all its questions; when a query fails, that is the
last thing that happens. -/
def Leads (tool : Tool) (may : Query → Prop) (offers : Text → List Text) (x : Inquiry α)
    (s s' : Session) : Except ToolError α → Prop
  | .ok v => Advances tool may s s' ∧ v = x.eval (s'.data.answer offers) ∧
      ∀ q ∈ x.questions (s'.data.answer offers), s'.data.Settles q
  | .error e => ∃ s₁, Advances tool may s s₁ ∧ Refused tool may e s₁ s'

/-- The queries of a computation are those that its questions need. An answer is still remembered
when the computation ends, so the data by then tells which questions were asked. -/
theorem run_leads (may : Query → Prop) (x : Inquiry α) {r : Except ToolError α}
    (h : (x.run (answer tool (.fixed reply))).result s = (r, s'))
    (hmay : ∀ q ∈ x.questions (s'.data.answer (offers reply)), ∀ l ∈ q.lookup?,
      ∀ query, l.Needs query → may query) : Leads tool may (offers reply) x s s' r := by
  induction x generalizing s with
  | done a =>
    cases h
    exact ⟨.refl, rfl, by simp [Inquiry.questions]⟩
  | ask q next ih =>
    rw [Inquiry.run, result_bind] at h
    rw [Inquiry.questions] at hmay
    have hmayq := hmay q List.mem_cons_self
    rcases hq : (answer tool (.fixed reply) q).result s with ⟨rq, s₁⟩
    rw [hq] at h
    cases rq with
    | error e =>
      cases h
      exact answer_error hmayq hq
    | ok a =>
      obtain ⟨hadvances, hcurrent, hsettles, ha⟩ := answer_ok hmayq hq
      have hlast : s'.data.Settles q ∧ s'.data.answer (offers reply) q = a := by
        cases hlookup : q.lookup? with
        | none =>
          cases q <;> cases hlookup
          exact ⟨by simp [SchemaData.Settles, Question.lookup?], ha.symm⟩
        | some l =>
          have hextends := (extends_run h (hcurrent (by rw [hlookup]; rfl))).2
          exact ⟨hsettles.extends hextends,
            (SchemaData.answer_extends hsettles hextends _).trans ha.symm⟩
      rw [hlast.2] at hmay
      have hrest := ih a h fun q' hq' => hmay q' (List.mem_cons_of_mem _ hq')
      cases r with
      | error e =>
        obtain ⟨s₂, hadvances', hrefused⟩ := hrest
        exact ⟨s₂, hadvances.trans hadvances', hrefused⟩
      | ok v =>
        obtain ⟨hadvances', hv, hall⟩ := hrest
        refine ⟨hadvances.trans hadvances', by rw [Inquiry.eval, hlast.2, hv], fun q' hq' => ?_⟩
        rw [Inquiry.questions, hlast.2] at hq'
        rcases List.mem_cons.mp hq' with rfl | hq'
        · exact hlast.1
        · exact hall q' hq'

/-- What the steps of the cache preserve holds of the data that a computation leaves. -/
theorem Leads.preserve {P : SchemaData → Prop} {offers : Text → List Text} {x : Inquiry α}
    {r : Except ToolError α} (h : Leads tool may offers x s s' r)
    (hgain : ∀ s s' : Session, P s.data → Gain tool may s s' → P s'.data) (hs : P s.data) :
    P s'.data := by
  have hadvance : ∀ s s' : Session, P s.data → Advance tool may s s' → P s'.data := by
    intro s s' hs hstep
    cases hstep with
    | gain hstep => exact hgain s s' hs hstep
    | unlisted directory e => exact hs
  cases r with
  | ok v => exact h.1.preserve hadvance hs
  | error e =>
    obtain ⟨s₁, hadvances, hrefused⟩ := h
    have hs₁ := hadvances.preserve hadvance hs
    cases hrefused
    exact hs₁

def serve (tool : Tool) (paths : PathSource) (requests : List (Text × Nat)) (s : Session) :
    Session :=
  requests.foldl (fun s request => ((complete tool paths request.1 request.2).result s).2) s

/-- What every request preserves holds after any number of them. -/
theorem serve_preserve {paths : PathSource} {P : Session → Prop}
    (hrequest : ∀ s line cursor, P s → P ((complete tool paths line cursor).result s).2)
    (requests : List (Text × Nat)) (hs : P s) : P (serve tool paths requests s) := by
  induction requests generalizing s with
  | nil => exact hs
  | cons request requests ih => exact ih (hrequest s request.1 request.2 hs)

end Engine

end FilterLine
