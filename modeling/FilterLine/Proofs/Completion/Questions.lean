import FilterLine.Completion.Candidates
import FilterLine.Proofs.Cache.Reference

/-!
The questions behind a list of candidates. When all answers are known, a computation asks a fixed
list of questions and has a fixed outcome, and it depends on no other answers. Completion asks about
a filter only after the tool has listed it.
-/
namespace FilterLine

namespace Inquiry

variable {α β : Type} (answer : (q : Question) → q.Answer)

def questions : Inquiry α → List Question
  | done _ => []
  | ask q next => q :: (next (answer q)).questions

@[simp] theorem questions_pure (a : α) : (pure a : Inquiry α).questions answer = [] := rfl

@[simp] theorem questions_question (q : Question) : (question q).questions answer = [q] := rfl

@[simp] theorem questions_bind (x : Inquiry α) (f : α → Inquiry β) :
    (x >>= f).questions answer =
      x.questions answer ++ (f (x.eval answer)).questions answer := by
  change (x.bind f).questions answer = _
  induction x with
  | done a => rfl
  | ask q next ih => simp only [Inquiry.bind, questions, eval, ih, List.cons_append]

@[simp] theorem eval_pure (a : α) : (pure a : Inquiry α).eval answer = a := rfl

@[simp] theorem eval_question (q : Question) : (question q).eval answer = answer q := rfl

@[simp] theorem eval_bind' (x : Inquiry α) (f : α → Inquiry β) :
    (x >>= f).eval answer = (f (x.eval answer)).eval answer := eval_bind answer x f

variable {answer}

/-- Only the answers to the questions that are asked matter. -/
theorem eval_congr {answer' : (q : Question) → q.Answer} {x : Inquiry α}
    (h : ∀ q ∈ x.questions answer, answer' q = answer q) : x.eval answer' = x.eval answer := by
  induction x with
  | done a => rfl
  | ask q next ih =>
    rw [eval, eval, h q List.mem_cons_self]
    exact ih _ fun q' hq' => h q' (List.mem_cons_of_mem _ hq')

end Inquiry

namespace Question

def lookup? : Question → Option Lookup
  | filters => some .filters
  | modules => some .modules
  | props => some .props
  | protocols => some .protocols
  | filterArgs f => some (.filterArgs f)
  | argument f a => some (.argument f a)
  | shorthands f => some (.shorthands f)
  | paths _ => none

def filter? : Question → Option Text
  | filterArgs f | argument f _ | shorthands f => some f
  | _ => none

/-- A question about a filter without a dot leads to a plain accessor. -/
theorem plain_of_filter? {q : Question} (h : ∀ f ∈ q.filter?, '.' ∉ f) {l : Lookup}
    (hl : l ∈ q.lookup?) : l.Plain := by
  cases q <;> cases hl <;> first | trivial | exact h _ rfl

end Question

namespace Inquiry

/-- Whether all questions about filters are about ones that the tool lists. -/
def AsksListed {α : Type} (answer : (q : Question) → q.Answer) (x : Inquiry α) : Prop :=
  ∀ q ∈ x.questions answer, ∀ f ∈ q.filter?, f ∈ answer .filters

variable {α β : Type} {answer : (q : Question) → q.Answer}

theorem asksListed_pure (a : α) : (pure a : Inquiry α).AsksListed answer := by
  simp [AsksListed]

theorem asksListed_question {q : Question} (h : ∀ f ∈ q.filter?, f ∈ answer .filters) :
    (question q).AsksListed answer := by
  simpa [AsksListed] using h

/-- A computation asks about listed filters if its first part and what follows it do. -/
theorem AsksListed.bind {x : Inquiry α} {f : α → Inquiry β} (hx : x.AsksListed answer)
    (hf : (f (x.eval answer)).AsksListed answer) : (x >>= f).AsksListed answer := by
  intro q hq
  rw [questions_bind] at hq
  rcases List.mem_append.mp hq with hq | hq
  · exact hx q hq
  · exact hf q hq

end Inquiry

open Inquiry

section Listed

variable {answer : (q : Question) → q.Answer}

theorem asksListed_valueCandidates {filter : Text} (h : filter ∈ answer .filters)
    (spec : ArgumentSpec) (value : Text) (quoteSynthesized : Bool) :
    (valueCandidates filter spec value quoteSynthesized).AsksListed answer := by
  refine (asksListed_question (by simpa [Question.filter?] using h)).bind ?_
  generalize (question (.argument filter spec.name)).eval answer = detail
  cases detail.kind.getD spec.kind with
  | str | cstr =>
    by_cases hsource : spec.name = sourceArgument
    · simp only [if_pos hsource]
      exact (asksListed_question (by simp [Question.filter?])).bind (asksListed_pure _)
    · simp only [if_neg hsource]
      exact asksListed_pure _
  | _ => exact asksListed_pure _

theorem asksListed_propertyCandidates (text : Text) (earlier : List Text) :
    (propertyCandidates text earlier).AsksListed answer := by
  unfold propertyCandidates
  split
  · exact asksListed_pure _
  · exact (asksListed_question (by simp [Question.filter?])).bind (asksListed_pure _)

theorem asksListed_lastOption {c : Clause} (h : c.filter ∈ answer .filters)
    (quoteSynthesized : Bool) : (c.lastOption quoteSynthesized).AsksListed answer := by
  unfold Clause.lastOption
  split
  · exact asksListed_pure _
  · exact asksListed_pure _
  · exact asksListed_propertyCandidates _ _
  · split
    · exact asksListed_pure _
    · split
      · split
        · exact asksListed_valueCandidates h _ _ _
        · exact asksListed_pure _
      · exact asksListed_pure _

/-- A clause is only asked about when the tool lists its filter. -/
theorem asksListed_clauseCandidates (word : Text) (quoteSynthesized : Bool) :
    (clauseCandidates word quoteSynthesized).AsksListed answer := by
  unfold clauseCandidates
  split
  · exact asksListed_pure _
  · rename_i filter options _
    refine (asksListed_question (by simp [Question.filter?])).bind ?_
    rw [eval_question]
    by_cases h : filter ∈ answer .filters
    · rw [if_neg (not_not_intro h)]
      refine (asksListed_question (by simpa [Question.filter?] using h)).bind ?_
      by_cases hoptions : options.isEmpty = true
      · rw [if_pos hoptions]
        exact asksListed_pure _
      · rw [if_neg hoptions]
        exact (asksListed_question (by simpa [Question.filter?] using h)).bind
          (asksListed_lastOption h _)
    · rw [if_pos h]
      exact asksListed_pure _

/-- Help on a filter is only asked for when the tool lists it. -/
theorem asksListed_helpCandidates (word : Text) : (helpCandidates word).AsksListed answer := by
  refine (asksListed_question (by simp [Question.filter?])).bind ?_
  rw [eval_question]
  by_cases h : Text.beforeFirst '.' word ∈ answer .filters
  · simp only [if_pos h]
    refine (asksListed_question (by simpa [Question.filter?] using h)).bind ?_
    split <;> exact asksListed_pure _
  · simp only [if_neg h]
    exact asksListed_pure _

theorem asksListed_endpointCandidates (usable : Protocol → Bool) (start : Text) :
    (endpointCandidates usable start).AsksListed answer :=
  (asksListed_question (by simp [Question.filter?])).bind
    ((asksListed_question (by simp [Question.filter?])).bind (asksListed_pure _))

/-- Completion asks about no filter that the tool does not list. -/
theorem asksListed_candidates (line : Text) (cursor : Nat) :
    (candidates line cursor).AsksListed answer := by
  rw [candidates]
  cases Context.ofCursor line cursor with
  | moduleName | linkedFilter | property | start =>
    exact (asksListed_question (by simp [Question.filter?])).bind (asksListed_pure _)
  | helpTopic word => exact asksListed_helpCandidates word
  | inputEndpoint word | outputEndpoint word => exact asksListed_endpointCandidates _ word
  | flag word => exact asksListed_pure _
  | filterClause word quoteSynthesized =>
    refine (asksListed_clauseCandidates word quoteSynthesized).bind ?_
    split
    · exact (asksListed_question (by simp [Question.filter?])).bind (asksListed_pure _)
    · exact asksListed_pure _

end Listed

end FilterLine
