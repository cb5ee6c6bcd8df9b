import FilterLine.Schema.Record

/-!
Computations that ask questions. A computation is a tree: at a node it asks, and the answer decides
where it goes on. The same tree can be answered from a table, from a cache in front of the tool, or
by the operating system, and the questions it can ask are there to be read.
-/
namespace FilterLine

/-- What completion can ask about the tool and the files. -/
inductive Question where
  | filters
  | modules
  | props
  | protocols
  | filterArgs (filter : Text)
  | argument (filter argument : Text)
  | shorthands (filter : Text)
  /-- The paths that complete a text. -/
  | paths (start : Text)
  deriving DecidableEq, Repr

abbrev Question.Answer : Question → Type
  | filters | modules | props | paths _ => List Text
  | protocols => List Protocol
  | filterArgs _ => List ArgumentSpec
  | argument _ _ => ArgumentDetail
  | shorthands _ => List EnumShorthand

/-- A computation that asks questions. -/
inductive Inquiry (α : Type) where
  | done (a : α)
  | ask (q : Question) (next : q.Answer → Inquiry α)

namespace Inquiry

variable {α β : Type}

protected def bind : Inquiry α → (α → Inquiry β) → Inquiry β
  | done a, f => f a
  | ask q next, f => ask q fun a => (next a).bind f

instance : Monad Inquiry where
  pure := done
  bind := Inquiry.bind

def question (q : Question) : Inquiry q.Answer := ask q done

/-- Answers the questions one after the other. -/
def run {m : Type → Type} [Monad m] (answer : (q : Question) → m q.Answer) : Inquiry α → m α
  | done a => pure a
  | ask q next => do (next (← answer q)).run answer

/-- The outcome when the answers are known. -/
def eval (answer : (q : Question) → q.Answer) : Inquiry α → α
  | done a => a
  | ask q next => (next (answer q)).eval answer

/-- The outcome of a computation that goes on is that of the rest. -/
theorem eval_bind (answer : (q : Question) → q.Answer) (x : Inquiry α) (f : α → Inquiry β) :
    (x.bind f).eval answer = (f (x.eval answer)).eval answer := by
  induction x with
  | done a => rfl
  | ask q next ih => simp only [Inquiry.bind, eval, ih]

end Inquiry
end FilterLine
