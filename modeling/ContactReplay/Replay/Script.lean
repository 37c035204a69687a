import ContactReplay.Duration
import ContactReplay.Testbed.Request

/-!
# Scripts

A replay does nothing by itself: it asks its surroundings to serve a request, to wait, to let an
operator confirm, or whether it has been cancelled, and goes on with the answer.  A `Script` is such
a course of questions, so the same replay can be rehearsed against a testbed in memory or run for
real:

* `Ask` is a question and `Ask.Reply` the type of its answer;
* `Script.play` answers all questions of a script in any monad.
-/

namespace ContactReplay

/-- What an operator is asked to confirm. -/
inductive Prompt where
  | start
  | step (step : UInt64)
  deriving DecidableEq, Repr

namespace Prompt

def text : Prompt → String
  | .start => "press enter to start the simulation"
  | .step number => s!"press enter to run step {number}"

end Prompt

/-- A question to the surroundings of a replay. -/
inductive Ask where
  | request (request : Request)
  | pause (duration : Duration)
  | confirm (prompt : Prompt)
  | isCancelled
  deriving DecidableEq, Repr

namespace Ask

/-- The answer to a question.  Only requests and confirmations can fail. -/
abbrev Reply : Ask → Type
  | .request asked => Except Error asked.Reply
  | .pause _ => Unit
  | .confirm _ => Except Error Unit
  | .isCancelled => Bool

end Ask

/-- A course of questions that ends in a result. -/
inductive Script (α : Type) where
  | done (result : α)
  | ask (question : Ask) (next : question.Reply → Script α)

namespace Script

variable {α β : Type}

def andThen (script : Script α) (next : α → Script β) : Script β :=
  match script with
  | .done result => next result
  | .ask question rest => .ask question fun reply => (rest reply).andThen next

instance : Monad Script where
  pure := .done
  bind := andThen

def play {m : Type → Type} [Monad m] (answer : (question : Ask) → m question.Reply) :
    Script α → m α
  | .done result => pure result
  | .ask question next => do (next (← answer question)).play answer

/-! ## Laws -/

theorem andThen_done (script : Script α) : script.andThen .done = script := by
  induction script with
  | done result => rfl
  | ask question next inductionHypothesis =>
      simp only [andThen]
      exact congrArg _ (funext inductionHypothesis)

theorem andThen_assoc {γ : Type} (script : Script α) (next : α → Script β) (last : β → Script γ) :
    (script.andThen next).andThen last =
      script.andThen fun result => (next result).andThen last := by
  induction script with
  | done result => rfl
  | ask question rest inductionHypothesis =>
      simp only [andThen]
      exact congrArg _ (funext inductionHypothesis)

instance : LawfulMonad Script :=
  LawfulMonad.mk' Script andThen_done (fun _ _ => rfl) andThen_assoc

end Script

end ContactReplay
