import ContactReplay.Proofs.Replay.Sequencing

/-!
# Heeding failures

A script heeds failures if it ends with the error of the first question that fails: it asks nothing
after it, and it ends with that very error.

* `Script.Heeds` says so of every failing reply that the script may get.
* Sequencing keeps it (`sequential_heeds`), so `Conductor.heeds_run` follows along the parts of a
  run.
-/

namespace ContactReplay

/-- The failing reply to a question, for the questions that can fail. -/
def Ask.failure (question : Ask) (error : Error) : Option question.Reply :=
  match question with
  | .request _ => some (.error error)
  | .confirm _ => some (.error error)
  | .pause _ => none
  | .isCancelled => none

/-- A script ends with the error of the first question that fails. -/
def Script.Heeds {α : Type} : Script (Except Error α × Conductor) → Prop
  | .done _ => True
  | .ask question next =>
      (∀ reply, (next reply).Heeds) ∧
        ∀ error reply, question.failure error = some reply →
          ∃ conductor, next reply = .done (.error error, conductor)

namespace Course

variable {α β : Type}

/-- A course heeds failures, whatever the conductor knows. -/
def Heeds (course : Course α) : Prop := ∀ conductor, (course conductor).Heeds

/-! ## Single questions -/

theorem heeds_request (request : Request) : Heeds (Course.request request) := by
  intro conductor
  refine ⟨fun _ => trivial, fun error reply fails => ⟨conductor, ?_⟩⟩
  cases fails
  rfl

theorem heeds_confirm (prompt : Prompt) : Heeds (confirm prompt) := by
  intro conductor
  refine ⟨fun _ => trivial, fun error reply fails => ⟨conductor, ?_⟩⟩
  cases fails
  rfl

theorem heeds_pause (duration : Duration) : Heeds (pause duration) :=
  fun _ => ⟨fun _ => trivial, nofun⟩

theorem heeds_stopIfCancelled (step : UInt64) : Heeds (stopIfCancelled step) :=
  fun _ => ⟨fun _ => trivial, nofun⟩

/-! ## Sequences -/

theorem heeds_bindCont {script : Script (Except Error α × Conductor)} {rest : α → Course β}
    (first : script.Heeds) (second : ∀ value, Heeds (rest value)) :
    Script.Heeds (script >>= fun ended =>
      (ExceptT.bindCont rest ended.1 : StateT Conductor Script _) ended.2) := by
  induction script with
  | done ended =>
      rcases ended with ⟨outcome, conductor⟩
      cases outcome with
      | ok value => exact second value conductor
      | error error => exact trivial
  | ask question next inductionHypothesis =>
      refine ⟨fun reply => inductionHypothesis reply (first.1 reply), fun error reply fails => ?_⟩
      -- What follows a script that has ended with an error is that error.
      obtain ⟨conductor, ended⟩ := first.2 error reply fails
      refine ⟨conductor, ?_⟩
      change (next reply).andThen _ = _
      rw [ended]
      rfl

theorem sequential_heeds : Sequential (fun _ => True) fun α => Heeds (α := α) where
  silent _ := fun _ => trivial
  bind first rest := fun conductor => heeds_bindCont (first conductor) rest
  request asked _ := heeds_request asked
  pause duration _ := heeds_pause duration
  confirm prompt _ := heeds_confirm prompt
  look step _ := heeds_stopIfCancelled step

end Course

/-- A run ends with the error of the first question that fails. -/
theorem Conductor.heeds_run (document : Document) : Course.Heeds (run document) :=
  Course.sequential_heeds.run (fun _ _ _ => trivial) (fun _ _ => trivial) (fun _ _ _ => trivial)
    trivial (fun _ => trivial) document

end ContactReplay
