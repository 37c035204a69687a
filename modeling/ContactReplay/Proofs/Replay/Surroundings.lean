import ContactReplay.Proofs.Replay.Performance
import ContactReplay.Proofs.Testbed.Serving

/-!
# Quiet surroundings

Surroundings are calm if no fault is set and nothing has been cancelled.  Then pauses, prompts and
looks for a cancellation always end well, and `Stand.Holds` follows one session of the testbed: an
order to it ends exactly as `Session.carryOut` says.
-/

namespace ContactReplay

/-- Nothing goes wrong in a rehearsal by itself. -/
structure Rehearsal.Calm (rehearsal : Rehearsal) : Prop where
  faults : rehearsal.faults = {}
  uncancelled : rehearsal.cancelled = false

/-- The surroundings are calm, and a session that every new node gets some files in can be used. -/
structure Stand.Holds (stand : Stand) (files : Table FileName String) (id : SessionId)
    (session : Session) : Prop where
  calm : stand.rehearsal.Calm
  files : stand.rehearsal.testbed.serviceFiles = files
  held : stand.rehearsal.testbed.session? id = some session
  usable : session.tornDown = false

namespace Rehearsal

variable {rehearsal : Rehearsal}

theorem Calm.hear (calm : rehearsal.Calm) (question : Ask) : (rehearsal.hear question).Calm :=
  ⟨calm.faults, calm.uncancelled⟩

theorem Calm.cancelIf_false (calm : rehearsal.Calm) : rehearsal.cancelIf false = rehearsal := by
  rw [cancelIf, calm.uncancelled]
  simp [← calm.uncancelled]

theorem Calm.serve (calm : rehearsal.Calm) (request : Request) :
    rehearsal.serve request =
      ((rehearsal.testbed.serve request).1,
        { rehearsal with testbed := (rehearsal.testbed.serve request).2 }) := by
  have unfailing : ¬ rehearsal.faults.failingRequest = some rehearsal.requests.length := by
    simp [calm.faults]
  have uncancelling :
      decide (rehearsal.faults.cancellingRequest = some rehearsal.requests.length) = false := by
    simp [calm.faults]
  simp only [Rehearsal.serve, uncancelling, calm.cancelIf_false, unfailing, if_false]

theorem Calm.confirm (calm : rehearsal.Calm) : rehearsal.confirm = (.ok (), rehearsal) := by
  rw [Rehearsal.confirm, if_neg]
  simp [calm.faults]

theorem Calm.endPause (calm : rehearsal.Calm) : rehearsal.endPause = rehearsal := by
  have uncancelling :
      decide (rehearsal.faults.cancellingPause = some rehearsal.pauses.length) = false := by
    simp [calm.faults]
  rw [Rehearsal.endPause, uncancelling, calm.cancelIf_false]

end Rehearsal

namespace Course

section Calm

variable {stand : Stand} (calm : stand.rehearsal.Calm)
include calm

theorem perform_request (request : Request) :
    (Course.request request).perform stand =
      ((stand.rehearsal.testbed.serve request).1, ⟨stand.conductor,
        { stand.rehearsal.hear (.request request) with
          testbed := (stand.rehearsal.testbed.serve request).2 }⟩) := by
  have answered := (calm.hear (.request request)).serve request
  have opened : (Course.request request).perform stand =
      (((stand.rehearsal.hear (.request request)).serve request).1, ⟨stand.conductor,
        ((stand.rehearsal.hear (.request request)).serve request).2⟩) := rfl
  rw [opened, answered]
  rfl

theorem perform_pause (duration : Duration) :
    (pause duration).perform stand =
      (.ok (), ⟨stand.conductor, stand.rehearsal.hear (.pause duration)⟩) := by
  have opened : (pause duration).perform stand =
      (.ok (), ⟨stand.conductor, (stand.rehearsal.hear (.pause duration)).endPause⟩) := rfl
  rw [opened, (calm.hear _).endPause]

theorem perform_confirm (prompt : Prompt) :
    (Course.confirm prompt).perform stand =
      (.ok (), ⟨stand.conductor, stand.rehearsal.hear (.confirm prompt)⟩) := by
  have opened : (Course.confirm prompt).perform stand =
      ((stand.rehearsal.hear (.confirm prompt)).confirm.1, ⟨stand.conductor,
        (stand.rehearsal.hear (.confirm prompt)).confirm.2⟩) := rfl
  rw [opened, (calm.hear _).confirm]

theorem perform_stopIfCancelled (step : UInt64) :
    (stopIfCancelled step).perform stand =
      (.ok (), ⟨stand.conductor, stand.rehearsal.hear .isCancelled⟩) := by
  have opened : (stopIfCancelled step).perform stand =
      (if (stand.rehearsal.hear .isCancelled).cancelled then .error (.cancelled step) else .ok (),
        ⟨stand.conductor, stand.rehearsal.hear .isCancelled⟩) := rfl
  rw [opened, (calm.hear _).uncancelled]
  rfl

end Calm

end Course

/-! ## Orders to a session -/

namespace Stand

variable {stand : Stand} {files : Table FileName String} {id : SessionId} {session : Session}

theorem Holds.hear (holds : stand.Holds files id session) (conductor : Conductor)
    (question : Ask) :
    Stand.Holds ⟨conductor, stand.rehearsal.hear question⟩ files id session :=
  ⟨holds.calm.hear question, holds.files, holds.held, holds.usable⟩

theorem Holds.conducted (holds : stand.Holds files id session) (conductor : Conductor) :
    Stand.Holds { stand with conductor } files id session :=
  ⟨holds.calm, holds.files, holds.held, holds.usable⟩

theorem Holds.testbed_usable (holds : stand.Holds files id session) :
    stand.rehearsal.testbed.usable id = .ok session :=
  Testbed.usable_eq_ok_iff.mpr ⟨holds.held, holds.usable⟩

/-- What an order makes of a testbed. -/
def served (testbed : Testbed) (id : SessionId) (order : Order) (next : Session) : Testbed :=
  { testbed with
    sessions := testbed.sessions.insert id next
    calls := testbed.calls ++ [order.call id] }

/-- An order that the session carries out. -/
theorem Holds.perform_carried (holds : stand.Holds files id session) {order : Order}
    {reply : order.Reply} {next : Session}
    (carried : session.carryOut files order = .ok (reply, next)) :
    ∃ rehearsal, (Course.order id order).perform stand = (.ok reply, ⟨stand.conductor, rehearsal⟩) ∧
      (next.tornDown = false → Stand.Holds ⟨stand.conductor, rehearsal⟩ files id next) := by
  rw [← holds.files] at carried
  have answered : stand.rehearsal.testbed.serve (.order id order) =
      (.ok reply, served stand.rehearsal.testbed id order next) :=
    Testbed.serve_of_carried holds.testbed_usable carried
  refine ⟨{ stand.rehearsal.hear (.request (.order id order)) with
    testbed := served stand.rehearsal.testbed id order next }, ?_, fun usable => ?_⟩
  · rw [Course.order, Course.perform_request holds.calm, answered]
  · exact ⟨⟨holds.calm.faults, holds.calm.uncancelled⟩, holds.files,
      Table.get?_insert_self _ _ _, usable⟩

theorem Holds.perform_order (holds : stand.Holds files id session) {order : Order}
    {reply : order.Reply} {next : Session}
    (carried : session.carryOut files order = .ok (reply, next)) (usable : next.tornDown = false) :
    ∃ rehearsal, (Course.order id order).perform stand = (.ok reply, ⟨stand.conductor, rehearsal⟩) ∧
      Stand.Holds ⟨stand.conductor, rehearsal⟩ files id next := by
  obtain ⟨rehearsal, performed, holdsAfter⟩ := holds.perform_carried carried
  exact ⟨rehearsal, performed, holdsAfter usable⟩

end Stand

end ContactReplay
