import ContactReplay.Replay.Conductor
import ContactReplay.Testbed.Basic

/-!
# Rehearsals

A rehearsal answers the questions of replays without waiting and with a testbed in memory.  It
writes down every question, and it can be told to let things go wrong:

* a request fails before it reaches the testbed;
* a prompt fails once it has been written down;
* the replay is cancelled when a request arrives or when a pause ends.

Requests, pauses and prompts are counted from one over all replays of a rehearsal.
-/

namespace ContactReplay

/-- What goes wrong in a rehearsal, by the place among the requests, pauses or prompts. -/
structure Faults where
  failingRequest : Option Nat := none
  cancellingRequest : Option Nat := none
  cancellingPause : Option Nat := none
  failingPrompt : Option Nat := none
  deriving DecidableEq, Repr, Inhabited

/-- The surroundings of rehearsed replays. -/
structure Rehearsal where
  testbed : Testbed := {}
  faults : Faults := {}
  cancelled : Bool := false
  asked : List Ask := []
  deriving DecidableEq, Repr

namespace Rehearsal

/-! ## What has been asked -/

def requests (rehearsal : Rehearsal) : List Request :=
  rehearsal.asked.filterMap fun
    | .request request => some request
    | _ => none

def pauses (rehearsal : Rehearsal) : List Duration :=
  rehearsal.asked.filterMap fun
    | .pause duration => some duration
    | _ => none

def prompts (rehearsal : Rehearsal) : List Prompt :=
  rehearsal.asked.filterMap fun
    | .confirm prompt => some prompt
    | _ => none

/-! ## Answering -/

def hear (rehearsal : Rehearsal) (question : Ask) : Rehearsal :=
  { rehearsal with asked := rehearsal.asked ++ [question] }

/-- Cancel the current replay if a fault is due. -/
def cancelIf (rehearsal : Rehearsal) (due : Bool) : Rehearsal :=
  { rehearsal with cancelled := rehearsal.cancelled || due }

def serve (rehearsal : Rehearsal) (request : Request) :
    Except Error request.Reply × Rehearsal :=
  let place := some rehearsal.requests.length
  let current := rehearsal.cancelIf (rehearsal.faults.cancellingRequest = place)
  if rehearsal.faults.failingRequest = place then
    (.error (.refused request.method .injected), current)
  else
    let (outcome, testbed) := current.testbed.serve request
    (outcome, { current with testbed })

def confirm (rehearsal : Rehearsal) : Except Error Unit × Rehearsal :=
  if rehearsal.faults.failingPrompt = some rehearsal.prompts.length then
    (.error (.device .injectedPrompt), rehearsal)
  else (.ok (), rehearsal)

def endPause (rehearsal : Rehearsal) : Rehearsal :=
  rehearsal.cancelIf (rehearsal.faults.cancellingPause = some rehearsal.pauses.length)

def answer (question : Ask) : StateM Rehearsal question.Reply := fun rehearsal =>
  let current := rehearsal.hear question
  match question with
  | .request request => current.serve request
  | .pause _ => ((), current.endPause)
  | .confirm _ => current.confirm
  | .isCancelled => (current.cancelled, current)

/-- Rehearse a replay: its outcome, the conductor after it and the surroundings after it. -/
def replay (rehearsal : Rehearsal) (conductor : Conductor) (document : Document) :
    Except Error Report × Conductor × Rehearsal :=
  let ((outcome, used), current) := ((conductor.script document).play answer).run rehearsal
  (outcome, used, current)

end Rehearsal

end ContactReplay
