import ContactReplay.Proofs.GraphStream.Cutting
import ContactReplay.Proofs.Replay.Twinning

/-!
# Limiting a replay

A limit of steps means the same as a shorter text.  Two replays in the same surroundings, one of a
graph stream with a limit and one without a limit of the graph stream that is cut before the first
step beyond the limit, choose the same steps, and they are twins: nothing but the choice of steps
looks at the limit.
-/

namespace ContactReplay

namespace Conductor

open Course

/-! ## Twins in the same surroundings -/

/-- Two stands share their surroundings, and their conductors differ in their limits of steps. -/
def Alongside (limit : Option UInt64) (limited unlimited : Stand) : Prop :=
  limited.rehearsal = unlimited.rehearsal ∧
    limited.conductor = unlimited.conductor.recast (fun session => session) fun _ => limit

variable {limit : Option UInt64}

/-- Questions are answered alike in the same surroundings. -/
theorem concur_of_answered {α : Type} {course : Course α}
    (answer : Rehearsal → Except Error α × Rehearsal)
    (answered : ∀ stand, course.perform stand =
      ((answer stand.rehearsal).1, ⟨stand.conductor, (answer stand.rehearsal).2⟩)) :
    Concur (Alongside limit) (Alongside limit) course course := by
  rintro limited unlimited ⟨sameSurroundings, recast⟩
  rw [answered, answered, sameSurroundings]
  exact ⟨rfl, rfl, recast⟩

theorem concur_request (request : Request) :
    Concur (Alongside limit) (Alongside limit) (Course.request request) (Course.request request) :=
  concur_of_answered (fun rehearsal => (rehearsal.hear (.request request)).serve request)
    fun _ => rfl

theorem twinning_alongside (limit : Option UInt64) (id : SessionId) :
    Twinning (fun session => session) (fun _ => limit) id id (Alongside limit) where
  renamed := rfl
  conductor _ _ alongside := alongside.2
  conducted _ _ alongside _ := ⟨alongside.1, rfl⟩
  order order _ := concur_request (.order id order)
  pause duration :=
    concur_of_answered (fun rehearsal => (.ok (), (rehearsal.hear (.pause duration)).endPause))
      fun _ => rfl
  confirm prompt :=
    concur_of_answered (fun rehearsal => (rehearsal.hear (.confirm prompt)).confirm) fun _ => rfl
  look step :=
    concur_of_answered (fun rehearsal => (if rehearsal.cancelled then .error (.cancelled step)
      else .ok (), rehearsal.hear .isCancelled)) fun _ => rfl

theorem concur_conclude_alongside (id : SessionId) :
    Concur (Alongside limit) (Alongside limit) (conclude id) (conclude id) := by
  have twins := twinning_alongside limit id
  refine Twinning.bind (twins.reach .terminal) fun _ => ?_
  refine Twinning.bind (concur_request (.order id .teardown)) fun _ => ?_
  exact twins.get fun _ => Twinning.pure _

/-- A run with a limit and a run without one of the steps up to the limit. -/
theorem concur_run_alongside {chosen : Settings} (count : UInt64) (document : Document)
    (rehearsal : Rehearsal) :
    ((run document).perform ⟨fresh { chosen with maxSteps := some count }, rehearsal⟩).1 =
        ((run { document with steps := document.steps.take count.toNat }).perform
          ⟨fresh { chosen with maxSteps := none }, rehearsal⟩).1 ∧
      Alongside (some count)
        ((run document).perform ⟨fresh { chosen with maxSteps := some count }, rehearsal⟩).2
        ((run { document with steps := document.steps.take count.toNat }).perform
          ⟨fresh { chosen with maxSteps := none }, rehearsal⟩).2 := by
  have steered : ∀ id, Concur (Alongside (some count)) (Alongside (some count))
      (steer document (document.steps.take count.toNat) id >>= fun _ => conclude id)
      (steer document (document.steps.take count.toNat) id >>= fun _ => conclude id) := fun id =>
    Twinning.bind ((twinning_alongside _ id).steer document _) fun _ => concur_conclude_alongside id
  have concur := Twinning.bind (concur_request .createSession) steered
  rw [perform_run rfl, perform_run rfl, prepare_bind_finish, prepare_bind_finish]
  exact concur _ _ ⟨rfl, rfl⟩

/-- The limit of steps is not checked. -/
theorem start_of_limited {settings : Settings} {limited : Conductor}
    (accepted : start { settings with maxSteps := limit } = .ok limited) (other : Option UInt64) :
    start { settings with maxSteps := other } =
      .ok (fresh { settings with maxSteps := other }) := by
  have started : ∀ limit, start { settings with maxSteps := limit } =
      (start settings).map (recast (fun session => session) fun _ => limit) := by
    intro limit
    have checked : ({ settings with maxSteps := limit } : Settings).check = settings.check := rfl
    rw [start, start, checked]
    cases settings.check with
    | error cause => rfl
    | ok _ => cases AddressBook.start settings.addressing <;> rfl
  rw [started] at accepted ⊢
  cases begun : start settings with
  | error error =>
      rw [begun] at accepted
      cases accepted
  | ok conductor =>
      obtain ⟨rfl, -⟩ := eq_fresh_of_start begun
      rfl

end Conductor

namespace Rehearsal

/-- A replay with a limit of steps is the replay without a limit of the text that is cut right
before the first step beyond the limit, which is a graph stream too: outcome, conductor and
surroundings are the same but for the limit itself. -/
theorem replay_maxSteps {settings : Settings} {count : UInt64} {limited : Conductor}
    (accepted : Conductor.start { settings with maxSteps := some count } = .ok limited)
    {text : String} {document : Document} (read : Document.read text = .ok document)
    (rehearsal : Rehearsal) :
    ∃ shorter unlimited,
      Document.read (document.textOfFirst count.toNat text) = .ok shorter ∧
      Conductor.start { settings with maxSteps := none } = .ok unlimited ∧
      let ended := rehearsal.replay limited document
      let other := rehearsal.replay unlimited shorter
      ended.1 = other.1 ∧ ended.2.2 = other.2.2 ∧ ended.2.1 = { other.2.1 with
        settings := { other.2.1.settings with maxSteps := some count } } := by
  obtain ⟨rfl, -⟩ := Conductor.eq_fresh_of_start accepted
  refine ⟨{ document with steps := document.steps.take count.toNat }, _,
    Document.read_textOfFirst read count.toNat, Conductor.start_of_limited accepted none, ?_⟩
  obtain ⟨sameOutcome, sameSurroundings, recast⟩ :=
    @Conductor.concur_run_alongside settings count document rehearsal
  exact ⟨sameOutcome, sameSurroundings, recast⟩

/-- A graph stream of two steps, with a comment before the second one. -/
def twoSteps : Document where
  header := ⟨"contacts", 2, 2⟩
  nodes := ["a", "b"]
  steps := [⟨1, 6, [.add "e0" "a" "b" 7]⟩, ⟨3, 9, [.delete "e0" 10]⟩]

def twoStepsText : String :=
  "DGS004\ncontacts 2 2\nst 0\nan a\nan b\nst 1\nae e0 a b\n# later\nst 3\nde e0\n"

theorem replay_maxSteps_twoSteps :
    twoSteps.textOfFirst 1 twoStepsText =
        "DGS004\ncontacts 2 2\nst 0\nan a\nan b\nst 1\nae e0 a b\n# later\n" ∧
      ∃ shorter unlimited,
        Document.read (twoSteps.textOfFirst 1 twoStepsText) = .ok shorter ∧
        Conductor.start {} = .ok unlimited ∧
        (stocked.replay (.fresh { maxSteps := some 1 }) twoSteps).1 =
          (stocked.replay unlimited shorter).1 := by
  have read : Document.read twoStepsText = .ok twoSteps := by decide +kernel
  obtain ⟨shorter, unlimited, shorterRead, started, same⟩ :=
    @replay_maxSteps {} 1 (.fresh { maxSteps := some 1 }) rfl twoStepsText twoSteps read stocked
  exact ⟨by decide +kernel, shorter, unlimited, shorterRead, started, same.1⟩

end Rehearsal

end ContactReplay
