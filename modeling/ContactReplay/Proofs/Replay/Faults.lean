import ContactReplay.Proofs.Replay.Heeding
import ContactReplay.Replay.Rehearsal

/-!
# Faults cut a replay

A `Mishap` is a request or a prompt that is to fail, counted over all replays of a rehearsal.  The
questions before it are answered as if there were no mishap (`answer_failing_of_spared`), and the
question that it hits gets a failing reply and reaches nothing (`answer_failing_of_struck`).

* `Script.asks` are the questions that a script comes to ask, and `Script.playFor` answers the
  first few of them only.
* `Heeds.play_failing_of_struck` and `play_failing_of_spared` compare a script with a mishap to the
  same script without one, by induction on the script.
* `Rehearsal.replay_failing` says so of whole replays: the mishap cuts the replay right at its
  question, or it comes too late and makes no difference.
-/

namespace ContactReplay

/-- What can be made to fail. -/
inductive Fallible where
  | request
  | prompt
  deriving DecidableEq, Repr

namespace Fallible

def includes : Fallible → Ask → Bool
  | .request, .request _ => true
  | .prompt, .confirm _ => true
  | _, _ => false

/-- How many of some questions are of a kind that can be made to fail. -/
def count (fallible : Fallible) (asked : List Ask) : Nat := asked.countP fallible.includes

theorem includes_iff {fallible : Fallible} {question : Ask} :
    fallible.includes question = true ↔
      (fallible = .request ∧ ∃ asked, question = .request asked) ∨
        (fallible = .prompt ∧ ∃ prompt, question = .confirm prompt) := by
  cases fallible <;> cases question <;> simp [includes]

@[simp]
theorem count_append (fallible : Fallible) (first second : List Ask) :
    fallible.count (first ++ second) = fallible.count first + fallible.count second :=
  List.countP_append

@[simp]
theorem count_cons (fallible : Fallible) (question : Ask) (rest : List Ask) :
    fallible.count (question :: rest) =
      fallible.count rest + if fallible.includes question then 1 else 0 :=
  List.countP_cons

theorem exists_of_lt_count {fallible : Fallible} {asked : List Ask} {earlier : Nat}
    (less : earlier < fallible.count asked) :
    ∃ before question after, asked = before ++ question :: after ∧
      fallible.includes question = true ∧ fallible.count before = earlier := by
  induction asked generalizing earlier with
  | nil => cases less
  | cons first rest inductionHypothesis =>
      cases included : fallible.includes first with
      | false =>
          rw [count_cons, included] at less
          obtain ⟨before, question, after, rfl, found, counted⟩ := inductionHypothesis less
          exact ⟨first :: before, question, after, rfl, found, by simp [included, counted]⟩
      | true =>
          cases earlier with
          | zero => exact ⟨[], first, rest, rfl, included, rfl⟩
          | succ earlier =>
              rw [count_cons, included] at less
              obtain ⟨before, question, after, rfl, found, counted⟩ :=
                inductionHypothesis (Nat.lt_of_succ_lt_succ less)
              exact ⟨first :: before, question, after, rfl, found, by simp [included, counted]⟩

end Fallible

/-- The error with which a question fails that is made to fail. -/
def Ask.injected? : Ask → Option Error
  | .request asked => some (.refused asked.method .injected)
  | .confirm _ => some (.device .injectedPrompt)
  | .pause _ => none
  | .isCancelled => none

/-- A request or a prompt that is to fail, by its place among all of them. -/
structure Mishap where
  fallible : Fallible
  place : Nat
  deriving DecidableEq, Repr

namespace Mishap

/-- A mishap hits a question that is asked after some others. -/
def Hits (mishap : Mishap) (past : List Ask) (question : Ask) : Prop :=
  mishap.fallible.includes question = true ∧ mishap.place = mishap.fallible.count past + 1

theorem exists_injected {mishap : Mishap} {past : List Ask} {question : Ask}
    (hits : mishap.Hits past question) : ∃ error, question.injected? = some error := by
  rcases Fallible.includes_iff.mp hits.1 with ⟨_, asked, rfl⟩ | ⟨_, prompt, rfl⟩
  · exact ⟨_, rfl⟩
  · exact ⟨_, rfl⟩

/-- A question is not hit if the mishap hits one that is asked later. -/
theorem not_hits_of_later {mishap : Mishap} {past before : List Ask} {question later : Ask}
    (hits : mishap.Hits (past ++ question :: before) later) : ¬mishap.Hits past question := by
  intro earlier
  have place := hits.2
  rw [earlier.2, Fallible.count_append, Fallible.count_cons, if_pos earlier.1] at place
  omega

end Mishap

namespace Rehearsal

/-- The same surroundings in which no request and no prompt is made to fail. -/
def sparing (rehearsal : Rehearsal) : Rehearsal :=
  { rehearsal with
    faults := { rehearsal.faults with failingRequest := none, failingPrompt := none } }

/-- The same surroundings in which a mishap, and nothing else, makes a question fail. -/
def failing (rehearsal : Rehearsal) (mishap : Mishap) : Rehearsal :=
  { rehearsal with
    faults := { rehearsal.faults with
      failingRequest := if mishap.fallible = .request then some mishap.place else none
      failingPrompt := if mishap.fallible = .prompt then some mishap.place else none } }

variable {rehearsal : Rehearsal} {mishap : Mishap} {question : Ask}

theorem requests_length (rehearsal : Rehearsal) :
    rehearsal.requests.length = Fallible.request.count rehearsal.asked := by
  rw [requests, List.length_filterMap_eq_countP, Fallible.count]
  congr 1
  funext question
  cases question <;> rfl

theorem prompts_length (rehearsal : Rehearsal) :
    rehearsal.prompts.length = Fallible.prompt.count rehearsal.asked := by
  rw [prompts, List.length_filterMap_eq_countP, Fallible.count]
  congr 1
  funext question
  cases question <;> rfl

@[simp]
theorem asked_answer (question : Ask) (rehearsal : Rehearsal) :
    (answer question rehearsal).2.asked = rehearsal.asked ++ [question] := by
  cases question with
  | request request =>
      simp only [answer, serve]
      split <;> rfl
  | pause duration => rfl
  | confirm prompt =>
      simp only [answer, confirm]
      split <;> rfl
  | isCancelled => rfl

theorem sparing_answer (question : Ask) (rehearsal : Rehearsal) :
    (answer question rehearsal.sparing).2.sparing = (answer question rehearsal.sparing).2 := by
  cases question <;> rfl

theorem requests_length_hear (rehearsal : Rehearsal) (request : Request) :
    (rehearsal.hear (.request request)).requests.length =
      Fallible.request.count rehearsal.asked + 1 := by
  rw [requests_length, hear, Fallible.count_append]
  rfl

theorem prompts_length_hear (rehearsal : Rehearsal) (prompt : Prompt) :
    (rehearsal.hear (.confirm prompt)).prompts.length =
      Fallible.prompt.count rehearsal.asked + 1 := by
  rw [prompts_length, hear, Fallible.count_append]
  rfl

/-- A question that the mishap does not hit is answered as if there were none. -/
theorem answer_failing_of_spared (spared : ¬mishap.Hits rehearsal.asked question) :
    answer question (rehearsal.failing mishap) =
      ((answer question rehearsal.sparing).1,
        (answer question rehearsal.sparing).2.failing mishap) := by
  cases question with
  | request request =>
      have unfailing : ((rehearsal.failing mishap).hear (.request request)).faults.failingRequest ≠
          some ((rehearsal.failing mishap).hear (.request request)).requests.length := by
        rw [requests_length_hear]
        intro due
        rcases mishap with ⟨fallible, place⟩
        cases fallible with
        | request => exact spared ⟨rfl, Option.some.inj due⟩
        | prompt => cases due
      have calm : (rehearsal.sparing.hear (.request request)).faults.failingRequest ≠
          some (rehearsal.sparing.hear (.request request)).requests.length :=
        (Option.some_ne_none _).symm
      simp only [answer, serve, if_neg unfailing, if_neg calm]
      rfl
  | pause duration => rfl
  | confirm prompt =>
      have unfailing : ((rehearsal.failing mishap).hear (.confirm prompt)).faults.failingPrompt ≠
          some ((rehearsal.failing mishap).hear (.confirm prompt)).prompts.length := by
        rw [prompts_length_hear]
        intro due
        rcases mishap with ⟨fallible, place⟩
        cases fallible with
        | request => cases due
        | prompt => exact spared ⟨rfl, Option.some.inj due⟩
      have calm : (rehearsal.sparing.hear (.confirm prompt)).faults.failingPrompt ≠
          some (rehearsal.sparing.hear (.confirm prompt)).prompts.length :=
        (Option.some_ne_none _).symm
      simp only [answer, confirm, if_neg unfailing, if_neg calm]
      rfl
  | isCancelled => rfl

/-- A question that the mishap hits fails, and the testbed does not learn of it. -/
theorem answer_failing_of_struck (struck : mishap.Hits rehearsal.asked question) {error : Error}
    (injected : question.injected? = some error) :
    question.failure error = some (answer question (rehearsal.failing mishap)).1 ∧
      (answer question (rehearsal.failing mishap)).2.testbed = rehearsal.testbed := by
  rcases mishap with ⟨fallible, place⟩
  obtain ⟨included, due⟩ := struck
  rcases Fallible.includes_iff.mp included with ⟨rfl, asked, rfl⟩ | ⟨rfl, prompt, rfl⟩
  · have failing : ((rehearsal.failing ⟨.request, place⟩).hear
        (.request asked)).faults.failingRequest =
          some ((rehearsal.failing ⟨.request, place⟩).hear (.request asked)).requests.length := by
      rw [requests_length_hear]
      exact congrArg some due
    simp only [answer, serve, if_pos failing]
    cases injected
    exact ⟨rfl, rfl⟩
  · have failing : ((rehearsal.failing ⟨.prompt, place⟩).hear
        (.confirm prompt)).faults.failingPrompt =
          some ((rehearsal.failing ⟨.prompt, place⟩).hear (.confirm prompt)).prompts.length := by
      rw [prompts_length_hear]
      exact congrArg some due
    simp only [answer, confirm, if_pos failing]
    cases injected
    exact ⟨rfl, rfl⟩

end Rehearsal

/-! ## Scripts with a mishap -/

namespace Script

variable {α : Type}

/-- The questions that a script comes to ask. -/
def asks (script : Script α) (rehearsal : Rehearsal) : List Ask :=
  match script with
  | .done _ => []
  | .ask question next =>
      let answered := Rehearsal.answer question rehearsal
      question :: (next answered.1).asks answered.2

/-- The surroundings after the first `count` questions of a script. -/
def playFor (count : Nat) (script : Script α) (rehearsal : Rehearsal) : Rehearsal :=
  match count, script with
  | 0, _ => rehearsal
  | _ + 1, .done _ => rehearsal
  | count + 1, .ask question next =>
      let answered := Rehearsal.answer question rehearsal
      (next answered.1).playFor count answered.2

theorem run_play_ask (question : Ask) (next : question.Reply → Script α) (rehearsal : Rehearsal) :
    ((ask question next).play Rehearsal.answer).run rehearsal =
      ((next (Rehearsal.answer question rehearsal).1).play Rehearsal.answer).run
        (Rehearsal.answer question rehearsal).2 := rfl

theorem asked_play (script : Script α) (rehearsal : Rehearsal) :
    ((script.play Rehearsal.answer).run rehearsal).2.asked =
      rehearsal.asked ++ script.asks rehearsal := by
  induction script generalizing rehearsal with
  | done result => exact (List.append_nil _).symm
  | ask question next inductionHypothesis =>
      rw [run_play_ask, inductionHypothesis, Rehearsal.asked_answer, List.append_assoc]
      rfl

theorem asked_playFor (count : Nat) (script : Script α) (rehearsal : Rehearsal) :
    (script.playFor count rehearsal).asked =
      rehearsal.asked ++ (script.asks rehearsal).take count := by
  induction script generalizing count rehearsal with
  | done result => cases count <;> exact (List.append_nil _).symm
  | ask question next inductionHypothesis =>
      cases count with
      | zero => exact (List.append_nil _).symm
      | succ count =>
          rw [playFor, inductionHypothesis, Rehearsal.asked_answer, List.append_assoc]
          rfl

theorem playFor_of_length_le {count : Nat} {script : Script α} {rehearsal : Rehearsal}
    (all : (script.asks rehearsal).length ≤ count) :
    script.playFor count rehearsal = ((script.play Rehearsal.answer).run rehearsal).2 := by
  induction script generalizing count rehearsal with
  | done result => cases count <;> rfl
  | ask question next inductionHypothesis =>
      cases count with
      | zero => cases all
      | succ count =>
          rw [run_play_ask, playFor]
          exact inductionHypothesis _ (Nat.le_of_succ_le_succ all)

/-- A heeding script with a mishap ends at the question that it hits, with the error of it, after
the same questions as without the mishap. -/
theorem Heeds.play_failing_of_struck {script : Script (Except Error α × Conductor)}
    (heeds : script.Heeds) {rehearsal : Rehearsal} {mishap : Mishap} {before after : List Ask}
    {question : Ask} (asks : script.asks rehearsal.sparing = before ++ question :: after)
    (struck : mishap.Hits (rehearsal.asked ++ before) question) {error : Error}
    (injected : question.injected? = some error) :
    ∃ conductor current,
      (script.play Rehearsal.answer).run (rehearsal.failing mishap) =
        ((.error error, conductor), current) ∧
      current.asked = rehearsal.asked ++ before ++ [question] ∧
      current.testbed = (script.playFor before.length rehearsal.sparing).testbed := by
  induction script generalizing rehearsal before with
  | done ended => cases before <;> cases asks
  | ask first next inductionHypothesis =>
      cases before with
      | nil =>
          obtain ⟨rfl, _⟩ := List.cons.inj asks
          rw [List.append_nil] at struck
          obtain ⟨fails, untouched⟩ := Rehearsal.answer_failing_of_struck struck injected
          obtain ⟨conductor, ended⟩ := heeds.2 error _ fails
          refine ⟨conductor, (Rehearsal.answer first (rehearsal.failing mishap)).2, ?_, ?_, ?_⟩
          · rw [run_play_ask, ended]
            rfl
          · rw [Rehearsal.asked_answer, List.append_nil]
            rfl
          · exact untouched
      | cons other others =>
          obtain ⟨rfl, rest⟩ := List.cons.inj asks
          have spared := Mishap.not_hits_of_later struck
          rw [run_play_ask, Rehearsal.answer_failing_of_spared spared]
          have asked := Rehearsal.asked_answer first rehearsal.sparing
          rw [← Rehearsal.sparing_answer] at rest
          rw [List.append_cons] at struck
          obtain ⟨conductor, current, ended, heard, same⟩ :=
            inductionHypothesis _ (heeds.1 _) rest (asked ▸ struck)
          refine ⟨conductor, current, ended, ?_, ?_⟩
          · rw [heard, asked]
            simp [Rehearsal.sparing]
          · rw [same, Rehearsal.sparing_answer]
            rfl

/-- A mishap that hits no question of a script makes no difference. -/
theorem play_failing_of_spared {script : Script α} {rehearsal : Rehearsal} {mishap : Mishap}
    (spared : ∀ before question after, script.asks rehearsal.sparing = before ++ question :: after →
      ¬mishap.Hits (rehearsal.asked ++ before) question) :
    (script.play Rehearsal.answer).run (rehearsal.failing mishap) =
      (((script.play Rehearsal.answer).run rehearsal.sparing).1,
        ((script.play Rehearsal.answer).run rehearsal.sparing).2.failing mishap) := by
  induction script generalizing rehearsal with
  | done result => rfl
  | ask question next inductionHypothesis =>
      have first := spared [] question _ rfl
      rw [List.append_nil] at first
      rw [run_play_ask, run_play_ask, Rehearsal.answer_failing_of_spared first]
      have continued := @inductionHypothesis (Rehearsal.answer question rehearsal.sparing).1
        (Rehearsal.answer question rehearsal.sparing).2 ?_
      · rw [continued, Rehearsal.sparing_answer]
      · intro before other after asks
        rw [Rehearsal.sparing_answer] at asks
        rw [Rehearsal.asked_answer, List.append_assoc]
        exact spared (question :: before) other after (congrArg (question :: ·) asks)

end Script

/-! ## Replays with a mishap -/

namespace Rehearsal

/-- The surroundings after the first `count` questions of a replay. -/
def replayFor (rehearsal : Rehearsal) (conductor : Conductor) (document : Document) (count : Nat) :
    Rehearsal :=
  (conductor.script document).playFor count rehearsal

/-- A replay has ended with the injected error of a question: it has asked what the replay without
the mishap asks before that question and the question itself, and the testbed is what it is then. -/
structure CutAt (rehearsal : Rehearsal) (conductor : Conductor) (document : Document)
    (before : List Ask) (question : Ask) (ended : Except Error Report × Conductor × Rehearsal) :
    Prop where
  outcome : ∃ error, question.injected? = some error ∧ ended.1 = .error error
  asked : ended.2.2.asked = rehearsal.asked ++ before ++ [question]
  testbed : ended.2.2.testbed =
    (rehearsal.sparing.replayFor conductor document before.length).testbed

/-- The first questions of a replay are what `replayFor` answers. -/
theorem asked_replayFor (rehearsal : Rehearsal) (conductor : Conductor) (document : Document)
    (count : Nat) :
    (rehearsal.replayFor conductor document count).asked =
      rehearsal.asked ++ ((rehearsal.replay conductor document).2.2.asked.drop
        rehearsal.asked.length).take count := by
  have whole : (rehearsal.replay conductor document).2.2.asked =
      rehearsal.asked ++ (conductor.script document).asks rehearsal := Script.asked_play _ _
  rw [whole, List.drop_left, replayFor, Script.asked_playFor]

/-- With enough questions, that is the whole replay. -/
theorem replayFor_of_length_le {rehearsal : Rehearsal} {conductor : Conductor}
    {document : Document} {count : Nat}
    (all : (rehearsal.replay conductor document).2.2.asked.length ≤
      rehearsal.asked.length + count) :
    rehearsal.replayFor conductor document count = (rehearsal.replay conductor document).2.2 := by
  have whole : (rehearsal.replay conductor document).2.2.asked =
      rehearsal.asked ++ (conductor.script document).asks rehearsal := Script.asked_play _ _
  rw [whole, List.length_append] at all
  exact Script.playFor_of_length_le (Nat.le_of_add_le_add_left all)

/-- A request or prompt that is made to fail cuts a replay right there: nothing else is asked, the
replay ends with the injected error, and the testbed is what it is at that point of the replay
without the mishap.  If the replay asks too little for the mishap to come, the two replays are the
same in everything. -/
theorem replay_failing (rehearsal : Rehearsal) (conductor : Conductor) (document : Document) :
    ∃ asks, (rehearsal.sparing.replay conductor document).2.2.asked = rehearsal.asked ++ asks ∧
      ∀ fallible earlier,
        let mishap : Mishap := ⟨fallible, fallible.count rehearsal.asked + earlier + 1⟩
        (earlier < fallible.count asks →
          ∃ before question after, asks = before ++ question :: after ∧
            fallible.includes question = true ∧ fallible.count before = earlier ∧
            CutAt rehearsal conductor document before question
              ((rehearsal.failing mishap).replay conductor document)) ∧
        (fallible.count asks ≤ earlier →
          (rehearsal.failing mishap).replay conductor document =
            let (outcome, used, after) := rehearsal.sparing.replay conductor document
            (outcome, used, after.failing mishap)) := by
  refine ⟨(conductor.script document).asks rehearsal.sparing, Script.asked_play _ _,
    fun fallible earlier => ⟨fun less => ?_, fun few => ?_⟩⟩
  · obtain ⟨before, question, after, parted, included, counted⟩ :=
      Fallible.exists_of_lt_count less
    have struck : Mishap.Hits ⟨fallible, fallible.count rehearsal.asked + earlier + 1⟩
        (rehearsal.asked ++ before) question := by
      refine ⟨included, ?_⟩
      rw [Fallible.count_append, counted]
    obtain ⟨error, injected⟩ := Mishap.exists_injected struck
    obtain ⟨used, current, ended, asked, testbed⟩ :=
      Script.Heeds.play_failing_of_struck (Conductor.heeds_run document conductor) parted struck
        injected
    refine ⟨before, question, after, parted, included, counted, ?_⟩
    have replayed : (rehearsal.failing
        ⟨fallible, fallible.count rehearsal.asked + earlier + 1⟩).replay conductor document =
          (.error error, used, current) := by
      rw [replay, Conductor.script, ended]
    rw [replayed]
    exact ⟨⟨error, injected, rfl⟩, asked, testbed⟩
  · rw [replay, Script.play_failing_of_spared]
    · rfl
    · intro before question after parted hits
      have place : fallible.count rehearsal.asked + earlier + 1 =
          fallible.count (rehearsal.asked ++ before) + 1 := hits.2
      rw [Fallible.count_append] at place
      rw [parted, Fallible.count_append, Fallible.count_cons, if_pos hits.1] at few
      omega

end Rehearsal

end ContactReplay
