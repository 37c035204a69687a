import ContactReplay.Proofs.Replay.Populating
import ContactReplay.Proofs.Replay.Sequencing

/-!
# One session for a conductor

A conductor may be told to run again and again, with any documents and in any surroundings.  A
`Turn` is one of these runs with the questions that it asked and the answers that it got, as every
rehearsed replay is (`Rehearsal.exists_yields_replay`), and a `Conductor.History` is a list of
turns, each of which finds the conductor as the turn before has left it.

* Once a run has got a session, all its requests are orders to this one, and wherever the run ends,
  the conductor has this session (`serves_steer_conclude`).  That property is faithful, so it
  follows along the parts of a run.
* So a turn has one of three shapes (`Turn.shape`): the conductor is spent and nothing is asked, a
  session is refused and nothing changes, or a session is opened and spends the conductor.
* Hence a conductor drives one session at most (`Conductor.history_drives_one_session`).
-/

namespace ContactReplay

/-! ## Transcripts -/

/-- A question with the answer that it got. -/
structure Exchange where
  question : Ask
  reply : question.Reply

/-- The session that a testbed opened in an exchange. -/
def Exchange.opened? : Exchange → Option SessionId
  | ⟨.request .createSession, .ok session⟩ => some session
  | _ => none

namespace Script

variable {α β : Type}

/-- What a script comes to with these answers to its questions. -/
inductive Yields : Script α → List Exchange → α → Prop
  | done (result : α) : Yields (.done result) [] result
  | ask {question : Ask} {next : question.Reply → Script α} {reply : question.Reply}
      {later : List Exchange} {result : α} (yields : Yields (next reply) later result) :
      Yields (.ask question next) (⟨question, reply⟩ :: later) result

/-- Whatever the surroundings keep in mind, a script comes to what their answers lead to. -/
theorem exists_yields_play {σ : Type} (answer : (question : Ask) → StateM σ question.Reply)
    (script : Script α) (state : σ) :
    ∃ exchanges, script.Yields exchanges ((script.play answer).run state).1 := by
  induction script generalizing state with
  | done result => exact ⟨[], .done result⟩
  | ask question next inductionHypothesis =>
      obtain ⟨later, yields⟩ := inductionHypothesis ((answer question).run state).1
        ((answer question).run state).2
      exact ⟨_, .ask yields⟩

end Script

theorem Rehearsal.exists_yields_replay (rehearsal : Rehearsal) (conductor : Conductor)
    (document : Document) :
    ∃ exchanges, (conductor.script document).Yields exchanges
      ((rehearsal.replay conductor document).1, (rehearsal.replay conductor document).2.1) :=
  Script.exists_yields_play answer (conductor.script document) rehearsal

/-! ## Serving a session -/

/-- A question is no request, or an order to a session. -/
def Ask.Concerns (id : SessionId) : Ask → Prop
  | .request .createSession => False
  | .request (.order session _) => session = id
  | _ => True

namespace Script

variable {α : Type} {id : SessionId}

/-- A script asks nothing of a testbed but orders to a session, and leaves this session with the
conductor. -/
def Serves (id : SessionId) : Script (Except Error α × Conductor) → Prop
  | .done (_, conductor) => conductor.session = some id
  | .ask question next => question.Concerns id ∧ ∀ reply, (next reply).Serves id

theorem Serves.of_yields {script : Script (Except Error α × Conductor)}
    (serves : script.Serves id) {exchanges : List Exchange} {outcome : Except Error α}
    {used : Conductor} (yields : script.Yields exchanges (outcome, used)) :
    used.session = some id ∧ ∀ exchange ∈ exchanges, exchange.question.Concerns id := by
  induction script generalizing exchanges with
  | done result =>
      cases yields
      exact ⟨serves, List.forall_mem_nil _⟩
  | ask question next inductionHypothesis =>
      cases yields with
      | @ask _ _ reply later _ yields =>
          obtain ⟨kept, concerned⟩ := inductionHypothesis reply (serves.2 reply) yields
          exact ⟨kept, List.forall_mem_cons.mpr ⟨serves.1, concerned⟩⟩

theorem serves_bindCont {β : Type} {script : Script (Except Error α × Conductor)}
    {rest : α → Course β} (first : script.Serves id)
    (second : ∀ value (conductor : Conductor), conductor.session = some id →
      (rest value conductor).Serves id) :
    Serves id (script >>= fun ended =>
      (ExceptT.bindCont rest ended.1 : StateT Conductor Script _) ended.2) := by
  induction script with
  | done ended =>
      rcases ended with ⟨outcome, conductor⟩
      cases outcome with
      | ok value => exact second value conductor first
      | error error => exact first
  | ask question next inductionHypothesis =>
      exact ⟨first.1, fun reply => inductionHypothesis reply (first.2 reply)⟩

end Script

namespace Course

variable {α : Type}

/-- A course serves the session that the conductor has. -/
def Serves (id : SessionId) (course : Course α) : Prop :=
  ∀ conductor : Conductor, conductor.session = some id → (course conductor).Serves id

theorem faithful_serves (id : SessionId) :
    Faithful (Ask.Concerns id) fun α => Serves (α := α) id where
  silent _ keeps := fun conductor holds => (keeps conductor).session.trans holds
  bind first rest := fun conductor holds => Script.serves_bindCont (first conductor holds) rest
  request _ concerned := fun _ holds => ⟨concerned, fun _ => holds⟩
  pause _ concerned := fun _ holds => ⟨concerned, fun _ => holds⟩
  confirm _ concerned := fun _ holds => ⟨concerned, fun _ => holds⟩
  look _ concerned := fun _ holds => ⟨concerned, fun _ => holds⟩

end Course

theorem Ask.concerns_of_waits {question : Ask} (waits : question.waits = true) (id : SessionId) :
    question.Concerns id := by
  cases question with
  | pause duration => exact trivial
  | confirm prompt => exact trivial
  | _ => cases waits

namespace Conductor

open Course

/-- From the number of its session to its end a run serves this session. -/
theorem serves_steer_conclude (document : Document) (steps : List DocumentStep) (id : SessionId) :
    Course.Serves id (steer document steps id >>= fun _ => conclude id) := by
  have faithful := faithful_serves id
  refine faithful.bind ?_ fun _ => faithful.conclude rfl
  exact faithful.steer (fun _ waits => Ask.concerns_of_waits waits id) (fun _ _ _ => rfl) trivial
    document steps (fun _ _ _ => rfl) fun _ _ => rfl

/-! ## Turns -/

theorem script_of_spent {conductor : Conductor} (spent : conductor.isSpent = true)
    (document : Document) :
    conductor.script document = .done (.error (.invariant .conductorSpent), conductor) := by
  rw [script, run_eq_bind]
  change (if conductor.isSpent then throw (.invariant .conductorSpent) else _ : Course Report)
    conductor = _
  rw [if_pos spent]
  rfl

/-- The first question of a run is the request for a session. -/
theorem script_of_unspent {conductor : Conductor} (unspent : conductor.isSpent = false)
    (document : Document) :
    conductor.script document = .ask (.request .createSession) fun reply =>
      match reply with
      | .error error => .done (.error error, conductor)
      | .ok id => (steer document (chooseSteps conductor.settings document) id >>= fun _ =>
          conclude id : Course Report) conductor := by
  rw [script, run_eq_bind]
  change (if conductor.isSpent then throw (.invariant .conductorSpent) else _ : Course Report)
    conductor = _
  rw [if_neg (Bool.eq_false_iff.mp unspent)]
  change (prepare document (chooseSteps conductor.settings document) >>= fun session =>
    finish session 0 (chooseSteps conductor.settings document) : Course Report) conductor = _
  rw [prepare_bind_finish]
  refine congrArg (Script.ask _) (funext fun reply => ?_)
  cases reply <;> rfl

theorem isSpent_of_session {conductor : Conductor} {id : SessionId}
    (holds : conductor.session = some id) : conductor.isSpent = true := by
  rw [isSpent, holds]
  simp

end Conductor

/-- A run of a conductor: what it was told to run, what it asked, how it ended and the conductor
after it. -/
structure Turn where
  document : Document
  exchanges : List Exchange
  outcome : Except Error Report
  used : Conductor

namespace Turn

/-- The sessions that were opened in a turn. -/
def sessions (turn : Turn) : List SessionId := turn.exchanges.filterMap Exchange.opened?

/-- The shapes of a turn of a conductor. -/
inductive Shape (conductor : Conductor) (turn : Turn) : Prop
  | spent (before : conductor.isSpent = true) (silent : turn.exchanges = [])
      (ended : turn.outcome = .error (.invariant .conductorSpent)) (kept : turn.used = conductor)
  | refused (before : conductor.isSpent = false) (error : Error)
      (asked : turn.exchanges = [⟨.request .createSession, .error error⟩])
      (ended : turn.outcome = .error error) (kept : turn.used = conductor)
  | opened (before : conductor.isSpent = false) (id : SessionId) (later : List Exchange)
      (asked : turn.exchanges = ⟨.request .createSession, .ok id⟩ :: later)
      (concerned : ∀ exchange ∈ later, exchange.question.Concerns id)
      (holds : turn.used.session = some id)

theorem shape {conductor : Conductor} {turn : Turn}
    (yields : (conductor.script turn.document).Yields turn.exchanges (turn.outcome, turn.used)) :
    turn.Shape conductor := by
  obtain ⟨document, exchanges, outcome, used⟩ := turn
  cases spent : conductor.isSpent with
  | true =>
      rw [Conductor.script_of_spent spent] at yields
      cases yields
      exact .spent spent rfl rfl rfl
  | false =>
      rw [Conductor.script_of_unspent spent] at yields
      cases yields with
      | @ask _ _ reply later _ yields =>
          cases reply with
          | error error =>
              cases yields
              exact .refused spent error rfl rfl rfl
          | ok id =>
              -- Remembering the session comes first, so it does not matter that it is new.
              have serves := Conductor.serves_steer_conclude document
                (Conductor.chooseSteps conductor.settings document) id
                { conductor with session := some id } rfl
              obtain ⟨holds, concerned⟩ := serves.of_yields yields
              exact .opened spent id later rfl concerned holds

theorem sessions_of_asked {turn : Turn} {id : SessionId} {later : List Exchange}
    (asked : turn.exchanges = ⟨.request .createSession, .ok id⟩ :: later)
    (concerned : ∀ exchange ∈ later, exchange.question.Concerns id) : turn.sessions = [id] := by
  have none : ∀ exchange ∈ later, exchange.opened? = none := by
    rintro ⟨question, reply⟩ member
    cases question with
    | request request =>
        cases request with
        | createSession => exact (concerned _ member).elim
        | order session order => rfl
    | _ => rfl
  have first : Exchange.opened? ⟨.request .createSession, .ok id⟩ = some id := rfl
  rw [sessions, asked, List.filterMap_cons_some first, List.filterMap_eq_nil_iff.mpr none]

section Shape

variable {conductor : Conductor} {turn : Turn} (shape : turn.Shape conductor)
include shape

/-- A conductor that is not spent asks for a session first. -/
theorem Shape.exists_exchanges_of_unspent (unspent : conductor.isSpent = false) :
    ∃ reply rest, turn.exchanges = ⟨.request .createSession, reply⟩ :: rest := by
  cases shape with
  | spent before => exact absurd before (Bool.eq_false_iff.mp unspent)
  | refused _ error asked => exact ⟨.error error, [], asked⟩
  | opened _ id later asked => exact ⟨.ok id, later, asked⟩

/-- An exchange is that of a refused session, that of an opened one, or one that concerns the opened
one. -/
theorem Shape.cases_of_mem {exchange : Exchange} (member : exchange ∈ turn.exchanges) :
    conductor.isSpent = false ∧
      ((∃ error, exchange = ⟨.request .createSession, .error error⟩ ∧
        turn.outcome = .error error ∧ turn.used = conductor) ∨
      ∃ id, (exchange = ⟨.request .createSession, .ok id⟩ ∨ exchange.question.Concerns id) ∧
        turn.sessions = [id] ∧ turn.used.session = some id) := by
  cases shape with
  | spent before silent =>
      rw [silent] at member
      cases member
  | refused before error asked ended kept =>
      rw [asked, List.mem_singleton] at member
      exact ⟨before, Or.inl ⟨error, member, ended, kept⟩⟩
  | opened before id later asked concerned holds =>
      rw [asked, List.mem_cons] at member
      exact ⟨before, Or.inr ⟨id, member.imp_right (concerned exchange),
        sessions_of_asked asked concerned, holds⟩⟩

/-- The orders of a turn go to a session that it has opened. -/
theorem Shape.mem_sessions {session : SessionId} {order : Order}
    {reply : (Ask.request (.order session order)).Reply}
    (member : ⟨.request (.order session order), reply⟩ ∈ turn.exchanges) :
    session ∈ turn.sessions := by
  obtain ⟨-, ⟨error, same, -⟩ | ⟨id, same | concerned, opened, -⟩⟩ := shape.cases_of_mem member
  · cases same
  · cases same
  · rw [opened]
    exact List.mem_singleton.mpr concerned

theorem Shape.of_refused {error : Error}
    (member : ⟨.request .createSession, .error error⟩ ∈ turn.exchanges) :
    conductor.isSpent = false ∧ turn.outcome = .error error ∧ turn.used = conductor := by
  obtain ⟨unspent, ⟨cause, same, ended, kept⟩ | ⟨id, same | concerned, -⟩⟩ :=
    shape.cases_of_mem member
  · cases same
    exact ⟨unspent, ended, kept⟩
  · cases same
  · exact concerned.elim

theorem Shape.of_opened {id : SessionId}
    (member : ⟨.request .createSession, .ok id⟩ ∈ turn.exchanges) :
    turn.used.session = some id := by
  obtain ⟨-, ⟨error, same, -⟩ | ⟨own, same | concerned, -, holds⟩⟩ := shape.cases_of_mem member
  · cases same
  · cases same
    exact holds
  · exact concerned.elim

end Shape

end Turn

/-! ## Histories -/

namespace Conductor

/-- The turns that a conductor takes one after the other. -/
inductive History : Conductor → List Turn → Prop
  | nil (conductor : Conductor) : History conductor []
  | cons {conductor : Conductor} {turn : Turn} {later : List Turn}
      (yields : (conductor.script turn.document).Yields turn.exchanges (turn.outcome, turn.used))
      (goesOn : History turn.used later) : History conductor (turn :: later)

namespace History

variable {conductor : Conductor} {turns : List Turn}

/-- A spent conductor asks nothing and stays as it is. -/
theorem of_spent (history : conductor.History turns) (spent : conductor.isSpent = true) :
    ∀ turn ∈ turns, turn.exchanges = [] ∧ turn.outcome = .error (.invariant .conductorSpent) ∧
      turn.used = conductor := by
  induction history with
  | nil conductor => exact List.forall_mem_nil _
  | cons yields goesOn inductionHypothesis =>
      cases Turn.shape yields with
      | spent before silent ended kept =>
          rw [kept] at inductionHypothesis
          exact List.forall_mem_cons.mpr ⟨⟨silent, ended, kept⟩, inductionHypothesis spent⟩
      | refused before => exact absurd spent (Bool.eq_false_iff.mp before)
      | opened before => exact absurd spent (Bool.eq_false_iff.mp before)

/-- Before each turn a conductor is as it was at first, unless it has opened a session, which has
spent it. -/
theorem exists_before {earlier later : List Turn} {turn : Turn}
    (history : conductor.History (earlier ++ turn :: later)) :
    ∃ current : Conductor,
      (current = conductor ∨ current.isSpent = true ∧ earlier.flatMap Turn.sessions ≠ []) ∧
      turn.Shape current ∧ turn.used.History later := by
  induction earlier generalizing conductor with
  | nil =>
      cases history with
      | cons yields goesOn => exact ⟨conductor, Or.inl rfl, Turn.shape yields, goesOn⟩
  | cons first rest inductionHypothesis =>
      cases history with
      | cons yields goesOn =>
          obtain ⟨current, before, shape, next⟩ := inductionHypothesis goesOn
          refine ⟨current, ?_, shape, next⟩
          rcases before with rfl | ⟨spent, some⟩
          · cases Turn.shape yields with
            | spent _ _ _ kept => exact Or.inl kept
            | refused _ _ _ _ kept => exact Or.inl kept
            | opened _ _ _ asked concerned holds =>
                refine Or.inr ⟨isSpent_of_session holds, ?_⟩
                rw [List.flatMap_cons, Turn.sessions_of_asked asked concerned]
                exact List.cons_ne_nil _ _
          · exact Or.inr ⟨spent, List.append_ne_nil_of_right_ne_nil _ some⟩

theorem length_sessions_le (history : conductor.History turns) :
    (turns.flatMap Turn.sessions).length ≤ 1 := by
  induction history with
  | nil conductor => exact Nat.zero_le 1
  | @cons conductor turn later yields goesOn inductionHypothesis =>
      rw [List.flatMap_cons]
      cases Turn.shape yields with
      | spent before silent =>
          rw [Turn.sessions, silent]
          exact inductionHypothesis
      | refused before error asked =>
          rw [Turn.sessions, asked]
          exact inductionHypothesis
      | opened before id exchanges asked concerned holds =>
          -- The conductor is spent from here on.
          have none : later.flatMap Turn.sessions = [] := by
            rw [List.flatMap_eq_nil_iff]
            intro other member
            rw [Turn.sessions, (goesOn.of_spent (isSpent_of_session holds) other member).1]
            rfl
          rw [none, Turn.sessions_of_asked asked concerned]
          exact Nat.le_refl 1

end History

/-- Whatever its surroundings answer, a new conductor drives one session at most and gives its orders
to this one.  As long as it has none, every run begins with a request for a session; one that is
refused leaves the conductor as it was made, so what follows is a history of a new one.  The run that
gets a session is the last one that does anything: however it ends, every later run fails at once,
without a question, and changes nothing. -/
theorem history_drives_one_session {settings : Settings} {fresh : Conductor}
    (started : Conductor.start settings = .ok fresh) {turns : List Turn}
    (history : fresh.History turns) :
    ((turns.flatMap Turn.sessions).length ≤ 1 ∧
      ∀ turn ∈ turns, ∀ session order reply,
        ⟨.request (.order session order), reply⟩ ∈ turn.exchanges → session ∈ turn.sessions) ∧
    ∀ earlier turn later, turns = earlier ++ turn :: later →
      (earlier.flatMap Turn.sessions = [] →
        ∃ reply rest, turn.exchanges = ⟨.request .createSession, reply⟩ :: rest) ∧
      (∀ error, ⟨.request .createSession, .error error⟩ ∈ turn.exchanges →
        turn.outcome = .error error ∧ turn.used = fresh ∧ fresh.History later) ∧
      ∀ id, ⟨.request .createSession, .ok id⟩ ∈ turn.exchanges →
        turn.used.session = some id ∧
        (∀ document, turn.used.script document =
          .done (.error (.invariant .conductorSpent), turn.used)) ∧
        ∀ other ∈ later, other.exchanges = [] ∧
          other.outcome = .error (.invariant .conductorSpent) ∧ other.used = turn.used := by
  obtain ⟨rfl, -⟩ := eq_fresh_of_start started
  refine ⟨⟨history.length_sessions_le, fun turn member session order reply asked => ?_⟩, ?_⟩
  · obtain ⟨earlier, later, rfl⟩ := List.append_of_mem member
    obtain ⟨current, -, shape, -⟩ := history.exists_before
    exact shape.mem_sessions asked
  rintro earlier turn later rfl
  obtain ⟨current, before, shape, goesOn⟩ := history.exists_before
  refine ⟨fun none => ?_, fun error asked => ?_, fun id asked => ?_⟩
  · obtain rfl := before.resolve_right fun other => other.2 none
    exact shape.exists_exchanges_of_unspent rfl
  · obtain ⟨unspent, ended, kept⟩ := shape.of_refused asked
    obtain rfl := before.resolve_right fun other => Bool.eq_false_iff.mp unspent other.1
    exact ⟨ended, kept, kept ▸ goesOn⟩
  · have holds := shape.of_opened asked
    have spent := isSpent_of_session holds
    exact ⟨holds, script_of_spent spent, goesOn.of_spent spent⟩

/-- A new conductor is refused a session, then gets one that fails at once, and is told to run a
third time. -/
theorem history_drives_one_session_failing : Conductor.start {} = .ok (fresh {}) ∧
    ∃ refused failing spent : Turn, (fresh {}).History [refused, failing, spent] ∧
      refused.used = fresh {} ∧ failing.used.session = some 1 ∧
      spent.exchanges = [] ∧ spent.used = failing.used := by
  have document : Document := ⟨⟨"g", 0, 0⟩, [], []⟩
  have refuses : ((fresh {}).script document).Yields
      [⟨.request .createSession, .error (.refused .createSession .injected)⟩]
      (.error (.refused .createSession .injected), fresh {}) := by
    rw [script_of_unspent rfl]
    exact .ask (.done _)
  have fails : ((fresh {}).script document).Yields
      [⟨.request .createSession, .ok 1⟩,
        ⟨.request (.order 1 (.setMode .configuration)), .error (.refused .setMode .injected)⟩]
      (.error (.refused .setMode .injected), { fresh {} with session := some 1 }) := by
    rw [script_of_unspent rfl]
    exact .ask (.ask (.done _))
  have ends : (({ fresh {} with session := some 1 } : Conductor).script document).Yields []
      (.error (.invariant .conductorSpent), { fresh {} with session := some 1 }) := by
    rw [script_of_spent rfl]
    exact .done _
  have history : (fresh {}).History
      [⟨document, _, _, _⟩, ⟨document, _, _, _⟩, ⟨document, _, _, _⟩] :=
    .cons refuses (.cons fails (.cons ends (.nil _)))
  have started : Conductor.start {} = .ok (fresh {}) := by decide +kernel
  obtain ⟨-, turns⟩ := history_drives_one_session started history
  obtain ⟨-, kept, -⟩ := (turns [] _ _ rfl).2.1 _ List.mem_cons_self
  obtain ⟨holds, -, later⟩ := (turns [_] _ _ rfl).2.2 1 List.mem_cons_self
  obtain ⟨silent, -, same⟩ := later _ List.mem_cons_self
  exact ⟨started, _, _, _, history, kept, holds, silent, same⟩

end Conductor

end ContactReplay
