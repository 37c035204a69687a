import ContactReplay.Proofs.Replay.Dedication
import ContactReplay.Proofs.Replay.Faults

/-!
# Wherever answers lead

A run may end at any of its questions, so what is to hold of every run has to hold wherever the
answers lead.  `Course.Leads` says this of a course: with any answers, what follows its good end is
as described, and what follows its failure is as described otherwise.  Both descriptions are about
the conductor and all that has been exchanged by then.

Of the exchanges of a rehearsed replay the log of the testbed tells the requests that were served,
and the rehearsal itself the pauses (`Rehearsal.exists_yields_logged`).
-/

namespace ContactReplay

/-! ## What exchanges leave behind -/

namespace Exchange

/-- The line that an exchange leaves in the log of a testbed. -/
def call? : Exchange → Option Call
  | ⟨.request .createSession, .ok id⟩ => some (.createSession id)
  | ⟨.request (.order id order), .ok _⟩ => some (order.call id)
  | _ => none

def pause? : Exchange → Option Duration
  | ⟨.pause duration, _⟩ => some duration
  | _ => none

end Exchange

/-- The lines that some exchanges leave in the log of a testbed. -/
def callsOf (exchanges : List Exchange) : List Call := exchanges.filterMap Exchange.call?

def pausesOf (exchanges : List Exchange) : List Duration := exchanges.filterMap Exchange.pause?

theorem filterMap_cons_eq_append {α β : Type} (image : α → Option β) (item : α) (rest : List α) :
    (item :: rest).filterMap image = (image item).toList ++ rest.filterMap image := by
  cases found : image item with
  | none => exact List.filterMap_cons_none found
  | some value => exact List.filterMap_cons_some found

theorem callsOf_concat (exchanges : List Exchange) (exchange : Exchange) :
    callsOf (exchanges ++ [exchange]) = callsOf exchanges ++ exchange.call?.toList := by
  rw [callsOf, List.filterMap_append, filterMap_cons_eq_append, List.filterMap_nil,
    List.append_nil, callsOf]

theorem pausesOf_concat (exchanges : List Exchange) (exchange : Exchange) :
    pausesOf (exchanges ++ [exchange]) = pausesOf exchanges ++ exchange.pause?.toList := by
  rw [pausesOf, List.filterMap_append, filterMap_cons_eq_append, List.filterMap_nil,
    List.append_nil, pausesOf]

namespace Testbed

theorem calls_serve (testbed : Testbed) (request : Request) :
    (testbed.serve request).2.calls =
      testbed.calls ++ (Exchange.call? ⟨.request request, (testbed.serve request).1⟩).toList := by
  cases request with
  | createSession => rw [serve_createSession]; rfl
  | order id order =>
      rcases serve_order_cases testbed id order with ⟨_, _, _, _, _, _, served⟩ | ⟨_, refused⟩
      · rw [served]
        rfl
      · rw [refused]
        exact (List.append_nil _).symm

end Testbed

namespace Rehearsal

/-- A rehearsal logs what it serves. -/
theorem calls_answer (question : Ask) (rehearsal : Rehearsal) :
    (answer question rehearsal).2.testbed.calls = rehearsal.testbed.calls ++
      (Exchange.call? ⟨question, (answer question rehearsal).1⟩).toList := by
  cases question with
  | request request =>
      simp only [answer, serve]
      split
      · cases request <;> exact (List.append_nil _).symm
      · exact rehearsal.testbed.calls_serve request
  | pause duration => exact (List.append_nil _).symm
  | confirm prompt =>
      simp only [answer, confirm]
      split <;> exact (List.append_nil _).symm
  | isCancelled => exact (List.append_nil _).symm

theorem pauses_answer (question : Ask) (rehearsal : Rehearsal) :
    (answer question rehearsal).2.pauses = rehearsal.pauses ++
      (Exchange.pause? ⟨question, (answer question rehearsal).1⟩).toList := by
  rw [pauses, asked_answer, List.filterMap_append]
  cases question <;> rfl

theorem exists_yields_play_logged {α : Type} (script : Script α) (rehearsal : Rehearsal) :
    ∃ exchanges, script.Yields exchanges ((script.play answer).run rehearsal).1 ∧
      ((script.play answer).run rehearsal).2.testbed.calls =
        rehearsal.testbed.calls ++ callsOf exchanges ∧
      ((script.play answer).run rehearsal).2.pauses = rehearsal.pauses ++ pausesOf exchanges := by
  induction script generalizing rehearsal with
  | done result => exact ⟨[], .done result, (List.append_nil _).symm, (List.append_nil _).symm⟩
  | ask question next inductionHypothesis =>
      obtain ⟨later, yields, calls, pauses⟩ := inductionHypothesis
        (answer question rehearsal).1 (answer question rehearsal).2
      refine ⟨⟨question, (answer question rehearsal).1⟩ :: later, .ask yields, ?_, ?_⟩
      · rw [Script.run_play_ask, calls, calls_answer, List.append_assoc, callsOf, callsOf,
          filterMap_cons_eq_append]
      · rw [Script.run_play_ask, pauses, pauses_answer, List.append_assoc, pausesOf, pausesOf,
          filterMap_cons_eq_append]

/-- A rehearsed replay comes to what some exchanges lead to, logs the requests among them that were
served and remembers the pauses. -/
theorem exists_yields_logged (rehearsal : Rehearsal) (conductor : Conductor)
    (document : Document) :
    ∃ exchanges, (conductor.script document).Yields exchanges
        ((rehearsal.replay conductor document).1, (rehearsal.replay conductor document).2.1) ∧
      (rehearsal.replay conductor document).2.2.testbed.calls =
        rehearsal.testbed.calls ++ callsOf exchanges ∧
      (rehearsal.replay conductor document).2.2.pauses =
        rehearsal.pauses ++ pausesOf exchanges :=
  exists_yields_play_logged (conductor.script document) rehearsal

end Rehearsal

/-! ## Ends of scripts -/

namespace Script

variable {α β : Type} {after : α → Conductor → List Exchange → Prop}
  {abandoned : Conductor → List Exchange → Prop} {past : List Exchange}

/-- What is to hold after an outcome. -/
def Described (after : α → Conductor → List Exchange → Prop)
    (abandoned : Conductor → List Exchange → Prop) :
    Except Error α → Conductor → List Exchange → Prop
  | .ok value => after value
  | .error _ => abandoned

/-- Wherever the answers lead after some exchanges, a script ends as described. -/
def Leads (after : α → Conductor → List Exchange → Prop)
    (abandoned : Conductor → List Exchange → Prop) (past : List Exchange) :
    Script (Except Error α × Conductor) → Prop
  | .done (outcome, used) => Described after abandoned outcome used past
  | .ask question next => ∀ reply,
      (next reply).Leads after abandoned (past ++ [⟨question, reply⟩])

theorem Leads.of_yields {script : Script (Except Error α × Conductor)}
    (leads : script.Leads after abandoned past) {exchanges : List Exchange}
    {outcome : Except Error α} {used : Conductor}
    (yields : script.Yields exchanges (outcome, used)) :
    Described after abandoned outcome used (past ++ exchanges) := by
  induction script generalizing past exchanges with
  | done ended =>
      cases yields
      rw [List.append_nil]
      exact leads
  | ask question next inductionHypothesis =>
      cases yields with
      | @ask _ _ reply later _ yields =>
          have ends := inductionHypothesis reply (leads reply) yields
          rwa [List.append_assoc] at ends

theorem Leads.imp {script : Script (Except Error α × Conductor)}
    {weaker : α → Conductor → List Exchange → Prop} (leads : script.Leads after abandoned past)
    (weaken : ∀ value used later, after value used later → weaker value used later) :
    script.Leads weaker abandoned past := by
  induction script generalizing past with
  | done ended =>
      rcases ended with ⟨outcome, used⟩
      cases outcome with
      | ok value => exact weaken value used past leads
      | error error => exact leads
  | ask question next inductionHypothesis =>
      exact fun reply => inductionHypothesis reply (leads reply)

theorem leads_bindCont {script : Script (Except Error α × Conductor)} {rest : α → Course β}
    {ending : β → Conductor → List Exchange → Prop} (first : script.Leads after abandoned past)
    (second : ∀ value conductor later, after value conductor later →
      (rest value conductor).Leads ending abandoned later) :
    (script >>= fun ended => (ExceptT.bindCont rest ended.1 : StateT Conductor Script _)
      ended.2).Leads ending abandoned past := by
  induction script generalizing past with
  | done ended =>
      rcases ended with ⟨outcome, conductor⟩
      cases outcome with
      | ok value => exact second value conductor past first
      | error error => exact first
  | ask question next inductionHypothesis =>
      exact fun reply => inductionHypothesis reply (first reply)

end Script

/-! ## Ends of courses -/

namespace Course

variable {α β : Type} {course : Course α} {conductor next : Conductor} {past : List Exchange}
  {after : α → Conductor → List Exchange → Prop} {abandoned : Conductor → List Exchange → Prop}

/-- Wherever the answers lead after some exchanges, a course ends as described. -/
def Leads (course : Course α) (conductor : Conductor) (past : List Exchange)
    (after : α → Conductor → List Exchange → Prop)
    (abandoned : Conductor → List Exchange → Prop) : Prop :=
  (course conductor).Leads after abandoned past

theorem leads_of_ok {value : α} (silent : course conductor = .done (.ok value, next))
    (described : after value next past) : course.Leads conductor past after abandoned := by
  rw [Leads, silent]
  exact described

theorem leads_of_error {error : Error} (silent : course conductor = .done (.error error, next))
    (described : abandoned next past) : course.Leads conductor past after abandoned := by
  rw [Leads, silent]
  exact described

theorem Leads.imp {weaker : α → Conductor → List Exchange → Prop}
    (leads : course.Leads conductor past after abandoned)
    (weaken : ∀ value next later, after value next later → weaker value next later) :
    course.Leads conductor past weaker abandoned :=
  Script.Leads.imp leads weaken

/-! ## Sequences -/

theorem leads_bind {rest : α → Course β} {ending : β → Conductor → List Exchange → Prop}
    (first : course.Leads conductor past after abandoned)
    (second : ∀ value next later, after value next later →
      (rest value).Leads next later ending abandoned) :
    (course >>= rest).Leads conductor past ending abandoned :=
  Script.leads_bindCont first second

/-- A course that asks nothing and ends well gives way to what follows. -/
theorem bind_of_ok {value : α} (silent : course conductor = .done (.ok value, next))
    (rest : α → Course β) : (course >>= rest) conductor = rest value next := by
  have opened : (course >>= rest) conductor =
      (course conductor >>= fun ended =>
        (ExceptT.bindCont rest ended.1 : StateT Conductor Script _) ended.2) := rfl
  rw [opened, silent]
  rfl

theorem leads_bind_of_ok {rest : α → Course β} {ending : β → Conductor → List Exchange → Prop}
    {value : α} (silent : course conductor = .done (.ok value, next))
    (second : (rest value).Leads next past ending abandoned) :
    (course >>= rest).Leads conductor past ending abandoned := by
  rw [Leads, bind_of_ok silent]
  exact second

/-- A loop keeps an invariant of the items that are done, in order, if each of its steps does. -/
theorem leads_forM {items : List α} {body : α → Course Unit}
    {holds : List α → Conductor → List Exchange → Prop}
    (step : ∀ done item rest, done ++ item :: rest = items → ∀ conductor past,
      holds done conductor past →
        (body item).Leads conductor past (fun _ => holds (done ++ [item])) abandoned)
    (begins : holds [] conductor past) :
    (items.forM body).Leads conductor past (fun _ => holds items) abandoned := by
  have goesOn : ∀ rest done conductor past, done ++ rest = items → holds done conductor past →
      (rest.forM body).Leads conductor past (fun _ => holds items) abandoned := by
    intro rest
    induction rest with
    | nil =>
        intro done conductor past whole now
        rw [List.append_nil] at whole
        exact leads_of_ok rfl (whole ▸ now)
    | cons item others inductionHypothesis =>
        intro done conductor past whole now
        refine leads_bind (step done item others whole conductor past now) ?_
        intro _ next later held
        exact inductionHypothesis (done ++ [item]) next later (by simpa using whole) held
  exact goesOn items [] conductor past (List.nil_append items) begins

/-- A loop keeps what each of its steps keeps. -/
theorem leads_forM_of_keeps {items : List α} {body : α → Course Unit}
    {holds : Conductor → List Exchange → Prop}
    (step : ∀ item conductor past, holds conductor past →
      (body item).Leads conductor past (fun _ => holds) abandoned)
    (begins : holds conductor past) :
    (items.forM body).Leads conductor past (fun _ => holds) abandoned :=
  @leads_forM α conductor past abandoned items body (fun _ => holds)
    (fun _ item _ _ => step item) begins

/-! ## Questions -/

theorem leads_request {request : Request} {after : request.Reply → Conductor → List Exchange → Prop}
    (served : ∀ reply, after reply conductor (past ++ [⟨.request request, .ok reply⟩]))
    (refused : ∀ error, abandoned conductor (past ++ [⟨.request request, .error error⟩])) :
    (Course.request request).Leads conductor past after abandoned := by
  intro reply
  cases reply with
  | ok value => exact served value
  | error error => exact refused error

theorem leads_pause {duration : Duration} {after : Unit → Conductor → List Exchange → Prop}
    (waited : after () conductor (past ++ [⟨.pause duration, ()⟩])) :
    (pause duration).Leads conductor past after abandoned :=
  fun _ => waited

theorem leads_confirm {prompt : Prompt} {after : Unit → Conductor → List Exchange → Prop}
    (confirmed : after () conductor (past ++ [⟨.confirm prompt, .ok ()⟩]))
    (refused : ∀ error, abandoned conductor (past ++ [⟨.confirm prompt, .error error⟩])) :
    (confirm prompt).Leads conductor past after abandoned := by
  intro reply
  cases reply with
  | ok _ => exact confirmed
  | error error => exact refused error

theorem leads_stopIfCancelled {step : UInt64} {after : Unit → Conductor → List Exchange → Prop}
    (goesOn : after () conductor (past ++ [⟨.isCancelled, false⟩]))
    (stopped : abandoned conductor (past ++ [⟨.isCancelled, true⟩])) :
    (stopIfCancelled step).Leads conductor past after abandoned := by
  intro reply
  cases reply with
  | true => exact stopped
  | false => exact goesOn

end Course

end ContactReplay
