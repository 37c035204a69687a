import ContactReplay.Proofs.Replay.Twinning

/-!
# Sharing a testbed

Replays on one testbed do not disturb each other.  A testbed may have served anything before
(`Testbed.Reached`); as long as the numbers of sessions have not begun again, a replay takes place
there exactly as it would on a fresh testbed, but for the number of its session.

`Rehearsal.Mirrors` relates the two surroundings.  Questions keep it (`Mirrors.order` and so on), so
the two replays are twins.
-/

namespace ContactReplay

/-! ## Testbeds that have been in use -/

namespace Testbed

/-- A testbed that has come about from a fresh one by requests and by changes of the files that new
nodes get; so many of the requests were for a session. -/
inductive Reached : Testbed → Nat → Prop
  | fresh (files : Table FileName String) : Reached (Testbed.fresh files) 0
  | serve {testbed : Testbed} {count : Nat} (reached : Reached testbed count) (request : Request) :
      Reached (testbed.serve request).2 (count + [request].count .createSession)
  | stock {testbed : Testbed} {count : Nat} (reached : Reached testbed count)
      (files : Table FileName String) : Reached { testbed with serviceFiles := files } count

theorem Reached.hasOpened {testbed : Testbed} {count : Nat} (reached : testbed.Reached count)
    (few : count < UInt32.size - 1) : testbed.HasOpened count := by
  induction reached with
  | fresh files => exact hasOpened_fresh files
  | serve reached request inductionHypothesis =>
      exact (inductionHypothesis (by omega)).serve request few
  | stock reached files inductionHypothesis =>
      exact ⟨(inductionHypothesis few).next, (inductionHypothesis few).numbered⟩

end Testbed

/-! ## Another session -/

/-- The same request to another session. -/
def Request.inSession (id : SessionId) : Request → Request
  | .createSession => .createSession
  | .order _ asked => .order id asked

/-- The same question about another session. -/
def Ask.inSession (id : SessionId) : Ask → Ask
  | .request asked => .request (asked.inSession id)
  | question => question

/-- The same line of a log for another session. -/
def Call.inSession (id : SessionId) : Call → Call
  | .createSession _ => .createSession id
  | .setMode _ mode => .setMode id mode
  | .setOptions _ options => .setOptions id options
  | .addNode _ node => .addNode id node
  | .addLink _ link => .addLink id link
  | .adjustLink _ adjustment => .adjustLink id adjustment
  | .getFile _ node name => .getFile id node name
  | .setFile _ node name bytes => .setFile id node name bytes
  | .teardown _ => .teardown id

theorem Order.inSession_call (order : Order) (id other : SessionId) :
    (order.call other).inSession id = order.call id := by
  cases order <;> rfl

namespace Rehearsal

/-- Faults that are due at the same places, counted from now on. -/
def fromNow (rehearsal : Rehearsal) (faults : Faults) : Faults where
  failingRequest := faults.failingRequest.map (rehearsal.requests.length + ·)
  cancellingRequest := faults.cancellingRequest.map (rehearsal.requests.length + ·)
  cancellingPause := faults.cancellingPause.map (rehearsal.pauses.length + ·)
  failingPrompt := faults.failingPrompt.map (rehearsal.prompts.length + ·)

/-- Shared surroundings, as they were before and as they are now, mirror surroundings of their own
for a single replay, whose session has the number 1 there and the number `id` here. -/
structure Mirrors (before : Rehearsal) (id : SessionId) (shared own : Rehearsal) : Prop where
  asked : shared.asked = before.asked ++ own.asked.map (Ask.inSession id)
  calls : shared.testbed.calls = before.testbed.calls ++ own.testbed.calls.map (Call.inSession id)
  files : shared.testbed.serviceFiles = own.testbed.serviceFiles
  session : shared.testbed.session? id = own.testbed.session? 1
  others : ∀ other, other ≠ id → shared.testbed.session? other = before.testbed.session? other
  faults : shared.faults = before.fromNow own.faults
  cancelled : shared.cancelled = own.cancelled

section Mirrors

variable {before shared own : Rehearsal} {id : SessionId}

theorem Mirrors.requests (mirrors : Mirrors before id shared own) :
    shared.requests = before.requests ++ own.requests.map (Request.inSession id) := by
  rw [Rehearsal.requests, mirrors.asked, List.filterMap_append, List.filterMap_map,
    Rehearsal.requests, Rehearsal.requests, List.map_filterMap]
  congr 2
  funext question
  cases question <;> rfl

theorem Mirrors.pauses (mirrors : Mirrors before id shared own) :
    shared.pauses = before.pauses ++ own.pauses := by
  rw [Rehearsal.pauses, mirrors.asked, List.filterMap_append, List.filterMap_map,
    Rehearsal.pauses, Rehearsal.pauses]
  congr 2
  funext question
  cases question <;> rfl

theorem Mirrors.prompts (mirrors : Mirrors before id shared own) :
    shared.prompts = before.prompts ++ own.prompts := by
  rw [Rehearsal.prompts, mirrors.asked, List.filterMap_append, List.filterMap_map,
    Rehearsal.prompts, Rehearsal.prompts]
  congr 2
  funext question
  cases question <;> rfl

theorem map_add_eq_some_iff {place : Option Nat} {past now : Nat} :
    place.map (past + ·) = some (past + now) ↔ place = some now := by
  cases place <;> simp

/-- A fault is due among the requests here exactly if it is due there. -/
theorem Mirrors.request_due (mirrors : Mirrors before id shared own) (place : Option Nat) :
    place.map (before.requests.length + ·) = some shared.requests.length ↔
      place = some own.requests.length := by
  rw [mirrors.requests, List.length_append, List.length_map, map_add_eq_some_iff]

theorem Mirrors.hear (mirrors : Mirrors before id shared own) (question : Ask) :
    Mirrors before id (shared.hear (question.inSession id)) (own.hear question) where
  asked := by
    simp only [Rehearsal.hear, mirrors.asked, List.map_append, List.append_assoc]
    rfl
  calls := mirrors.calls
  files := mirrors.files
  session := mirrors.session
  others := mirrors.others
  faults := mirrors.faults
  cancelled := mirrors.cancelled

theorem Mirrors.cancelIf (mirrors : Mirrors before id shared own) {due dueOwn : Bool}
    (same : due = dueOwn) : Mirrors before id (shared.cancelIf due) (own.cancelIf dueOwn) where
  asked := mirrors.asked
  calls := mirrors.calls
  files := mirrors.files
  session := mirrors.session
  others := mirrors.others
  faults := mirrors.faults
  cancelled := by
    rw [Rehearsal.cancelIf, Rehearsal.cancelIf, mirrors.cancelled, same]

/-! ## Questions -/

/-- The single replay has a session that can be used. -/
def Alive (own : Rehearsal) : Prop :=
  ∃ session, own.testbed.session? 1 = some session ∧ session.tornDown = false

/-- An order is served here as it is there. -/
theorem Mirrors.serve_order_testbed (mirrors : Mirrors before id shared own) (alive : own.Alive)
    (order : Order) :
    (shared.testbed.serve (.order id order)).1 = (own.testbed.serve (.order 1 order)).1 ∧
      Mirrors before id { shared with testbed := (shared.testbed.serve (.order id order)).2 }
        { own with testbed := (own.testbed.serve (.order 1 order)).2 } := by
  obtain ⟨session, held, up⟩ := alive
  have usableOwn : own.testbed.usable 1 = .ok session := Testbed.usable_eq_ok_iff.mpr ⟨held, up⟩
  have usable : shared.testbed.usable id = .ok session :=
    Testbed.usable_eq_ok_iff.mpr ⟨mirrors.session.trans held, up⟩
  have carriedHere : session.carryOut shared.testbed.serviceFiles order =
      session.carryOut own.testbed.serviceFiles order := by
    rw [mirrors.files]
  cases carried : session.carryOut own.testbed.serviceFiles order with
  | error cause =>
      rw [Testbed.serve_of_refused usableOwn carried,
        Testbed.serve_of_refused usable (carriedHere.trans carried)]
      exact ⟨rfl, mirrors⟩
  | ok result =>
      rw [Testbed.serve_of_carried usableOwn carried,
        Testbed.serve_of_carried usable (carriedHere.trans carried)]
      refine ⟨rfl, mirrors.asked, ?_, mirrors.files, ?_, ?_, mirrors.faults, mirrors.cancelled⟩
      · simp only [mirrors.calls, List.map_append, List.append_assoc, List.map_cons, List.map_nil,
          Order.inSession_call]
      · exact (Table.get?_insert_self _ _ _).trans (Table.get?_insert_self _ _ _).symm
      · intro other different
        exact (Table.get?_insert_of_ne _ _ different).trans (mirrors.others other different)

theorem Mirrors.failing_iff (mirrors : Mirrors before id shared own) :
    shared.faults.failingRequest = some shared.requests.length ↔
      own.faults.failingRequest = some own.requests.length := by
  rw [mirrors.faults]
  exact mirrors.request_due own.faults.failingRequest

theorem Mirrors.cancel_serving (mirrors : Mirrors before id shared own) :
    Mirrors before id
      (shared.cancelIf (shared.faults.cancellingRequest = some shared.requests.length))
      (own.cancelIf (own.faults.cancellingRequest = some own.requests.length)) := by
  apply mirrors.cancelIf
  rw [mirrors.faults]
  exact decide_eq_decide.mpr (mirrors.request_due own.faults.cancellingRequest)

theorem Mirrors.serve_order (mirrors : Mirrors before id shared own) (alive : own.Alive)
    (order : Order) :
    (shared.serve (.order id order)).1 = (own.serve (.order 1 order)).1 ∧
      Mirrors before id (shared.serve (.order id order)).2 (own.serve (.order 1 order)).2 := by
  rw [Rehearsal.serve, Rehearsal.serve]
  by_cases failing : own.faults.failingRequest = some own.requests.length
  · rw [if_pos failing, if_pos (mirrors.failing_iff.mpr failing)]
    exact ⟨rfl, mirrors.cancel_serving⟩
  · rw [if_neg failing, if_neg (mt mirrors.failing_iff.mp failing)]
    exact mirrors.cancel_serving.serve_order_testbed alive order

theorem Alive.serve_order (alive : own.Alive) {order : Order} (goesOn : order ≠ .teardown) :
    (own.serve (.order 1 order)).2.Alive := by
  obtain ⟨session, held, up⟩ := alive
  rw [Rehearsal.serve]
  dsimp only
  split
  · exact ⟨session, held, up⟩
  · rcases Testbed.serve_order_cases own.testbed 1 order with
      ⟨before, reply, later, heldBefore, upBefore, carried, served⟩ | ⟨cause, refused⟩
    · refine ⟨later, ?_, ?_⟩
      · rw [Rehearsal.cancelIf, served]
        exact Table.get?_insert_self _ _ _
      · exact ((Session.carries_of_carryOut carried).tornDown_of_ne_teardown goesOn).trans upBefore
    · refine ⟨session, ?_, up⟩
      rw [Rehearsal.cancelIf, refused]
      exact held

/-- The session is opened here as it is there, or it is opened in neither place. -/
theorem Mirrors.serve_createSession (mirrors : Mirrors before id shared own)
    (next : shared.testbed.nextSession.next = id) (nextOwn : own.testbed.nextSession.next = 1) :
    (∃ error, (shared.serve .createSession).1 = .error error ∧
        (own.serve .createSession).1 = .error error ∧
        Mirrors before id (shared.serve .createSession).2 (own.serve .createSession).2) ∨
      (shared.serve .createSession).1 = .ok id ∧ (own.serve .createSession).1 = .ok 1 ∧
        Mirrors before id (shared.serve .createSession).2 (own.serve .createSession).2 ∧
        (own.serve .createSession).2.Alive := by
  rw [Rehearsal.serve, Rehearsal.serve]
  by_cases failing : own.faults.failingRequest = some own.requests.length
  · rw [if_pos failing, if_pos (mirrors.failing_iff.mpr failing)]
    exact Or.inl ⟨_, rfl, rfl, mirrors.cancel_serving⟩
  · rw [if_neg failing, if_neg (mt mirrors.failing_iff.mp failing)]
    subst next
    have now := mirrors.cancel_serving
    have heldOwn : own.testbed.createSession.2.session? 1 = some {} := by
      rw [← nextOwn]
      exact Table.get?_insert_self _ _ _
    refine Or.inr ⟨rfl, congrArg Except.ok nextOwn,
      ⟨now.asked, ?_, now.files, ?_, ?_, now.faults, now.cancelled⟩, {}, heldOwn, rfl⟩
    · change shared.testbed.calls ++ [Call.createSession shared.testbed.nextSession.next] =
        before.testbed.calls ++ (own.testbed.calls ++
          [Call.createSession own.testbed.nextSession.next]).map
            (Call.inSession shared.testbed.nextSession.next)
      rw [mirrors.calls, List.map_append, List.append_assoc]
      rfl
    · exact (Table.get?_insert_self _ _ _).trans heldOwn.symm
    · intro other different
      exact (Table.get?_insert_of_ne _ _ different).trans (mirrors.others other different)

theorem Mirrors.confirm (mirrors : Mirrors before id shared own) :
    shared.confirm.1 = own.confirm.1 ∧ Mirrors before id shared.confirm.2 own.confirm.2 := by
  have failing : shared.faults.failingPrompt = some shared.prompts.length ↔
      own.faults.failingPrompt = some own.prompts.length := by
    rw [mirrors.faults, mirrors.prompts, List.length_append]
    exact map_add_eq_some_iff
  rw [Rehearsal.confirm, Rehearsal.confirm]
  by_cases due : own.faults.failingPrompt = some own.prompts.length
  · rw [if_pos due, if_pos (failing.mpr due)]
    exact ⟨rfl, mirrors⟩
  · rw [if_neg due, if_neg (mt failing.mp due)]
    exact ⟨rfl, mirrors⟩

theorem Mirrors.endPause (mirrors : Mirrors before id shared own) :
    Mirrors before id shared.endPause own.endPause := by
  apply mirrors.cancelIf
  rw [mirrors.faults, mirrors.pauses, List.length_append]
  exact decide_eq_decide.mpr map_add_eq_some_iff

theorem Alive.confirm (alive : own.Alive) : own.confirm.2.Alive := by
  rw [Rehearsal.confirm]
  split <;> exact alive

end Mirrors

end Rehearsal

/-! ## Twins -/

namespace Conductor

open Course

variable {before : Rehearsal} {id : SessionId}

/-- A stand on a shared testbed and a stand on a testbed of its own mirror each other. -/
def Reflects (before : Rehearsal) (id : SessionId) (shared own : Stand) : Prop :=
  Rehearsal.Mirrors before id shared.rehearsal own.rehearsal ∧
    shared.conductor = own.conductor.recast (Option.map fun _ => id) fun limit => limit

/-- They do so while there is a session that can be used. -/
def ReflectsAlive (before : Rehearsal) (id : SessionId) (shared own : Stand) : Prop :=
  Reflects before id shared own ∧ own.rehearsal.Alive

theorem concur_order (order : Order) :
    Concur (ReflectsAlive before id) (Reflects before id) (Course.order id order)
      (Course.order 1 order) := by
  rintro shared own ⟨⟨mirrors, conducted⟩, alive⟩
  have heard := mirrors.hear (.request (.order 1 order))
  obtain ⟨sameOutcome, mirrorsNext⟩ := heard.serve_order alive order
  exact ⟨sameOutcome, mirrorsNext, conducted⟩

theorem twinning_reflectsAlive (before : Rehearsal) (id : SessionId) :
    Twinning (Option.map fun _ => id) (fun limit => limit) id 1 (ReflectsAlive before id) where
  renamed := rfl
  conductor _ _ reflects := reflects.1.2
  conducted _ _ reflects _ := ⟨⟨reflects.1.1, rfl⟩, reflects.2⟩
  order order goesOn shared own reflects := by
    obtain ⟨sameOutcome, reflectsNext⟩ := concur_order order shared own reflects
    have alive : (own.rehearsal.hear (.request (.order 1 order))).Alive := reflects.2
    exact ⟨sameOutcome, reflectsNext, alive.serve_order goesOn⟩
  pause duration shared own reflects :=
    ⟨rfl, ⟨(reflects.1.1.hear (.pause duration)).endPause, reflects.1.2⟩, reflects.2⟩
  confirm prompt shared own reflects := by
    obtain ⟨sameOutcome, mirrorsNext⟩ := (reflects.1.1.hear (.confirm prompt)).confirm
    have alive : (own.rehearsal.hear (.confirm prompt)).Alive := reflects.2
    exact ⟨sameOutcome, ⟨mirrorsNext, reflects.1.2⟩, alive.confirm⟩
  look step shared own reflects := by
    have heard := reflects.1.1.hear .isCancelled
    refine ⟨?_, ⟨heard, reflects.1.2⟩, reflects.2⟩
    exact congrArg (fun cancelled : Bool =>
      if cancelled then Except.error (Error.cancelled step) else .ok ()) heard.cancelled

theorem concur_conclude :
    Concur (ReflectsAlive before id) (Reflects before id) (conclude id) (conclude 1) := by
  have reports : Concur (Reflects before id) (Reflects before id)
      (get >>= fun conductor : Conductor => pure conductor.report)
      (get >>= fun conductor : Conductor => pure conductor.report) :=
    concur_get (fun _ _ reflects => reflects.2) fun _ _ _ reflects => ⟨rfl, reflects⟩
  refine Concur.bind ((twinning_reflectsAlive before id).reach .terminal) (fun _ => ?_)
    fun _ _ reflects => reflects.1
  exact Concur.bind (concur_order .teardown) (fun _ => reports) fun _ _ reflects => reflects

/-- Runs that mirror each other concur once their sessions are opened. -/
theorem concur_steer_conclude (document : Document) (steps : List DocumentStep) :
    Concur (ReflectsAlive before id) (Reflects before id)
      (steer document steps id >>= fun _ => conclude id)
      (steer document steps 1 >>= fun _ => conclude 1) :=
  Concur.bind ((twinning_reflectsAlive before id).steer document steps) (fun _ => concur_conclude)
    fun _ _ reflects => reflects.1

/-- Runs that begin in surroundings that mirror each other concur. -/
theorem concur_run {chosen : Settings} {shared own : Rehearsal} (document : Document)
    (mirrors : Rehearsal.Mirrors before id shared own)
    (next : shared.testbed.nextSession.next = id) (nextOwn : own.testbed.nextSession.next = 1) :
    ((run document).perform ⟨fresh chosen, shared⟩).1 =
        ((run document).perform ⟨fresh chosen, own⟩).1 ∧
      Reflects before id ((run document).perform ⟨fresh chosen, shared⟩).2
        ((run document).perform ⟨fresh chosen, own⟩).2 := by
  have opened : ∀ surroundings : Rehearsal,
      (Course.request .createSession).perform ⟨fresh chosen, surroundings⟩ =
        (((surroundings.hear (.request .createSession)).serve .createSession).1, ⟨fresh chosen,
          ((surroundings.hear (.request .createSession)).serve .createSession).2⟩) := fun _ => rfl
  have begun : ∀ surroundings : Rehearsal, (run document).perform ⟨fresh chosen, surroundings⟩ =
      (Course.request .createSession >>= fun session =>
        steer document (chooseSteps chosen document) session >>= fun _ =>
          conclude session).perform ⟨fresh chosen, surroundings⟩ := by
    intro surroundings
    rw [← prepare_bind_finish]
    exact perform_run rfl document
  rw [begun, begun]
  have heard := mirrors.hear (.request .createSession)
  rcases heard.serve_createSession next nextOwn with
    ⟨error, failed, failedOwn, mirrorsNext⟩ | ⟨made, madeOwn, mirrorsNext, alive⟩
  · rw [perform_bind_error ((opened shared).trans (Prod.ext failed rfl)),
      perform_bind_error ((opened own).trans (Prod.ext failedOwn rfl))]
    exact ⟨rfl, mirrorsNext, rfl⟩
  · rw [perform_bind_ok ((opened shared).trans (Prod.ext made rfl)),
      perform_bind_ok ((opened own).trans (Prod.ext madeOwn rfl))]
    exact concur_steer_conclude document _ _ _ ⟨⟨mirrorsNext, rfl⟩, alive⟩

end Conductor

namespace Rehearsal

/-- A replay on a testbed that has served anything before, without its numbers of sessions having
begun again, has the outcome, the conductor, the pauses and the prompts that it has on a fresh
testbed with the same service files, if the same things go wrong, counted from its start.  It logs
the same calls for the session with the next number, which is free, and no session from before is
changed. -/
theorem replay_shared {settings : Settings} {conductor : Conductor}
    (accepted : Conductor.start settings = .ok conductor) {shared : Rehearsal} {count : Nat}
    (reached : shared.testbed.Reached count) (few : count < UInt32.size - 1) {faults : Faults}
    (faulty : shared.faults = shared.fromNow faults) (document : Document) :
    let own : Rehearsal :=
      { testbed := .fresh shared.testbed.serviceFiles, faults, cancelled := shared.cancelled }
    let (outcome, used, after) := shared.replay conductor document
    let (ownOutcome, ownUsed, ownAfter) := own.replay conductor document
    shared.testbed.session? shared.testbed.nextSession.next = none ∧
      outcome = ownOutcome ∧
      used = { ownUsed with
        session := ownUsed.session.map fun _ => shared.testbed.nextSession.next } ∧
      after.pauses = shared.pauses ++ ownAfter.pauses ∧
      after.prompts = shared.prompts ++ ownAfter.prompts ∧
      after.testbed.calls = shared.testbed.calls ++
        ownAfter.testbed.calls.map (Call.inSession shared.testbed.nextSession.next) ∧
      ∀ id session, shared.testbed.session? id = some session →
        after.testbed.session? id = some session := by
  intro own
  obtain ⟨rfl, -⟩ := Conductor.eq_fresh_of_start accepted
  have unused := (reached.hasOpened few).fresh
  have mirrors : Mirrors shared shared.testbed.nextSession.next shared own :=
    ⟨(List.append_nil _).symm, (List.append_nil _).symm, rfl, unused, fun _ _ => rfl, faulty, rfl⟩
  obtain ⟨sameOutcome, mirrorsAfter, sameConductor⟩ :=
    @Conductor.concur_run _ _ settings shared own document mirrors rfl rfl
  refine ⟨unused, sameOutcome, sameConductor, mirrorsAfter.pauses, mirrorsAfter.prompts,
    mirrorsAfter.calls, fun id session held => ?_⟩
  have different : id ≠ shared.testbed.nextSession.next := by
    rintro rfl
    rw [unused] at held
    cases held
  exact (mirrorsAfter.others id different).trans held

/-- Surroundings like the stocked ones, but somebody has opened a session there. -/
def inUse : Rehearsal where
  testbed := (stocked.testbed.serve .createSession).2
  asked := [.request .createSession]

/-- The second request of a replay is made to fail, which is the third one of all. -/
theorem replay_shared_inUse :
    let shared : Rehearsal := { inUse with faults := { failingRequest := some 3 } }
    let own : Rehearsal := { stocked with faults := { failingRequest := some 2 } }
    let document := singleStep [.add "e0" "a" "b" 9]
    (shared.replay (.fresh {}) document).1 = (own.replay (.fresh {}) document).1 ∧
      (shared.replay (.fresh {}) document).1 = .error (.refused .setMode .injected) ∧
      (shared.replay (.fresh {}) document).2.2.testbed.session? 1 = some {} := by
  intro shared own document
  have reached : shared.testbed.Reached 1 := .serve (.fresh _) .createSession
  have answered := @replay_shared {} (.fresh {}) rfl shared 1 reached (by decide)
    { failingRequest := some 2 } rfl document
  exact ⟨answered.2.1, by decide +kernel, answered.2.2.2.2.2.2 1 {} rfl⟩

end Rehearsal

end ContactReplay
