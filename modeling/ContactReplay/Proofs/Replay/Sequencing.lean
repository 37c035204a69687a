import ContactReplay.Proofs.Replay.Acts

/-!
# Properties that sequencing keeps

A property of courses is `Sequential` if courses without questions have it, sequences keep it, and a
course of a single question has it whenever the question is allowed.  It is `Faithful` if it need
not hold of courses that give the conductor another session or other settings.  Such properties
follow along the parts of a run, so one walk over the parts serves all of them:

* `Faithful.steer` goes from the session of a run to its last step, with orders to this session;
* `Faithful.prepare` asks that the requests of preparations are allowed, and the prompt at their
  end;
* `Faithful.course` does so for pauses, prompts and changes of links in an act of a step, and
  `Sequential.run` for all questions of a run.

Requests that make or change a link have to be allowed only for links that carry everything or
nothing (`Order.Switches`).
-/

namespace ContactReplay

/-! ## Kinds of questions -/

/-- An order that changes the loss of a link. -/
def Order.adjusts : Order → Bool
  | .adjustLink _ => true
  | _ => false

/-- An order that belongs to the preparations of a run. -/
def Order.prepares : Order → Bool
  | .adjustLink _ | .teardown => false
  | _ => true

/-- An order that makes a link makes it carry nothing, and one that changes a link makes it carry
everything or nothing. -/
def Order.Switches : Order → Prop
  | .addLink link => link.loss = Loss.down
  | .adjustLink adjustment => adjustment.loss = Loss.up ∨ adjustment.loss = Loss.down
  | _ => True

namespace Ask

/-- A request to change the loss of a link. -/
def adjusts : Ask → Bool
  | .request (.order _ order) => order.adjusts
  | _ => false

/-- A request that belongs to the preparations of a run. -/
def prepares : Ask → Bool
  | .request .createSession => true
  | .request (.order _ order) => order.prepares
  | _ => false

/-- No link is asked for that carries only a part of what it is sent. -/
def Switches : Ask → Prop
  | .request (.order _ order) => order.Switches
  | _ => True

/-- A pause or a prompt. -/
def waits : Ask → Bool
  | .pause _ | .confirm _ => true
  | _ => false

end Ask

namespace Conductor.Act

/-- The step whose cancellation an act looks for. -/
def step? : Act → Option UInt64
  | .begin _ moment => some moment.step
  | .carryOut step _ => some step
  | .count => none

/-- What an act does besides looking for a cancellation. -/
def work (session : SessionId) : Act → Course Unit
  | .begin last moment => do
      let settings := (← get).settings
      if settings.interactive then
        Course.confirm (.step moment.step)
      Course.pause (settings.delay (moment.step - last))
  | .carryOut step line => Conductor.carryOut session step line
  | .count => Course.note fun report => { report with stepsRun := report.stepsRun + 1 }

theorem course_eq (session : SessionId) (act : Act) :
    act.course session =
      match act.step? with
      | some step => Course.stopIfCancelled step >>= fun _ => act.work session
      | none => act.work session := by
  cases act <;> rfl

end Conductor.Act

namespace Conductor

/-- The end of a run, after its steps. -/
def conclude (session : SessionId) : Course Report := do
  Course.reach .terminal
  Course.order session .teardown
  return (← get).report

theorem finish_eq_bind (session : SessionId) (last : UInt64) (steps : List DocumentStep) :
    finish session last steps =
      (acts last steps).forM (Act.course session) >>= fun _ => conclude session := by
  rw [← playSteps_eq_forM]
  rfl

def remember (session : SessionId) : Course Unit :=
  modify fun conductor => { conductor with session := some session }

/-- The end of opening a session, once it has a number. -/
def equip (session : SessionId) : Course Unit := do
  modify fun conductor => { conductor with session := some session }
  Course.order session (.setMode .configuration)
  if let some net := (← get).settings.controlNet then
    Course.order session (.setOptions (.ofList [("controlnet", net)]))

/-- A conductor has the session and the settings of another one. -/
structure Akin (conductor next : Conductor) : Prop where
  session : next.session = conductor.session
  settings : next.settings = conductor.settings

/-- A run between the request for its session and its end. -/
def steer (document : Document) (steps : List DocumentStep) (session : SessionId) :
    Course Unit := do
  equip session
  addControlNode session
  document.nodes.forM (declareNode session steps)
  Course.reach .linking
  linkAll session steps
  Course.reach .configuring
  configureAll session
  launch session
  Course.reach .running
  (acts 0 steps).forM (Act.course session)

theorem openSession_eq_bind :
    openSession = Course.request .createSession >>= fun session =>
      equip session >>= fun _ => pure session := by
  rw [openSession]
  refine bind_congr fun session => ?_
  rw [equip, bind_assoc]
  refine bind_congr fun _ => ?_
  rw [bind_assoc]
  refine bind_congr fun _ => ?_
  rw [bind_assoc]
  refine bind_congr fun conductor => ?_
  cases conductor.settings.controlNet with
  | none => rfl
  | some net => rfl

/-- A run asks for a session, is steered and comes to its end. -/
theorem prepare_bind_finish (document : Document) (steps : List DocumentStep) :
    (prepare document steps >>= fun session => finish session 0 steps) =
      Course.request .createSession >>= fun session =>
        steer document steps session >>= fun _ => conclude session := by
  simp only [prepare, populate, openSession_eq_bind, finish_eq_bind, steer, bind_assoc, pure_bind]

end Conductor

namespace Course

variable {α β : Type} {allowed : Ask → Prop} {property : ∀ α : Type, Course α → Prop}

/-- A property that sequencing keeps, with the questions that a course may ask.  A course without
questions need not have it if it gives the conductor another session or other settings. -/
structure Faithful (allowed : Ask → Prop) (property : ∀ α : Type, Course α → Prop) : Prop where
  silent : ∀ {α : Type} (result : Conductor → Except Error α × Conductor),
    (∀ conductor, Conductor.Akin conductor (result conductor).2) →
      property α fun conductor => .done (result conductor)
  bind : ∀ {α β : Type} {first : Course α} {rest : α → Course β}, property α first →
    (∀ value, property β (rest value)) → property β (first >>= rest)
  request : ∀ request, allowed (.request request) → property _ (Course.request request)
  pause : ∀ duration, allowed (.pause duration) → property Unit (pause duration)
  confirm : ∀ prompt, allowed (.confirm prompt) → property Unit (confirm prompt)
  look : ∀ step, allowed .isCancelled → property Unit (stopIfCancelled step)

/-- A property that sequencing keeps, with the questions that a course may ask. -/
structure Sequential (allowed : Ask → Prop) (property : ∀ α : Type, Course α → Prop) : Prop where
  silent : ∀ {α : Type} (result : Conductor → Except Error α × Conductor),
    property α fun conductor => .done (result conductor)
  bind : ∀ {α β : Type} {first : Course α} {rest : α → Course β}, property α first →
    (∀ value, property β (rest value)) → property β (first >>= rest)
  request : ∀ request, allowed (.request request) → property _ (Course.request request)
  pause : ∀ duration, allowed (.pause duration) → property Unit (pause duration)
  confirm : ∀ prompt, allowed (.confirm prompt) → property Unit (confirm prompt)
  look : ∀ step, allowed .isCancelled → property Unit (stopIfCancelled step)

/-- A run is prepared and finished, unless its conductor is spent. -/
theorem run_eq_bind (document : Document) :
    Conductor.run document = get >>= fun conductor =>
      if conductor.isSpent then throw (.invariant .conductorSpent)
      else get >>= fun conductor =>
        Conductor.prepare document (Conductor.chooseSteps conductor.settings document) >>=
          fun session => Conductor.finish session 0
            (Conductor.chooseSteps conductor.settings document) := by
  rw [Conductor.run]
  refine bind_congr fun conductor => ?_
  split
  · rfl
  · simp only [Conductor.prepare, Conductor.finish, bind_assoc, pure_bind]

namespace Faithful

variable (faithful : Faithful allowed property)
include faithful

/-! ## Single courses and loops -/

theorem pure (value : α) : property α (Pure.pure value) :=
  faithful.silent (fun conductor => (.ok value, conductor)) fun _ => ⟨rfl, rfl⟩

theorem throw (error : Error) : property α (throw error) :=
  faithful.silent (fun conductor => (.error error, conductor)) fun _ => ⟨rfl, rfl⟩

theorem get : property Conductor get :=
  faithful.silent (fun conductor => (.ok conductor, conductor)) fun _ => ⟨rfl, rfl⟩

theorem modify (change : Conductor → Conductor)
    (keeps : ∀ conductor, Conductor.Akin conductor (change conductor)) :
    property Unit (modify change) :=
  faithful.silent (fun conductor => (.ok (), change conductor)) keeps

theorem modifyGet (change : Conductor → α × Conductor)
    (keeps : ∀ conductor, Conductor.Akin conductor (change conductor).2) :
    property α (modifyGet change) :=
  faithful.silent (fun conductor => (.ok (change conductor).1, (change conductor).2)) keeps

theorem attempt (outcome : Except Error α) : property α (attempt outcome) :=
  faithful.silent (fun conductor => (outcome, conductor)) fun _ => ⟨rfl, rfl⟩

theorem forM {items : List α} {body : α → Course Unit}
    (each : ∀ item ∈ items, property Unit (body item)) : property Unit (items.forM body) := by
  induction items with
  | nil => exact faithful.pure ()
  | cons item rest inductionHypothesis =>
      obtain ⟨first, others⟩ := List.forall_mem_cons.mp each
      exact faithful.bind first fun _ => inductionHypothesis others

/-! ## Courses without questions -/

theorem resolvePair (first second : String) (line : Nat) :
    property _ (Conductor.resolvePair first second line) := by
  refine faithful.bind faithful.get fun _ => ?_
  refine faithful.bind (faithful.attempt _) fun _ => ?_
  exact faithful.bind (faithful.attempt _) fun _ => faithful.pure _

theorem register (name : String) (id : NodeId) :
    property _ (Conductor.register name id) := by
  refine faithful.bind faithful.get fun _ => ?_
  exact faithful.bind (faithful.attempt _) fun _ => faithful.modify _ fun _ => ⟨rfl, rfl⟩

theorem allot (pair : Pair NodeId) : property _ (Conductor.allot pair) := by
  refine faithful.bind faithful.get fun _ => ?_
  exact faithful.bind (faithful.modify _ fun _ => ⟨rfl, rfl⟩) fun _ => faithful.attempt _

theorem meetNeighbour (node : NodeId) (address : Ipv4Address) :
    property _ (Conductor.meetNeighbour node address) := by
  refine faithful.bind faithful.get fun _ => ?_
  exact faithful.bind (faithful.modify _ fun _ => ⟨rfl, rfl⟩) fun _ => faithful.attempt _

/-! ## Preparations -/

section Prepare

variable {session : SessionId}
  (prepares : ∀ order : Order, order.prepares = true → order.Switches →
    allowed (.request (.order session order)))
include prepares

theorem order (order : Order) (preparing : order.prepares = true) (switches : order.Switches) :
    property _ (Course.order session order) :=
  faithful.request _ (prepares order preparing switches)

theorem equip (remembers : property Unit (Conductor.remember session)) :
    property _ (Conductor.equip session) := by
  refine faithful.bind remembers fun _ => ?_
  refine faithful.bind (faithful.order prepares (.setMode _) rfl trivial) fun _ => ?_
  refine faithful.bind faithful.get fun conductor => ?_
  cases conductor.settings.controlNet with
  | none => exact faithful.pure ()
  | some net => exact faithful.order prepares (.setOptions _) rfl trivial

theorem addControlNode : property _ (Conductor.addControlNode session) := by
  refine faithful.bind faithful.get fun conductor => ?_
  cases conductor.settings.controlNode with
  | none => exact faithful.pure ()
  | some node =>
      exact faithful.bind (faithful.modifyGet _ fun _ => ⟨rfl, rfl⟩) fun _ =>
        faithful.order prepares (.addNode _) rfl trivial

theorem addNode (name : String) : property _ (Conductor.addNode session name) := by
  refine faithful.bind (faithful.modifyGet _ fun _ => ⟨rfl, rfl⟩) fun id => ?_
  refine faithful.bind (faithful.register name id) fun _ => ?_
  refine faithful.bind (faithful.modifyGet _ fun _ => ⟨rfl, rfl⟩) fun _ => ?_
  refine faithful.bind faithful.get fun _ => ?_
  refine faithful.bind (faithful.order prepares (.addNode _) rfl trivial) fun _ => ?_
  refine faithful.bind (faithful.order prepares (.getFile _ _) rfl trivial) fun _ => ?_
  exact faithful.bind (faithful.modify _ fun _ => ⟨rfl, rfl⟩) fun _ =>
    faithful.modify _ fun _ => ⟨rfl, rfl⟩

theorem declareNode (steps : List DocumentStep) (name : String) :
    property _ (Conductor.declareNode session steps name) := by
  rw [Conductor.declareNode]
  split
  · exact faithful.addNode prepares name
  · exact faithful.modify _ fun _ => ⟨rfl, rfl⟩

theorem addLink (pair : Pair NodeId) : property _ (Conductor.addLink session pair) := by
  refine faithful.bind (faithful.allot pair) fun _ => ?_
  refine faithful.bind (faithful.order prepares (.addLink _) rfl rfl) fun _ => ?_
  refine faithful.bind (faithful.meetNeighbour _ _) fun _ => ?_
  exact faithful.bind (faithful.meetNeighbour _ _) fun _ => faithful.modify _ fun _ => ⟨rfl, rfl⟩

theorem linkEdge (line : EdgeLine) : property _ (Conductor.linkEdge session line) := by
  cases line with
  | add edge first second number =>
      refine faithful.bind (faithful.resolvePair first second number) fun pair => ?_
      refine faithful.bind faithful.get fun conductor => ?_
      cases (conductor.addresses.get? pair).isNone with
      | true => exact faithful.addLink prepares pair
      | false => exact faithful.pure ()
  | delete edge number => exact faithful.pure ()

theorem linkAll (steps : List DocumentStep) : property _ (Conductor.linkAll session steps) :=
  faithful.forM fun _ _ => faithful.forM fun line _ => faithful.linkEdge prepares line

theorem configureNode (id : NodeId) (template : String) :
    property _ (Conductor.configureNode session id template) := by
  refine faithful.bind faithful.get fun _ => ?_
  refine faithful.bind (faithful.modify _ fun _ => ⟨rfl, rfl⟩) fun _ => ?_
  refine faithful.bind (faithful.attempt _) fun _ => ?_
  refine faithful.bind faithful.get fun _ => ?_
  exact faithful.bind (faithful.order prepares (.setFile _ _ _) rfl trivial) fun _ =>
    faithful.modify _ fun _ => ⟨rfl, rfl⟩

theorem configureAll : property _ (Conductor.configureAll session) :=
  faithful.bind faithful.get fun _ => faithful.forM fun entry _ =>
    faithful.configureNode prepares entry.1 entry.2

theorem launch (starts : allowed (.confirm .start)) : property _ (Conductor.launch session) := by
  refine faithful.bind faithful.get fun conductor => ?_
  cases conductor.settings.interactive with
  | true =>
      exact faithful.bind (faithful.confirm _ starts) fun _ =>
        faithful.order prepares (.setMode _) rfl trivial
  | false => exact faithful.order prepares (.setMode _) rfl trivial

end Prepare

/-! ## All preparations -/

section Session

variable
  (prepares : ∀ question : Ask, question.prepares = true → question.Switches → allowed question)
  (remembers : ∀ session, property Unit (Conductor.remember session))
include prepares remembers

theorem openSession : property _ Conductor.openSession := by
  rw [Conductor.openSession_eq_bind]
  refine faithful.bind (faithful.request _ (prepares _ rfl trivial)) fun session => ?_
  refine faithful.bind ?_ fun _ => faithful.pure session
  exact faithful.equip (fun order => prepares (.request (.order session order)))
    (remembers session)

theorem populate (nodes : List String) (steps : List DocumentStep) :
    property _ (Conductor.populate nodes steps) := by
  refine faithful.bind (faithful.openSession prepares remembers) fun session => ?_
  have orders := fun order => prepares (.request (.order session order))
  refine faithful.bind (faithful.addControlNode orders) fun _ => ?_
  refine faithful.bind (faithful.forM fun name _ => ?_) fun _ => faithful.pure session
  exact faithful.declareNode orders steps name

/-- All parts before the first step have a property that is faithful and holds of remembering the
session. -/
theorem prepare (document : Document) (steps : List DocumentStep)
    (starts : allowed (.confirm .start)) : property _ (Conductor.prepare document steps) := by
  refine faithful.bind (faithful.populate prepares remembers document.nodes steps) fun session => ?_
  have orders := fun order => prepares (.request (.order session order))
  refine faithful.bind (faithful.modify _ fun _ => ⟨rfl, rfl⟩) fun _ => ?_
  refine faithful.bind (faithful.linkAll orders steps) fun _ => ?_
  refine faithful.bind (faithful.modify _ fun _ => ⟨rfl, rfl⟩) fun _ => ?_
  refine faithful.bind (faithful.configureAll orders) fun _ => ?_
  refine faithful.bind (faithful.launch orders starts) fun _ => ?_
  exact faithful.bind (faithful.modify _ fun _ => ⟨rfl, rfl⟩) fun _ => faithful.pure session

end Session

/-! ## Steps and the end -/

variable {session : SessionId}

theorem setLoss
    (adjusts : ∀ order : Order, order.adjusts = true → order.Switches →
      allowed (.request (.order session order)))
    (pair : Pair NodeId) {loss : Loss} (switches : loss = Loss.up ∨ loss = Loss.down) :
    property _ (Conductor.setLoss session pair loss) := by
  refine faithful.bind faithful.get fun conductor => ?_
  cases conductor.addresses.get? pair with
  | none => exact faithful.throw _
  | some allotment =>
      exact faithful.request (.order session (.adjustLink _)) (adjusts (.adjustLink _) rfl switches)

theorem carryOut
    (adjusts : ∀ order : Order, order.adjusts = true → order.Switches →
      allowed (.request (.order session order)))
    (step : UInt64) (line : EdgeLine) :
    property _ (Conductor.carryOut session step line) := by
  cases line with
  | add edge first second number =>
      refine faithful.bind faithful.get fun conductor => ?_
      split
      · exact faithful.throw (.invariant (.edgeAlreadyUp edge number step))
      · refine faithful.bind (faithful.resolvePair first second number) fun pair => ?_
        refine faithful.bind (faithful.setLoss adjusts pair (Or.inl rfl)) fun _ => ?_
        exact faithful.bind (faithful.modify _ fun _ => ⟨rfl, rfl⟩) fun _ =>
          faithful.modify _ fun _ => ⟨rfl, rfl⟩
  | delete edge number =>
      refine faithful.bind faithful.get fun conductor => ?_
      cases conductor.openEdges.get? edge with
      | none => exact faithful.throw _
      | some pair =>
          refine faithful.bind (faithful.modify _ fun _ => ⟨rfl, rfl⟩) fun _ => ?_
          exact faithful.bind (faithful.setLoss adjusts pair (Or.inr rfl)) fun _ =>
            faithful.modify _ fun _ => ⟨rfl, rfl⟩

theorem conclude (ends : allowed (.request (.order session .teardown))) :
    property _ (Conductor.conclude session) := by
  refine faithful.bind (faithful.modify _ fun _ => ⟨rfl, rfl⟩) fun _ => ?_
  refine faithful.bind (faithful.request (.order session .teardown) ends) fun _ => ?_
  exact faithful.bind faithful.get fun _ => faithful.pure _

section Play

variable (waits : ∀ question : Ask, question.waits = true → allowed question)
include waits

theorem await (last : UInt64) (moment : DocumentStep) :
    property _ ((Conductor.Act.begin last moment).work session) := by
  refine faithful.bind faithful.get fun conductor => ?_
  dsimp only
  split
  · exact faithful.bind (faithful.confirm _ (waits _ rfl)) fun _ =>
      faithful.pause _ (waits _ rfl)
  · exact faithful.pause _ (waits _ rfl)

variable
  (adjusts : ∀ order : Order, order.adjusts = true → order.Switches →
    allowed (.request (.order session order)))
include adjusts

theorem work (act : Conductor.Act) : property _ (act.work session) := by
  cases act with
  | begin last moment => exact faithful.await waits last moment
  | carryOut step line => exact faithful.carryOut adjusts step line
  | count => exact faithful.modify _ fun _ => ⟨rfl, rfl⟩

variable (looks : allowed .isCancelled)
include looks

theorem course (act : Conductor.Act) : property _ (act.course session) := by
  rw [Conductor.Act.course_eq]
  cases act.step? with
  | none => exact faithful.work waits adjusts act
  | some step =>
      exact faithful.bind (faithful.look step looks) fun _ =>
        faithful.work waits adjusts act

theorem finish (last : UInt64) (steps : List DocumentStep)
    (ends : allowed (.request (.order session .teardown))) :
    property _ (Conductor.finish session last steps) := by
  rw [Conductor.finish_eq_bind]
  refine faithful.bind (faithful.forM fun act _ => ?_) fun _ => ?_
  · exact faithful.course waits adjusts looks act
  · exact faithful.conclude ends

/-- All parts between the request for a session and the end have a property that is faithful and
holds of remembering the session. -/
theorem steer (document : Document) (steps : List DocumentStep)
    (prepares : ∀ order : Order, order.prepares = true → order.Switches →
      allowed (.request (.order session order)))
    (remembers : property Unit (Conductor.remember session)) :
    property _ (Conductor.steer document steps session) := by
  refine faithful.bind (faithful.equip prepares remembers) fun _ => ?_
  refine faithful.bind (faithful.addControlNode prepares) fun _ => ?_
  refine faithful.bind (faithful.forM fun name _ => faithful.declareNode prepares steps name)
    fun _ => ?_
  refine faithful.bind (faithful.modify _ fun _ => ⟨rfl, rfl⟩) fun _ => ?_
  refine faithful.bind (faithful.linkAll prepares steps) fun _ => ?_
  refine faithful.bind (faithful.modify _ fun _ => ⟨rfl, rfl⟩) fun _ => ?_
  refine faithful.bind (faithful.configureAll prepares) fun _ => ?_
  refine faithful.bind (faithful.launch prepares (waits _ rfl)) fun _ => ?_
  refine faithful.bind (faithful.modify _ fun _ => ⟨rfl, rfl⟩) fun _ => ?_
  exact faithful.forM fun act _ => faithful.course waits adjusts looks act

end Play

end Faithful

namespace Sequential

variable (sequential : Sequential allowed property)
include sequential

theorem faithful : Faithful allowed property where
  silent result _ := sequential.silent result
  bind := sequential.bind
  request := sequential.request
  pause := sequential.pause
  confirm := sequential.confirm
  look := sequential.look

theorem throw (error : Error) : property α (throw error) := sequential.faithful.throw error

theorem get : property Conductor get := sequential.faithful.get

theorem modify (change : Conductor → Conductor) : property Unit (modify change) :=
  sequential.silent fun conductor => (.ok (), change conductor)

theorem resolvePair (first second : String) (line : Nat) :
    property _ (Conductor.resolvePair first second line) :=
  sequential.faithful.resolvePair first second line

/-! ## Parts of a run -/

theorem prepare
    (prepares : ∀ question : Ask, question.prepares = true → question.Switches → allowed question)
    (document : Document) (steps : List DocumentStep) (starts : allowed (.confirm .start)) :
    property _ (Conductor.prepare document steps) :=
  sequential.faithful.prepare prepares (fun _ => sequential.modify _) document steps starts

theorem conclude (session : SessionId) (ends : allowed (.request (.order session .teardown))) :
    property _ (Conductor.conclude session) :=
  sequential.faithful.conclude ends

section Play

variable (waits : ∀ question : Ask, question.waits = true → allowed question)
  (adjusts : ∀ question : Ask, question.adjusts = true → question.Switches → allowed question)
include waits adjusts

theorem work (session : SessionId) (act : Conductor.Act) : property _ (act.work session) :=
  sequential.faithful.work waits (fun order => adjusts (.request (.order session order))) act

theorem finish (looks : allowed .isCancelled) (session : SessionId) (last : UInt64)
    (steps : List DocumentStep) (ends : allowed (.request (.order session .teardown))) :
    property _ (Conductor.finish session last steps) :=
  sequential.faithful.finish waits (fun order => adjusts (.request (.order session order))) looks
    last steps ends

end Play

theorem run
    (prepares : ∀ question : Ask, question.prepares = true → question.Switches → allowed question)
    (waits : ∀ question : Ask, question.waits = true → allowed question)
    (adjusts : ∀ question : Ask, question.adjusts = true → question.Switches → allowed question)
    (looks : allowed .isCancelled)
    (ends : ∀ session, allowed (.request (.order session .teardown))) (document : Document) :
    property _ (Conductor.run document) := by
  rw [run_eq_bind]
  refine sequential.bind sequential.get fun conductor => ?_
  split
  · exact sequential.throw _
  · refine sequential.bind sequential.get fun current => ?_
    refine sequential.bind (sequential.prepare prepares document _ (waits _ rfl)) fun session => ?_
    exact sequential.finish waits adjusts looks session 0 _ (ends session)

end Sequential

end Course

end ContactReplay
