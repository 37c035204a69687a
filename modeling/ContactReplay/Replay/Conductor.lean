import ContactReplay.GraphStream.Document
import ContactReplay.Registry
import ContactReplay.Replay.Script
import ContactReplay.Settings.Basic

/-!
# Conductors

A conductor leads a graph stream through a session of a testbed, in five phases:

* setup: make a session and add the nodes that take part, which are the ends of the edges added in
  the steps to replay, and fetch the configuration of each;
* linking: give every pair of nodes that is ever connected addresses and a link that is down;
* configuring: write the configuration of each node with the addresses of its neighbours;
* running: step by step, wait and then set the links that the step adds or deletes up or down;
* terminal: tear the session down.

A conductor is used once.  The first error ends a run where it stands: nothing is undone, and the
conductor keeps what it knows by then.
-/

namespace ContactReplay

/-- How far a conductor has come. -/
inductive Phase where
  | setup
  | linking
  | configuring
  | running
  | terminal
  deriving DecidableEq, Repr

/-- What a conductor has done. -/
structure Report where
  nodesCreated : Nat := 0
  nodesSkipped : Nat := 0
  linksCreated : Nat := 0
  stepsRun : Nat := 0
  linksActivated : Nat := 0
  linksDeactivated : Nat := 0
  deriving DecidableEq, Repr, Inhabited

/-- What a conductor knows. -/
structure Conductor where
  settings : Settings
  addresses : AddressBook
  daemons : Configurator
  phase : Phase := .setup
  session : Option SessionId := none
  nodeIds : Counter := ⟨1⟩
  gridSlots : Counter := {}
  registry : Registry := {}
  configs : Table NodeId String := ∅
  openEdges : Table String (Pair NodeId) := ∅
  report : Report := {}
  deriving DecidableEq, Repr

/-- A part of a run: it asks questions, changes the conductor and may fail. -/
abbrev Course := ExceptT Error (StateT Conductor Script)

namespace Course

def request (request : Request) : Course request.Reply := fun conductor =>
  .ask (.request request) fun reply => .done (reply, conductor)

def order (session : SessionId) (order : Order) : Course order.Reply :=
  request (.order session order)

def pause (duration : Duration) : Course Unit := fun conductor =>
  .ask (.pause duration) fun _ => .done (.ok (), conductor)

def confirm (prompt : Prompt) : Course Unit := fun conductor =>
  .ask (.confirm prompt) fun reply => .done (reply, conductor)

/-- Fail before a step if the run has been cancelled. -/
def stopIfCancelled (step : UInt64) : Course Unit := fun conductor =>
  .ask .isCancelled fun cancelled =>
    .done (if cancelled then .error (.cancelled step) else .ok (), conductor)

/-- Go on with the value of an outcome, or fail with its error. -/
def attempt {α : Type} (outcome : Except Error α) : Course α := fun conductor =>
  .done (outcome, conductor)

def note (change : Report → Report) : Course Unit :=
  modify fun conductor => { conductor with report := change conductor.report }

def reach (phase : Phase) : Course Unit := modify fun conductor => { conductor with phase }

end Course

namespace Conductor

def start (settings : Settings) : Except Error Conductor := do
  settings.check.mapError .config
  let addresses ← AddressBook.start settings.addressing
  return { settings, addresses, daemons := { settings := settings.daemon } }

/-- The steps of a document that are to be replayed. -/
def chooseSteps (settings : Settings) (document : Document) : List DocumentStep :=
  match settings.maxSteps with
  | some count => document.steps.take count.toNat
  | none => document.steps

/-- Whether a node is an end of an edge that some step adds. -/
def takesPart (steps : List DocumentStep) (name : String) : Bool :=
  steps.any fun moment => moment.lines.any fun line =>
    match line.ends? with
    | some (first, second) => first = name || second = name
    | none => false

def configName (settings : Settings) : FileName := ⟨settings.service, settings.configFile⟩

/-! ## Setup -/

def takeNodeId : Course NodeId :=
  modifyGet fun conductor =>
    (conductor.nodeIds.next, { conductor with nodeIds := conductor.nodeIds.advance })

def takePosition : Course Position :=
  modifyGet fun conductor =>
    (conductor.settings.grid.position conductor.gridSlots.next,
      { conductor with gridSlots := conductor.gridSlots.advance })

def register (name : String) (id : NodeId) : Course Unit := do
  let registry ← Course.attempt ((← get).registry.insert name id)
  modify fun conductor => { conductor with registry }

def openSession : Course SessionId := do
  let session ← Course.request .createSession
  modify fun conductor => { conductor with session := some session }
  Course.order session (.setMode .configuration)
  if let some net := (← get).settings.controlNet then
    Course.order session (.setOptions (.ofList [("controlnet", net)]))
  return session

def addControlNode (session : SessionId) : Course Unit := do
  if let some node := (← get).settings.controlNode then
    let id ← takeNodeId
    Course.order session (.addNode ⟨id, node.name, node.model, node.position⟩)

/-- Add a node that takes part and fetch its configuration. -/
def addNode (session : SessionId) (name : String) : Course Unit := do
  let id ← takeNodeId
  register name id
  let position ← takePosition
  let settings := (← get).settings
  Course.order session (.addNode ⟨id, name, settings.nodeModel, position⟩)
  let text ← Course.order session (.getFile id (configName settings))
  modify fun conductor => { conductor with configs := conductor.configs.insert id text }
  Course.note fun report => { report with nodesCreated := report.nodesCreated + 1 }

/-- Add a declared node if it takes part, and count it if it does not. -/
def declareNode (session : SessionId) (steps : List DocumentStep) (name : String) : Course Unit :=
  if takesPart steps name then addNode session name
  else Course.note fun report => { report with nodesSkipped := report.nodesSkipped + 1 }

def populate (nodes : List String) (steps : List DocumentStep) : Course SessionId := do
  let session ← openSession
  addControlNode session
  nodes.forM (declareNode session steps)
  return session

/-! ## Linking -/

def resolvePair (first second : String) (line : Nat) : Course (Pair NodeId) := do
  let registry := (← get).registry
  let firstId ← Course.attempt (registry.resolve first line)
  let secondId ← Course.attempt (registry.resolve second line)
  return .of firstId secondId

def allot (pair : Pair NodeId) : Course Allotment := do
  let (outcome, addresses) := (← get).addresses.allot pair
  modify fun conductor => { conductor with addresses }
  Course.attempt outcome

/-- Collect the address of a neighbour for the configuration of a node. -/
def meetNeighbour (node : NodeId) (address : Ipv4Address) : Course Unit := do
  let (outcome, daemons) := (← get).daemons.collect node (toString address)
  modify fun conductor => { conductor with daemons }
  Course.attempt outcome

def addLink (session : SessionId) (pair : Pair NodeId) : Course Unit := do
  let allotment ← allot pair
  Course.order session (.addLink
    ⟨pair.low, pair.high, allotment.low, allotment.high, Loss.down⟩)
  meetNeighbour pair.low allotment.high.ip4
  meetNeighbour pair.high allotment.low.ip4
  Course.note fun report => { report with linksCreated := report.linksCreated + 1 }

/-- Make the link of an edge that is added, unless its nodes have one. -/
def linkEdge (session : SessionId) : EdgeLine → Course Unit
  | .add _ first second number => do
      let pair ← resolvePair first second number
      if ((← get).addresses.get? pair).isNone then
        addLink session pair
  | .delete .. => return

def linkAll (session : SessionId) (steps : List DocumentStep) : Course Unit :=
  steps.forM fun moment => moment.lines.forM (linkEdge session)

/-! ## Configuring -/

def configureNode (session : SessionId) (id : NodeId) (template : String) : Course Unit := do
  let (outcome, daemons) := (← get).daemons.configure id template
  modify fun conductor => { conductor with daemons }
  let text ← Course.attempt outcome
  Course.order session (.setFile id (configName (← get).settings) text)
  modify fun conductor => { conductor with configs := conductor.configs.insert id text }

/-- Make and write the configurations of all nodes, in the order of their identifiers. -/
def configureAll (session : SessionId) : Course Unit := do
  (← get).configs.entries.forM fun (id, template) => configureNode session id template

/-! ## Running -/

def setLoss (session : SessionId) (pair : Pair NodeId) (loss : Loss) : Course Unit := do
  match (← get).addresses.get? pair with
  | none => throw (.invariant (.noAllotment pair))
  | some allotment =>
      Course.order session (.adjustLink
        ⟨pair.low, pair.high, allotment.low.id, allotment.high.id, loss⟩)

def carryOut (session : SessionId) (step : UInt64) : EdgeLine → Course Unit
  | .add edge first second number => do
      if (← get).openEdges.contains edge then
        throw (.invariant (.edgeAlreadyUp edge number step))
      let pair ← resolvePair first second number
      setLoss session pair Loss.up
      modify fun conductor =>
        { conductor with openEdges := conductor.openEdges.insert edge pair }
      Course.note fun report => { report with linksActivated := report.linksActivated + 1 }
  | .delete edge number => do
      match (← get).openEdges.get? edge with
      | none => throw (.invariant (.deleteWithoutAdd edge number step))
      | some pair =>
          modify fun conductor => { conductor with openEdges := conductor.openEdges.erase edge }
          setLoss session pair Loss.down
          Course.note fun report => { report with linksDeactivated := report.linksDeactivated + 1 }

/-- Carry a line of a step out unless the run has been cancelled. -/
def carryOutUnlessCancelled (session : SessionId) (step : UInt64) (line : EdgeLine) :
    Course Unit := do
  Course.stopIfCancelled step
  carryOut session step line

/-- Replay a step that follows a step `last`. -/
def playStep (session : SessionId) (last : UInt64) (moment : DocumentStep) : Course Unit := do
  Course.stopIfCancelled moment.step
  let settings := (← get).settings
  if settings.interactive then
    Course.confirm (.step moment.step)
  Course.pause (settings.delay (moment.step - last))
  moment.lines.forM (carryOutUnlessCancelled session moment.step)
  Course.note fun report => { report with stepsRun := report.stepsRun + 1 }

/-- Replay steps that follow a step `last`. -/
def playSteps (session : SessionId) (last : UInt64) : List DocumentStep → Course Unit
  | [] => return
  | moment :: rest => do
      playStep session last moment
      playSteps session moment.step rest

/-- Start the simulation, once an operator has confirmed if one is asked. -/
def launch (session : SessionId) : Course Unit := do
  if (← get).settings.interactive then
    Course.confirm .start
  Course.order session (.setMode .instantiation)

/-! ## The whole run -/

def isSpent (conductor : Conductor) : Bool :=
  conductor.phase ≠ .setup || conductor.session.isSome

def run (document : Document) : Course Report := do
  if (← get).isSpent then
    throw (.invariant .conductorSpent)
  let steps := chooseSteps (← get).settings document
  let session ← populate document.nodes steps
  Course.reach .linking
  linkAll session steps
  Course.reach .configuring
  configureAll session
  launch session
  Course.reach .running
  playSteps session 0 steps
  Course.reach .terminal
  Course.order session .teardown
  return (← get).report

def script (conductor : Conductor) (document : Document) :
    Script (Except Error Report × Conductor) :=
  run document conductor

end Conductor

end ContactReplay
