import ContactReplay.Proofs.Replay.Sequencing

/-!
# Twin runs

Two runs are twins if they differ in nothing but the number of their session and the limit of steps
in their settings.  `Course.Concur` compares two courses from stands that a relation ties:
they come to the same outcome and to stands that are tied again.  `Course.Twinning` says that a
relation between stands is kept by every question to the surroundings, and `Twinning.steer` follows
it along all parts of a run between the request for a session and the end.
-/

namespace ContactReplay

/-- The conductor with another number of its session and another limit of steps. -/
def Conductor.recast (session : Option SessionId → Option SessionId)
    (limit : Option UInt64 → Option UInt64) (conductor : Conductor) : Conductor :=
  { conductor with
    session := session conductor.session
    settings := { conductor.settings with maxSteps := limit conductor.settings.maxSteps } }

/-! ## Courses that concur -/

namespace Course

variable {α β : Type} {before middle after : Stand → Stand → Prop}

/-- From stands that are tied before, two courses come to the same outcome and to stands that are
tied after. -/
def Concur (before after : Stand → Stand → Prop) (left right : Course α) : Prop :=
  ∀ first second, before first second →
    (left.perform first).1 = (right.perform second).1 ∧
      after (left.perform first).2 (right.perform second).2

theorem Concur.bind {left right : Course α} {restLeft restRight : α → Course β}
    (first : Concur before middle left right)
    (second : ∀ value, Concur middle after (restLeft value) (restRight value))
    (weaken : ∀ first second, middle first second → after first second) :
    Concur before after (left >>= restLeft) (right >>= restRight) := by
  intro one other tied
  have begun := first one other tied
  revert begun
  rw [perform_bind, perform_bind]
  rcases left.perform one with ⟨outcome, nextOne⟩
  rcases right.perform other with ⟨outcomeOther, nextOther⟩
  rintro ⟨sameOutcome, tiedMiddle⟩
  obtain rfl : outcome = outcomeOther := sameOutcome
  cases outcome with
  | ok value => exact second value nextOne nextOther tiedMiddle
  | error error => exact ⟨rfl, weaken nextOne nextOther tiedMiddle⟩

/-- What follows a look at the conductor may depend on it in the same way. -/
theorem concur_get {session : Option SessionId → Option SessionId}
    {limit : Option UInt64 → Option UInt64} {restLeft restRight : Conductor → Course α}
    (conductor : ∀ first second, before first second →
      first.conductor = second.conductor.recast session limit)
    (each : ∀ conductor : Conductor,
      Concur before after (restLeft (conductor.recast session limit)) (restRight conductor)) :
    Concur before after (get >>= restLeft) (get >>= restRight) := by
  intro first second tied
  rw [perform_bind_ok (perform_get first), perform_bind_ok (perform_get second),
    conductor first second tied]
  exact each second.conductor first second tied

/-- A relation between stands ties twin runs with the sessions `left` and `right`: the conductors
are the same but for what `recast` changes, and all questions but the last keep the relation. -/
structure Twinning (session : Option SessionId → Option SessionId)
    (limit : Option UInt64 → Option UInt64) (left right : SessionId)
    (tied : Stand → Stand → Prop) : Prop where
  renamed : session (some right) = some left
  conductor : ∀ first second, tied first second →
    first.conductor = second.conductor.recast session limit
  conducted : ∀ first second, tied first second → ∀ conductor : Conductor,
    tied { first with conductor := conductor.recast session limit } { second with conductor }
  order : ∀ order, order ≠ .teardown →
    Concur tied tied (Course.order left order) (Course.order right order)
  pause : ∀ duration, Concur tied tied (pause duration) (pause duration)
  confirm : ∀ prompt, Concur tied tied (confirm prompt) (confirm prompt)
  look : ∀ step, Concur tied tied (stopIfCancelled step) (stopIfCancelled step)

namespace Twinning

variable {session : Option SessionId → Option SessionId} {limit : Option UInt64 → Option UInt64}
  {left right : SessionId} {tied : Stand → Stand → Prop}
  (twins : Twinning session limit left right tied)
include twins

/-! ## Single courses and loops -/

omit twins in
theorem pure (value : α) : Concur tied tied (Pure.pure value) (Pure.pure value) :=
  fun _ _ tiedNow => ⟨rfl, tiedNow⟩

omit twins in
theorem throw (error : Error) :
    Concur tied tied (throw error : Course α) (throw error) :=
  fun _ _ tiedNow => ⟨rfl, tiedNow⟩

omit twins in
theorem attempt (outcome : Except Error α) :
    Concur tied tied (attempt outcome) (attempt outcome) :=
  fun _ _ tiedNow => ⟨rfl, tiedNow⟩

omit twins in
theorem bind {one other : Course α} {restOne restOther : α → Course β}
    (first : Concur tied tied one other)
    (second : ∀ value, Concur tied tied (restOne value) (restOther value)) :
    Concur tied tied (one >>= restOne) (other >>= restOther) :=
  first.bind second fun _ _ tiedNow => tiedNow

theorem get {restOne restOther : Conductor → Course α}
    (each : ∀ conductor : Conductor,
      Concur tied tied (restOne (conductor.recast session limit)) (restOther conductor)) :
    Concur tied tied (get >>= restOne) (get >>= restOther) :=
  concur_get twins.conductor each

/-- A change of the conductor that does not depend on its session or its limit. -/
theorem modify {changeOne changeOther : Conductor → Conductor}
    (same : ∀ conductor : Conductor,
      changeOne (conductor.recast session limit) = (changeOther conductor).recast session limit) :
    Concur tied tied (modify changeOne : Course Unit) (modify changeOther) := by
  intro one other tiedNow
  rw [perform_modify, perform_modify, twins.conductor one other tiedNow, same]
  exact ⟨rfl, twins.conducted one other tiedNow _⟩

theorem modifyGet {changeOne changeOther : Conductor → α × Conductor}
    (sameValue : ∀ conductor : Conductor,
      (changeOne (conductor.recast session limit)).1 = (changeOther conductor).1)
    (same : ∀ conductor : Conductor, (changeOne (conductor.recast session limit)).2 =
      (changeOther conductor).2.recast session limit) :
    Concur tied tied (modifyGet changeOne : Course α) (modifyGet changeOther) := by
  intro one other tiedNow
  rw [perform_modifyGet, perform_modifyGet, twins.conductor one other tiedNow, sameValue, same]
  exact ⟨rfl, twins.conducted one other tiedNow _⟩

omit twins in
theorem forM {items : List α} {bodyOne bodyOther : α → Course Unit}
    (each : ∀ item, Concur tied tied (bodyOne item) (bodyOther item)) :
    Concur tied tied (items.forM bodyOne) (items.forM bodyOther) := by
  induction items with
  | nil => exact Twinning.pure ()
  | cons item rest inductionHypothesis =>
      exact Twinning.bind (each item) fun _ => inductionHypothesis

/-! ## Courses without questions -/

theorem note (change : Report → Report) :
    Concur tied tied (note change) (note change) :=
  twins.modify fun _ => rfl

theorem reach (phase : Phase) : Concur tied tied (reach phase) (reach phase) :=
  twins.modify fun _ => rfl

theorem takeNodeId : Concur tied tied Conductor.takeNodeId Conductor.takeNodeId :=
  twins.modifyGet (fun _ => rfl) fun _ => rfl

theorem takePosition : Concur tied tied Conductor.takePosition Conductor.takePosition :=
  twins.modifyGet (fun _ => rfl) fun _ => rfl

theorem resolvePair (first second : String) (line : Nat) :
    Concur tied tied (Conductor.resolvePair first second line)
      (Conductor.resolvePair first second line) :=
  twins.get fun _ => Twinning.bind (Twinning.attempt _) fun _ =>
    Twinning.bind (Twinning.attempt _) fun _ => Twinning.pure _

theorem register (name : String) (id : NodeId) :
    Concur tied tied (Conductor.register name id) (Conductor.register name id) :=
  twins.get fun _ => Twinning.bind (Twinning.attempt _) fun _ => twins.modify fun _ => rfl

theorem allot (pair : Pair NodeId) :
    Concur tied tied (Conductor.allot pair) (Conductor.allot pair) :=
  twins.get fun _ => Twinning.bind (twins.modify fun _ => rfl) fun _ => Twinning.attempt _

theorem meetNeighbour (node : NodeId) (address : Ipv4Address) :
    Concur tied tied (Conductor.meetNeighbour node address)
      (Conductor.meetNeighbour node address) :=
  twins.get fun _ => Twinning.bind (twins.modify fun _ => rfl) fun _ => Twinning.attempt _

/-! ## Preparations -/

theorem equip : Concur tied tied (Conductor.equip left) (Conductor.equip right) := by
  have remembers : ∀ conductor : Conductor,
      { conductor.recast session limit with session := some left } =
        { conductor with session := some right }.recast session limit := by
    intro conductor
    simp only [Conductor.recast, twins.renamed]
  refine Twinning.bind (twins.modify remembers) fun _ => ?_
  refine Twinning.bind (twins.order (.setMode .configuration) nofun) fun _ => ?_
  refine twins.get fun conductor => ?_
  cases net : conductor.settings.controlNet with
  | none =>
      simp only [Conductor.recast, net]
      exact Twinning.pure _
  | some name =>
      simp only [Conductor.recast, net]
      exact twins.order (.setOptions _) nofun

theorem addControlNode :
    Concur tied tied (Conductor.addControlNode left) (Conductor.addControlNode right) := by
  refine twins.get fun conductor => ?_
  cases control : conductor.settings.controlNode with
  | none =>
      simp only [Conductor.recast, control]
      exact Twinning.pure _
  | some node =>
      simp only [Conductor.recast, control]
      exact Twinning.bind twins.takeNodeId fun _ => twins.order (.addNode _) nofun

theorem addNode (name : String) :
    Concur tied tied (Conductor.addNode left name) (Conductor.addNode right name) := by
  refine Twinning.bind twins.takeNodeId fun id => ?_
  refine Twinning.bind (twins.register name id) fun _ => ?_
  refine Twinning.bind twins.takePosition fun _ => ?_
  refine twins.get fun _ => ?_
  refine Twinning.bind (twins.order (.addNode _) nofun) fun _ => ?_
  refine Twinning.bind (twins.order (.getFile _ _) nofun) fun _ => ?_
  exact Twinning.bind (twins.modify fun _ => rfl) fun _ => twins.note _

theorem declareNode (steps : List DocumentStep) (name : String) :
    Concur tied tied (Conductor.declareNode left steps name)
      (Conductor.declareNode right steps name) := by
  rw [Conductor.declareNode, Conductor.declareNode]
  split
  · exact twins.addNode name
  · exact twins.note _

theorem addLink (pair : Pair NodeId) :
    Concur tied tied (Conductor.addLink left pair) (Conductor.addLink right pair) := by
  refine Twinning.bind (twins.allot pair) fun _ => ?_
  refine Twinning.bind (twins.order (.addLink _) nofun) fun _ => ?_
  refine Twinning.bind (twins.meetNeighbour _ _) fun _ => ?_
  exact Twinning.bind (twins.meetNeighbour _ _) fun _ => twins.note _

theorem linkEdge (line : EdgeLine) :
    Concur tied tied (Conductor.linkEdge left line) (Conductor.linkEdge right line) := by
  cases line with
  | delete edge number => exact Twinning.pure ()
  | add edge first second number =>
      refine Twinning.bind (twins.resolvePair first second number) fun pair => ?_
      refine twins.get fun conductor => ?_
      cases new : (conductor.addresses.get? pair).isNone with
      | true =>
          simp only [Conductor.recast, new, if_true]
          exact twins.addLink pair
      | false =>
          simp only [Conductor.recast, new, Bool.false_eq_true, if_false]
          exact Twinning.pure ()

theorem linkAll (steps : List DocumentStep) :
    Concur tied tied (Conductor.linkAll left steps) (Conductor.linkAll right steps) :=
  Twinning.forM fun _ => Twinning.forM twins.linkEdge

theorem configureNode (id : NodeId) (template : String) :
    Concur tied tied (Conductor.configureNode left id template)
      (Conductor.configureNode right id template) := by
  refine twins.get fun _ => ?_
  refine Twinning.bind (twins.modify fun _ => rfl) fun _ => ?_
  refine Twinning.bind (Twinning.attempt _) fun _ => ?_
  refine twins.get fun _ => ?_
  exact Twinning.bind (twins.order (.setFile _ _ _) nofun) fun _ => twins.modify fun _ => rfl

theorem configureAll :
    Concur tied tied (Conductor.configureAll left) (Conductor.configureAll right) :=
  twins.get fun _ => Twinning.forM fun entry => twins.configureNode entry.1 entry.2

theorem launch : Concur tied tied (Conductor.launch left) (Conductor.launch right) := by
  refine twins.get fun conductor => ?_
  cases interactive : conductor.settings.interactive with
  | true =>
      simp only [Conductor.recast, interactive, if_true]
      exact Twinning.bind (twins.confirm _) fun _ => twins.order (.setMode _) nofun
  | false =>
      simp only [Conductor.recast, interactive, Bool.false_eq_true, if_false]
      exact twins.order (.setMode _) nofun

/-! ## Steps -/

theorem setLoss (pair : Pair NodeId) (loss : Loss) :
    Concur tied tied (Conductor.setLoss left pair loss) (Conductor.setLoss right pair loss) := by
  refine twins.get fun conductor => ?_
  cases booked : conductor.addresses.get? pair with
  | none =>
      simp only [Conductor.recast, booked]
      exact Twinning.throw _
  | some allotment =>
      simp only [Conductor.recast, booked]
      exact twins.order (.adjustLink _) nofun

theorem carryOut (step : UInt64) (line : EdgeLine) :
    Concur tied tied (Conductor.carryOut left step line) (Conductor.carryOut right step line) := by
  cases line with
  | add edge first second number =>
      refine twins.get fun conductor => ?_
      cases up : conductor.openEdges.contains edge with
      | true =>
          simp only [Conductor.recast, up, if_true]
          exact Twinning.throw (.invariant (.edgeAlreadyUp edge number step))
      | false =>
          simp only [Conductor.recast, up, Bool.false_eq_true, if_false]
          refine Twinning.bind (twins.resolvePair first second number) fun pair => ?_
          refine Twinning.bind (twins.setLoss pair _) fun _ => ?_
          exact Twinning.bind (twins.modify fun _ => rfl) fun _ => twins.note _
  | delete edge number =>
      refine twins.get fun conductor => ?_
      cases opened : conductor.openEdges.get? edge with
      | none =>
          simp only [Conductor.recast, opened]
          exact Twinning.throw _
      | some pair =>
          simp only [Conductor.recast, opened]
          refine Twinning.bind (twins.modify fun _ => rfl) fun _ => ?_
          exact Twinning.bind (twins.setLoss pair _) fun _ => twins.note _

theorem course (act : Conductor.Act) : Concur tied tied (act.course left) (act.course right) := by
  cases act with
  | begin last moment =>
      refine Twinning.bind (twins.look _) fun _ => ?_
      refine twins.get fun conductor => ?_
      cases interactive : conductor.settings.interactive with
      | true =>
          simp only [Conductor.recast, interactive, if_true]
          exact Twinning.bind (twins.confirm _) fun _ => twins.pause _
      | false =>
          simp only [Conductor.recast, interactive, Bool.false_eq_true, if_false]
          exact twins.pause _
  | carryOut step line => exact Twinning.bind (twins.look _) fun _ => twins.carryOut step line
  | count =>
      rw [Conductor.Act.course, Conductor.Act.course]
      exact twins.note _

theorem steer (document : Document) (steps : List DocumentStep) :
    Concur tied tied (Conductor.steer document steps left)
      (Conductor.steer document steps right) := by
  refine Twinning.bind twins.equip fun _ => ?_
  refine Twinning.bind twins.addControlNode fun _ => ?_
  refine Twinning.bind (Twinning.forM (twins.declareNode steps)) fun _ => ?_
  refine Twinning.bind (twins.reach _) fun _ => ?_
  refine Twinning.bind (twins.linkAll steps) fun _ => ?_
  refine Twinning.bind (twins.reach _) fun _ => ?_
  refine Twinning.bind twins.configureAll fun _ => ?_
  refine Twinning.bind twins.launch fun _ => ?_
  exact Twinning.bind (twins.reach _) fun _ => Twinning.forM twins.course

end Twinning

end Course

end ContactReplay
