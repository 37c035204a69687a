import ContactReplay.Proofs.Replay.Lockstep

/-!
# Labels and directions

A replay takes the edges of a graph stream without direction, and their names are mere labels.  A
document is `Redrawn` when its edges get other names, by a renaming that does not make two of them
the same, and when the ends of some added edges are exchanged.

* Conductors are `Relabelled` if they differ in the names of their open edges only.
* Preparations do not look at open edges at all, so they are `Blind` to labels.
* Each line of a step keeps conductors relabelled, and so do whole runs
  (`Conductor.inStep_script`).
-/

namespace ContactReplay

/-! ## Documents -/

/-- The same line with another name of its edge; the ends of an added edge may be exchanged. -/
inductive EdgeLine.Redrawn (rename : String → String) : EdgeLine → EdgeLine → Prop
  | add (edge first second : String) (number : Nat) :
      Redrawn rename (.add edge first second number) (.add (rename edge) first second number)
  | addExchanged (edge first second : String) (number : Nat) :
      Redrawn rename (.add edge first second number) (.add (rename edge) second first number)
  | delete (edge : String) (number : Nat) :
      Redrawn rename (.delete edge number) (.delete (rename edge) number)

/-- The same step with its lines redrawn. -/
structure DocumentStep.Redrawn (rename : String → String) (moment changed : DocumentStep) :
    Prop where
  step : changed.step = moment.step
  number : changed.number = moment.number
  lines : List.Forall₂ (EdgeLine.Redrawn rename) moment.lines changed.lines

namespace Document

/-- The same document with its lines redrawn. -/
structure Redrawn (rename : String → String) (document changed : Document) : Prop where
  header : changed.header = document.header
  nodes : changed.nodes = document.nodes
  steps : List.Forall₂ (DocumentStep.Redrawn rename) document.steps changed.steps

/-- The names of the edges that are added or deleted. -/
def labels (document : Document) : List String := document.lines.map EdgeLine.edge

end Document

namespace Conductor

variable {rename : String → String} {labels : List String}

/-- Whether a node is an end of an added edge does not depend on the direction. -/
theorem any_ends_redrawn (name : String) {lines changed : List EdgeLine}
    (redrawn : List.Forall₂ (EdgeLine.Redrawn rename) lines changed) :
    takesPart [⟨0, 0, changed⟩] name = takesPart [⟨0, 0, lines⟩] name := by
  simp only [takesPart, List.any_cons, List.any_nil, Bool.or_false]
  induction redrawn with
  | nil => rfl
  | cons line _ inductionHypothesis =>
      rw [List.any_cons, List.any_cons, inductionHypothesis]
      cases line with
      | add edge first second number => rfl
      | addExchanged edge first second number =>
          simp only [EdgeLine.ends?, Bool.or_comm (decide (second = name))]
      | delete edge number => rfl

theorem takesPart_cons (moment : DocumentStep) (rest : List DocumentStep) (name : String) :
    takesPart (moment :: rest) name =
      (takesPart [⟨0, 0, moment.lines⟩] name || takesPart rest name) := by
  simp only [takesPart, List.any_cons, List.any_nil, Bool.or_false]

theorem takesPart_redrawn {steps changed : List DocumentStep}
    (redrawn : List.Forall₂ (DocumentStep.Redrawn rename) steps changed) :
    takesPart changed = takesPart steps := by
  funext name
  induction redrawn with
  | nil => rfl
  | @cons moment other rest others same _ inductionHypothesis =>
      rw [takesPart_cons other others, takesPart_cons moment rest, any_ends_redrawn name same.lines,
        inductionHypothesis]

theorem chooseSteps_redrawn (settings : Settings) {document changed : Document}
    (redrawn : document.Redrawn rename changed) :
    List.Forall₂ (DocumentStep.Redrawn rename) (chooseSteps settings document)
      (chooseSteps settings changed) := by
  rw [chooseSteps, chooseSteps]
  cases settings.maxSteps with
  | none => exact redrawn.steps
  | some count => exact List.forall₂_take count.toNat redrawn.steps

theorem edge_mem_labels {settings : Settings} {document : Document} {moment : DocumentStep}
    (chosen : moment ∈ chooseSteps settings document) {line : EdgeLine}
    (member : line ∈ moment.lines) : line.edge ∈ document.labels := by
  have held : moment ∈ document.steps := by
    rw [chooseSteps] at chosen
    cases limit : settings.maxSteps with
    | none => rwa [limit] at chosen
    | some count =>
        rw [limit] at chosen
        exact List.mem_of_mem_take chosen
  exact List.mem_map_of_mem (List.mem_flatMap_of_mem held member)

/-! ## Conductors and courses -/

/-- The open edges of one conductor have other names in the other one, and all else is the same. -/
structure Relabelled (rename : String → String) (labels : List String) (one other : Conductor) :
    Prop where
  alike : other = { one with openEdges := other.openEdges }
  opened : ∀ edge ∈ labels, other.openEdges.get? (rename edge) = one.openEdges.get? edge

namespace Relabelled

variable {one other : Conductor} {edge : String} (now : Relabelled rename labels one other)
include now

theorem contains (known : edge ∈ labels) :
    other.openEdges.contains (rename edge) = one.openEdges.contains edge :=
  congrArg Option.isSome (now.opened edge known)

variable (injective : Set.InjOn rename {edge | edge ∈ labels}) (known : edge ∈ labels)
include injective known

theorem insert (pair : Pair NodeId) :
    Relabelled rename labels { one with openEdges := one.openEdges.insert edge pair }
      { other with openEdges := other.openEdges.insert (rename edge) pair } where
  alike := by
    conv => lhs; rw [now.alike]
  opened asked member := by
    by_cases same : asked = edge
    · rw [same, Table.get?_insert_self, Table.get?_insert_self]
    · have different : rename asked ≠ rename edge := fun equal => same (injective member known equal)
      rw [Table.get?_insert_of_ne _ _ same, Table.get?_insert_of_ne _ _ different]
      exact now.opened asked member

theorem erase :
    Relabelled rename labels { one with openEdges := one.openEdges.erase edge }
      { other with openEdges := other.openEdges.erase (rename edge) } where
  alike := by
    conv => lhs; rw [now.alike]
  opened asked member := by
    by_cases same : asked = edge
    · rw [same, Table.get?_erase_self, Table.get?_erase_self]
    · have different : rename asked ≠ rename edge := fun equal => same (injective member known equal)
      rw [Table.get?_erase_of_ne _ same, Table.get?_erase_of_ne _ different]
      exact now.opened asked member

end Relabelled

end Conductor

namespace Course

open Conductor

variable {α : Type} {rename : String → String} {labels : List String}

/-- A course does not see the names of open edges. -/
abbrev Blind (rename : String → String) (labels : List String) (course : Course α) : Prop :=
  InStep (Relabelled rename labels) course course

/-- What follows a look at the conductor may be in step wherever the open edges differ. -/
theorem inStep_get {restLeft restRight : Conductor → Course α}
    (each : ∀ conductor openEdges, InStep (Relabelled rename labels) (restLeft conductor)
      (restRight { conductor with openEdges })) :
    InStep (Relabelled rename labels) (get >>= restLeft) (get >>= restRight) :=
  InStep.get fun one other now => now.alike ▸ each one other.openEdges

theorem blind_modify {change : Conductor → Conductor}
    (keeps : ∀ conductor, (change conductor).openEdges = conductor.openEdges)
    (blind : ∀ conductor openEdges, change { conductor with openEdges } =
      { change conductor with openEdges }) : Blind rename labels (modify change) := by
  refine InStep.modify fun one other now => ?_
  have changed := blind one other.openEdges
  rw [← now.alike] at changed
  refine ⟨?_, fun edge member => ?_⟩
  · rw [changed]
  · rw [keeps one, changed]
    exact now.opened edge member

theorem blind_note (change : Report → Report) : Blind rename labels (note change) :=
  blind_modify (fun _ => rfl) fun _ _ => rfl

theorem blind_reach (phase : Phase) : Blind rename labels (reach phase) :=
  blind_modify (fun _ => rfl) fun _ _ => rfl

theorem blind_takeNodeId : Blind rename labels takeNodeId := by
  refine InStep.modifyGet (fun one other now => ?_) fun one other now => ⟨?_, now.opened⟩
  · rw [now.alike]
  · rw [now.alike]

theorem blind_takePosition : Blind rename labels takePosition := by
  refine InStep.modifyGet (fun one other now => ?_) fun one other now => ⟨?_, now.opened⟩
  · rw [now.alike]
  · rw [now.alike]

theorem blind_register (name : String) (id : NodeId) :
    Blind rename labels (register name id) :=
  inStep_get fun _ _ => InStep.bind (InStep.attempt rfl) fun _ =>
    blind_modify (fun _ => rfl) fun _ _ => rfl

theorem blind_allot (pair : Pair NodeId) : Blind rename labels (allot pair) :=
  inStep_get fun _ _ => InStep.bind (blind_modify (fun _ => rfl) fun _ _ => rfl) fun _ =>
    InStep.attempt rfl

theorem blind_meetNeighbour (node : NodeId) (address : Ipv4Address) :
    Blind rename labels (meetNeighbour node address) :=
  inStep_get fun _ _ => InStep.bind (blind_modify (fun _ => rfl) fun _ _ => rfl) fun _ =>
    InStep.attempt rfl

/-! ## Preparations -/

theorem blind_equip (session : SessionId) : Blind rename labels (equip session) := by
  refine InStep.bind (blind_modify (fun _ => rfl) fun _ _ => rfl) fun _ => ?_
  refine InStep.bind (InStep.order session (.setMode .configuration)) fun _ => ?_
  refine inStep_get fun conductor _ => ?_
  cases conductor.settings.controlNet with
  | none => exact InStep.pure ()
  | some net => exact InStep.order session (.setOptions _)

theorem blind_addControlNode (session : SessionId) :
    Blind rename labels (addControlNode session) := by
  refine inStep_get fun conductor _ => ?_
  cases conductor.settings.controlNode with
  | none => exact InStep.pure ()
  | some node =>
      exact InStep.bind blind_takeNodeId fun _ => InStep.order session (.addNode _)

theorem blind_addNode (session : SessionId) (name : String) :
    Blind rename labels (addNode session name) := by
  refine InStep.bind blind_takeNodeId fun id => ?_
  refine InStep.bind (blind_register name id) fun _ => ?_
  refine InStep.bind blind_takePosition fun _ => ?_
  refine inStep_get fun _ _ => ?_
  refine InStep.bind (InStep.order session (.addNode _)) fun _ => ?_
  refine InStep.bind (InStep.order session (.getFile _ _)) fun _ => ?_
  exact InStep.bind (blind_modify (fun _ => rfl) fun _ _ => rfl) fun _ => blind_note _

theorem blind_declareNode (session : SessionId) (steps : List DocumentStep) (name : String) :
    Blind rename labels (declareNode session steps name) := by
  rw [declareNode]
  split
  · exact blind_addNode session name
  · exact blind_note _

theorem blind_addLink (session : SessionId) (pair : Pair NodeId) :
    Blind rename labels (addLink session pair) := by
  refine InStep.bind (blind_allot pair) fun _ => ?_
  refine InStep.bind (InStep.order session (.addLink _)) fun _ => ?_
  refine InStep.bind (blind_meetNeighbour _ _) fun _ => ?_
  exact InStep.bind (blind_meetNeighbour _ _) fun _ => blind_note _

theorem blind_configureNode (session : SessionId) (id : NodeId) (template : String) :
    Blind rename labels (configureNode session id template) := by
  refine inStep_get fun _ _ => ?_
  refine InStep.bind (blind_modify (fun _ => rfl) fun _ _ => rfl) fun _ => ?_
  refine InStep.bind (InStep.attempt rfl) fun _ => ?_
  refine inStep_get fun _ _ => ?_
  exact InStep.bind (InStep.order session (.setFile _ _ _)) fun _ =>
    blind_modify (fun _ => rfl) fun _ _ => rfl

/-- A loop is blind to labels if each of its steps is. -/
theorem blind_forM {items : List α} {body : α → Course Unit}
    (each : ∀ item, Blind rename labels (body item)) : Blind rename labels (items.forM body) :=
  InStep.forM (List.forall₂_same.mpr fun item _ => each item)

theorem blind_configureAll (session : SessionId) :
    Blind rename labels (configureAll session) :=
  inStep_get fun _ _ => blind_forM fun entry => blind_configureNode session entry.1 entry.2

theorem blind_launch (session : SessionId) : Blind rename labels (launch session) := by
  refine inStep_get fun conductor _ => ?_
  cases conductor.settings.interactive with
  | true => exact InStep.bind (InStep.confirm _) fun _ => InStep.order session (.setMode _)
  | false => exact InStep.order session (.setMode _)

theorem blind_conclude (session : SessionId) : Blind rename labels (conclude session) := by
  refine InStep.bind (blind_reach .terminal) fun _ => ?_
  refine InStep.bind (InStep.order session .teardown) fun _ => ?_
  exact inStep_get fun _ _ => InStep.pure _

/-! ## Lines -/

/-- Two nodes are found and paired alike, whichever of them is named first. -/
theorem inStep_resolvePair (first second : String) (line : Nat) :
    InStep (Relabelled rename labels) (resolvePair first second line)
      (resolvePair second first line) := by
  refine inStep_get fun conductor _ => ?_
  simp only [Registry.resolve]
  cases conductor.registry.id? first with
  | none =>
      cases conductor.registry.id? second with
      | none => exact InStep.throw rfl
      | some secondId => exact InStep.throw rfl
  | some firstId =>
      cases conductor.registry.id? second with
      | none => exact InStep.throw rfl
      | some secondId =>
          change InStep _ (pure (Pair.of firstId secondId)) (pure (Pair.of secondId firstId))
          rw [Pair.of_comm]
          exact InStep.pure _

theorem blind_resolvePair (first second : String) (line : Nat) :
    Blind rename labels (resolvePair first second line) :=
  inStep_get fun _ _ => InStep.bind (InStep.attempt rfl) fun _ =>
    InStep.bind (InStep.attempt rfl) fun _ => InStep.pure _

theorem inStep_linkEdge (session : SessionId) {line changed : EdgeLine}
    (redrawn : line.Redrawn rename changed) :
    InStep (Relabelled rename labels) (linkEdge session line) (linkEdge session changed) := by
  have linked : ∀ pair, Blind rename labels (get >>= fun conductor : Conductor =>
      if (conductor.addresses.get? pair).isNone then addLink session pair else pure ()) := by
    refine fun pair => inStep_get fun conductor _ => ?_
    dsimp only
    split
    · exact blind_addLink session pair
    · exact InStep.pure ()
  cases redrawn with
  | add edge first second number => exact InStep.bind (blind_resolvePair first second number) linked
  | addExchanged edge first second number =>
      exact InStep.bind (inStep_resolvePair first second number) linked
  | delete edge number => exact InStep.pure ()

theorem inStep_linkAll (session : SessionId) {steps changed : List DocumentStep}
    (redrawn : List.Forall₂ (DocumentStep.Redrawn rename) steps changed) :
    InStep (Relabelled rename labels) (linkAll session steps) (linkAll session changed) :=
  InStep.forM <| redrawn.imp fun _ _ same =>
    InStep.forM (same.lines.imp fun _ _ => inStep_linkEdge session)

theorem blind_setLoss (session : SessionId) (pair : Pair NodeId) (loss : Loss) :
    Blind rename labels (setLoss session pair loss) := by
  refine inStep_get fun conductor _ => ?_
  cases conductor.addresses.get? pair with
  | none => exact InStep.throw rfl
  | some allotment => exact InStep.order session (.adjustLink _)

section Injective

variable (injective : Set.InjOn rename {edge | edge ∈ labels})
include injective

/-- An edge is added in step if its ends are paired in step. -/
theorem inStep_add {edge : String} (known : edge ∈ labels) (session : SessionId) (step : UInt64)
    {first second firstOther secondOther : String} {number : Nat}
    (paired : InStep (Relabelled rename labels) (resolvePair first second number)
      (resolvePair firstOther secondOther number)) :
    InStep (Relabelled rename labels) (carryOut session step (.add edge first second number))
      (carryOut session step (.add (rename edge) firstOther secondOther number)) := by
  refine InStep.get fun one other now => ?_
  rw [now.contains known]
  split
  · exact InStep.throw rfl
  · refine InStep.bind paired fun pair => ?_
    refine InStep.bind (blind_setLoss session pair _) fun _ => ?_
    exact InStep.bind (InStep.modify fun _ _ now => now.insert injective known pair) fun _ =>
      blind_note _

theorem inStep_delete {edge : String} (known : edge ∈ labels) (session : SessionId)
    (step : UInt64) (number : Nat) :
    InStep (Relabelled rename labels) (carryOut session step (.delete edge number))
      (carryOut session step (.delete (rename edge) number)) := by
  refine InStep.get fun one other now => ?_
  rw [now.opened edge known]
  cases one.openEdges.get? edge with
  | none => exact InStep.throw rfl
  | some pair =>
      refine InStep.bind (InStep.modify fun _ _ now => now.erase injective known) fun _ => ?_
      exact InStep.bind (blind_setLoss session pair _) fun _ => blind_note _

theorem inStep_carryOut (session : SessionId) (step : UInt64) {line changed : EdgeLine}
    (redrawn : line.Redrawn rename changed) (known : line.edge ∈ labels) :
    InStep (Relabelled rename labels) (carryOutUnlessCancelled session step line)
      (carryOutUnlessCancelled session step changed) := by
  refine InStep.bind (InStep.stopIfCancelled step) fun _ => ?_
  cases redrawn with
  | add edge first second number =>
      exact inStep_add injective known session step (blind_resolvePair first second number)
  | addExchanged edge first second number =>
      exact inStep_add injective known session step (inStep_resolvePair first second number)
  | delete edge number => exact inStep_delete injective known session step number

theorem inStep_playStep (session : SessionId) (last : UInt64) {moment changed : DocumentStep}
    (redrawn : moment.Redrawn rename changed)
    (known : ∀ line ∈ moment.lines, line.edge ∈ labels) :
    InStep (Relabelled rename labels) (playStep session last moment)
      (playStep session last changed) := by
  have lines : InStep (Relabelled rename labels)
      (moment.lines.forM (carryOutUnlessCancelled session moment.step))
      (changed.lines.forM (carryOutUnlessCancelled session moment.step)) :=
    InStep.forM <| ((List.forall₂_and_left _ _).mpr ⟨known, redrawn.lines⟩).imp fun _ _ same =>
      inStep_carryOut injective session moment.step same.2 same.1
  rw [playStep, playStep, redrawn.step]
  refine InStep.bind (InStep.stopIfCancelled moment.step) fun _ => ?_
  refine inStep_get fun conductor _ => ?_
  have played := fun (_ : Unit) => InStep.bind (InStep.pause (conductor.settings.delay
    (moment.step - last))) fun _ => InStep.bind lines fun _ => blind_note fun report =>
      { report with stepsRun := report.stepsRun + 1 }
  dsimp only
  split
  · exact InStep.bind (InStep.confirm _) played
  · exact played ()

theorem inStep_playSteps (session : SessionId) (last : UInt64) {steps changed : List DocumentStep}
    (redrawn : List.Forall₂ (DocumentStep.Redrawn rename) steps changed)
    (known : ∀ moment ∈ steps, ∀ line ∈ moment.lines, line.edge ∈ labels) :
    InStep (Relabelled rename labels) (playSteps session last steps)
      (playSteps session last changed) := by
  induction redrawn generalizing last with
  | nil => exact InStep.pure ()
  | @cons moment other rest others same _ inductionHypothesis =>
      obtain ⟨knownHere, knownLater⟩ := List.forall_mem_cons.mp known
      rw [playSteps, playSteps, same.step]
      exact InStep.bind (inStep_playStep injective session last same knownHere) fun _ =>
        inductionHypothesis moment.step knownLater

/-! ## Whole runs -/

theorem inStep_steer {document changed : Document} (nodes : changed.nodes = document.nodes)
    {steps changedSteps : List DocumentStep}
    (redrawn : List.Forall₂ (DocumentStep.Redrawn rename) steps changedSteps)
    (known : ∀ moment ∈ steps, ∀ line ∈ moment.lines, line.edge ∈ labels) (session : SessionId) :
    InStep (Relabelled rename labels) (steer document steps session)
      (steer changed changedSteps session) := by
  have declared : declareNode session changedSteps = declareNode session steps := by
    funext name
    rw [declareNode, declareNode, takesPart_redrawn redrawn]
  rw [steer, steer, nodes, declared, ← playSteps_eq_forM, ← playSteps_eq_forM]
  refine InStep.bind (blind_equip session) fun _ => ?_
  refine InStep.bind (blind_addControlNode session) fun _ => ?_
  refine InStep.bind (blind_forM (blind_declareNode session steps)) fun _ => ?_
  refine InStep.bind (blind_reach .linking) fun _ => ?_
  refine InStep.bind (inStep_linkAll session redrawn) fun _ => ?_
  refine InStep.bind (blind_reach .configuring) fun _ => ?_
  refine InStep.bind (blind_configureAll session) fun _ => ?_
  refine InStep.bind (blind_launch session) fun _ => ?_
  refine InStep.bind (blind_reach .running) fun _ => ?_
  exact inStep_playSteps injective session 0 redrawn known

end Injective

end Course

namespace Conductor

/-- The run of a redrawn document is in step with that of the document. -/
theorem inStep_script {conductor : Conductor} (unspent : conductor.isSpent = false)
    (closed : conductor.openEdges = ∅) {document changed : Document} {rename : String → String}
    (injective : Set.InjOn rename {edge | edge ∈ document.labels})
    (redrawn : document.Redrawn rename changed) :
    Script.InStep (Course.SameEnd (Relabelled rename document.labels))
      (conductor.script document) (conductor.script changed) := by
  have begun : Relabelled rename document.labels conductor conductor := by
    refine ⟨rfl, fun edge _ => ?_⟩
    rw [closed]
    rfl
  have steps := chooseSteps_redrawn conductor.settings redrawn
  rw [script_of_unspent unspent, script_of_unspent unspent]
  refine .ask fun reply => ?_
  cases reply with
  | error error => exact .done ⟨rfl, begun⟩
  | ok id =>
      have steered := Course.inStep_steer injective redrawn.nodes steps
        (fun _ chosen _ member => edge_mem_labels chosen member) id
      exact Course.InStep.bind steered (fun _ => Course.blind_conclude id) _ _ begun

end Conductor

namespace Rehearsal

/-- A replay takes edges without direction and their names as mere labels: the replay of a redrawn
document, in any surroundings, asks the same questions in the same order, leaves the same
surroundings behind, gets as far with the same report, and ends well like the other one or with an
error of the same kind. -/
theorem replay_redrawn {settings : Settings} {conductor : Conductor}
    (accepted : Conductor.start settings = .ok conductor) {document changed : Document}
    {rename : String → String} (injective : Set.InjOn rename {edge | edge ∈ document.labels})
    (redrawn : document.Redrawn rename changed) :
    (∀ rehearsal : Rehearsal,
      let ended := rehearsal.replay conductor document
      let other := rehearsal.replay conductor changed
      other.2.2 = ended.2.2 ∧ other.2.1.phase = ended.2.1.phase ∧
        other.2.1.report = ended.2.1.report ∧
        other.1.mapError Error.kind = ended.1.mapError Error.kind) ∧
    ∀ exchanges outcome used,
      (conductor.script document).Yields exchanges (outcome, used) →
        ∃ outcomeChanged usedChanged,
          (conductor.script changed).Yields exchanges (outcomeChanged, usedChanged) ∧
          usedChanged.phase = used.phase ∧ usedChanged.report = used.report ∧
          outcomeChanged.mapError Error.kind = outcome.mapError Error.kind := by
  obtain ⟨rfl, -⟩ := Conductor.eq_fresh_of_start accepted
  have inStep := @Conductor.inStep_script (.fresh settings) rfl rfl _ _ _ injective redrawn
  have report : ∀ {one other : Conductor}, Conductor.Relabelled rename document.labels one other →
      other.phase = one.phase ∧ other.report = one.report := by
    intro one other now
    rw [now.alike]
    exact ⟨rfl, rfl⟩
  constructor
  · intro rehearsal
    obtain ⟨same, after⟩ := inStep.play answer rehearsal
    obtain ⟨phase, reported⟩ := report same.conductors
    exact ⟨after.symm, phase, reported, same.outcome.symm⟩
  · intro exchanges outcome used yields
    obtain ⟨⟨outcomeChanged, usedChanged⟩, yieldsChanged, same⟩ := inStep.exists_yields yields
    obtain ⟨phase, reported⟩ := report same.conductors
    exact ⟨outcomeChanged, usedChanged, yieldsChanged, phase, reported, same.outcome.symm⟩

/-- An edge that is up is added once more from its other end. -/
theorem replay_redrawn_twice :
    let document := singleStep [.add "e0" "a" "b" 9, .add "e0" "b" "a" 10]
    let changed := singleStep [.add "x" "b" "a" 9, .add "x" "b" "a" 10]
    (stocked.replay (.fresh {}) document).1 =
        .error (.invariant (.edgeAlreadyUp "e0" 10 5)) ∧
      (stocked.replay (.fresh {}) changed).2.2 = (stocked.replay (.fresh {}) document).2.2 ∧
      (stocked.replay (.fresh {}) changed).1.mapError Error.kind = .error .invariant := by
  intro document changed
  have injective : Set.InjOn (fun _ => "x") {edge | edge ∈ document.labels} := by
    intro first firstMember second secondMember _
    have only : ∀ edge ∈ document.labels, edge = "e0" := by decide
    rw [only first firstMember, only second secondMember]
  have redrawn : document.Redrawn (fun _ => "x") changed :=
    ⟨rfl, rfl, .cons ⟨rfl, rfl, .cons (.addExchanged "e0" "a" "b" 9)
      (.cons (.add "e0" "b" "a" 10) .nil)⟩ .nil⟩
  have failed : (stocked.replay (.fresh {}) document).1 =
      .error (.invariant (.edgeAlreadyUp "e0" 10 5)) := by decide +kernel
  have started : Conductor.start {} = .ok (.fresh {}) := by decide +kernel
  obtain ⟨same, -, -, kind⟩ := (replay_redrawn started injective redrawn).1 stocked
  refine ⟨failed, same, ?_⟩
  rw [kind, failed]
  rfl

end Rehearsal

end ContactReplay
