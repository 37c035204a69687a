import ContactReplay.Proofs.Addressing.Allotting
import ContactReplay.Proofs.Replay.Logging

/-!
# Enrolling nodes

A `Roster` lists the nodes that take part in a replay in the order in which they are declared, with
the number of the first identifier: the one after it is the identifier of the second node, and so
on.  Setup adds exactly these nodes: `Peopled` says what it has logged, registered and fetched when
it has come as far as a roster, and `ensures_populate_roster` follows setup to its end.
-/

namespace ContactReplay

/-- The nodes that take part in a replay in order, and the number of the first identifier. -/
structure Roster where
  names : List String
  first : Nat
  deriving DecidableEq, Repr

namespace Roster

open Conductor

/-- The roster of a document; a control node takes the first identifier. -/
def ofDocument (settings : Settings) (document : Document) : Roster where
  names := document.nodes.filter (takesPart (chooseSteps settings document))
  first := if settings.controlNode.isSome then 2 else 1

/-- The identifier of a node by its place on the roster. -/
def node (roster : Roster) (name : String) : NodeId :=
  UInt32.ofNat (roster.first + roster.names.idxOf name)

/-- The roster with one more node at its end. -/
def join (roster : Roster) (name : String) : Roster :=
  { roster with names := roster.names ++ [name] }

/-- What is logged when the nodes are added one after the other, each at the next slot of the grid,
and their configurations are fetched. -/
def additions (roster : Roster) (settings : Settings) (session : SessionId) : List Call :=
  roster.names.zipIdx.flatMap fun (name, slot) =>
    let id := UInt32.ofNat (roster.first + slot)
    [.addNode session ⟨id, name, settings.nodeModel, settings.grid.position (UInt32.ofNat slot)⟩,
      .getFile session id (configName settings)]

/-- The identifiers of a roster are what a registry binds its names to, and nothing else is
bound. -/
structure Enrols (roster : Roster) (registry : Registry) : Prop where
  bound : registry.Bound
  distinct : roster.names.Nodup
  ids : ∀ name, registry.id? name =
    if name ∈ roster.names then some (roster.node name) else none

section Join

variable {roster : Roster} {name other : String}

theorem node_join_of_mem (member : name ∈ roster.names) :
    (roster.join other).node name = roster.node name := by
  rw [node, node, join, List.idxOf_append_of_mem member]

theorem node_join_self (new : name ∉ roster.names) :
    (roster.join name).node name = UInt32.ofNat (roster.first + roster.names.length) := by
  rw [node, join, List.idxOf_append_of_notMem new, List.idxOf_cons_self, Nat.add_zero]

theorem additions_join (settings : Settings) (session : SessionId) :
    (roster.join name).additions settings session = roster.additions settings session ++
      [.addNode session ⟨UInt32.ofNat (roster.first + roster.names.length), name,
          settings.nodeModel, settings.grid.position (UInt32.ofNat roster.names.length)⟩,
        .getFile session (UInt32.ofNat (roster.first + roster.names.length))
          (configName settings)] := by
  rw [additions, join, List.zipIdx_append, List.flatMap_append, Nat.zero_add]
  rfl

theorem mem_join : other ∈ (roster.join name).names ↔ other ∈ roster.names ∨ other = name := by
  rw [join, List.mem_append, List.mem_singleton]

end Join

namespace Enrols

variable {roster : Roster} {registry : Registry} (enrols : roster.Enrols registry)
include enrols

theorem id?_eq_some_iff {name : String} {id : NodeId} :
    registry.id? name = some id ↔ name ∈ roster.names ∧ id = roster.node name := by
  rw [enrols.ids, Option.ite_none_right_eq_some, Option.some.injEq, eq_comm (a := id)]

theorem node_injective {first second : String} (firstMember : first ∈ roster.names)
    (secondMember : second ∈ roster.names) (same : roster.node first = roster.node second) :
    first = second := by
  have firstBound := enrols.id?_eq_some_iff.mpr ⟨firstMember, rfl⟩
  have secondBound := enrols.id?_eq_some_iff.mpr ⟨secondMember, same⟩
  rw [enrols.bound] at firstBound secondBound
  exact Option.some.inj (firstBound.symm.trans secondBound)

/-- A name that could be bound to the next identifier joins the roster. -/
theorem join {next : Registry} {name : String}
    (inserted : registry.insert name (UInt32.ofNat (roster.first + roster.names.length)) =
      .ok next) : name ∉ roster.names ∧ (roster.join name).Enrols next := by
  have bound := enrols.bound.insert inserted
  obtain ⟨unbound, -, rfl⟩ := Registry.insert_eq_ok_iff.mp inserted
  have new : name ∉ roster.names := by
    intro member
    rw [enrols.id?_eq_some_iff.mpr ⟨member, rfl⟩] at unbound
    cases unbound
  refine ⟨new, bound, ?_, fun asked => ?_⟩
  · exact List.nodup_append.mpr ⟨enrols.distinct, List.nodup_singleton name,
      fun other member last single => by
        rw [List.mem_singleton.mp single]
        exact fun same => new (same ▸ member)⟩
  · by_cases same : asked = name
    · subst same
      rw [if_pos (mem_join.mpr (Or.inr rfl)), node_join_self new]
      exact Table.get?_insert_self _ _ _
    · rw [Registry.id?, Table.get?_insert_of_ne _ _ same, ← Registry.id?, enrols.ids]
      by_cases member : asked ∈ roster.names
      · rw [if_pos member, if_pos (mem_join.mpr (Or.inl member)), node_join_of_mem member]
      · rw [if_neg member, if_neg fun joined => (mem_join.mp joined).elim member same]

end Enrols

end Roster

/-- All nodes of a session have the files that they began with. -/
def Session.Pristine (session : Session) (files : Table FileName String) : Prop :=
  ∀ id node, session.nodes.get? id = some node → node.files = files

theorem Session.Pristine.insert {session : Session} {files : Table FileName String}
    (pristine : session.Pristine files) (added : NodeId) (description : NodeDescription)
    (id : NodeId) (node : SessionNode)
    (held : (session.nodes.insert added ⟨description, files⟩).get? id = some node) :
    node.files = files := by
  by_cases same : id = added
  · subst same
    rw [Table.get?_insert_self] at held
    obtain rfl := Option.some.inj held
    rfl
  · rw [Table.get?_insert_of_ne _ _ same] at held
    exact pristine id node held

namespace Conductor

open Course

/-- What is logged when a session is opened. -/
def sessionCalls (settings : Settings) (session : SessionId) : List Call :=
  [.createSession session, .setMode session .configuration] ++
    (settings.controlNet.map fun net =>
      Call.setOptions session (.ofList [("controlnet", net)])).toList

/-- What is logged before the nodes that take part are added. -/
def openingCalls (settings : Settings) (session : SessionId) : List Call :=
  sessionCalls settings session ++ (settings.controlNode.map fun node =>
    Call.addNode session ⟨1, node.name, node.model, node.position⟩).toList

/-- Setup has come as far as the nodes on a roster, after the calls of a log. -/
structure Peopled (chosen : Settings) (files : Table FileName String) (template : String)
    (log : List Call) (id : SessionId) (roster : Roster) (stand : Stand) : Prop where
  settings : stand.conductor.settings = chosen
  addresses : stand.conductor.addresses = { plan := chosen.addressing }
  daemons : stand.conductor.daemons = { settings := chosen.daemon }
  closed : stand.conductor.openEdges = ∅
  counted : stand.conductor.nodeIds.next = UInt32.ofNat (roster.first + roster.names.length)
  slotted : stand.conductor.gridSlots.next = UInt32.ofNat roster.names.length
  enrolled : roster.Enrols stand.conductor.registry
  templates : ∀ node text, stand.conductor.configs.get? node = some text ↔
    text = template ∧ ∃ name ∈ roster.names, node = roster.node name
  logged : ∃ session, stand.rehearsal.Logged files (log ++ roster.additions chosen id) id session ∧
    session.Pristine files ∧
    (chosen.controlNode.isSome = true → session.nodes.contains 1 = true)

section Setup

variable {chosen : Settings} {files : Table FileName String} {template : String}
  {log : List Call} {id : SessionId} {roster : Roster} {stand : Stand}

theorem ensures_register (name : String) (node : NodeId) :
    (register name node).Ensures stand fun _ next => ∃ registry,
      stand.conductor.registry.insert name node = .ok registry ∧
        next = { stand with conductor := { stand.conductor with registry } } := by
  rw [register]
  refine ensures_bind_of_ok (perform_get stand) ?_
  cases inserted : stand.conductor.registry.insert name node with
  | error error => exact ensures_bind_of_error (perform_attempt stand (.error error))
  | ok registry =>
      refine ensures_bind_of_ok (perform_attempt stand (.ok registry)) ?_
      exact ensures_of_ok (perform_modify _ _) ⟨registry, rfl, rfl⟩

/-- Fetched configurations after one more node has joined the roster. -/
theorem templates_join {configs : Table NodeId String}
    (templates : ∀ node text, configs.get? node = some text ↔
      text = template ∧ ∃ name ∈ roster.names, node = roster.node name)
    {name : String} (new : name ∉ roster.names) (node : NodeId) (text : String) :
    (configs.insert ((roster.join name).node name) template).get? node = some text ↔
      text = template ∧ ∃ other ∈ (roster.join name).names,
        node = (roster.join name).node other := by
  by_cases same : node = (roster.join name).node name
  · subst same
    rw [Table.get?_insert_self, Option.some.injEq, eq_comm]
    exact (and_iff_left ⟨name, Roster.mem_join.mpr (Or.inr rfl), rfl⟩).symm
  · rw [Table.get?_insert_of_ne _ _ same, templates]
    refine and_congr_right fun _ => ⟨?_, ?_⟩
    · rintro ⟨other, member, rfl⟩
      exact ⟨other, Roster.mem_join.mpr (Or.inl member), (Roster.node_join_of_mem member).symm⟩
    · rintro ⟨other, member, rfl⟩
      rcases Roster.mem_join.mp member with old | rfl
      · exact ⟨other, old, Roster.node_join_of_mem old⟩
      · exact absurd rfl same

/-- A node that is added joins the roster. -/
theorem Peopled.ensures_addNode (peopled : Peopled chosen files template log id roster stand)
    (told : ∀ text, files.get? (configName chosen) = some text → text = template)
    (name : String) :
    (addNode id name).Ensures stand fun _ next =>
      Peopled chosen files template log id (roster.join name) next := by
  obtain ⟨session, logged, pristine, controlled⟩ := peopled.logged
  rw [addNode]
  refine ensures_bind_of_ok (perform_takeNodeId stand) ?_
  refine ensures_bind (ensures_register name _) ?_
  rintro _ _ ⟨registry, inserted, rfl⟩
  dsimp only at inserted
  rw [peopled.counted] at inserted
  obtain ⟨new, enrolled⟩ := peopled.enrolled.join inserted
  refine ensures_bind_of_ok (perform_takePosition _) ?_
  refine ensures_bind_of_ok (perform_get _) ?_
  dsimp only
  refine ensures_bind (logged.ensures_order _ (.addNode _)) ?_
  rintro _ added ⟨sameAdded, withNode, addedCarried, loggedAdded⟩
  refine ensures_bind (loggedAdded.ensures_order _ (.getFile _ _)) ?_
  rintro text fetched ⟨sameFetched, later, fetchedCarried, loggedFetched⟩
  have nodes := Session.nodes_of_addNode addedCarried
  obtain ⟨found, held, stored⟩ := Session.exists_of_getFile fetchedCarried
  have same : text = template := by
    rw [nodes, Table.get?_insert_self] at held
    obtain rfl := Option.some.inj held
    rw [peopled.settings] at stored
    exact told text stored
  subst same
  obtain ⟨conductor, rehearsal⟩ := fetched
  obtain rfl : conductor = _ := sameFetched.trans sameAdded
  refine ensures_bind_of_ok (perform_modify _ _) ?_
  refine ensures_of_ok (perform_note _ _) ?_
  have sameNode : stand.conductor.nodeIds.next = (roster.join name).node name :=
    peopled.counted.trans (Roster.node_join_self new).symm
  refine ⟨peopled.settings, peopled.addresses, peopled.daemons, peopled.closed, ?_, ?_, enrolled,
    fun node asked => ?_, later, ?_, ?_, fun control => ?_⟩
  · exact (Counter.next_advance peopled.counted).trans (by simp [Roster.join, Nat.add_assoc])
  · exact (Counter.next_advance peopled.slotted).trans (by simp [Roster.join])
  · dsimp only
    rw [sameNode]
    exact templates_join peopled.templates new node asked
  · have calls := loggedFetched.calls
    rw [peopled.settings, peopled.counted, peopled.slotted] at calls
    refine ⟨loggedFetched.files, calls.trans ?_, loggedFetched.held⟩
    rw [Roster.additions_join]
    simp [Order.call]
  · rw [Session.Pristine, Session.nodes_of_sparesNodes fetchedCarried rfl, nodes]
    exact pristine.insert _ _
  · rw [Session.nodes_of_sparesNodes fetchedCarried rfl, nodes]
    exact Table.contains_insert.mpr (Or.inr (controlled control))

theorem Peopled.note (peopled : Peopled chosen files template log id roster stand)
    (report : Report) : Peopled chosen files template log id roster
      { stand with conductor := { stand.conductor with report } } where
  settings := peopled.settings
  addresses := peopled.addresses
  daemons := peopled.daemons
  closed := peopled.closed
  counted := peopled.counted
  slotted := peopled.slotted
  enrolled := peopled.enrolled
  templates := peopled.templates
  logged := peopled.logged

/-- The nodes that take part join the roster in the order in which they are declared. -/
theorem Peopled.ensures_declareAll {first : Nat} {steps : List DocumentStep}
    (peopled : Peopled chosen files template log id ⟨[], first⟩ stand)
    (told : ∀ text, files.get? (configName chosen) = some text → text = template)
    (names : List String) :
    (names.forM (declareNode id steps)).Ensures stand fun _ next =>
      Peopled chosen files template log id ⟨names.filter (takesPart steps), first⟩ next := by
  refine @ensures_forM_done String names (declareNode id steps) (fun done next =>
    Peopled chosen files template log id ⟨done.filter (takesPart steps), first⟩ next) stand
    (fun done name current now => ?_) peopled
  rw [declareNode, List.filter_append]
  by_cases joins : takesPart steps name = true
  · rw [if_pos joins, List.filter_cons_of_pos joins]
    exact now.ensures_addNode told name
  · rw [if_neg joins, List.filter_cons_of_neg joins, List.filter_nil, List.append_nil]
    exact ensures_of_ok (perform_note _ _) (now.note _)

/-- A session is opened without nodes. -/
theorem ensures_openSession_logged (chosen : Settings) (rehearsal : Rehearsal) :
    openSession.Ensures ⟨fresh chosen, rehearsal⟩ fun id next =>
      id = rehearsal.testbed.nextSession.next ∧
        next.conductor = { fresh chosen with session := some id } ∧
        ∃ session, next.rehearsal.Logged rehearsal.testbed.serviceFiles
          (rehearsal.testbed.calls ++ sessionCalls chosen id) id session ∧ session.nodes = ∅ := by
  rw [openSession]
  refine ensures_bind (ensures_createSession _ rehearsal) ?_
  rintro id ⟨_, made⟩ ⟨rfl, sameId, loggedMade⟩
  refine ensures_bind_of_ok (perform_modify _ _) ?_
  refine ensures_bind (loggedMade.ensures_sparing _ rfl) ?_
  rintro _ ⟨_, ready⟩ ⟨rfl, session, loggedReady, nodes⟩
  refine ensures_bind_of_ok (perform_get _) ?_
  cases net : (fresh chosen).settings.controlNet with
  | none =>
      have absent : chosen.controlNet = none := net
      refine ensures_of_ok rfl ⟨sameId, rfl, session,
        ⟨loggedReady.files, loggedReady.calls.trans ?_, loggedReady.held⟩, nodes⟩
      simp [sessionCalls, absent, Order.call]
  | some name =>
      have present : chosen.controlNet = some name := net
      refine ensures_bind (loggedReady.ensures_sparing _ rfl) ?_
      rintro _ ⟨_, equipped⟩ ⟨rfl, later, loggedLater, laterNodes⟩
      refine ensures_of_ok (perform_pure _ _) ⟨sameId, rfl, later,
        ⟨loggedLater.files, loggedLater.calls.trans ?_, loggedLater.held⟩, laterNodes.trans nodes⟩
      simp [sessionCalls, present, Order.call]

theorem peopled_nil (template : String) {nodeIds : Counter} {first : Nat}
    (counted : nodeIds.next = UInt32.ofNat first) {rehearsal : Rehearsal} {session : Session}
    (logged : rehearsal.Logged files log id session) (pristine : session.Pristine files)
    (controlled : chosen.controlNode.isSome = true → session.nodes.contains 1 = true) :
    Peopled chosen files template log id ⟨[], first⟩
      ⟨{ fresh chosen with session := some id, nodeIds }, rehearsal⟩ where
  settings := rfl
  addresses := rfl
  daemons := rfl
  closed := rfl
  counted := counted
  slotted := rfl
  enrolled := ⟨bound_fresh chosen, List.nodup_nil, fun _ => rfl⟩
  templates _ _ := ⟨nofun, nofun⟩
  logged := ⟨session, (List.append_nil log).symm ▸ logged, pristine, controlled⟩

/-- The control node, if there is one, takes the first identifier. -/
theorem ensures_addControlNode_peopled (template : String) {rehearsal : Rehearsal}
    {session : Session}
    (logged : rehearsal.Logged files (log ++ sessionCalls chosen id) id session)
    (empty : session.nodes = ∅) :
    (addControlNode id).Ensures ⟨{ fresh chosen with session := some id }, rehearsal⟩
      fun _ next => Peopled chosen files template (log ++ openingCalls chosen id) id
        ⟨[], if chosen.controlNode.isSome then 2 else 1⟩ next := by
  have unoccupied : session.Pristine files := by
    intro node found held
    rw [empty] at held
    cases held
  rw [addControlNode]
  refine ensures_bind_of_ok (perform_get _) ?_
  cases control : (fresh chosen).settings.controlNode with
  | none =>
      have absent : chosen.controlNode = none := control
      have calls : openingCalls chosen id = sessionCalls chosen id := by
        rw [openingCalls, absent]
        exact List.append_nil _
      rw [calls, absent]
      refine ensures_of_ok rfl (peopled_nil template rfl logged unoccupied ?_)
      intro controlled
      rw [absent] at controlled
      cases controlled
  | some node =>
      have present : chosen.controlNode = some node := control
      have calls : openingCalls chosen id = sessionCalls chosen id ++
          [.addNode id ⟨1, node.name, node.model, node.position⟩] := by
        rw [openingCalls, present]
        rfl
      rw [calls, present, ← List.append_assoc]
      refine ensures_bind_of_ok (perform_takeNodeId _) ?_
      intro _ next performed
      obtain ⟨sameConductor, later, carried, loggedNext⟩ :=
        logged.ensures_order _ _ _ next performed
      have nodes := Session.nodes_of_addNode carried
      obtain ⟨_, last⟩ := next
      obtain rfl := sameConductor
      refine peopled_nil template rfl loggedNext ?_ fun _ => ?_
      · rw [Session.Pristine, nodes]
        exact unoccupied.insert _ _
      · rw [nodes]
        exact Table.contains_insert.mpr (Or.inl rfl)

/-- Setup adds exactly the nodes of the roster. -/
theorem ensures_populate_roster {rehearsal : Rehearsal}
    (told : ∀ text, rehearsal.testbed.serviceFiles.get? (configName chosen) = some text →
      text = template) (document : Document) :
    (populate document.nodes (chooseSteps chosen document)).Ensures ⟨fresh chosen, rehearsal⟩
      fun id next => id = rehearsal.testbed.nextSession.next ∧
        Peopled chosen rehearsal.testbed.serviceFiles template
          (rehearsal.testbed.calls ++ openingCalls chosen id) id
          (Roster.ofDocument chosen document) next := by
  rw [populate]
  refine ensures_bind (ensures_openSession_logged chosen rehearsal) ?_
  rintro id ⟨_, opened⟩ ⟨sameId, rfl, session, logged, empty⟩
  have controls := ensures_addControlNode_peopled template logged empty
  refine ensures_bind controls fun _ controlled now => ?_
  refine ensures_bind (now.ensures_declareAll told document.nodes) fun _ next peopled => ?_
  exact ensures_of_ok (perform_pure next id) ⟨sameId, peopled⟩

end Setup

end Conductor

end ContactReplay
