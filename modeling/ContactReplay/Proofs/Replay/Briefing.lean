import ContactReplay.Proofs.Replay.Wiring
import Mathlib.Data.List.Perm.Subperm

/-!
# Briefing nodes

Configuring goes through the nodes in the order of their identifiers and writes each of them a
configuration with the addresses of its peers.  That is the order of the roster: every pair that is
linked has a subnet, so there are far too few nodes for an identifier to come round to zero again
(`Roster.names_length_le`).

`Briefed` says what has been written when configuring has come as far as some nodes, and that no
other node has been touched.
-/

namespace ContactReplay

/-- The configuration that a template becomes with some settings and the addresses of peers. -/
def DaemonSettings.filled (settings : DaemonSettings) (addresses : List String)
    (template : String) : String :=
  (settings.substitutions ++ [Substitution.ofNeighbours addresses]).foldl
    (fun text substitution => substitution.carryOut text) template

/-- The configuration of a node when some pairs have been linked in order. -/
def Settings.configText (settings : Settings) (template : String) (pairs : List (Pair NodeId))
    (node : NodeId) : String :=
  settings.daemon.filled (peerTexts (settings.addressing.links pairs) node) template

/-- The configuration that is made for a node is its template, filled. -/
theorem Configurator.of_configure {configurator next : Configurator} {node : NodeId}
    {template text : String}
    (configured : configurator.configure node template = (.ok text, next)) :
    text = configurator.settings.filled (configurator.addresses node) template ∧
      next.settings = configurator.settings ∧ next.addresses = configurator.addresses := by
  rw [configure] at configured
  split at configured
  · cases (Prod.mk.inj configured).1
  · obtain ⟨sameText, rfl⟩ := Prod.mk.inj configured
    exact ⟨(Except.ok.inj sameText).symm, rfl, rfl⟩

/-! ## Few nodes -/

theorem pairwise_idxOf_lt {α : Type} [DecidableEq α] {items : List α} (distinct : items.Nodup) :
    items.Pairwise fun earlier later => items.idxOf earlier < items.idxOf later := by
  rw [List.pairwise_iff_getElem]
  intro earlier later earlierBound laterBound before
  rwa [distinct.idxOf_getElem, distinct.idxOf_getElem]

namespace Roster

variable {roster : Roster} {lines : List EdgeLine}

/-- A pair has two ends, so the nodes that take part are at most twice as many as the pairs. -/
theorem names_length_le (distinct : roster.names.Nodup)
    (joined : ∀ name ∈ roster.names, name ∈ lines.flatMap EdgeLine.endNames) :
    roster.names.length ≤ 2 * (roster.pairs lines).length := by
  have isEnd : roster.names ⊆ (joinedEnds lines).flatMap fun ends => [ends.low, ends.high] := by
    intro name member
    obtain ⟨line, lineMember, named⟩ := List.mem_flatMap.mp (joined name member)
    cases line with
    | delete edge number => cases named
    | add edge first second number =>
        have joins : Pair.of first second ∈ joinedEnds lines :=
          mem_joinedEnds.mpr ⟨_, lineMember, rfl⟩
        refine List.mem_flatMap.mpr ⟨_, joins, ?_⟩
        simp only [EdgeLine.endNames, List.mem_cons, List.not_mem_nil, or_false] at named ⊢
        rcases Pair.of_eq_or first second with ⟨low, high⟩ | ⟨low, high⟩
        · rwa [low, high]
        · rw [low, high]
          exact named.symm
  have bound := (distinct.subperm isEnd).length_le
  have twice : ((joinedEnds lines).flatMap fun ends => [ends.low, ends.high]).length =
      2 * (joinedEnds lines).length := by
    simp [List.length_flatMap, Nat.mul_comm]
  rwa [twice, ← List.length_map (f := roster.pair)] at bound

section Few

variable (distinct : roster.names.Nodup)
  (few : roster.first + roster.names.length < UInt32.size)
include few

theorem toNat_node {name : String} (member : name ∈ roster.names) :
    (roster.node name).toNat = roster.first + roster.names.idxOf name := by
  have place := List.idxOf_lt_length_of_mem member
  exact UInt32.toNat_ofNat_of_lt' (by omega)

include distinct

/-- The nodes of a roster are listed in the order of their identifiers. -/
theorem nodes_ascending :
    (roster.names.map roster.node).Pairwise fun earlier later => compare earlier later = .lt := by
  rw [List.pairwise_map]
  refine (pairwise_idxOf_lt distinct).imp_of_mem fun earlierMember laterMember before => ?_
  rw [Std.compare_eq_lt, UInt32.lt_iff_toNat_lt, toNat_node few earlierMember,
    toNat_node few laterMember]
  exact Nat.add_lt_add_left before _

theorem map_toNat_node : (roster.names.map fun name => (roster.node name).toNat) =
    List.range' roster.first roster.names.length := by
  refine List.ext_getElem (by simp) fun index bound _ => ?_
  rw [List.getElem_map, toNat_node few (List.getElem_mem _), distinct.idxOf_getElem,
    List.getElem_range', Nat.one_mul]

/-- A table of one text for all nodes lists them in the order of the roster. -/
theorem entries_eq {configs : Table NodeId String} {template : String}
    (templates : ∀ node text, configs.get? node = some text ↔
      text = template ∧ ∃ name ∈ roster.names, node = roster.node name) :
    configs.entries = roster.names.map fun name => (roster.node name, template) := by
  apply Table.entries_eq_of_ascending
  · have ascending := nodes_ascending distinct few
    rw [List.pairwise_map] at ascending ⊢
    exact ascending
  · intro node text
    rw [templates, List.mem_map]
    constructor
    · rintro ⟨rfl, name, member, rfl⟩
      exact ⟨name, member, rfl⟩
    · rintro ⟨name, member, same⟩
      obtain ⟨rfl, rfl⟩ := Prod.mk.inj same
      exact ⟨rfl, name, member, rfl⟩

end Few

end Roster

/-! ## Written files -/

/-- In a session whose nodes began with some files, one file of some nodes has been written, and
nothing else. -/
structure Session.Written (session : Session) (files : Table FileName String) (name : FileName)
    (texts : NodeId → String) (nodes : List NodeId) : Prop where
  present : ∀ node ∈ nodes, session.nodes.contains node = true
  stored : ∀ node found, session.nodes.get? node = some found → ∀ asked,
    found.files.get? asked =
      if node ∈ nodes ∧ asked = name then some (texts node) else files.get? asked

namespace Session

variable {session later : Session} {files : Table FileName String} {name : FileName}
  {texts : NodeId → String} {nodes : List NodeId}

theorem Pristine.written (pristine : session.Pristine files) :
    session.Written files name texts [] where
  present := List.forall_mem_nil _
  stored node found held asked := by
    rw [pristine node found held, if_neg]
    exact fun ⟨member, _⟩ => List.not_mem_nil member

theorem Written.of_nodes (written : session.Written files name texts nodes)
    (same : later.nodes = session.nodes) : later.Written files name texts nodes :=
  ⟨same ▸ written.present, same ▸ written.stored⟩

/-- The files of a node that has been written. -/
theorem Written.files_of_mem (written : session.Written files name texts nodes) {node : NodeId}
    {found : SessionNode} (held : session.nodes.get? node = some found) (member : node ∈ nodes) :
    found.files = files.insert name (texts node) := by
  apply Table.ext_get?
  intro asked
  rw [written.stored node found held]
  by_cases same : asked = name
  · subst same
    rw [if_pos ⟨member, rfl⟩, Table.get?_insert_self]
  · rw [if_neg fun both => same both.2, Table.get?_insert_of_ne _ _ same]

/-- The files of a node that has not been written. -/
theorem Written.files_of_notMem (written : session.Written files name texts nodes) {node : NodeId}
    {found : SessionNode} (held : session.nodes.get? node = some found) (absent : node ∉ nodes) :
    found.files = files :=
  Table.ext_get? fun asked => (written.stored node found held asked).trans
    (if_neg fun both => absent both.1)

theorem Written.setFile (written : session.Written files name texts nodes) {node : NodeId}
    (carried : session.carryOut files (.setFile node name (texts node)) = .ok ((), later)) :
    later.Written files name texts (nodes ++ [node]) ∧
      ∀ other, session.nodes.contains other = true → later.nodes.contains other = true := by
  obtain ⟨found, held, nodesLater⟩ := exists_of_setFile carried
  have kept : ∀ other, session.nodes.contains other = true → later.nodes.contains other = true := by
    intro other contained
    rw [nodesLater]
    exact Table.contains_insert.mpr (Or.inr contained)
  refine ⟨⟨?_, fun other kept keptHeld asked => ?_⟩, kept⟩
  · refine List.forall_mem_append.mpr
      ⟨fun other member => kept other (written.present other member),
        List.forall_mem_singleton.mpr ?_⟩
    rw [nodesLater]
    exact Table.contains_insert.mpr (Or.inl rfl)
  · rw [nodesLater] at keptHeld
    have before := written.stored
    by_cases same : other = node
    · subst same
      rw [Table.get?_insert_self] at keptHeld
      obtain rfl := Option.some.inj keptHeld
      by_cases asksName : asked = name
      · subst asksName
        rw [Table.get?_insert_self, if_pos (by simp)]
      · rw [Table.get?_insert_of_ne _ _ asksName, before other found held asked,
          if_neg fun both => asksName both.2, if_neg fun both => asksName both.2]
    · rw [Table.get?_insert_of_ne _ _ same] at keptHeld
      rw [before other kept keptHeld asked]
      simp [same]

end Session

namespace Conductor

open Course

/-- What is logged when the configurations of some nodes of a roster are written. -/
def configCalls (settings : Settings) (template : String) (session : SessionId) (roster : Roster)
    (pairs : List (Pair NodeId)) (names : List String) : List Call :=
  names.map fun name => .setFile session (roster.node name) (configName settings)
    (settings.configText template pairs (roster.node name)).utf8ByteSize

/-- Configuring has come as far as some nodes, after the calls of a log. -/
structure Briefed (chosen : Settings) (files : Table FileName String) (template : String)
    (log : List Call) (id : SessionId) (roster : Roster) (pairs : List (Pair NodeId))
    (done : List String) (stand : Stand) : Prop where
  settings : stand.conductor.settings = chosen
  closed : stand.conductor.openEdges = ∅
  enrolled : roster.Enrols stand.conductor.registry
  allots : stand.conductor.addresses.Allots chosen.addressing pairs
  daemon : stand.conductor.daemons.settings = chosen.daemon
  addresses : ∀ node, stand.conductor.daemons.addresses node =
    peerTexts (chosen.addressing.links pairs) node
  logged : ∃ session,
    stand.rehearsal.Logged files (log ++ configCalls chosen template id roster pairs done) id
      session ∧
    session.Written files (configName chosen) (chosen.configText template pairs)
      (done.map roster.node) ∧
    (chosen.controlNode.isSome = true → session.nodes.contains 1 = true)

section Configure

variable {chosen : Settings} {files : Table FileName String} {template : String}
  {log : List Call} {id : SessionId} {roster : Roster} {pairs : List (Pair NodeId)}
  {lines : List EdgeLine} {done : List String} {stand : Stand}

theorem Briefed.ensures_configureNode
    (briefed : Briefed chosen files template log id roster pairs done stand) (name : String) :
    (configureNode id (roster.node name) template).Ensures stand fun _ next =>
      Briefed chosen files template log id roster pairs (done ++ [name]) next := by
  obtain ⟨session, logged, written, controlled⟩ := briefed.logged
  rw [configureNode]
  refine ensures_bind_of_ok (perform_get stand) ?_
  rcases configured : stand.conductor.daemons.configure (roster.node name) template with
    ⟨outcome, daemons⟩
  refine ensures_bind_of_ok (perform_modify _ _) ?_
  cases outcome with
  | error error => exact ensures_bind_of_error (perform_attempt _ (.error error))
  | ok text =>
      obtain ⟨sameText, sameDaemon, sameAddresses⟩ := Configurator.of_configure configured
      rw [briefed.daemon, briefed.addresses] at sameText
      refine ensures_bind_of_ok (perform_attempt _ (.ok text)) ?_
      refine ensures_bind_of_ok (perform_get _) ?_
      dsimp only
      rw [briefed.settings]
      refine ensures_bind (logged.ensures_order _ (.setFile _ _ _)) ?_
      rintro _ ⟨_, stored⟩ ⟨rfl, later, carried, loggedLater⟩
      have told : text = chosen.configText template pairs (roster.node name) := sameText
      rw [told] at carried loggedLater
      obtain ⟨writtenLater, kept⟩ := written.setFile carried
      refine ensures_of_ok (perform_modify _ _) ?_
      refine ⟨rfl, briefed.closed, briefed.enrolled, briefed.allots,
        sameDaemon.trans briefed.daemon, fun node => ?_, later, ?_, ?_, fun control => ?_⟩
      · dsimp only
        rw [sameAddresses]
        exact briefed.addresses node
      · rw [configCalls, List.map_append, ← List.append_assoc]
        exact loggedLater
      · rw [List.map_append]
        exact writtenLater
      · exact kept 1 (controlled control)

theorem WiredBy.few (wired : WiredBy chosen files template log id roster lines stand)
    (small : chosen.addressing.subnetCapacity.toNat ≤ 256) (first : roster.first ≤ 2)
    (joined : ∀ name ∈ roster.names, name ∈ lines.flatMap EdgeLine.endNames) :
    roster.first + roster.names.length < UInt32.size := by
  have twice := Roster.names_length_le wired.enrolled.distinct joined
  have room := wired.allots.room
  have size : 514 < UInt32.size := by decide
  omega

/-- Configuring writes exactly the configurations of the nodes on the roster, in order. -/
theorem WiredBy.ensures_configureAll
    (wired : WiredBy chosen files template log id roster lines stand)
    (few : roster.first + roster.names.length < UInt32.size) (phase : Phase) :
    (configureAll id).Ensures { stand with conductor := { stand.conductor with phase } }
      fun _ next => Briefed chosen files template
        (log ++ (chosen.addressing.links (roster.pairs lines)).map (Call.addLink id)) id roster
        (roster.pairs lines) roster.names next := by
  obtain ⟨session, logged, pristine, controlled⟩ := wired.logged
  rw [configureAll]
  refine ensures_bind_of_ok (perform_get _) ?_
  dsimp only
  rw [Roster.entries_eq wired.enrolled.distinct few wired.templates, List.forM_eq_forM,
    List.forM_map, ← List.forM_eq_forM]
  refine ensures_forM_done (fun done name current now => now.ensures_configureNode name) ?_
  refine ⟨wired.settings, wired.closed, wired.enrolled, wired.allots, wired.informed.settings,
    wired.informed.addresses, session, ?_, pristine.written, controlled⟩
  exact (List.append_nil _).symm ▸ logged

end Configure

end Conductor

end ContactReplay
