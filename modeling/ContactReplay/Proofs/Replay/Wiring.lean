import ContactReplay.Proofs.Replay.Enrolling

/-!
# Wiring nodes

Linking adds one link for each pair of nodes that some edge joins, in the order in which the pairs
first appear: `joinedEnds` are these pairs by name, `Roster.pairs` by identifier, and
`AddressPlan.links` the links with their interfaces.  While it adds them, the conductor collects for
each node the addresses at the other ends of its links, which are those of its peers.

`Wired` is this, in terms of the pairs that have been linked, and `Peopled.ensures_linkAll` follows
linking to its end.
-/

namespace ContactReplay

/-! ## Pairs and links -/

/-- The pairs of names that some lines join, each once, in the order in which they first appear. -/
def joinedEnds (lines : List EdgeLine) : List (Pair String) :=
  (lines.filterMap EdgeLine.namePair?).eraseDups

section JoinedEnds

variable {lines : List EdgeLine} {line : EdgeLine} {ends : Pair String}

theorem mem_joinedEnds : ends ∈ joinedEnds lines ↔ ∃ line ∈ lines, line.namePair? = some ends := by
  rw [joinedEnds, List.mem_eraseDups, List.mem_filterMap]

theorem eraseDups_append_singleton {α : Type} [DecidableEq α] (items : List α) (item : α) :
    (items ++ [item]).eraseDups =
      if item ∈ items.eraseDups then items.eraseDups else items.eraseDups ++ [item] := by
  rw [List.eraseDups_append]
  by_cases member : item ∈ items
  · rw [if_pos (List.mem_eraseDups.mpr member)]
    simp [List.removeAll, member]
  · rw [if_neg (List.mem_eraseDups.not.mpr member)]
    simp [List.removeAll, member, List.eraseDups_cons]

theorem joinedEnds_append_of_none (absent : line.namePair? = none) :
    joinedEnds (lines ++ [line]) = joinedEnds lines := by
  rw [joinedEnds, List.filterMap_append, List.filterMap_cons_none absent, List.filterMap_nil,
    List.append_nil, joinedEnds]

theorem joinedEnds_append_of_some (joins : line.namePair? = some ends) :
    joinedEnds (lines ++ [line]) =
      if ends ∈ joinedEnds lines then joinedEnds lines else joinedEnds lines ++ [ends] := by
  have appended := eraseDups_append_singleton (lines.filterMap EdgeLine.namePair?) ends
  rwa [joinedEnds, List.filterMap_append, List.filterMap_cons_some joins, List.filterMap_nil]

end JoinedEnds

namespace Roster

/-- The identifiers of two names. -/
def pair (roster : Roster) (ends : Pair String) : Pair NodeId :=
  .of (roster.node ends.low) (roster.node ends.high)

/-- The pairs of nodes that some lines join, each once, in the order in which they first appear. -/
def pairs (roster : Roster) (lines : List EdgeLine) : List (Pair NodeId) :=
  (joinedEnds lines).map roster.pair

theorem pair_of (roster : Roster) (first second : String) :
    roster.pair (.of first second) = .of (roster.node first) (roster.node second) := by
  rcases Pair.of_eq_or first second with ⟨low, high⟩ | ⟨low, high⟩
  · rw [pair, low, high]
  · rw [pair, low, high, Pair.of_comm]

section Enrolled

variable {roster : Roster} {registry : Registry} (enrols : roster.Enrols registry)
include enrols

theorem Enrols.pair?_eq_some_iff {first second : String} {found : Pair NodeId} :
    registry.pair? first second = some found ↔
      first ∈ roster.names ∧ second ∈ roster.names ∧ found = roster.pair (.of first second) := by
  simp only [Registry.pair?_eq_some_iff, enrols.id?_eq_some_iff, pair_of]
  constructor
  · rintro ⟨_, _, ⟨firstMember, rfl⟩, ⟨secondMember, rfl⟩, rfl⟩
    exact ⟨firstMember, secondMember, rfl⟩
  · rintro ⟨firstMember, secondMember, rfl⟩
    exact ⟨_, _, ⟨firstMember, rfl⟩, ⟨secondMember, rfl⟩, rfl⟩

/-- Different pairs of names on the roster have different pairs of identifiers. -/
theorem Enrols.pair_injective {ends other : Pair String}
    (low : ends.low ∈ roster.names) (high : ends.high ∈ roster.names)
    (otherLow : other.low ∈ roster.names) (otherHigh : other.high ∈ roster.names)
    (same : roster.pair ends = roster.pair other) : ends = other := by
  rw [← Pair.of_low_high ends, ← Pair.of_low_high other, Pair.of_eq_of_iff]
  rw [pair, pair, Pair.of_eq_of_iff] at same
  rcases same with ⟨lowSame, highSame⟩ | ⟨lowSame, highSame⟩
  · exact Or.inl ⟨enrols.node_injective low otherLow lowSame,
      enrols.node_injective high otherHigh highSame⟩
  · exact Or.inr ⟨enrols.node_injective low otherHigh lowSame,
      enrols.node_injective high otherLow highSame⟩

end Enrolled

end Roster

/-- The links of some pairs of nodes that are linked in order. -/
def AddressPlan.links (plan : AddressPlan) (pairs : List (Pair NodeId)) : List LinkDescription :=
  pairs.map fun pair =>
    ⟨pair.low, pair.high, (plan.allotment pairs pair).low, (plan.allotment pairs pair).high,
      Loss.down⟩

theorem AddressPlan.links_append_singleton (plan : AddressPlan) {pairs : List (Pair NodeId)}
    {pair : Pair NodeId} (new : pair ∉ pairs) :
    plan.links (pairs ++ [pair]) = plan.links pairs ++
      [⟨pair.low, pair.high, (plan.allotmentAfter pairs pair).low,
        (plan.allotmentAfter pairs pair).high, Loss.down⟩] := by
  rw [links, List.map_append, List.map_singleton, allotment_append_self new, links]
  congr 1
  exact List.map_congr_left fun other member => by rw [allotment_append member]

/-! ## Neighbours -/

/-- The node at the other end of a link of a node, with its address there. -/
def LinkDescription.peers (node : NodeId) (link : LinkDescription) :
    List (NodeId × Ipv4Address) :=
  (if link.first = node then [(link.second, link.secondInterface.ip4)] else []) ++
    if link.second = node then [(link.first, link.firstInterface.ip4)] else []

/-- The nodes at the other ends of the links of a node, with their addresses there. -/
def peersOf (links : List LinkDescription) (node : NodeId) : List (NodeId × Ipv4Address) :=
  links.flatMap (·.peers node)

/-- The addresses at the other ends of the links of a node, as texts. -/
def peerTexts (links : List LinkDescription) (node : NodeId) : List String :=
  (peersOf links node).map fun peer => toString peer.2

theorem peerTexts_append_singleton (links : List LinkDescription) (link : LinkDescription)
    (node : NodeId) :
    peerTexts (links ++ [link]) node = peerTexts links node ++
      ((if link.first = node then [toString link.secondInterface.ip4] else []) ++
        if link.second = node then [toString link.firstInterface.ip4] else []) := by
  rw [peerTexts, peersOf, List.flatMap_append, List.flatMap_singleton, List.map_append, peerTexts,
    peersOf, LinkDescription.peers]
  congr 1
  split <;> split <;> rfl

namespace Configurator

theorem of_collect {configurator next : Configurator} {node : NodeId} {address : String}
    (collected : configurator.collect node address = (.ok (), next)) :
    next.settings = configurator.settings ∧ next.configured = configurator.configured ∧
      ∀ other, next.addresses other =
        configurator.addresses other ++ if node = other then [address] else [] := by
  rw [collect] at collected
  split at collected
  · cases (Prod.mk.inj collected).1
  · obtain ⟨-, rfl⟩ := Prod.mk.inj collected
    refine ⟨rfl, rfl, fun other => ?_⟩
    by_cases same : node = other
    · subst same
      rw [if_pos rfl]
      simp only [addresses, Table.get?_insert_self, Option.getD_some]
    · rw [if_neg same, List.append_nil]
      simp only [addresses, Table.get?_insert_of_ne _ _ (Ne.symm same)]

/-- What is known about all daemons when some links have been added and nothing is configured. -/
structure Informed (configurator : Configurator) (settings : DaemonSettings)
    (links : List LinkDescription) : Prop where
  settings : configurator.settings = settings
  unconfigured : configurator.configured = ∅
  addresses : ∀ node, configurator.addresses node = peerTexts links node

/-- The ends of one more link are told each other's addresses. -/
theorem Informed.meet {configurator meeting next : Configurator} {settings : DaemonSettings}
    {links : List LinkDescription} (informed : configurator.Informed settings links)
    {link : LinkDescription}
    (first : configurator.collect link.first (toString link.secondInterface.ip4) =
      (.ok (), meeting))
    (second : meeting.collect link.second (toString link.firstInterface.ip4) = (.ok (), next)) :
    next.Informed settings (links ++ [link]) := by
  obtain ⟨settingsFirst, configuredFirst, addressesFirst⟩ := of_collect first
  obtain ⟨settingsSecond, configuredSecond, addressesSecond⟩ := of_collect second
  refine ⟨?_, ?_, fun node => ?_⟩
  · exact (settingsSecond.trans settingsFirst).trans informed.settings
  · exact (configuredSecond.trans configuredFirst).trans informed.unconfigured
  · rw [addressesSecond, addressesFirst, informed.addresses, List.append_assoc,
      peerTexts_append_singleton]

end Configurator

namespace Conductor

open Course

/-- Some pairs have been linked, after the calls of a log. -/
structure Wired (chosen : Settings) (files : Table FileName String) (template : String)
    (log : List Call) (id : SessionId) (roster : Roster) (pairs : List (Pair NodeId))
    (stand : Stand) : Prop where
  settings : stand.conductor.settings = chosen
  closed : stand.conductor.openEdges = ∅
  enrolled : roster.Enrols stand.conductor.registry
  templates : ∀ node text, stand.conductor.configs.get? node = some text ↔
    text = template ∧ ∃ name ∈ roster.names, node = roster.node name
  allots : stand.conductor.addresses.Allots chosen.addressing pairs
  informed : stand.conductor.daemons.Informed chosen.daemon (chosen.addressing.links pairs)
  logged : ∃ session, stand.rehearsal.Logged files
      (log ++ (chosen.addressing.links pairs).map (Call.addLink id)) id session ∧
    session.Pristine files ∧
    (chosen.controlNode.isSome = true → session.nodes.contains 1 = true)

section Link

variable {chosen : Settings} {files : Table FileName String} {template : String}
  {log : List Call} {id : SessionId} {roster : Roster} {pairs : List (Pair NodeId)}
  {lines : List EdgeLine} {stand : Stand}

theorem Peopled.wired (peopled : Peopled chosen files template log id roster stand)
    (phase : Phase) :
    Wired chosen files template (log ++ roster.additions chosen id) id roster []
      { stand with conductor := { stand.conductor with phase } } where
  settings := peopled.settings
  closed := peopled.closed
  enrolled := peopled.enrolled
  templates := peopled.templates
  allots := by
    dsimp only
    rw [peopled.addresses]
    exact AddressBook.allots_nil _
  informed := by
    dsimp only
    rw [peopled.daemons]
    exact ⟨rfl, rfl, fun _ => rfl⟩
  logged := by
    obtain ⟨session, logged, pristine, controlled⟩ := peopled.logged
    exact ⟨session, (List.append_nil _).symm ▸ logged, pristine, controlled⟩

theorem ensures_meetNeighbour (node : NodeId) (address : Ipv4Address) :
    (meetNeighbour node address).Ensures stand fun _ next => ∃ daemons,
      stand.conductor.daemons.collect node (toString address) = (.ok (), daemons) ∧
        next = { stand with conductor := { stand.conductor with daemons } } := by
  rw [meetNeighbour]
  refine ensures_bind_of_ok (perform_get stand) ?_
  rcases collected : stand.conductor.daemons.collect node (toString address) with
    ⟨outcome, daemons⟩
  refine ensures_bind_of_ok (perform_modify _ _) ?_
  cases outcome with
  | error error => exact ensures_of_error (perform_attempt _ (.error error))
  | ok => exact ensures_of_ok (perform_attempt _ (.ok ())) ⟨daemons, rfl, rfl⟩

theorem ensures_allot (pair : Pair NodeId) :
    (allot pair).Ensures stand fun given next => ∃ addresses,
      stand.conductor.addresses.allot pair = (.ok given, addresses) ∧
        next = { stand with conductor := { stand.conductor with addresses } } := by
  rcases served : stand.conductor.addresses.allot pair with ⟨outcome, addresses⟩
  cases outcome with
  | error error => exact ensures_of_error (perform_allot served)
  | ok given => exact ensures_of_ok (perform_allot served) ⟨addresses, rfl, rfl⟩

/-- A new pair gets the next link. -/
theorem Wired.ensures_addLink (wired : Wired chosen files template log id roster pairs stand)
    (small : chosen.addressing.subnetCapacity.toNat ≤ 256) {pair : Pair NodeId}
    (new : pair ∉ pairs) :
    (addLink id pair).Ensures stand fun _ next =>
      Wired chosen files template log id roster (pairs ++ [pair]) next := by
  obtain ⟨session, logged, pristine, controlled⟩ := wired.logged
  rw [addLink]
  refine ensures_bind (ensures_allot pair) ?_
  rintro given _ ⟨addresses, served, rfl⟩
  obtain ⟨rfl, allots⟩ := wired.allots.allot small new served
  refine ensures_bind (logged.ensures_sparing _ rfl) ?_
  rintro _ ⟨_, linked⟩ ⟨rfl, later, loggedLater, nodes⟩
  refine ensures_bind (ensures_meetNeighbour _ _) ?_
  rintro _ _ ⟨meeting, first, rfl⟩
  refine ensures_bind (ensures_meetNeighbour _ _) ?_
  rintro _ _ ⟨daemons, second, rfl⟩
  refine ensures_of_ok (perform_note _ _) ?_
  have links := chosen.addressing.links_append_singleton new
  refine ⟨wired.settings, wired.closed, wired.enrolled, wired.templates, allots, ?_, later, ?_, ?_,
    ?_⟩
  · rw [links]
    exact wired.informed.meet first second
  · rw [links, List.map_append, ← List.append_assoc]
    exact loggedLater
  · rw [Session.Pristine, nodes]
    exact pristine
  · rwa [nodes]

/-- The lines of a list have been gone through: their nodes are on the roster, and their pairs are
linked. -/
structure WiredBy (chosen : Settings) (files : Table FileName String) (template : String)
    (log : List Call) (id : SessionId) (roster : Roster) (lines : List EdgeLine) (stand : Stand) :
    Prop extends Wired chosen files template log id roster (roster.pairs lines) stand where
  known : ∀ line ∈ lines, ∀ name ∈ line.endNames, name ∈ roster.names

theorem ends_mem {names : List String} {first second : String} (firstMember : first ∈ names)
    (secondMember : second ∈ names) :
    (Pair.of first second).low ∈ names ∧ (Pair.of first second).high ∈ names := by
  rcases Pair.of_eq_or first second with ⟨low, high⟩ | ⟨low, high⟩
  · rw [low, high]
    exact ⟨firstMember, secondMember⟩
  · rw [low, high]
    exact ⟨secondMember, firstMember⟩

theorem ends_known (known : ∀ line ∈ lines, ∀ name ∈ line.endNames, name ∈ roster.names)
    {ends : Pair String} (member : ends ∈ joinedEnds lines) :
    ends.low ∈ roster.names ∧ ends.high ∈ roster.names := by
  obtain ⟨line, lineMember, joins⟩ := mem_joinedEnds.mp member
  cases line with
  | delete edge number => cases joins
  | add edge first second number =>
      have firstKnown := known _ lineMember first List.mem_cons_self
      have secondKnown := known _ lineMember second (by simp [EdgeLine.endNames])
      obtain rfl := Option.some.inj joins
      exact ends_mem firstKnown secondKnown

theorem WiredBy.ensures_linkEdge
    (wired : WiredBy chosen files template log id roster lines stand)
    (small : chosen.addressing.subnetCapacity.toNat ≤ 256) (line : EdgeLine) :
    (linkEdge id line).Ensures stand fun _ next =>
      WiredBy chosen files template log id roster (lines ++ [line]) next := by
  cases line with
  | delete edge number =>
      refine ensures_of_ok rfl ⟨?_, ?_⟩
      · rw [Roster.pairs, joinedEnds_append_of_none rfl]
        exact wired.toWired
      · exact List.forall_mem_append.mpr
          ⟨wired.known, List.forall_mem_singleton.mpr (List.forall_mem_nil _)⟩
  | add edge first second number =>
      rw [linkEdge]
      refine ensures_bind (ensures_resolvePair first second number) ?_
      rintro pair _ ⟨rfl, resolved⟩
      obtain ⟨firstKnown, secondKnown, rfl⟩ := wired.enrolled.pair?_eq_some_iff.mp resolved
      have known : ∀ line ∈ lines ++ [.add edge first second number],
          ∀ name ∈ line.endNames, name ∈ roster.names :=
        List.forall_mem_append.mpr ⟨wired.known, List.forall_mem_singleton.mpr
          (List.forall_mem_cons.mpr ⟨firstKnown, List.forall_mem_singleton.mpr secondKnown⟩)⟩
      have joins : (EdgeLine.add edge first second number).namePair? =
        some (.of first second) := rfl
      refine ensures_bind_of_ok (perform_get _) ?_
      by_cases old : Pair.of first second ∈ joinedEnds lines
      · have linked : roster.pair (.of first second) ∈ roster.pairs lines :=
          List.mem_map_of_mem old
        rw [wired.allots.allotments, if_pos linked]
        refine ensures_of_ok rfl ⟨?_, known⟩
        rw [Roster.pairs, joinedEnds_append_of_some joins, if_pos old]
        exact wired.toWired
      · have new : roster.pair (.of first second) ∉ roster.pairs lines := by
          intro linked
          obtain ⟨other, member, same⟩ := List.mem_map.mp linked
          obtain ⟨otherLow, otherHigh⟩ := ends_known wired.known member
          obtain ⟨low, high⟩ := ends_mem firstKnown secondKnown
          exact old (wired.enrolled.pair_injective otherLow otherHigh low high same ▸ member)
        rw [wired.allots.allotments, if_neg new]
        intro value next performed
        refine ⟨?_, known⟩
        rw [Roster.pairs, joinedEnds_append_of_some joins, if_neg old, List.map_append]
        exact wired.toWired.ensures_addLink small new value next performed

/-- Linking adds exactly the links of the pairs that some line joins. -/
theorem Peopled.ensures_linkAll (peopled : Peopled chosen files template log id roster stand)
    (small : chosen.addressing.subnetCapacity.toNat ≤ 256) (phase : Phase)
    (steps : List DocumentStep) :
    (linkAll id steps).Ensures { stand with conductor := { stand.conductor with phase } }
      fun _ next => WiredBy chosen files template (log ++ roster.additions chosen id) id roster
        (steps.flatMap (·.lines)) next := by
  rw [linkAll, forM_flatMap]
  exact ensures_forM_done (fun done line current now => now.ensures_linkEdge small line)
    ⟨peopled.wired phase, List.forall_mem_nil _⟩

end Link

end Conductor

end ContactReplay
