import ContactReplay.Proofs.Replay.Protocol

/-!
# Neighbours

After a replay that has succeeded, every node that takes part knows exactly its neighbours, which
are the nodes that some line joins it with: its configuration lists one address for each of them,
the one at the other end of their link, in the order in which the links were added.  `Acquainted`
says so in terms of the log of the replay and the session that it leaves.

A pair of nodes is linked once however often it is joined and in whichever order its nodes are
named, and an address belongs to one end of one link.  So the address of a node is listed at its
neighbour exactly if the address of the neighbour is listed at the node.
-/

namespace ContactReplay

/-! ## Peers -/

section Peers

variable {links : List LinkDescription} {node other : NodeId}

theorem mem_peersOf {peer : NodeId × Ipv4Address} :
    peer ∈ peersOf links node ↔ ∃ link ∈ links,
      (link.first = node ∧ peer = (link.second, link.secondInterface.ip4)) ∨
        (link.second = node ∧ peer = (link.first, link.firstInterface.ip4)) := by
  simp only [peersOf, LinkDescription.peers, List.mem_flatMap, List.mem_append]
  refine exists_congr fun link => and_congr_right fun _ => or_congr ?_ ?_
  · split <;> simp_all
  · split <;> simp_all

theorem count_peers (link : LinkDescription) (different : other ≠ node) :
    ((link.peers node).map Prod.fst).count other =
      if link.pair = .of other node then 1 else 0 := by
  simp only [LinkDescription.peers, LinkDescription.pair, Pair.of_eq_of_iff]
  by_cases here : link.first = node
  · by_cases there : link.second = node
    · simp [here, there, different.symm]
    · simp [here, there, different.symm, List.count_singleton]
  · by_cases there : link.second = node
    · simp [here, there, List.count_singleton]
    · simp [here, there]

/-- Another node is a peer of a node as often as the two are linked. -/
theorem count_peersOf (different : other ≠ node) :
    ((peersOf links node).map Prod.fst).count other =
      (links.map LinkDescription.pair).count (.of other node) := by
  induction links with
  | nil => rfl
  | cons link rest inductionHypothesis =>
      have opened : peersOf (link :: rest) node = link.peers node ++ peersOf rest node := rfl
      rw [opened, List.map_append, List.count_append, inductionHypothesis,
        count_peers link different, List.map_cons, List.count_cons, Nat.add_comm]
      simp only [beq_iff_eq]

end Peers

/-! ## Links with addresses of their own -/

section Links

variable {plan : AddressPlan} {pairs : List (Pair NodeId)} {link other : LinkDescription}

theorem AddressPlan.map_pair_links (plan : AddressPlan) (pairs : List (Pair NodeId)) :
    (plan.links pairs).map LinkDescription.pair = pairs := by
  rw [links, List.map_map]
  exact (List.map_congr_left fun pair _ => Pair.of_low_high pair).trans (List.map_id pairs)

/-- The addresses of the links of a plan: different links have different subnets, and the ends of a
link are different hosts. -/
theorem AddressPlan.links_apart (few : pairs.length ≤ 256) (hosts : plan.lowHost ≠ plan.highHost)
    (member : link ∈ plan.links pairs) (otherMember : other ∈ plan.links pairs) :
    (link.firstInterface.ip4 = other.firstInterface.ip4 → link = other) ∧
      (link.secondInterface.ip4 = other.secondInterface.ip4 → link = other) ∧
      link.firstInterface.ip4 ≠ other.secondInterface.ip4 := by
  obtain ⟨pair, pairMember, rfl⟩ := List.mem_map.mp member
  obtain ⟨otherPair, otherPairMember, rfl⟩ := List.mem_map.mp otherMember
  refine ⟨fun same => ?_, fun same => ?_, fun same => ?_⟩
  · have sameSubnet := (address_injective same).1
    rw [@subnet_injective plan _ _ _ few pairMember otherPairMember sameSubnet]
  · have sameSubnet := (address_injective same).1
    rw [@subnet_injective plan _ _ _ few pairMember otherPairMember sameSubnet]
  · exact hosts (address_injective same).2

/-- The address of an end of a link is listed at the other end and nowhere else. -/
theorem AddressPlan.mem_peersOf_links_iff (few : pairs.length ≤ 256)
    (hosts : plan.lowHost ≠ plan.highHost) (member : link ∈ plan.links pairs) (node : NodeId) :
    (link.secondInterface.ip4 ∈ (peersOf (plan.links pairs) node).map Prod.snd ↔
        node = link.first) ∧
      (link.firstInterface.ip4 ∈ (peersOf (plan.links pairs) node).map Prod.snd ↔
        node = link.second) := by
  have apart := fun {other} => @links_apart plan pairs link other few hosts member
  have apartFrom := fun {other} (otherMember : other ∈ plan.links pairs) =>
    links_apart few hosts otherMember member
  refine ⟨⟨fun listed => ?_, fun same => ?_⟩, ⟨fun listed => ?_, fun same => ?_⟩⟩
  · obtain ⟨peer, peerMember, same⟩ := List.mem_map.mp listed
    obtain ⟨other, otherMember, ⟨rfl, rfl⟩ | ⟨rfl, rfl⟩⟩ := mem_peersOf.mp peerMember
    · rw [(apart otherMember).2.1 same.symm]
    · exact absurd same (apartFrom otherMember).2.2
  · exact List.mem_map.mpr ⟨_, mem_peersOf.mpr ⟨link, member, Or.inl ⟨same.symm, rfl⟩⟩, rfl⟩
  · obtain ⟨peer, peerMember, same⟩ := List.mem_map.mp listed
    obtain ⟨other, otherMember, ⟨rfl, rfl⟩ | ⟨rfl, rfl⟩⟩ := mem_peersOf.mp peerMember
    · exact absurd same.symm (apart otherMember).2.2
    · rw [(apart otherMember).1 same.symm]
  · exact List.mem_map.mpr ⟨_, mem_peersOf.mpr ⟨link, member, Or.inr ⟨same.symm, rfl⟩⟩, rfl⟩

end Links

/-! ## Links and files in a log -/

namespace Call

def addedLink? : Call → Option LinkDescription
  | .addLink _ link => some link
  | _ => none

def writtenNode? : Call → Option NodeId
  | .setFile _ node _ _ => some node
  | _ => none

/-- A call that neither adds a link nor writes a file. -/
def Spares (call : Call) : Prop := call.addedLink? = none ∧ call.writtenNode? = none

end Call

namespace Conductor

section Log

variable {settings : Settings} {document : Document} {template : String}
  {changes : List (Pair String × Loss)} {session : SessionId} {call : Call}

theorem spares_of_mem_openingCalls (member : call ∈ openingCalls settings session) :
    call.Spares := by
  simp only [openingCalls, sessionCalls, List.mem_append, List.mem_cons, List.not_mem_nil,
    or_false, Option.mem_toList, Option.map_eq_some_iff] at member
  rcases member with ((rfl | rfl) | ⟨net, _, rfl⟩) | ⟨node, _, rfl⟩ <;> exact ⟨rfl, rfl⟩

theorem spares_of_mem_additions {roster : Roster}
    (member : call ∈ roster.additions settings session) : call.Spares := by
  obtain ⟨⟨name, slot⟩, _, added⟩ := List.mem_flatMap.mp member
  simp only [List.mem_cons, List.not_mem_nil, or_false] at added
  rcases added with rfl | rfl <;> exact ⟨rfl, rfl⟩

/-- Links and files are only found where a replay adds links and writes files. -/
theorem filterMap_protocol {α : Type} {project : Call → Option α}
    (silent : ∀ call, call.Spares → project call = none) :
    (protocol settings document template changes session).filterMap project =
      ((settings.addressing.links ((Roster.ofDocument settings document).pairs
            (document.chosenLines settings))).filterMap fun link =>
          project (.addLink session link)) ++
        (configCalls settings template session (Roster.ofDocument settings document)
          ((Roster.ofDocument settings document).pairs (document.chosenLines settings))
          (Roster.ofDocument settings document).names).filterMap project := by
  have opens : (openingCalls settings session).filterMap project = [] :=
    List.filterMap_eq_nil_iff.mpr fun call member => silent call (spares_of_mem_openingCalls member)
  have adds : ((Roster.ofDocument settings document).additions settings session).filterMap
      project = [] :=
    List.filterMap_eq_nil_iff.mpr fun call member => silent call (spares_of_mem_additions member)
  have adjusts : ∀ roster pairs,
      (changes.map (changeCall settings roster pairs session)).filterMap project = [] := by
    intro roster pairs
    refine List.filterMap_eq_nil_iff.mpr fun call member => ?_
    obtain ⟨change, _, rfl⟩ := List.mem_map.mp member
    exact silent _ ⟨rfl, rfl⟩
  have starts : [Call.setMode session .instantiation].filterMap project = [] :=
    List.filterMap_cons_none (silent _ ⟨rfl, rfl⟩)
  have ends : [Call.teardown session].filterMap project = [] :=
    List.filterMap_cons_none (silent _ ⟨rfl, rfl⟩)
  simp only [protocol, List.filterMap_append, opens, adds, adjusts, starts, ends,
    List.filterMap_map, List.nil_append, List.append_nil]
  rfl

/-- The links in the log of a replay are those of its pairs. -/
theorem filterMap_addedLink?_protocol :
    (protocol settings document template changes session).filterMap Call.addedLink? =
      settings.addressing.links ((Roster.ofDocument settings document).pairs
        (document.chosenLines settings)) := by
  have files : ∀ roster pairs names, (configCalls settings template session roster pairs
      names).filterMap Call.addedLink? = [] := by
    intro roster pairs names
    rw [configCalls, List.filterMap_map]
    exact List.filterMap_eq_nil_iff.mpr fun _ _ => rfl
  rw [filterMap_protocol fun _ spares => spares.1, files, List.append_nil]
  exact List.filterMap_some

/-- The files in the log of a replay are those of the nodes that take part. -/
theorem filterMap_writtenNode?_protocol :
    (protocol settings document template changes session).filterMap Call.writtenNode? =
      (Roster.ofDocument settings document).names.map
        (Roster.ofDocument settings document).node := by
  have linked : ∀ links : List LinkDescription,
      (links.filterMap fun link => (Call.addLink session link).writtenNode?) = [] :=
    fun links => List.filterMap_eq_nil_iff.mpr fun _ _ => rfl
  rw [filterMap_protocol fun _ spares => spares.2, linked, List.nil_append, configCalls,
    List.filterMap_map]
  exact congrFun List.filterMap_eq_map _

end Log

theorem check_of_start {settings : Settings} {conductor : Conductor}
    (accepted : start settings = .ok conductor) : settings.addressing.check = .ok () := by
  rw [start, AddressBook.start] at accepted
  cases checked : settings.check with
  | error cause =>
      rw [checked] at accepted
      cases accepted
  | ok _ =>
      cases planned : settings.addressing.check with
      | error cause =>
          rw [checked, planned] at accepted
          cases accepted
      | ok _ => rfl

end Conductor

/-! ## What nodes know of each other -/

/-- What the nodes of a session know of each other after the calls of a replay. -/
structure Acquainted (settings : Settings) (document : Document) (files : Table FileName String)
    (template : String) (calls : List Call) (session : Session) : Prop where
  /-- The configuration of a node lists the addresses at the other ends of its links in the order in
  which these were added.  Nothing else of its files has changed. -/
  told : ∀ name ∈ (Roster.ofDocument settings document).names, ∃ node,
    session.nodes.get? ((Roster.ofDocument settings document).node name) = some node ∧
      node.files = files.insert ⟨settings.service, settings.configFile⟩
        (settings.daemon.filled (peerTexts (calls.filterMap Call.addedLink?)
          ((Roster.ofDocument settings document).node name)) template)
  /-- A neighbour contributes one address, however often it is joined with the node. -/
  once : ∀ name ∈ (Roster.ofDocument settings document).names,
    ∀ other ∈ (Roster.ofDocument settings document).names, other ≠ name →
      ((peersOf (calls.filterMap Call.addedLink?)
          ((Roster.ofDocument settings document).node name)).map Prod.fst).count
          ((Roster.ofDocument settings document).node other) =
        if Pair.of other name ∈ joinedEnds (document.chosenLines settings) then 1 else 0
  /-- Nobody else contributes any. -/
  only : ∀ name ∈ (Roster.ofDocument settings document).names,
    ∀ peer ∈ peersOf (calls.filterMap Call.addedLink?)
        ((Roster.ofDocument settings document).node name),
      ∃ other ∈ (Roster.ofDocument settings document).names,
        peer.1 = (Roster.ofDocument settings document).node other ∧
        Pair.of other name ∈ joinedEnds (document.chosenLines settings)
  /-- The address of an end of a link is listed at the other end and nowhere else. -/
  shared : ∀ link ∈ calls.filterMap Call.addedLink?, ∀ node,
    (link.secondInterface.ip4 ∈ (peersOf (calls.filterMap Call.addedLink?) node).map Prod.snd ↔
        node = link.first) ∧
      (link.firstInterface.ip4 ∈ (peersOf (calls.filterMap Call.addedLink?) node).map Prod.snd ↔
        node = link.second)
  /-- A control node keeps the files that it began with. -/
  control : settings.controlNode.isSome = true →
    (∃ node, session.nodes.get? 1 = some node ∧ node.files = files) ∧
      1 ∉ calls.filterMap Call.writtenNode?

namespace Roster

variable {roster : Roster} {registry : Registry} {lines : List EdgeLine}

/-- The nodes that are linked are those that some line joins. -/
theorem Enrols.mem_pairs_iff (enrols : roster.Enrols registry)
    (known : ∀ line ∈ lines, ∀ name ∈ line.endNames, name ∈ roster.names) {first second : String}
    (firstMember : first ∈ roster.names) (secondMember : second ∈ roster.names) :
    Pair.of (roster.node first) (roster.node second) ∈ roster.pairs lines ↔
      Pair.of first second ∈ joinedEnds lines := by
  rw [← pair_of, pairs, List.mem_map]
  constructor
  · rintro ⟨ends, member, same⟩
    obtain ⟨low, high⟩ := Conductor.ends_known known member
    obtain ⟨givenLow, givenHigh⟩ := Conductor.ends_mem firstMember secondMember
    exact enrols.pair_injective low high givenLow givenHigh same ▸ member
  · exact fun member => ⟨_, member, rfl⟩

/-- The peers of a node are the nodes that some line joins it with. -/
theorem Enrols.exists_of_mem_peersOf (enrols : roster.Enrols registry)
    (known : ∀ line ∈ lines, ∀ name ∈ line.endNames, name ∈ roster.names) {plan : AddressPlan}
    {name : String} (nameMember : name ∈ roster.names) {peer : NodeId × Ipv4Address}
    (member : peer ∈ peersOf (plan.links (roster.pairs lines)) (roster.node name)) :
    ∃ other ∈ roster.names, peer.1 = roster.node other ∧ Pair.of other name ∈ joinedEnds lines := by
  obtain ⟨link, linkMember, isEnd⟩ := mem_peersOf.mp member
  obtain ⟨pair, pairMember, rfl⟩ := List.mem_map.mp linkMember
  obtain ⟨ends, endsMember, rfl⟩ := List.mem_map.mp pairMember
  obtain ⟨low, high⟩ := Conductor.ends_known known endsMember
  have samePair : roster.pair ends = .of peer.1 (roster.node name) := by
    rw [← Pair.of_low_high (roster.pair ends)]
    rcases isEnd with ⟨same, rfl⟩ | ⟨same, rfl⟩
    · rw [← same, Pair.of_comm]
    · rw [← same]
  have enrolled : ∃ other ∈ roster.names, peer.1 = roster.node other := by
    rcases Pair.of_eq_of_iff.mp samePair with ⟨same, -⟩ | ⟨-, same⟩
    · exact ⟨_, low, same.symm⟩
    · exact ⟨_, high, same.symm⟩
  obtain ⟨other, otherMember, same⟩ := enrolled
  refine ⟨other, otherMember, same, (enrols.mem_pairs_iff known otherMember nameMember).mp ?_⟩
  rw [← same, ← samePair]
  exact pairMember

end Roster

namespace Rehearsal

open Conductor

/-- After a replay that has succeeded, every node that takes part has been told the addresses of
exactly its neighbours. -/
theorem replay_acquainted {settings : Settings} {conductor : Conductor} {rehearsal : Rehearsal}
    {document : Document} {template : String} {report : Report}
    (accepted : Conductor.start settings = .ok conductor)
    (stocked : rehearsal.testbed.serviceFiles.get? ⟨settings.service, settings.configFile⟩ =
      some template)
    (succeeded : (rehearsal.replay conductor document).1 = .ok report) :
    ∃ session calls,
      (rehearsal.replay conductor document).2.2.testbed.session?
        rehearsal.testbed.nextSession.next = some session ∧
      (rehearsal.replay conductor document).2.2.testbed.calls = rehearsal.testbed.calls ++ calls ∧
      Acquainted settings document rehearsal.testbed.serviceFiles template calls session := by
  have concluded := concluded_of_ok accepted stocked succeeded
  have hosts := (AddressPlan.check_eq_ok_iff.mp (check_of_start accepted)).2.2.1
  obtain ⟨registry, enrols⟩ := concluded.enrolled
  obtain ⟨session, changes, changed, logged, written, controlled⟩ := concluded.logged
  refine ⟨session, _, logged.held, logged.calls, ?_, ?_, ?_, ?_, fun control => ?_⟩
  · intro name member
    have listed := List.mem_map_of_mem (f := (Roster.ofDocument settings document).node) member
    obtain ⟨node, held⟩ := Option.isSome_iff_exists.mp (written.present _ listed)
    refine ⟨node, held, ?_⟩
    rw [filterMap_addedLink?_protocol]
    exact written.files_of_mem held listed
  · intro name member other otherMember different
    have apart := fun same => different (enrols.node_injective otherMember member same)
    have joined := enrols.mem_pairs_iff concluded.known otherMember member
    rw [filterMap_addedLink?_protocol, count_peersOf apart, AddressPlan.map_pair_links]
    split
    · exact List.count_eq_one_of_mem concluded.distinct (joined.mpr ‹_›)
    · exact List.count_eq_zero.mpr (joined.not.mpr ‹_›)
  · intro name member peer
    rw [filterMap_addedLink?_protocol]
    exact enrols.exists_of_mem_peersOf concluded.known member
  · rw [filterMap_addedLink?_protocol]
    exact fun link member => AddressPlan.mem_peersOf_links_iff concluded.room hosts member
  · have absent : 1 ∉ (Roster.ofDocument settings document).names.map
        (Roster.ofDocument settings document).node := by
      intro listed
      obtain ⟨name, member, same⟩ := List.mem_map.mp listed
      have number := Roster.toNat_node concluded.few member
      have first : (Roster.ofDocument settings document).first = 2 := if_pos control
      rw [same, first] at number
      exact absurd number (by have one : (1 : NodeId).toNat = 1 := rfl; omega)
    obtain ⟨node, held⟩ := Option.isSome_iff_exists.mp (controlled control)
    rw [filterMap_writtenNode?_protocol]
    exact ⟨⟨node, held, written.files_of_notMem held absent⟩, absent⟩

/-- A rehearsal whose nodes have a configuration file with a place for addresses. -/
def furnished : Rehearsal where
  testbed := { serviceFiles := .ofList [(⟨"dtnd", "dtnd.toml"⟩, "# [discovery_destinations]\n")] }

/-- Three nodes in a row, two of which are joined again the other way round. -/
def chain : Document where
  header := ⟨"contacts", 3, 7⟩
  nodes := ["a", "b", "c"]
  steps := [⟨1, 7, [.add "e0" "a" "b" 8, .add "e1" "b" "c" 9]⟩,
    ⟨2, 10, [.delete "e0" 11, .add "e2" "b" "a" 12]⟩]

theorem replay_acquainted_chain :
    ∃ session calls,
      (furnished.replay (fresh { controlNode := some {} }) chain).2.2.testbed.session? 1 =
        some session ∧
      (furnished.replay (fresh { controlNode := some {} }) chain).2.2.testbed.calls = calls ∧
      Acquainted { controlNode := some {} } chain furnished.testbed.serviceFiles
        "# [discovery_destinations]\n" calls session :=
  @replay_acquainted { controlNode := some {} } (fresh _) furnished chain
    "# [discovery_destinations]\n" ⟨3, 0, 2, 2, 3, 1⟩ rfl (by decide) (by decide +kernel)

end Rehearsal

end ContactReplay
