import ContactReplay.Proofs.Replay.Neighbours

/-!
# Extending a replay

With a larger limit of steps more nodes may take part, and those that took part before may get other
identifiers.  Their links keep everything else.  The longer replay adds the links of the shorter one
first and in the same order, and each of them has the same subnet and the same interfaces at the
same names.

Identifiers follow the order of declaration, so it can be told from the names alone which end of a
link is the smaller node (`Roster.sides`).  An allotment only counts how often its nodes were ends
before, which is how often their names were: `AddressPlan.allotmentByName` is the same allotment
without identifiers.
-/

namespace ContactReplay

/-! ## Beginnings -/

/-- A longer list has the same item at a place, after the same items. -/
theorem take_of_prefix {α : Type} {items longer : List α} (begins : items <+: longer) {place : Nat}
    {item : α} (held : items[place]? = some item) :
    longer[place]? = some item ∧ longer.take place = items.take place := by
  obtain ⟨bound, -⟩ := List.getElem?_eq_some_iff.mp held
  obtain ⟨rest, rfl⟩ := begins
  exact ⟨(List.getElem?_append_left bound).trans held,
    List.take_append_of_le_length (Nat.le_of_lt bound)⟩

theorem prefix_joinedEnds {lines longer : List EdgeLine} (begins : lines <+: longer) :
    joinedEnds lines <+: joinedEnds longer := by
  obtain ⟨later, rfl⟩ := begins
  rw [joinedEnds, joinedEnds, List.filterMap_append, List.eraseDups_append]
  exact List.prefix_append _ _

/-- Fewer steps have the first lines of more steps. -/
theorem Document.prefix_chosenLines (document : Document) (settings : Settings)
    {count later : UInt64} (atMost : count ≤ later) :
    document.chosenLines { settings with maxSteps := some count } <+:
      document.chosenLines { settings with maxSteps := some later } := by
  obtain ⟨rest, same⟩ : document.steps.take count.toNat <+: document.steps.take later.toNat :=
    List.take_prefix_take_left (UInt64.le_iff_toNat_le.mp atMost)
  refine ⟨rest.flatMap (·.lines), ?_⟩
  rw [chosenLines, chosenLines, ← List.flatMap_append, Conductor.chooseSteps, Conductor.chooseSteps]
  exact congrArg _ same

/-- A part of a list has its items in the same order. -/
theorem idxOf_le_iff_of_sublist {α : Type} [DecidableEq α] {items longer : List α}
    (sublist : items.Sublist longer) (distinct : longer.Nodup) {first second : α}
    (firstMember : first ∈ items) (secondMember : second ∈ items) :
    longer.idxOf first ≤ longer.idxOf second ↔ items.idxOf first ≤ items.idxOf second := by
  have ascending := List.pairwise_iff_getElem.mp ((pairwise_idxOf_lt distinct).sublist sublist)
  have before : ∀ {earlier later : α}, earlier ∈ items → later ∈ items →
      items.idxOf earlier < items.idxOf later → longer.idxOf earlier < longer.idxOf later := by
    intro earlier later earlierMember laterMember lower
    have places := ascending _ _ (List.idxOf_lt_length_of_mem earlierMember)
      (List.idxOf_lt_length_of_mem laterMember) lower
    rwa [List.getElem_idxOf, List.getElem_idxOf] at places
  constructor
  · intro inOrder
    by_contra swapped
    exact Nat.not_lt.mpr inOrder (before secondMember firstMember (Nat.not_le.mp swapped))
  · intro inOrder
    rcases Nat.lt_or_eq_of_le inOrder with lower | same
    · exact Nat.le_of_lt (before firstMember secondMember lower)
    · rw [(List.idxOf_inj firstMember).mp same]

/-! ## Allotments by name -/

/-- The ends of some links, one after the other. -/
def namedEnds (links : List (String × String)) : List String :=
  links.flatMap fun sides => [sides.1, sides.2]

namespace AddressPlan

/-- The interface that a name gets after some ends have got theirs. -/
def interfaceByName (plan : AddressPlan) (ends : List String) (name : String)
    (subnet host : UInt8) : Interface where
  id := UInt32.ofNat (ends.count name)
  mac := .ofSequence (UInt32.ofNat ends.length)
  ip4 := plan.address subnet host
  maskLength := plan.maskLength

/-- What two names get after some other pairs of names, always with the smaller node first. -/
def allotmentByName (plan : AddressPlan) (before : List (String × String))
    (sides : String × String) : Allotment :=
  let subnet := UInt8.ofNat before.length
  { subnet
    low := plan.interfaceByName (namedEnds before) sides.1 subnet plan.lowHost
    high := plan.interfaceByName (namedEnds before ++ [sides.1]) sides.2 subnet plan.highHost }

end AddressPlan

namespace Roster

/-- Two names in the order in which they are declared. -/
def sides (roster : Roster) (ends : Pair String) : String × String :=
  if roster.names.idxOf ends.low ≤ roster.names.idxOf ends.high then (ends.low, ends.high)
  else (ends.high, ends.low)

section Numbered

variable {roster : Roster} {ends : Pair String}

/-- Both ends of a pair are on the roster. -/
def Lists (roster : Roster) (ends : Pair String) : Prop :=
  ends.low ∈ roster.names ∧ ends.high ∈ roster.names

theorem Lists.sides (lists : roster.Lists ends) :
    (roster.sides ends).1 ∈ roster.names ∧ (roster.sides ends).2 ∈ roster.names := by
  rw [Roster.sides]
  split
  · exact lists
  · exact lists.symm

/-- A longer roster tells the ends of a pair apart as a shorter one does. -/
theorem sides_eq_of_sublist {longer : Roster} (sublist : roster.names.Sublist longer.names)
    (distinct : longer.names.Nodup) (lists : roster.Lists ends) :
    longer.sides ends = roster.sides ends := by
  simp only [sides, idxOf_le_iff_of_sublist sublist distinct lists.1 lists.2]

/-- The interface of a node depends on how often its name was an end. -/
theorem Enrols.interfaceAfter_map_node {registry : Registry} (enrols : roster.Enrols registry)
    (plan : AddressPlan) {names : List String} (listed : ∀ past ∈ names, past ∈ roster.names)
    {name : String} (member : name ∈ roster.names) (subnet host : UInt8) :
    plan.interfaceAfter (names.map roster.node) (roster.node name) subnet host =
      plan.interfaceByName names name subnet host := by
  have count : (names.map roster.node).count (roster.node name) = names.count name := by
    rw [List.count, List.countP_map]
    refine List.countP_congr fun past pastMember => ?_
    simp only [Function.comp_apply, beq_iff_eq]
    exact ⟨enrols.node_injective (listed past pastMember) member, congrArg roster.node⟩
  rw [AddressPlan.interfaceAfter, AddressPlan.interfaceByName, count, List.length_map]

variable (few : roster.first + roster.names.length < UInt32.size)
include few

theorem node_le_iff {first second : String} (firstMember : first ∈ roster.names)
    (secondMember : second ∈ roster.names) :
    roster.node first ≤ roster.node second ↔
      roster.names.idxOf first ≤ roster.names.idxOf second := by
  rw [UInt32.le_iff_toNat_le, toNat_node few firstMember, toNat_node few secondMember,
    Nat.add_le_add_iff_left]

/-- The smaller node of a pair is the one that is declared first. -/
theorem pair_eq_sides (lists : roster.Lists ends) :
    (roster.pair ends).low = roster.node (roster.sides ends).1 ∧
      (roster.pair ends).high = roster.node (roster.sides ends).2 := by
  have order := Std.isLE_compare.trans (node_le_iff few lists.1 lists.2)
  rw [pair, sides, Pair.of]
  by_cases before : roster.names.idxOf ends.low ≤ roster.names.idxOf ends.high
  · rw [if_pos before, dif_pos (order.mpr before)]
    exact ⟨rfl, rfl⟩
  · rw [if_neg before, dif_neg (order.not.mpr before)]
    exact ⟨rfl, rfl⟩

/-- The ends of linked nodes are the nodes of the ends. -/
theorem linkEnds_map_pair {all : List (Pair String)} (lists : ∀ ends ∈ all, roster.Lists ends) :
    linkEnds (all.map roster.pair) = (namedEnds (all.map roster.sides)).map roster.node := by
  rw [linkEnds, namedEnds, List.flatMap_map, List.flatMap_map, List.map_flatMap]
  refine List.flatMap_congr fun ends member => ?_
  obtain ⟨low, high⟩ := pair_eq_sides few (lists ends member)
  rw [low, high]
  rfl

/-- The allotment of a pair of nodes is that of their names. -/
theorem allotmentAfter_map_pair {registry : Registry} (enrols : roster.Enrols registry)
    (plan : AddressPlan) {before : List (Pair String)}
    (listed : ∀ past ∈ before, roster.Lists past) (lists : roster.Lists ends) :
    plan.allotmentAfter (before.map roster.pair) (roster.pair ends) =
      plan.allotmentByName (before.map roster.sides) (roster.sides ends) := by
  have namesListed : ∀ past ∈ namedEnds (before.map roster.sides), past ∈ roster.names := by
    simp only [namedEnds, List.flatMap_map, List.mem_flatMap, List.mem_cons, List.not_mem_nil,
      or_false]
    rintro _ ⟨past, member, rfl | rfl⟩
    · exact (listed past member).sides.1
    · exact (listed past member).sides.2
  obtain ⟨lowMember, highMember⟩ := lists.sides
  obtain ⟨low, high⟩ := pair_eq_sides few lists
  have first := enrols.interfaceAfter_map_node plan namesListed lowMember
  have second := enrols.interfaceAfter_map_node plan (List.forall_mem_append.mpr
    ⟨namesListed, List.forall_mem_singleton.mpr lowMember⟩) highMember
  rw [List.map_append, List.map_singleton] at second
  rw [AddressPlan.allotmentAfter, AddressPlan.allotmentByName, low, high,
    linkEnds_map_pair few listed, List.length_map, List.length_map]
  simp only [first, second]

end Numbered

end Roster

theorem AddressPlan.getElem?_links (plan : AddressPlan) {pairs : List (Pair NodeId)} {place : Nat}
    {pair : Pair NodeId} (held : pairs[place]? = some pair) :
    (plan.links pairs)[place]? = some ⟨pair.low, pair.high, (plan.allotment pairs pair).low,
      (plan.allotment pairs pair).high, Loss.down⟩ := by
  rw [links, List.getElem?_map, held, Option.map_some]

theorem AddressPlan.allotment_of_getElem? (plan : AddressPlan) {pairs : List (Pair NodeId)}
    (distinct : pairs.Nodup) {place : Nat} {pair : Pair NodeId}
    (held : pairs[place]? = some pair) :
    plan.allotment pairs pair = plan.allotmentAfter (pairs.take place) pair := by
  obtain ⟨bound, rfl⟩ := List.getElem?_eq_some_iff.mp held
  rw [allotment, distinct.idxOf_getElem]

/-! ## Links of a replay -/

theorem Roster.exists_mem_additions {roster : Roster} (settings : Settings) (session : SessionId)
    {name : String} (member : name ∈ roster.names) :
    ∃ description, Call.addNode session description ∈ roster.additions settings session ∧
      description.id = roster.node name ∧ description.name = name := by
  have placed := List.mk_mem_zipIdx_iff_getElem?.mpr (List.getElem?_idxOf member)
  exact ⟨_, List.mem_flatMap.mpr ⟨_, placed, List.mem_cons_self⟩, rfl, rfl⟩

namespace Conductor

/-- A name is bound to a node, and the node has been added under this name. -/
structure Names (conductor : Conductor) (calls : List Call) (name : String) (node : NodeId) :
    Prop where
  bound : conductor.registry.id? name = some node
  added : ∃ session description, Call.addNode session description ∈ calls ∧
    description.id = node ∧ description.name = name

/-- A link joins two names, and it has the interfaces that its nodes have been given. -/
structure Joins (conductor : Conductor) (calls : List Call) (first second : String)
    (given : Allotment) (link : LinkDescription) : Prop where
  first : conductor.Names calls first link.first
  second : conductor.Names calls second link.second
  allotted : conductor.addresses.get? link.pair = some given
  firstInterface : link.firstInterface = given.low
  secondInterface : link.secondInterface = given.high

variable {settings : Settings} {document : Document} {conductor : Conductor} {template : String}
  {changes : List (Pair String × Loss)} {session : SessionId}

theorem Versed.names (versed : Versed settings document conductor) {name : String}
    (member : name ∈ (Roster.ofDocument settings document).names) :
    conductor.Names (protocol settings document template changes session) name
      ((Roster.ofDocument settings document).node name) := by
  refine ⟨versed.enrolled.id?_eq_some_iff.mpr ⟨member, rfl⟩, session, ?_⟩
  obtain ⟨description, added, same⟩ := Roster.exists_mem_additions settings session member
  refine ⟨description, ?_, same⟩
  simp only [protocol, List.append_assoc, List.mem_append]
  exact Or.inr (Or.inl added)

/-- The pair at a place is linked at this place, with what its names get there. -/
theorem Versed.exists_joins (versed : Versed settings document conductor) {place : Nat}
    {ends : Pair String}
    (held : (joinedEnds (document.chosenLines settings))[place]? = some ends) :
    ∃ link,
      ((protocol settings document template changes session).filterMap Call.addedLink?)[place]? =
        some link ∧
      conductor.Joins (protocol settings document template changes session)
        ((Roster.ofDocument settings document).sides ends).1
        ((Roster.ofDocument settings document).sides ends).2
        (settings.addressing.allotmentByName
          (((joinedEnds (document.chosenLines settings)).take place).map
            (Roster.ofDocument settings document).sides)
          ((Roster.ofDocument settings document).sides ends)) link := by
  have listed : ∀ past ∈ joinedEnds (document.chosenLines settings),
      (Roster.ofDocument settings document).Lists past := fun past => ends_known versed.known
  have lists := listed ends (List.mem_of_getElem? held)
  have paired : ((Roster.ofDocument settings document).pairs
      (document.chosenLines settings))[place]? =
      some ((Roster.ofDocument settings document).pair ends) := by
    rw [Roster.pairs, List.getElem?_map, held, Option.map_some]
  obtain ⟨low, high⟩ := Roster.pair_eq_sides versed.few lists
  have allotted := settings.addressing.allotment_of_getElem? versed.allots.distinct paired
  rw [Roster.pairs, ← List.map_take, Roster.allotmentAfter_map_pair versed.few versed.enrolled _
    (fun past member => listed past (List.mem_of_mem_take member)) lists] at allotted
  rw [← allotted]
  have linked := settings.addressing.getElem?_links paired
  have logged := congrArg (·[place]?)
    (@filterMap_addedLink?_protocol settings document template changes session)
  refine ⟨_, logged.trans linked, ?_, ?_, ?_, rfl, rfl⟩
  · rw [low]
    exact versed.names lists.sides.1
  · rw [high]
    exact versed.names lists.sides.2
  · rw [LinkDescription.pair, Pair.of_low_high, versed.allots.allotments,
      if_pos (List.mem_of_getElem? paired)]
    rfl

theorem exists_joinedEnds_of_link {place : Nat} {link : LinkDescription}
    (held : ((protocol settings document template changes session).filterMap
      Call.addedLink?)[place]? = some link) :
    ∃ ends, (joinedEnds (document.chosenLines settings))[place]? = some ends := by
  rw [filterMap_addedLink?_protocol, AddressPlan.links, Roster.pairs, List.getElem?_map,
    List.getElem?_map, Option.map_map, Option.map_eq_some_iff] at held
  obtain ⟨ends, joined, -⟩ := held
  exact ⟨ends, joined⟩

end Conductor

/-- More nodes take part in more steps, in the same order. -/
theorem Roster.names_sublist (document : Document) (settings : Settings) {count later : UInt64}
    (atMost : count ≤ later) :
    (Roster.ofDocument { settings with maxSteps := some count } document).names.Sublist
      (Roster.ofDocument { settings with maxSteps := some later } document).names := by
  refine List.monotone_filter_right document.nodes fun name joins => ?_
  have ends := (document.prefix_chosenLines settings atMost).subset
  rw [Conductor.takesPart_iff, List.mem_flatMap] at joins ⊢
  obtain ⟨line, member, named⟩ := joins
  exact ⟨line, ends member, named⟩

namespace Rehearsal

open Conductor

/-- A replay that succeeds has followed its protocol, whatever its template was. -/
theorem exists_versed_of_ok {settings : Settings} {conductor : Conductor} {rehearsal : Rehearsal}
    {document : Document} {report : Report} (accepted : Conductor.start settings = .ok conductor)
    (succeeded : (rehearsal.replay conductor document).1 = .ok report) :
    ∃ template changes,
      (rehearsal.replay conductor document).2.2.testbed.calls = rehearsal.testbed.calls ++
        protocol settings document template changes rehearsal.testbed.nextSession.next ∧
      Versed settings document (rehearsal.replay conductor document).2.1 := by
  have told : ∀ text, rehearsal.testbed.serviceFiles.get? (configName settings) = some text →
      text = (rehearsal.testbed.serviceFiles.get? (configName settings)).getD "" := by
    intro text held
    rw [held, Option.getD_some]
  obtain ⟨concluded, versed⟩ := concluded_and_versed_of_ok accepted told succeeded
  obtain ⟨session, changes, changed, logged, -, -⟩ := concluded.logged
  exact ⟨_, changes, logged.calls, versed⟩

/-- A larger limit of steps renumbers no link.  Every link of the replay with the smaller limit is
added at the same place by the other one, where it joins the same two names and has the same
allotment, whichever identifiers the names are bound to. -/
theorem replay_extended {settings : Settings} {count later : UInt64} (atMost : count ≤ later)
    {brief long : Conductor}
    (accepted : Conductor.start { settings with maxSteps := some count } = .ok brief)
    (acceptedLong : Conductor.start { settings with maxSteps := some later } = .ok long)
    {document : Document} {here there : Rehearsal} {report reportLong : Report}
    (succeeded : (here.replay brief document).1 = .ok report)
    (succeededLong : (there.replay long document).1 = .ok reportLong) :
    ∃ calls callsLong,
      (here.replay brief document).2.2.testbed.calls = here.testbed.calls ++ calls ∧
      (there.replay long document).2.2.testbed.calls = there.testbed.calls ++ callsLong ∧
      ∀ (place : Nat) link, (calls.filterMap Call.addedLink?)[place]? = some link →
        ∃ linkLong first second given,
          (callsLong.filterMap Call.addedLink?)[place]? = some linkLong ∧
          (here.replay brief document).2.1.Joins calls first second given link ∧
          (there.replay long document).2.1.Joins callsLong first second given linkLong := by
  obtain ⟨template, changes, logged, versed⟩ := exists_versed_of_ok accepted succeeded
  obtain ⟨templateLong, changesLong, loggedLong, versedLong⟩ :=
    exists_versed_of_ok acceptedLong succeededLong
  refine ⟨_, _, logged, loggedLong, fun place link held => ?_⟩
  obtain ⟨ends, joined⟩ := exists_joinedEnds_of_link held
  obtain ⟨joinedLong, before⟩ :=
    take_of_prefix (prefix_joinedEnds (document.prefix_chosenLines settings atMost)) joined
  obtain ⟨found, foundAt, joins⟩ := versed.exists_joins joined
  obtain ⟨linkLong, heldLong, joinsLong⟩ := versedLong.exists_joins joinedLong
  obtain rfl : found = link := Option.some.inj (foundAt.symm.trans held)
  have sublist := Roster.names_sublist document settings atMost
  have sides := fun past member => Roster.sides_eq_of_sublist sublist versedLong.enrolled.distinct
    (@ends_known _ _ versed.known past member)
  rw [before, sides ends (List.mem_of_getElem? joined),
    List.map_congr_left fun past member => sides past (List.mem_of_mem_take member)] at joinsLong
  exact ⟨linkLong, _, _, _, heldLong, joins, joinsLong⟩

/-- A node takes part from the second step on and is declared before an end of the first link. -/
def latecomer : Document where
  header := ⟨"contacts", 3, 7⟩
  nodes := ["a", "b", "c"]
  steps := [⟨1, 7, [.add "e0" "c" "a" 8]⟩, ⟨2, 9, [.add "e1" "b" "c" 10]⟩]

theorem replay_extended_latecomer :
    (stocked.replay (.fresh { maxSteps := some 1 }) latecomer).2.1.registry.id? "c" = some 2 ∧
    (stocked.replay (.fresh { maxSteps := some 2 }) latecomer).2.1.registry.id? "c" = some 3 ∧
    ∃ calls callsLong,
      (stocked.replay (.fresh { maxSteps := some 1 }) latecomer).2.2.testbed.calls = calls ∧
      (stocked.replay (.fresh { maxSteps := some 2 }) latecomer).2.2.testbed.calls = callsLong ∧
      ∀ (place : Nat) link, (calls.filterMap Call.addedLink?)[place]? = some link →
        ∃ linkLong first second given,
          (callsLong.filterMap Call.addedLink?)[place]? = some linkLong ∧
          (stocked.replay (.fresh { maxSteps := some 1 }) latecomer).2.1.Joins calls first second
            given link ∧
          (stocked.replay (.fresh { maxSteps := some 2 }) latecomer).2.1.Joins callsLong first
            second given linkLong :=
  ⟨by decide +kernel, by decide +kernel,
    @replay_extended {} 1 2 (by decide) (.fresh { maxSteps := some 1 })
      (.fresh { maxSteps := some 2 }) rfl rfl latecomer stocked stocked ⟨2, 1, 1, 1, 1, 0⟩
      ⟨3, 0, 2, 2, 2, 0⟩ (by decide +kernel) (by decide +kernel)⟩

end Rehearsal

end ContactReplay
