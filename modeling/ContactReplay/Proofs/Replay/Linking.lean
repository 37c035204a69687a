import ContactReplay.Proofs.Addressing.Allotting
import ContactReplay.Proofs.Replay.Populating
import Mathlib.Data.Finset.Card
import Mathlib.Data.Finset.Dedup

/-!
# Linking nodes

Linking goes through the edges that are added and gives every new pair an allotment and a link that
is down.  `Linking` is the invariant of the loop over the lines: a pair has an allotment and a link
exactly if an edge has joined it, and as many subnets are taken as there are such pairs.
`decides_linkAll` says when linking succeeds: the ends of every added edge are known, and there are
subnets for all pairs.
-/

namespace ContactReplay

/-! ## Pairs of lines -/

/-- The pair of identifiers of two names. -/
def Registry.pair? (registry : Registry) (first second : String) : Option (Pair NodeId) :=
  match registry.id? first, registry.id? second with
  | some firstId, some secondId => some (.of firstId secondId)
  | _, _ => none

/-- The pair of nodes that a line joins. -/
def EdgeLine.pair? (registry : Registry) : EdgeLine → Option (Pair NodeId)
  | .add _ first second _ => registry.pair? first second
  | .delete .. => none

/-- The pairs of nodes that some lines join. -/
def joinedPairs (registry : Registry) (lines : List EdgeLine) : List (Pair NodeId) :=
  lines.filterMap (EdgeLine.pair? registry)

theorem Registry.pair?_eq_some_iff {registry : Registry} {first second : String}
    {pair : Pair NodeId} :
    registry.pair? first second = some pair ↔
      ∃ firstId secondId, registry.id? first = some firstId ∧
        registry.id? second = some secondId ∧ pair = .of firstId secondId := by
  rw [pair?]
  cases firstBound : registry.id? first with
  | none => simp
  | some firstId =>
      cases secondBound : registry.id? second with
      | none => simp
      | some secondId => simp [eq_comm]

/-- The ends of a pair of names that are bound are nodes of the session. -/
theorem Session.Named.ends_present {session : Session} {registry : Registry}
    (named : session.Named registry) {first second : String} {pair : Pair NodeId}
    (known : registry.pair? first second = some pair) :
    session.nodes.contains pair.low = true ∧ session.nodes.contains pair.high = true := by
  obtain ⟨firstId, secondId, firstBound, secondBound, rfl⟩ :=
    Registry.pair?_eq_some_iff.mp known
  have firstPresent := named.present firstBound
  have secondPresent := named.present secondBound
  rcases Pair.of_eq_or firstId secondId with ⟨low, high⟩ | ⟨low, high⟩
  · rw [low, high]
    exact ⟨firstPresent, secondPresent⟩
  · rw [low, high]
    exact ⟨secondPresent, firstPresent⟩

namespace Conductor

/-! ## Allotments and links -/

/-- Exactly the pairs with an allotment have a link, with the interfaces of the allotment and a
given loss. -/
structure Linked (addresses : AddressBook) (session : Session) (loss : Pair NodeId → Loss) :
    Prop where
  linked : ∀ pair allotment, addresses.get? pair = some allotment →
    ∃ link, session.links.get? pair = some link ∧
      link.description.firstInterface.id = allotment.low.id ∧
      link.description.secondInterface.id = allotment.high.id ∧ link.loss = loss pair
  unlinked : ∀ pair, addresses.get? pair = none → session.links.get? pair = none

/-- Linking has come as far as the lines `past`, newest first. -/
structure Linking (chosen : Settings) (files : Table FileName String) (id : SessionId)
    (registry : Registry) (past : List EdgeLine) (session : Session) (stand : Stand) : Prop where
  holds : stand.Holds files id session
  settings : stand.conductor.settings = chosen
  registered : stand.conductor.registry = registry
  cast : Cast stand.conductor session
  unconfigured : stand.conductor.daemons.configured = ∅
  closed : stand.conductor.openEdges = ∅
  plan : stand.conductor.addresses.plan = chosen.addressing
  counted : stand.conductor.addresses.subnets.next.toNat =
    (joinedPairs registry past).toFinset.card
  allotted : ∀ pair, (∃ allotment, stand.conductor.addresses.get? pair = some allotment) ↔
    pair ∈ joinedPairs registry past
  linked : Linked stand.conductor.addresses session fun _ => Loss.down

/-- A line can be linked: its nodes are known, and there is a subnet for them if they are a new
pair. -/
def CanLink (chosen : Settings) (registry : Registry) (past : List EdgeLine) :
    EdgeLine → Prop
  | .add _ first second _ => ∃ pair, registry.pair? first second = some pair ∧
      (pair ∉ joinedPairs registry past →
        (joinedPairs registry past).toFinset.card < chosen.addressing.subnetCapacity.toNat)
  | .delete .. => True

/-! ## Single lines -/

theorem perform_resolvePair_of_some {stand : Stand} {first second : String} {pair : Pair NodeId}
    (known : stand.conductor.registry.pair? first second = some pair) (number : Nat) :
    (resolvePair first second number).perform stand = (.ok pair, stand) := by
  obtain ⟨firstId, secondId, firstBound, secondBound, rfl⟩ :=
    Registry.pair?_eq_some_iff.mp known
  have firstResolved : stand.conductor.registry.resolve first number = .ok firstId := by
    rw [Registry.resolve, firstBound]
  have secondResolved : stand.conductor.registry.resolve second number = .ok secondId := by
    rw [Registry.resolve, secondBound]
  rw [resolvePair, Course.perform_bind_ok (Course.perform_get stand)]
  dsimp only
  rw [firstResolved, secondResolved]
  rfl

theorem perform_resolvePair_of_none {stand : Stand} {first second : String}
    (unknown : stand.conductor.registry.pair? first second = none) (number : Nat) :
    ∃ error, (resolvePair first second number).perform stand = (.error error, stand) := by
  rw [resolvePair, Course.perform_bind_ok (Course.perform_get stand)]
  dsimp only
  rw [Registry.pair?] at unknown
  cases firstBound : stand.conductor.registry.id? first with
  | none =>
      have refused : stand.conductor.registry.resolve first number =
          .error (.invariant (.undeclaredNode number first)) := by
        rw [Registry.resolve, firstBound]
      rw [refused]
      exact ⟨_, rfl⟩
  | some firstId =>
      have resolved : stand.conductor.registry.resolve first number = .ok firstId := by
        rw [Registry.resolve, firstBound]
      cases secondBound : stand.conductor.registry.id? second with
      | none =>
          have refused : stand.conductor.registry.resolve second number =
              .error (.invariant (.undeclaredNode number second)) := by
            rw [Registry.resolve, secondBound]
          rw [resolved, refused]
          exact ⟨_, rfl⟩
      | some secondId =>
          rw [firstBound, secondBound] at unknown
          cases unknown

theorem perform_allot {stand : Stand} {pair : Pair NodeId} {outcome : Except Error Allotment}
    {next : AddressBook} (allotted : stand.conductor.addresses.allot pair = (outcome, next)) :
    (allot pair).perform stand =
      (outcome, { stand with conductor := { stand.conductor with addresses := next } }) := by
  rw [allot, Course.perform_bind_ok (Course.perform_get stand)]
  dsimp only
  rw [allotted]
  rfl

theorem perform_meetNeighbour (stand : Stand)
    (unconfigured : stand.conductor.daemons.configured = ∅) (node : NodeId)
    (address : Ipv4Address) :
    ∃ daemons, (meetNeighbour node address).perform stand =
        (.ok (), { stand with conductor := { stand.conductor with daemons } }) ∧
      daemons.configured = ∅ := by
  have pending : ¬ stand.conductor.daemons.configured.contains node = true := by
    rw [unconfigured]
    exact Bool.false_ne_true
  rw [meetNeighbour, Course.perform_bind_ok (Course.perform_get stand)]
  dsimp only
  rw [Configurator.collect, if_neg pending]
  exact ⟨_, rfl, unconfigured⟩

section Line

variable {chosen : Settings} {files : Table FileName String} {id : SessionId}
  {registry : Registry} {past : List EdgeLine} {session : Session} {stand : Stand}

/-- The session with one more link. -/
def withLink (session : Session) (pair : Pair NodeId) (allotment : Allotment) : Session :=
  let description : LinkDescription :=
    ⟨pair.low, pair.high, allotment.low, allotment.high, Loss.down⟩
  { session with links := session.links.insert pair ⟨description, Loss.down⟩ }

theorem carryOut_addLink {pair : Pair NodeId} (low : session.nodes.contains pair.low = true)
    (high : session.nodes.contains pair.high = true)
    (unlinked : session.links.get? pair = none) (allotment : Allotment) :
    session.carryOut files (.addLink
        ⟨pair.low, pair.high, allotment.low, allotment.high, Loss.down⟩) =
      .ok ((), withLink session pair allotment) := by
  have same : Pair.of pair.low pair.high = pair := Pair.of_low_high pair
  have free : ¬ session.links.contains pair = true := by
    rw [Table.contains, unlinked]
    exact Bool.false_ne_true
  simp only [Session.carryOut, Session.addLink, LinkDescription.pair, same, low, high, free,
    Bool.not_true, Bool.false_eq_true, if_false]
  rfl

theorem Linked.join {addresses next : AddressBook}
    (linked : Linked addresses session fun _ => Loss.down)
    {pair : Pair NodeId} {allotment : Allotment}
    (grown : next.allotments = addresses.allotments.insert pair allotment) :
    Linked next (withLink session pair allotment) fun _ => Loss.down where
  linked other given found := by
    simp only [AddressBook.get?, grown] at found
    simp only [withLink]
    by_cases same : other = pair
    · subst same
      rw [Table.get?_insert_self] at found ⊢
      obtain rfl := Option.some.inj found
      exact ⟨_, rfl, rfl, rfl, rfl⟩
    · rw [Table.get?_insert_of_ne _ _ same] at found ⊢
      exact linked.linked other given found
  unlinked other missing := by
    simp only [AddressBook.get?, grown] at missing
    simp only [withLink]
    by_cases same : other = pair
    · subst same
      rw [Table.get?_insert_self] at missing
      cases missing
    · rw [Table.get?_insert_of_ne _ _ same] at missing ⊢
      exact linked.unlinked other missing

theorem Linking.nodes_present (linking : Linking chosen files id registry past session stand)
    {first second : String} {pair : Pair NodeId}
    (known : registry.pair? first second = some pair) :
    session.nodes.contains pair.low = true ∧ session.nodes.contains pair.high = true := by
  rw [← linking.registered] at known
  exact linking.cast.named.ends_present known

theorem joinedPairs_cons_of_some {line : EdgeLine} {pair : Pair NodeId}
    (joins : line.pair? registry = some pair) (past : List EdgeLine) :
    joinedPairs registry (line :: past) = pair :: joinedPairs registry past :=
  List.filterMap_cons_some joins

theorem joinedPairs_cons_of_none {line : EdgeLine} (joins : line.pair? registry = none)
    (past : List EdgeLine) : joinedPairs registry (line :: past) = joinedPairs registry past :=
  List.filterMap_cons_none joins

theorem card_joinedPairs_cons_of_new {line : EdgeLine} {pair : Pair NodeId}
    (joins : line.pair? registry = some pair) (new : pair ∉ joinedPairs registry past) :
    (joinedPairs registry (line :: past)).toFinset.card =
      (joinedPairs registry past).toFinset.card + 1 := by
  rw [joinedPairs_cons_of_some joins, List.toFinset_cons,
    Finset.card_insert_of_notMem (by rwa [List.mem_toFinset])]

theorem Linking.join (linking : Linking chosen files id registry past session stand)
    {line : EdgeLine} {pair : Pair NodeId} (joins : line.pair? registry = some pair)
    (new : pair ∉ joinedPairs registry past)
    (few : (joinedPairs registry past).toFinset.card < 256) {allotment : Allotment}
    {book : AddressBook} (samePlan : book.plan = stand.conductor.addresses.plan)
    (counted : book.subnets = stand.conductor.addresses.subnets.advance)
    (grown : book.allotments = stand.conductor.addresses.allotments.insert pair allotment)
    {daemons : Configurator} (pending : daemons.configured = ∅) {report : Report}
    {rehearsal : Rehearsal}
    (holds : Stand.Holds
      ⟨{ stand.conductor with addresses := book, daemons, report }, rehearsal⟩ files id
      (withLink session pair allotment)) :
    Linking chosen files id registry (line :: past) (withLink session pair allotment)
      ⟨{ stand.conductor with addresses := book, daemons, report }, rehearsal⟩ where
  holds := holds
  settings := linking.settings
  registered := linking.registered
  cast := ⟨linking.cast.bound, linking.cast.named, linking.cast.configured⟩
  unconfigured := pending
  closed := linking.closed
  plan := samePlan.trans linking.plan
  counted := by
    have before := linking.counted
    rw [card_joinedPairs_cons_of_new joins new, ← before]
    dsimp only
    rw [counted]
    apply Counter.toNat_advance
    rw [before]
    exact Nat.lt_trans (Nat.succ_lt_succ few) (by decide)
  allotted other := by
    have before := linking.allotted other
    rw [joinedPairs_cons_of_some joins, List.mem_cons]
    simp only [AddressBook.get?, grown] at before ⊢
    by_cases same : other = pair
    · subst same
      simp
    · rw [Table.get?_insert_of_ne _ _ same, before]
      simp [same]
  linked := linking.linked.join grown

/-- A new pair gets a link as long as there is a subnet. -/
theorem Linking.decides_addLink (linking : Linking chosen files id registry past session stand)
    (small : chosen.addressing.subnetCapacity.toNat ≤ 256) {line : EdgeLine}
    {first second : String} {pair : Pair NodeId}
    (known : registry.pair? first second = some pair) (joins : line.pair? registry = some pair)
    (new : pair ∉ joinedPairs registry past) :
    Course.Decides (addLink id pair) stand
      ((joinedPairs registry past).toFinset.card < chosen.addressing.subnetCapacity.toNat)
      fun _ next => ∃ linked,
        Linking chosen files id registry (line :: past) linked next := by
  have missing : stand.conductor.addresses.get? pair = none := by
    rw [Option.eq_none_iff_forall_ne_some]
    exact fun allotment found => new ((linking.allotted pair).mp ⟨allotment, found⟩)
  rw [addLink]
  by_cases room :
      (joinedPairs registry past).toFinset.card < chosen.addressing.subnetCapacity.toNat
  · have enough : stand.conductor.addresses.subnets.next.toNat <
        stand.conductor.addresses.plan.subnetCapacity.toNat := by
      rwa [linking.counted, linking.plan]
    obtain ⟨allotment, book, allotted, samePlan, counted, grown⟩ :=
      AddressBook.allot_of_room missing enough
    apply Course.decides_bind_of_ok (perform_allot allotted)
    obtain ⟨low, high⟩ := linking.nodes_present known
    have added : session.carryOut files (.addLink
          ⟨pair.low, pair.high, allotment.low, allotment.high, Loss.down⟩) =
        .ok ((), withLink session pair allotment) :=
      carryOut_addLink low high (linking.linked.unlinked pair missing) allotment
    obtain ⟨afterAdding, addedOk, holdsAdded⟩ :=
      (linking.holds.conducted _).perform_order added linking.holds.usable
    apply Course.decides_bind_of_ok addedOk
    obtain ⟨lowDaemons, lowMet, lowPending⟩ :=
      perform_meetNeighbour ⟨{ stand.conductor with addresses := book }, afterAdding⟩
        linking.unconfigured pair.low allotment.high.ip4
    apply Course.decides_bind_of_ok lowMet
    obtain ⟨highDaemons, highMet, highPending⟩ := perform_meetNeighbour
      ⟨{ stand.conductor with addresses := book, daemons := lowDaemons }, afterAdding⟩
      lowPending pair.high allotment.low.ip4
    apply Course.decides_bind_of_ok highMet
    refine Course.decides_of_ok (Course.perform_note _ _) room
      ⟨withLink session pair allotment, ?_⟩
    exact linking.join joins new (Nat.lt_of_lt_of_le room small) samePlan counted grown
      highPending (holdsAdded.conducted _)
  · have full : stand.conductor.addresses.plan.subnetCapacity.toNat ≤
        stand.conductor.addresses.subnets.next.toNat := by
      rw [linking.counted, linking.plan]
      exact Nat.not_lt.mp room
    exact Course.decides_bind_of_error (perform_allot (AddressBook.allot_of_full missing full)) room

theorem Linking.keep (linking : Linking chosen files id registry past session stand)
    {line : EdgeLine}
    (old : ∀ pair, line.pair? registry = some pair → pair ∈ joinedPairs registry past) :
    Linking chosen files id registry (line :: past) session stand := by
  have samePairs : ∀ pair, pair ∈ joinedPairs registry (line :: past) ↔
      pair ∈ joinedPairs registry past := by
    intro pair
    cases joins : line.pair? registry with
    | none => rw [joinedPairs_cons_of_none joins]
    | some joined =>
        rw [joinedPairs_cons_of_some joins, List.mem_cons]
        constructor
        · rintro (rfl | member)
          · exact old pair joins
          · exact member
        · exact Or.inr
  have sameSet : (joinedPairs registry (line :: past)).toFinset =
      (joinedPairs registry past).toFinset := by
    ext pair
    rw [List.mem_toFinset, List.mem_toFinset, samePairs]
  refine ⟨linking.holds, linking.settings, linking.registered, linking.cast,
    linking.unconfigured, linking.closed, linking.plan, ?_, ?_, linking.linked⟩
  · rw [sameSet]
    exact linking.counted
  · intro pair
    rw [samePairs]
    exact linking.allotted pair

theorem Linking.decides_linkEdge (linking : Linking chosen files id registry past session stand)
    (small : chosen.addressing.subnetCapacity.toNat ≤ 256) (line : EdgeLine) :
    Course.Decides (linkEdge id line) stand (CanLink chosen registry past line) fun _ next =>
      ∃ linked, Linking chosen files id registry (line :: past) linked next := by
  cases line with
  | delete edge number =>
      refine Course.decides_of_ok rfl trivial ⟨session, linking.keep fun pair joins => ?_⟩
      cases joins
  | add edge first second number =>
      rw [linkEdge]
      cases known : registry.pair? first second with
      | none =>
          have unknown := known
          rw [← linking.registered] at unknown
          obtain ⟨error, refused⟩ := perform_resolvePair_of_none unknown number
          apply Course.decides_bind_of_error refused
          rintro ⟨pair, same, -⟩
          rw [known] at same
          cases same
      | some pair =>
          have resolved := known
          rw [← linking.registered] at resolved
          apply Course.decides_bind_of_ok (perform_resolvePair_of_some resolved number)
          apply Course.decides_bind_of_ok (Course.perform_get stand)
          have joins : (EdgeLine.add edge first second number).pair? registry = some pair := known
          by_cases old : pair ∈ joinedPairs registry past
          · obtain ⟨allotment, found⟩ := (linking.allotted pair).mpr old
            rw [found]
            refine Course.decides_of_ok rfl ⟨pair, known, absurd old⟩
              ⟨session, linking.keep fun other same => ?_⟩
            rw [joins] at same
            exact Option.some.inj same ▸ old
          · have missing : stand.conductor.addresses.get? pair = none := by
              rw [Option.eq_none_iff_forall_ne_some]
              exact fun allotment found => old ((linking.allotted pair).mp ⟨allotment, found⟩)
            rw [missing]
            apply (linking.decides_addLink small known joins old).congr
            simp [CanLink, known, old]

end Line

/-! ## All lines -/

/-- The nodes of a line are known if it joins any. -/
def Known (registry : Registry) : EdgeLine → Prop
  | .add _ first second _ => ∃ pair, registry.pair? first second = some pair
  | .delete .. => True

section Lines

variable {chosen : Settings} {registry : Registry}

theorem card_joinedPairs_le_append (first second : List EdgeLine) :
    (joinedPairs registry second).toFinset.card ≤
      (joinedPairs registry (first ++ second)).toFinset.card := by
  apply Finset.card_le_card
  intro pair member
  rw [List.mem_toFinset] at member ⊢
  rw [joinedPairs, List.filterMap_append]
  exact List.mem_append_right _ member

theorem canLink_iff {past : List EdgeLine}
    (enough : (joinedPairs registry past).toFinset.card ≤ chosen.addressing.subnetCapacity.toNat)
    (line : EdgeLine) :
    CanLink chosen registry past line ↔ Known registry line ∧
      (joinedPairs registry (line :: past)).toFinset.card ≤
        chosen.addressing.subnetCapacity.toNat := by
  cases line with
  | delete edge number =>
      have joins : (EdgeLine.delete edge number).pair? registry = none := rfl
      rw [joinedPairs_cons_of_none joins]
      exact iff_of_true trivial ⟨trivial, enough⟩
  | add edge first second number =>
      rw [CanLink, Known]
      cases known : registry.pair? first second with
      | none => simp
      | some pair =>
          have joins : (EdgeLine.add edge first second number).pair? registry = some pair := known
          by_cases old : pair ∈ joinedPairs registry past
          · have same : (joinedPairs registry (.add edge first second number :: past)).toFinset =
                (joinedPairs registry past).toFinset := by
              rw [joinedPairs_cons_of_some joins, List.toFinset_cons]
              exact Finset.insert_eq_self.mpr (List.mem_toFinset.mpr old)
            rw [same]
            simp [old, enough]
          · rw [card_joinedPairs_cons_of_new joins old, ← Nat.lt_iff_add_one_le]
            simp [old]

/-- Lines can be linked one after the other if all their nodes are known and there are subnets for
all their pairs. -/
theorem succession_canLink_iff {past lines : List EdgeLine}
    (enough : (joinedPairs registry past).toFinset.card ≤
      chosen.addressing.subnetCapacity.toNat) :
    Succession (CanLink chosen registry) past lines ↔ (∀ line ∈ lines, Known registry line) ∧
      (joinedPairs registry (lines.reverse ++ past)).toFinset.card ≤
        chosen.addressing.subnetCapacity.toNat := by
  induction lines generalizing past with
  | nil => simpa [Succession] using enough
  | cons line rest inductionHypothesis =>
      have regroup : (line :: rest).reverse ++ past = rest.reverse ++ line :: past := by simp
      rw [Succession, canLink_iff enough, regroup, List.forall_mem_cons]
      constructor
      · rintro ⟨⟨known, enoughNow⟩, restPossible⟩
        obtain ⟨restKnown, enoughAll⟩ := (inductionHypothesis enoughNow).mp restPossible
        exact ⟨⟨known, restKnown⟩, enoughAll⟩
      · rintro ⟨⟨known, restKnown⟩, enoughAll⟩
        have enoughNow := Nat.le_trans (card_joinedPairs_le_append rest.reverse (line :: past))
          enoughAll
        exact ⟨⟨known, enoughNow⟩, (inductionHypothesis enoughNow).mpr ⟨restKnown, enoughAll⟩⟩

end Lines

theorem Populating.linking {chosen : Settings} {files : Table FileName String} {id : SessionId}
    {first : Nat} {joined : List String} {session : Session} {stand : Stand}
    (populating : Populating chosen files id first joined session stand) (phase : Phase) :
    Linking chosen files id stand.conductor.registry [] session
      { stand with conductor := { stand.conductor with phase } } where
  holds := populating.holds.conducted _
  settings := populating.settings
  registered := rfl
  cast := ⟨populating.cast.bound, populating.cast.named, populating.cast.configured⟩
  unconfigured := populating.unconfigured
  closed := populating.closed
  plan := congrArg AddressBook.plan populating.addresses
  counted := by
    dsimp only
    rw [populating.addresses]
    rfl
  allotted pair := by
    dsimp only
    rw [populating.addresses]
    constructor
    · rintro ⟨allotment, found⟩
      cases found
    · intro member
      cases member
  linked := by
    dsimp only
    rw [populating.addresses]
    refine ⟨fun pair allotment found => ?_, fun pair _ => ?_⟩
    · cases found
    · rw [populating.unlinked]
      rfl

/-- Linking succeeds if all nodes of added edges are known and there are subnets for all pairs. -/
theorem Linking.decides_linkAll {chosen : Settings} {files : Table FileName String}
    {id : SessionId} {registry : Registry} {session : Session} {stand : Stand}
    (linking : Linking chosen files id registry [] session stand)
    (small : chosen.addressing.subnetCapacity.toNat ≤ 256) (steps : List DocumentStep) :
    Course.Decides (linkAll id steps) stand
      ((∀ line ∈ steps.flatMap (·.lines), Known registry line) ∧
        (joinedPairs registry (steps.flatMap (·.lines))).toFinset.card ≤
          chosen.addressing.subnetCapacity.toNat)
      fun _ next => ∃ linked,
        Linking chosen files id registry (steps.flatMap (·.lines)).reverse linked next := by
  have decides := @Course.decides_forM EdgeLine (steps.flatMap (·.lines)) (linkEdge id)
    (CanLink chosen registry)
    (fun past next => ∃ linked, Linking chosen files id registry past linked next)
    (by
      rintro past line rest - current ⟨linked, linkingNow⟩
      exact linkingNow.decides_linkEdge small line)
    stand ⟨session, linking⟩
  rw [linkAll, Course.forM_flatMap]
  apply decides.congr
  have sameSet : (joinedPairs registry ((steps.flatMap (·.lines)).reverse ++ [])).toFinset =
      (joinedPairs registry (steps.flatMap (·.lines))).toFinset := by
    rw [List.append_nil, joinedPairs, joinedPairs, List.filterMap_reverse, List.toFinset_reverse]
  rw [succession_canLink_iff (by simp [joinedPairs]), sameSet]

end Conductor

end ContactReplay
