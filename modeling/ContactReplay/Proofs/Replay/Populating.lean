import ContactReplay.Proofs.Registry.Bindings
import ContactReplay.Proofs.Replay.Surroundings

/-!
# Setting a session up

Setup makes a session and adds the nodes that take part.  `Conductor.Cast` is what later phases rely
on: names and identifiers are bound to each other, and whatever is bound or has a configuration is a
node of the session.  `Populating` is the invariant of the loop over the declared nodes, and
`decides_populate` says when setup succeeds: no node that takes part is declared twice.
-/

namespace ContactReplay

/-! ## Names in a session -/

/-- The nodes of a session bear the names that a registry binds to them. -/
def Session.Named (session : Session) (registry : Registry) : Prop :=
  ∀ name id, registry.id? name = some id →
    ∃ node, session.nodes.get? id = some node ∧ node.description.name = name

theorem Session.Named.present {session : Session} {registry : Registry}
    (named : session.Named registry) {name : String} {id : NodeId}
    (bound : registry.id? name = some id) : session.nodes.contains id = true := by
  obtain ⟨node, found, -⟩ := named name id bound
  exact Option.isSome_iff_exists.mpr ⟨node, found⟩

namespace Conductor

/-- Names and identifiers are bound to each other, and whatever is bound or has a configuration is a
node of a session. -/
structure Cast (conductor : Conductor) (session : Session) : Prop where
  bound : ∀ name id,
    conductor.registry.id? name = some id ↔ conductor.registry.name? id = some name
  named : session.Named conductor.registry
  configured : ∀ id, conductor.configs.contains id = true → session.nodes.contains id = true

/-- A setup has come as far as the nodes `joined`, newest first; the first of them got the
identifier `first`. -/
structure Populating (chosen : Settings) (files : Table FileName String) (id : SessionId)
    (first : Nat) (joined : List String) (session : Session) (stand : Stand) : Prop where
  holds : stand.Holds files id session
  settings : stand.conductor.settings = chosen
  addresses : stand.conductor.addresses = { plan := chosen.addressing }
  unconfigured : stand.conductor.daemons.configured = ∅
  closed : stand.conductor.openEdges = ∅
  unlinked : session.links = ∅
  cast : Cast stand.conductor session
  counted : stand.conductor.nodeIds.next.toNat = first + joined.length
  numbered : ∀ node, session.nodes.contains node = true →
    node.toNat < stand.conductor.nodeIds.next.toNat
  joined : ∀ name, (∃ node, stand.conductor.registry.id? name = some node) ↔ name ∈ joined

/-- If the nodes of the session are numbered below the next identifier, that one is free. -/
theorem Cast.free {conductor : Conductor} {session : Session} (cast : Cast conductor session)
    (numbered : ∀ node, session.nodes.contains node = true →
      node.toNat < conductor.nodeIds.next.toNat) :
    conductor.registry.name? conductor.nodeIds.next = none ∧
      session.nodes.contains conductor.nodeIds.next = false := by
  have absent : session.nodes.contains conductor.nodeIds.next = false := by
    rw [Bool.eq_false_iff]
    intro present
    exact absurd (numbered _ present) (Nat.lt_irrefl _)
  refine ⟨?_, absent⟩
  rw [Option.eq_none_iff_forall_ne_some]
  intro name bound
  have present := cast.named.present ((cast.bound _ _).mpr bound)
  rw [absent] at present
  cases present

/-! ## Single nodes -/

theorem perform_register_of_free {stand : Stand} {name : String} {id : NodeId}
    (unbound : stand.conductor.registry.id? name = none)
    (free : stand.conductor.registry.name? id = none) :
    (register name id).perform stand = (.ok (), { stand with
      conductor := { stand.conductor with
        registry := ⟨stand.conductor.registry.byName.insert name id,
          stand.conductor.registry.byId.insert id name⟩ } }) := by
  have inserted := Registry.insert_of_free unbound free
  rw [register, Course.perform_bind_ok (Course.perform_get stand)]
  dsimp only
  rw [inserted]
  rfl

theorem perform_register_of_bound {stand : Stand} {name : String} {id other : NodeId}
    (bound : stand.conductor.registry.id? name = some other) :
    (register name id).perform stand =
      (.error (.invariant (.nodeDeclaredTwice name)), stand) := by
  have refused := Registry.insert_of_bound id bound
  rw [register, Course.perform_bind_ok (Course.perform_get stand)]
  refine Course.perform_bind_error ?_ _
  rw [refused]
  rfl

section AddNode

variable {chosen : Settings} {files : Table FileName String} {id : SessionId} {first : Nat}
  {joined : List String} {session : Session} {stand : Stand}

theorem Populating.free (populating : Populating chosen files id first joined session stand) :
    stand.conductor.registry.name? stand.conductor.nodeIds.next = none ∧
      session.nodes.contains stand.conductor.nodeIds.next = false :=
  populating.cast.free populating.numbered

/-- The session with one more node. -/
def withNode (session : Session) (files : Table FileName String) (node : NodeDescription) :
    Session :=
  { session with nodes := session.nodes.insert node.id ⟨node, files⟩ }

/-- The conductor with one more node. -/
def joinedBy (conductor : Conductor) (name text : String) : Conductor :=
  { conductor with
    nodeIds := conductor.nodeIds.advance
    gridSlots := conductor.gridSlots.advance
    registry := ⟨conductor.registry.byName.insert name conductor.nodeIds.next,
      conductor.registry.byId.insert conductor.nodeIds.next name⟩
    configs := conductor.configs.insert conductor.nodeIds.next text
    report := { conductor.report with nodesCreated := conductor.report.nodesCreated + 1 } }

theorem carryOut_addNode {node : NodeDescription}
    (absent : session.nodes.contains node.id = false) :
    session.carryOut files (.addNode node) = .ok ((), withNode session files node) := by
  rw [Session.carryOut, Session.addNode, absent]
  rfl

/-- A node that has just been added has the files that it began with. -/
theorem carryOut_getFile_withNode (session : Session) (files : Table FileName String)
    (node : NodeDescription) (name : FileName) :
    (withNode session files node).carryOut files (.getFile node.id name) =
      match files.get? name with
      | some text => .ok (text, withNode session files node)
      | none => .error (.noFile node.id name.service name.file) := by
  rw [Session.carryOut, Session.getFile, withNode, Table.get?_insert_self]
  dsimp only
  cases files.get? name <;> rfl

/-- The identifiers of all nodes come before the next one, also after one more node. -/
theorem numbered_withNode {counter : Counter}
    (numbered : ∀ number, session.nodes.contains number = true →
      number.toNat < counter.next.toNat)
    (room : counter.next.toNat + 1 < UInt32.size) {node : NodeDescription}
    (same : node.id = counter.next) (number : NodeId)
    (present : (withNode session files node).nodes.contains number = true) :
    number.toNat < counter.advance.next.toNat := by
  rw [Counter.toNat_advance room]
  simp only [withNode, Table.contains_insert, same] at present
  rcases present with rfl | old
  · exact Nat.lt_succ_self _
  · exact Nat.lt_succ_of_lt (numbered number old)

theorem Cast.join {conductor : Conductor} (cast : Cast conductor session) {name : String}
    (unbound : conductor.registry.id? name = none)
    (free : conductor.registry.name? conductor.nodeIds.next = none) (text : String)
    {node : NodeDescription} (same : node.id = conductor.nodeIds.next) (named : node.name = name) :
    Cast (joinedBy conductor name text) (withNode session files node) where
  bound := Registry.Bound.insert cast.bound (Registry.insert_of_free unbound free)
  named asked number bound := by
    simp only [withNode, same]
    simp only [Registry.id?, joinedBy] at bound
    by_cases sameName : asked = name
    · subst sameName
      rw [Table.get?_insert_self] at bound
      obtain rfl := Option.some.inj bound
      exact ⟨_, Table.get?_insert_self _ _ _, named⟩
    · rw [Table.get?_insert_of_ne _ _ sameName] at bound
      have old : number ≠ conductor.nodeIds.next := by
        rintro rfl
        rw [(cast.bound asked _).mp bound] at free
        cases free
      rw [Table.get?_insert_of_ne _ _ old]
      exact cast.named asked number bound
  configured number configured := by
    simp only [withNode, Table.contains_insert, same]
    simp only [joinedBy, Table.contains_insert] at configured
    exact configured.imp id (cast.configured number)

theorem perform_takeNodeId (stand : Stand) :
    takeNodeId.perform stand = (.ok stand.conductor.nodeIds.next, { stand with
      conductor := { stand.conductor with nodeIds := stand.conductor.nodeIds.advance } }) := rfl

theorem perform_takePosition (stand : Stand) :
    takePosition.perform stand =
      (.ok (stand.conductor.settings.grid.position stand.conductor.gridSlots.next), { stand with
        conductor := { stand.conductor with gridSlots := stand.conductor.gridSlots.advance } }) :=
  rfl

theorem Populating.join (populating : Populating chosen files id first joined session stand)
    (room : first + joined.length + 1 < UInt32.size) {name : String} (new : name ∉ joined)
    (text : String) {node : NodeDescription} (same : node.id = stand.conductor.nodeIds.next)
    (named : node.name = name) {rehearsal : Rehearsal}
    (holds : Stand.Holds ⟨joinedBy stand.conductor name text, rehearsal⟩ files id
      (withNode session files node)) :
    Populating chosen files id first (name :: joined) (withNode session files node)
      ⟨joinedBy stand.conductor name text, rehearsal⟩ := by
  have roomNext : stand.conductor.nodeIds.next.toNat + 1 < UInt32.size := by
    rwa [populating.counted]
  have unbound : stand.conductor.registry.id? name = none := by
    rw [Option.eq_none_iff_forall_ne_some]
    exact fun other bound => new ((populating.joined name).mp ⟨other, bound⟩)
  refine ⟨holds, populating.settings, populating.addresses, populating.unconfigured,
    populating.closed, populating.unlinked,
    populating.cast.join unbound populating.free.1 text same named, ?_, ?_, ?_⟩
  · apply (Counter.toNat_advance roomNext).trans
    rw [populating.counted, List.length_cons, Nat.add_assoc]
  · exact numbered_withNode populating.numbered roomNext same
  · intro asked
    have old := populating.joined asked
    simp only [Registry.id?, joinedBy] at old ⊢
    rw [List.mem_cons]
    by_cases sameName : asked = name
    · subst sameName
      simp
    · rw [Table.get?_insert_of_ne _ _ sameName, old]
      simp [sameName]

/-- A node joins unless its name has joined before. -/
theorem Populating.decides_addNode
    (populating : Populating chosen files id first joined session stand)
    (stocked : files.contains (configName chosen) = true)
    (room : first + joined.length + 1 < UInt32.size) (name : String) :
    Course.Decides (addNode id name) stand (name ∉ joined) fun _ next =>
      ∃ populated, Populating chosen files id first (name :: joined) populated next := by
  obtain ⟨free, absent⟩ := populating.free
  rw [addNode]
  apply Course.decides_bind_of_ok (perform_takeNodeId stand)
  by_cases member : name ∈ joined
  · obtain ⟨other, bound⟩ := (populating.joined name).mpr member
    exact Course.decides_bind_of_error (perform_register_of_bound bound) (not_not_intro member)
  · have unbound : stand.conductor.registry.id? name = none := by
      rw [Option.eq_none_iff_forall_ne_some]
      exact fun other bound => member ((populating.joined name).mp ⟨other, bound⟩)
    refine Course.decides_bind_of_ok (perform_register_of_free unbound free) ?_
    apply Course.decides_bind_of_ok (perform_takePosition _)
    apply Course.decides_bind_of_ok (Course.perform_get _)
    let node : NodeDescription := ⟨stand.conductor.nodeIds.next, name,
      stand.conductor.settings.nodeModel,
      stand.conductor.settings.grid.position stand.conductor.gridSlots.next⟩
    have added : session.carryOut files (.addNode node) =
        .ok ((), withNode session files node) := carryOut_addNode absent
    obtain ⟨afterAdding, addedOk, holdsAdded⟩ :=
      (populating.holds.conducted _).perform_order added populating.holds.usable
    apply Course.decides_bind_of_ok addedOk
    obtain ⟨text, found⟩ := Option.isSome_iff_exists.mp stocked
    have fetched : (withNode session files node).carryOut files
        (.getFile node.id (configName stand.conductor.settings)) =
          .ok (text, withNode session files node) := by
      rw [carryOut_getFile_withNode, populating.settings, found]
    obtain ⟨afterFetching, fetchedOk, holdsFetched⟩ :=
      holdsAdded.perform_order fetched populating.holds.usable
    apply Course.decides_bind_of_ok fetchedOk
    apply Course.decides_bind_of_ok (Course.perform_modify _ _)
    refine Course.decides_of_ok (Course.perform_note _ _) member ⟨withNode session files node, ?_⟩
    exact populating.join room member text rfl rfl (holdsFetched.conducted _)

end AddNode

/-! ## The declared nodes -/

section Declare

variable {chosen : Settings} {files : Table FileName String} {id : SessionId} {first : Nat}
  {joined : List String} {session : Session} {stand : Stand}

/-- A declared node is possible unless it takes part and has been declared before. -/
def CanDeclare (steps : List DocumentStep) (past : List String) (name : String) : Prop :=
  takesPart steps name = true → name ∉ past

theorem succession_canDeclare_iff {steps : List DocumentStep} {past names : List String} :
    Succession (CanDeclare steps) past names ↔
      (names.filter (takesPart steps)).Nodup ∧
        ∀ name ∈ names.filter (takesPart steps), name ∉ past := by
  induction names generalizing past with
  | nil => simp [Succession]
  | cons name rest inductionHypothesis =>
      rw [Succession, inductionHypothesis, CanDeclare]
      by_cases joins : takesPart steps name = true
      · rw [List.filter_cons_of_pos joins, List.nodup_cons, List.forall_mem_cons]
        simp only [List.mem_cons, not_or]
        constructor
        · rintro ⟨new, distinct, apart⟩
          exact ⟨⟨fun member => (apart name member).1 rfl, distinct⟩, new joins,
            fun other member => (apart other member).2⟩
        · rintro ⟨⟨absent, distinct⟩, new, apart⟩
          exact ⟨fun _ => new, distinct, fun other member =>
            ⟨fun same => absent (same ▸ member), apart other member⟩⟩
      · rw [List.filter_cons_of_neg joins]
        simp only [List.mem_cons, not_or]
        constructor
        · rintro ⟨-, distinct, apart⟩
          exact ⟨distinct, fun other member => (apart other member).2⟩
        · rintro ⟨distinct, apart⟩
          refine ⟨fun takes => absurd takes joins, distinct, fun other member => ?_⟩
          refine ⟨?_, apart other member⟩
          rintro rfl
          exact joins (List.mem_filter.mp member).2

theorem Populating.note (populating : Populating chosen files id first joined session stand)
    (report : Report) :
    Populating chosen files id first joined session { stand with
      conductor := { stand.conductor with report } } :=
  ⟨populating.holds.conducted _, populating.settings, populating.addresses,
    populating.unconfigured, populating.closed, populating.unlinked,
    ⟨populating.cast.bound, populating.cast.named, populating.cast.configured⟩,
    populating.counted, populating.numbered, populating.joined⟩

theorem Populating.decides_declareNode {steps : List DocumentStep} {past : List String}
    (populating : Populating chosen files id first (past.filter (takesPart steps)) session stand)
    (stocked : files.contains (configName chosen) = true)
    (room : first + past.length + 1 < UInt32.size) (name : String) :
    Course.Decides (declareNode id steps name) stand (CanDeclare steps past name) fun _ next =>
      ∃ populated, Populating chosen files id first ((name :: past).filter (takesPart steps))
        populated next := by
  by_cases joins : takesPart steps name = true
  · rw [declareNode, if_pos joins, List.filter_cons_of_pos joins]
    have few := List.length_filter_le (takesPart steps) past
    have decides := populating.decides_addNode stocked (by omega) name
    apply decides.congr
    simp [CanDeclare, joins]
  · rw [declareNode, if_neg joins, List.filter_cons_of_neg joins]
    exact Course.decides_of_ok (Course.perform_note _ _) (fun takes => absurd takes joins)
      ⟨session, populating.note _⟩

theorem Populating.decides_declareAll {steps : List DocumentStep} {names : List String}
    (populating : Populating chosen files id first [] session stand)
    (stocked : files.contains (configName chosen) = true)
    (room : first + names.length < UInt32.size) :
    Course.Decides (names.forM (declareNode id steps)) stand
      (names.filter (takesPart steps)).Nodup fun _ next =>
        ∃ populated, Populating chosen files id first (names.reverse.filter (takesPart steps))
          populated next := by
  have decides := @Course.decides_forM String names (declareNode id steps) (CanDeclare steps)
    (fun past next => ∃ populated,
      Populating chosen files id first (past.filter (takesPart steps)) populated next)
    (by
      rintro past name rest parted current ⟨populated, populatingNow⟩
      have length := congrArg List.length parted
      simp only [List.length_append, List.length_reverse, List.length_cons] at length
      exact populatingNow.decides_declareNode stocked (by omega) name)
    stand ⟨session, populating⟩
  apply decides.congr
  rw [succession_canDeclare_iff]
  simp

end Declare

/-! ## The whole setup -/

section Setup

variable {chosen : Settings} {conductor : Conductor} {stand : Stand}

/-- The conductor that accepted settings start with. -/
def fresh (chosen : Settings) : Conductor where
  settings := chosen
  addresses := { plan := chosen.addressing }
  daemons := { settings := chosen.daemon }

theorem eq_fresh_of_start (accepted : start chosen = .ok conductor) :
    conductor = fresh chosen ∧ chosen.addressing.subnetCapacity.toNat ≤ 256 := by
  rw [start] at accepted
  cases checked : chosen.check with
  | error cause =>
      rw [checked] at accepted
      cases accepted
  | ok _ =>
      rw [checked, AddressBook.start, AddressPlan.check] at accepted
      by_cases outOfRange :
          chosen.addressing.subnetCapacity = 0 ∨ 256 < chosen.addressing.subnetCapacity
      · rw [if_pos outOfRange] at accepted
        cases accepted
      · rw [if_neg outOfRange] at accepted
        have inRange := UInt64.not_lt.mp (not_or.mp outOfRange).2
        refine ⟨?_, UInt64.le_iff_toNat_le.mp inRange⟩
        split at accepted
        · cases accepted
        · split at accepted
          · cases accepted
          · exact (Except.ok.inj accepted).symm

theorem decides_openSession (calm : stand.rehearsal.Calm) :
    Course.Decides openSession stand True fun id next => ∃ session,
      next.Holds stand.rehearsal.testbed.serviceFiles id session ∧ session.nodes = ∅ ∧
        session.links = ∅ ∧ next.conductor = { stand.conductor with session := some id } := by
  let id := stand.rehearsal.testbed.nextSession.next
  let made := stand.rehearsal.testbed.createSession.2
  have requested : (Course.request .createSession).perform stand =
      (.ok id, ⟨stand.conductor,
        { stand.rehearsal.hear (.request .createSession) with testbed := made }⟩) :=
    Course.perform_request calm .createSession
  have holdsMade : Stand.Holds ⟨{ stand.conductor with session := some id },
      { stand.rehearsal.hear (.request .createSession) with testbed := made }⟩
      stand.rehearsal.testbed.serviceFiles id {} :=
    ⟨⟨calm.faults, calm.uncancelled⟩, rfl, Table.get?_insert_self _ _ _, rfl⟩
  rw [openSession]
  apply Course.decides_bind_of_ok requested
  apply Course.decides_bind_of_ok (Course.perform_modify _ _)
  have configuring : Session.carryOut {} stand.rehearsal.testbed.serviceFiles
      (.setMode .configuration) = .ok ((), { mode := some .configuration }) := rfl
  obtain ⟨afterMode, modeOk, holdsMode⟩ := holdsMade.perform_order configuring rfl
  apply Course.decides_bind_of_ok modeOk
  apply Course.decides_bind_of_ok (Course.perform_get _)
  cases net : stand.conductor.settings.controlNet with
  | none =>
      dsimp only
      exact Course.decides_of_ok rfl trivial ⟨_, holdsMode, rfl, rfl, rfl⟩
  | some name =>
      dsimp only
      have optionsSet : Session.carryOut { mode := some .configuration }
          stand.rehearsal.testbed.serviceFiles (.setOptions (.ofList [("controlnet", name)])) =
            .ok ((), _) := rfl
      obtain ⟨afterOptions, optionsOk, holdsOptions⟩ := holdsMode.perform_order optionsSet rfl
      apply Course.decides_bind_of_ok optionsOk
      exact Course.decides_of_ok rfl trivial ⟨_, holdsOptions, rfl, rfl, rfl⟩

theorem populating_fresh {id : SessionId} {files : Table FileName String} {session : Session}
    (nodeIds : Counter) {rehearsal : Rehearsal}
    (holds : Stand.Holds ⟨{ fresh chosen with session := some id, nodeIds }, rehearsal⟩ files id
      session)
    (unlinked : session.links = ∅)
    (numbered : ∀ node, session.nodes.contains node = true → node.toNat < nodeIds.next.toNat) :
    Populating chosen files id nodeIds.next.toNat [] session
      ⟨{ fresh chosen with session := some id, nodeIds }, rehearsal⟩ where
  holds := holds
  settings := rfl
  addresses := rfl
  unconfigured := rfl
  closed := rfl
  unlinked := unlinked
  cast := by
    refine ⟨fun name number => ?_, fun name number bound => ?_, fun number configured => ?_⟩
    · constructor <;>
      · intro bound
        cases bound
    · cases bound
    · cases configured
  counted := rfl
  numbered := numbered
  joined name := by
    constructor
    · rintro ⟨node, bound⟩
      cases bound
    · intro member
      cases member

/-- The control node, if there is one, gets the first identifier. -/
theorem decides_addControlNode {id : SessionId} {files : Table FileName String} {session : Session}
    (holds : stand.Holds files id session) (noNodes : session.nodes = ∅)
    (noLinks : session.links = ∅)
    (unused : stand.conductor = { fresh chosen with session := some id }) :
    Course.Decides (addControlNode id) stand True fun _ next => ∃ first, first ≤ 2 ∧
      ∃ populated, Populating chosen files id first [] populated next := by
  obtain ⟨conductor, rehearsal⟩ := stand
  obtain rfl : conductor = { fresh chosen with session := some id } := unused
  have numbered : ∀ number, session.nodes.contains number = true →
      number.toNat < (⟨1⟩ : Counter).next.toNat := by
    intro number present
    rw [noNodes] at present
    cases present
  rw [addControlNode]
  apply Course.decides_bind_of_ok (Course.perform_get _)
  cases control : chosen.controlNode with
  | none =>
      simp only [fresh, control]
      refine Course.decides_of_ok rfl trivial ⟨1, by decide, session, ?_⟩
      exact populating_fresh ⟨1⟩ holds noLinks numbered
  | some node =>
      simp only [fresh, control]
      apply Course.decides_bind_of_ok (perform_takeNodeId _)
      have absent : session.nodes.contains 1 = false := by
        rw [noNodes]
        rfl
      have added : session.carryOut files (.addNode ⟨1, node.name, node.model, node.position⟩) =
          .ok ((), withNode session files ⟨1, node.name, node.model, node.position⟩) :=
        carryOut_addNode absent
      obtain ⟨afterAdding, addedOk, holdsAdded⟩ :=
        (holds.conducted { fresh chosen with session := some id, nodeIds := ⟨2⟩ }).perform_order
          added holds.usable
      refine Course.decides_of_ok addedOk trivial ⟨2, by decide,
        withNode session files ⟨1, node.name, node.model, node.position⟩, ?_⟩
      exact populating_fresh ⟨2⟩ holdsAdded noLinks (numbered_withNode numbered (by decide) rfl)

/-- Setup succeeds if no node that takes part is declared twice. -/
theorem decides_populate {steps : List DocumentStep} {names : List String}
    (calm : stand.rehearsal.Calm) (unused : stand.conductor = fresh chosen)
    (stocked : stand.rehearsal.testbed.serviceFiles.contains (configName chosen) = true)
    (few : names.length < UInt32.size - 2) :
    Course.Decides (populate names steps) stand (names.filter (takesPart steps)).Nodup
      fun id next => ∃ first session,
        Populating chosen stand.rehearsal.testbed.serviceFiles id first
          (names.reverse.filter (takesPart steps)) session next := by
  rw [populate]
  apply Course.decides_bind_true (decides_openSession calm)
  rintro id opened ⟨session, holds, noNodes, noLinks, conducted⟩
  rw [unused] at conducted
  apply Course.decides_bind_true (decides_addControlNode holds noNodes noLinks conducted)
  rintro _ controlled ⟨first, small, populated, populating⟩
  have room : first + names.length < UInt32.size := by
    simp only [UInt32.size] at few ⊢
    omega
  refine (Course.decides_bind (populating.decides_declareAll stocked room)
    fun _ _ next described => ?_).congr (iff_of_eq (and_true _))
  exact Course.decides_of_ok (Course.perform_pure next id) trivial ⟨first, described⟩

end Setup

end Conductor

end ContactReplay
