import ContactReplay.Proofs.Replay.Sequencing

/-!
# Respecting the testbed

No request is made to fail, but prompts may fail and the replay may be cancelled.  Then no request
of a replay has to be refused, whatever its document says: every node that it names is in the
session, no node and no link is added twice, and a link is changed by the interfaces with which it
was added.  Only the configuration file of a node can be missing.

* `Course.Fares` says what holds after a course that ends well and which errors may end it;
* `Conductor.Attuned` is the invariant: what a conductor knows is in the session;
* the walk over the parts of a run ends with whole replays.
-/

namespace ContactReplay

/-! ## Courses that fare well -/

namespace Course

variable {α β : Type} {course : Course α} {stand next : Stand} {tolerable : Error → Prop}
  {after : α → Stand → Prop}

/-- A course ends without an error and as described, or with a tolerable error. -/
def Fares (course : Course α) (stand : Stand) (tolerable : Error → Prop)
    (after : α → Stand → Prop) : Prop :=
  match course.perform stand with
  | (.ok value, next) => after value next
  | (.error error, _) => tolerable error

theorem fares_of_ok {value : α} (performed : course.perform stand = (.ok value, next))
    (described : after value next) : course.Fares stand tolerable after := by
  rw [Fares, performed]
  exact described

theorem fares_of_error {error : Error} (performed : course.perform stand = (.error error, next))
    (tolerated : tolerable error) : course.Fares stand tolerable after := by
  rw [Fares, performed]
  exact tolerated

theorem Fares.imp {weaker : α → Stand → Prop} (fares : course.Fares stand tolerable after)
    (weaken : ∀ value next, after value next → weaker value next) :
    course.Fares stand tolerable weaker := by
  rw [Fares] at fares ⊢
  rcases performed : course.perform stand with ⟨outcome, next⟩
  rw [performed] at fares
  cases outcome with
  | ok value => exact weaken value next fares
  | error error => exact fares

theorem fares_bind {rest : α → Course β} {ending : β → Stand → Prop}
    (first : course.Fares stand tolerable after)
    (second : ∀ value next, after value next → (rest value).Fares next tolerable ending) :
    (course >>= rest).Fares stand tolerable ending := by
  rw [Fares] at first
  rcases performed : course.perform stand with ⟨outcome, next⟩
  rw [performed] at first
  cases outcome with
  | ok value =>
      rw [Fares, perform_bind_ok performed]
      exact second value next first
  | error error => exact fares_of_error (perform_bind_error performed rest) first

theorem fares_bind_of_ok {rest : α → Course β} {ending : β → Stand → Prop} {value : α}
    (performed : course.perform stand = (.ok value, next))
    (second : (rest value).Fares next tolerable ending) :
    (course >>= rest).Fares stand tolerable ending := by
  rw [Fares, perform_bind_ok performed]
  exact second

theorem fares_bind_of_error {rest : α → Course β} {ending : β → Stand → Prop} {error : Error}
    (performed : course.perform stand = (.error error, next)) (tolerated : tolerable error) :
    (course >>= rest).Fares stand tolerable ending :=
  fares_of_error (perform_bind_error performed rest) tolerated

theorem fares_attempt {outcome : Except Error α}
    (ok : ∀ value, outcome = .ok value → after value stand)
    (error : ∀ error, outcome = .error error → tolerable error) :
    (attempt outcome).Fares stand tolerable after := by
  cases outcome with
  | ok value => exact fares_of_ok (perform_attempt stand _) (ok value rfl)
  | error cause => exact fares_of_error (perform_attempt stand _) (error cause rfl)

theorem fares_forM_after {items : List α} {body : α → Course Unit} {holds : List α → Stand → Prop}
    {before : List α}
    (step : ∀ past item rest, past.reverse ++ item :: rest = before.reverse ++ items →
      ∀ stand, holds past stand →
        (body item).Fares stand tolerable fun _ => holds (item :: past))
    (begins : holds before stand) :
    (items.forM body).Fares stand tolerable fun _ => holds (items.reverse ++ before) := by
  induction items generalizing before stand with
  | nil => exact fares_of_ok (perform_pure stand ()) begins
  | cons item rest inductionHypothesis =>
      rw [List.reverse_cons, List.append_assoc]
      refine fares_bind (step before item rest rfl stand begins) fun _ next nextHolds => ?_
      refine inductionHypothesis (fun past other others parted => ?_) nextHolds
      exact step past other others (by simpa using parted)

/-- A loop fares well if one step of it keeps an invariant of the items before, newest first. -/
theorem fares_forM {items : List α} {body : α → Course Unit} (holds : List α → Stand → Prop)
    (step : ∀ past item rest, past.reverse ++ item :: rest = items → ∀ stand, holds past stand →
      (body item).Fares stand tolerable fun _ => holds (item :: past))
    (begins : holds [] stand) :
    (items.forM body).Fares stand tolerable fun _ => holds items.reverse := by
  have fares := fares_forM_after step begins
  rwa [List.append_nil] at fares

end Course

/-- An error that may end a replay when no request is made to fail: a request is refused only if a
configuration file is missing. -/
def Error.Tolerable (files : Table FileName String) (name : FileName) : Error → Prop
  | .refused method cause => files.contains name = false ∧ method = .getFile ∧
      ∃ node, cause = .noFile node name.service name.file
  | _ => True

/-! ## Requests that are not made to fail -/

/-- No request is made to fail, and a session that every new node gets some files in can be used. -/
structure Stand.Serves (stand : Stand) (files : Table FileName String) (id : SessionId)
    (session : Session) : Prop where
  unfailing : stand.rehearsal.faults.failingRequest = none
  files : stand.rehearsal.testbed.serviceFiles = files
  held : stand.rehearsal.testbed.session? id = some session
  usable : session.tornDown = false

/-- A request that is not made to fail gets the answer of the testbed. -/
theorem Course.perform_request_of_unfailing {stand : Stand}
    (unfailing : stand.rehearsal.faults.failingRequest = none) (request : Request) :
    ∃ cancelled, (Course.request request).perform stand =
      ((stand.rehearsal.testbed.serve request).1, ⟨stand.conductor,
        { stand.rehearsal.hear (.request request) with
          cancelled, testbed := (stand.rehearsal.testbed.serve request).2 }⟩) := by
  let heard := stand.rehearsal.hear (.request request)
  have spared : ¬ heard.faults.failingRequest = some heard.requests.length := by
    have none : heard.faults.failingRequest = none := unfailing
    rw [none]
    nofun
  have opened : (Course.request request).perform stand =
      ((heard.serve request).1, ⟨stand.conductor, (heard.serve request).2⟩) := rfl
  rw [opened, Rehearsal.serve]
  dsimp only
  rw [if_neg spared]
  exact ⟨_, rfl⟩

namespace Stand.Serves

variable {stand : Stand} {files : Table FileName String} {id : SessionId} {session : Session}

theorem conducted (serves : stand.Serves files id session) (conductor : Conductor) :
    Stand.Serves { stand with conductor } files id session :=
  ⟨serves.unfailing, serves.files, serves.held, serves.usable⟩

theorem testbed_usable (serves : stand.Serves files id session) :
    stand.rehearsal.testbed.usable id = .ok session :=
  Testbed.usable_eq_ok_iff.mpr ⟨serves.held, serves.usable⟩

/-- An order that the session carries out. -/
theorem perform_carried (serves : stand.Serves files id session) {order : Order}
    {reply : order.Reply} {later : Session}
    (carried : session.carryOut files order = .ok (reply, later)) :
    ∃ rehearsal, (Course.order id order).perform stand = (.ok reply, ⟨stand.conductor, rehearsal⟩) ∧
      (later.tornDown = false → Stand.Serves ⟨stand.conductor, rehearsal⟩ files id later) := by
  rw [← serves.files] at carried
  have served : stand.rehearsal.testbed.serve (.order id order) =
      (.ok reply, served stand.rehearsal.testbed id order later) :=
    Testbed.serve_of_carried serves.testbed_usable carried
  obtain ⟨cancelled, performed⟩ :=
    Course.perform_request_of_unfailing serves.unfailing (.order id order)
  rw [served] at performed
  exact ⟨_, performed, fun up =>
    ⟨serves.unfailing, serves.files, Table.get?_insert_self _ _ _, up⟩⟩

theorem perform_order (serves : stand.Serves files id session) {order : Order}
    {reply : order.Reply} {later : Session}
    (carried : session.carryOut files order = .ok (reply, later)) (up : later.tornDown = false) :
    ∃ rehearsal, (Course.order id order).perform stand = (.ok reply, ⟨stand.conductor, rehearsal⟩) ∧
      Stand.Serves ⟨stand.conductor, rehearsal⟩ files id later := by
  obtain ⟨rehearsal, performed, servesLater⟩ := serves.perform_carried carried
  exact ⟨rehearsal, performed, servesLater up⟩

/-- An order that the session refuses. -/
theorem perform_refused (serves : stand.Serves files id session) {order : Order} {cause : Refusal}
    (refused : session.carryOut files order = .error cause) :
    ∃ next, (Course.order id order).perform stand =
      (.error (.refused order.method cause), next) := by
  rw [← serves.files] at refused
  have served := Testbed.serve_of_refused serves.testbed_usable refused
  obtain ⟨cancelled, performed⟩ :=
    Course.perform_request_of_unfailing serves.unfailing (.order id order)
  rw [served] at performed
  exact ⟨_, performed⟩

end Stand.Serves

namespace Conductor

open Course

/-- What a conductor knows is in the session that it leads: the nodes and their configurations, and
the links of the pairs that have an allotment, each with some loss. -/
structure Attuned (chosen : Settings) (files : Table FileName String) (id : SessionId)
    (loss : Pair NodeId → Loss) (session : Session) (stand : Stand) : Prop where
  serves : stand.Serves files id session
  settings : stand.conductor.settings = chosen
  cast : Cast stand.conductor session
  linked : Linked stand.conductor.addresses session loss

section Attuned

variable {chosen : Settings} {files : Table FileName String} {id : SessionId}
  {loss : Pair NodeId → Loss} {session : Session} {stand : Stand}

/-- What is not about nodes and links may change in a conductor. -/
theorem Attuned.conducted (attuned : Attuned chosen files id loss session stand)
    (conductor : Conductor) (settings : conductor.settings = stand.conductor.settings)
    (registry : conductor.registry = stand.conductor.registry)
    (configs : conductor.configs = stand.conductor.configs)
    (addresses : conductor.addresses = stand.conductor.addresses) :
    Attuned chosen files id loss session { stand with conductor } where
  serves := attuned.serves.conducted conductor
  settings := settings.trans attuned.settings
  cast := by
    refine ⟨?_, ?_, ?_⟩
    · rw [registry]
      exact attuned.cast.bound
    · rw [registry]
      exact attuned.cast.named
    · rw [configs]
      exact attuned.cast.configured
  linked := by
    rw [addresses]
    exact attuned.linked

/-- An attuned conductor stays so while its surroundings keep their testbed and their faults. -/
theorem Attuned.surrounded (attuned : Attuned chosen files id loss session stand)
    {rehearsal : Rehearsal} (testbed : rehearsal.testbed = stand.rehearsal.testbed)
    (faults : rehearsal.faults = stand.rehearsal.faults) :
    Attuned chosen files id loss session { stand with rehearsal } where
  serves := by
    refine ⟨?_, ?_, ?_, attuned.serves.usable⟩
    · rw [faults]
      exact attuned.serves.unfailing
    · rw [testbed]
      exact attuned.serves.files
    · rw [testbed]
      exact attuned.serves.held
  settings := attuned.settings
  cast := attuned.cast
  linked := attuned.linked

end Attuned

/-! ## Waiting and resolving names -/

section Waiting

variable {files : Table FileName String} {name : FileName} {stand : Stand} {holds : Stand → Prop}
  (kept : ∀ rehearsal : Rehearsal, rehearsal.testbed = stand.rehearsal.testbed →
    rehearsal.faults = stand.rehearsal.faults → holds { stand with rehearsal })
include kept

theorem fares_pause (duration : Duration) :
    (Course.pause duration).Fares stand (Error.Tolerable files name) fun _ => holds := by
  have performed : (Course.pause duration).perform stand =
      (.ok (), { stand with rehearsal := (stand.rehearsal.hear (.pause duration)).endPause }) := rfl
  exact fares_of_ok performed (kept _ rfl rfl)

theorem fares_confirm (prompt : Prompt) :
    (Course.confirm prompt).Fares stand (Error.Tolerable files name) fun _ => holds := by
  have opened : (Course.confirm prompt).perform stand =
      ((stand.rehearsal.hear (.confirm prompt)).confirm.1,
        { stand with rehearsal := (stand.rehearsal.hear (.confirm prompt)).confirm.2 }) := rfl
  rw [Rehearsal.confirm] at opened
  split at opened
  · exact fares_of_error opened trivial
  · exact fares_of_ok opened (kept _ rfl rfl)

theorem fares_stopIfCancelled (step : UInt64) :
    (Course.stopIfCancelled step).Fares stand (Error.Tolerable files name) fun _ => holds := by
  have opened : (Course.stopIfCancelled step).perform stand =
      (if stand.rehearsal.cancelled then .error (.cancelled step) else .ok (),
        { stand with rehearsal := stand.rehearsal.hear .isCancelled }) := rfl
  split at opened
  · exact fares_of_error opened trivial
  · exact fares_of_ok opened (kept _ rfl rfl)

end Waiting

section Resolving

variable {files : Table FileName String} {name : FileName} {stand : Stand}

theorem fares_resolvePair (first second : String) (number : Nat) :
    (resolvePair first second number).Fares stand (Error.Tolerable files name) fun pair next =>
      next = stand ∧ stand.conductor.registry.pair? first second = some pair := by
  have resolves : ∀ asked current, current = stand →
      (attempt (stand.conductor.registry.resolve asked number)).Fares current
        (Error.Tolerable files name) fun id next => next = stand ∧
          stand.conductor.registry.id? asked = some id := by
    rintro asked _ rfl
    refine fares_attempt (fun id resolved => ⟨rfl, ?_⟩) fun error failed => ?_
    · rw [Registry.resolve] at resolved
      split at resolved
      · rename_i bound
        rw [bound, Except.ok.inj resolved]
      · cases resolved
    · rw [Registry.resolve] at failed
      split at failed
      · cases failed
      · rw [← Except.error.inj failed]
        trivial
  rw [resolvePair]
  refine fares_bind_of_ok (perform_get stand) ?_
  refine fares_bind (resolves first stand rfl) ?_
  rintro firstId current ⟨same, firstBound⟩
  refine fares_bind (resolves second current same) ?_
  rintro secondId last ⟨alike, secondBound⟩
  refine fares_of_ok (perform_pure last _) ⟨alike, ?_⟩
  exact Registry.pair?_eq_some_iff.mpr ⟨firstId, secondId, firstBound, secondBound, rfl⟩

end Resolving

/-! ## Adding nodes -/

/-- Nodes are being added: the session has no link, and its nodes have identifiers that are not the
next one, which has not gone beyond the number of names so far. -/
structure Admitting (chosen : Settings) (files : Table FileName String) (id : SessionId)
    (count : Nat) (session : Session) (stand : Stand) : Prop
    extends Attuned chosen files id (fun _ => Loss.down) session stand where
  numbered : ∀ node, session.nodes.contains node = true →
    node.toNat < stand.conductor.nodeIds.next.toNat
  bounded : stand.conductor.nodeIds.next.toNat ≤ 2 + count

section Admitting

variable {chosen : Settings} {files : Table FileName String} {id : SessionId} {count : Nat}
  {session : Session} {stand : Stand}

/-- A node that a conductor does not know of joins. -/
theorem Admitting.join (admitting : Admitting chosen files id count session stand)
    (room : stand.conductor.nodeIds.next.toNat + 1 < UInt32.size) {name : String}
    (unbound : stand.conductor.registry.id? name = none) (text : String)
    {node : NodeDescription} (same : node.id = stand.conductor.nodeIds.next)
    (named : node.name = name) {rehearsal : Rehearsal}
    (serves : Stand.Serves ⟨joinedBy stand.conductor name text, rehearsal⟩ files id
      (withNode session files node)) :
    Admitting chosen files id (count + 1) (withNode session files node)
      ⟨joinedBy stand.conductor name text, rehearsal⟩ where
  serves := serves
  settings := admitting.settings
  cast := admitting.cast.join unbound (admitting.cast.free admitting.numbered).1 text same named
  linked := ⟨admitting.linked.linked, admitting.linked.unlinked⟩
  numbered := numbered_withNode admitting.numbered room same
  bounded := (Counter.toNat_advance room).trans_le (Nat.succ_le_succ admitting.bounded)

theorem Admitting.fares_addNode (admitting : Admitting chosen files id count session stand)
    (room : 2 + count + 1 < UInt32.size) (name : String) :
    (addNode id name).Fares stand (Error.Tolerable files (configName chosen)) fun _ next =>
      ∃ populated, Admitting chosen files id (count + 1) populated next := by
  obtain ⟨free, absent⟩ := admitting.cast.free admitting.numbered
  have roomNext : stand.conductor.nodeIds.next.toNat + 1 < UInt32.size :=
    Nat.lt_of_le_of_lt (Nat.succ_le_succ admitting.bounded) room
  rw [addNode]
  apply fares_bind_of_ok (perform_takeNodeId stand)
  cases unbound : stand.conductor.registry.id? name with
  | some other =>
      exact fares_bind_of_error (perform_register_of_bound unbound) trivial
  | none =>
      refine fares_bind_of_ok (perform_register_of_free unbound free) ?_
      apply fares_bind_of_ok (perform_takePosition _)
      apply fares_bind_of_ok (perform_get _)
      let node : NodeDescription := ⟨stand.conductor.nodeIds.next, name,
        stand.conductor.settings.nodeModel,
        stand.conductor.settings.grid.position stand.conductor.gridSlots.next⟩
      have added : session.carryOut files (.addNode node) =
          .ok ((), withNode session files node) := carryOut_addNode absent
      obtain ⟨afterAdding, addedOk, servesAdded⟩ :=
        (admitting.serves.conducted _).perform_order added admitting.serves.usable
      apply fares_bind_of_ok addedOk
      have asked := carryOut_getFile_withNode session files node
        (configName stand.conductor.settings)
      cases stored : files.get? (configName stand.conductor.settings) with
      | none =>
          rw [stored] at asked
          obtain ⟨next, failed⟩ := servesAdded.perform_refused asked
          refine fares_bind_of_error failed ⟨?_, rfl, node.id, ?_⟩
          · rw [Table.contains, ← admitting.settings, stored]
            rfl
          · rw [admitting.settings]
      | some text =>
          rw [stored] at asked
          obtain ⟨afterFetching, fetchedOk, servesFetched⟩ :=
            servesAdded.perform_order asked admitting.serves.usable
          apply fares_bind_of_ok fetchedOk
          apply fares_bind_of_ok (perform_modify _ _)
          refine fares_of_ok (perform_note _ _) ⟨withNode session files node, ?_⟩
          exact admitting.join roomNext unbound text rfl rfl (servesFetched.conducted _)

theorem Admitting.fares_declareNode (admitting : Admitting chosen files id count session stand)
    (room : 2 + count + 1 < UInt32.size) (steps : List DocumentStep) (name : String) :
    (declareNode id steps name).Fares stand (Error.Tolerable files (configName chosen))
      fun _ next => ∃ populated, Admitting chosen files id (count + 1) populated next := by
  rw [declareNode]
  split
  · exact admitting.fares_addNode room name
  · refine fares_of_ok (perform_note _ _) ⟨session, ?_, admitting.numbered, ?_⟩
    · exact admitting.conducted _ rfl rfl rfl rfl
    · exact Nat.le_succ_of_le admitting.bounded

/-- The orders that change neither nodes nor links. -/
theorem Attuned.fares_setting (attuned : Attuned chosen files id loss session stand) (order : Order)
    {reply : order.Reply} {later : Session}
    (carried : session.carryOut files order = .ok (reply, later))
    (nodes : later.nodes = session.nodes) (links : later.links = session.links)
    (up : later.tornDown = session.tornDown) {tolerable : Error → Prop} :
    (Course.order id order).Fares stand tolerable fun _ next =>
      next.conductor = stand.conductor ∧ Attuned chosen files id loss later next := by
  obtain ⟨rehearsal, performed, serves⟩ :=
    attuned.serves.perform_order carried (up.trans attuned.serves.usable)
  refine fares_of_ok performed ⟨rfl, serves, attuned.settings, ⟨attuned.cast.bound, ?_, ?_⟩, ?_, ?_⟩
  · rw [Session.Named, nodes]
    exact attuned.cast.named
  · rw [nodes]
    exact attuned.cast.configured
  · rw [links]
    exact attuned.linked.linked
  · rw [links]
    exact attuned.linked.unlinked

theorem attuned_fresh {rehearsal : Rehearsal}
    (serves : Stand.Serves ⟨fresh chosen, rehearsal⟩ files id {}) (opened : Option SessionId) :
    Attuned chosen files id (fun _ => Loss.down) {}
      ⟨{ fresh chosen with session := opened }, rehearsal⟩ where
  serves := serves.conducted _
  settings := rfl
  cast := by
    refine ⟨fun name number => ?_, nofun, nofun⟩
    constructor <;>
    · intro bound
      cases bound
  linked := ⟨nofun, fun _ _ => rfl⟩

theorem fares_createSession (unfailing : stand.rehearsal.faults.failingRequest = none)
    (stocked : stand.rehearsal.testbed.serviceFiles = files) {tolerable : Error → Prop} :
    (Course.request .createSession).Fares stand tolerable fun id next =>
      next.conductor = stand.conductor ∧ next.Serves files id {} := by
  obtain ⟨cancelled, requested⟩ := perform_request_of_unfailing unfailing .createSession
  exact fares_of_ok requested
    ⟨rfl, unfailing, stocked, Table.get?_insert_self _ _ _, rfl⟩

theorem fares_openSession (unfailing : stand.rehearsal.faults.failingRequest = none)
    (unused : stand.conductor = fresh chosen)
    (stocked : stand.rehearsal.testbed.serviceFiles = files) {tolerable : Error → Prop} :
    openSession.Fares stand tolerable fun id next => ∃ session, session.nodes = ∅ ∧
      next.conductor.nodeIds = ⟨1⟩ ∧
      Attuned chosen files id (fun _ => Loss.down) session next := by
  rw [openSession]
  refine fares_bind (fares_createSession unfailing stocked) ?_
  rintro id made ⟨same, serves⟩
  obtain ⟨conductor, rehearsal⟩ := made
  obtain rfl : conductor = fresh chosen := same.trans unused
  apply fares_bind_of_ok (perform_modify _ _)
  have begins := attuned_fresh serves (some id)
  refine fares_bind (begins.fares_setting (.setMode .configuration) rfl rfl rfl rfl) ?_
  rintro _ current ⟨conducted, attuned⟩
  have first : current.conductor.nodeIds = ⟨1⟩ := congrArg Conductor.nodeIds conducted
  apply fares_bind_of_ok (perform_get current)
  cases current.conductor.settings.controlNet with
  | none => exact fares_of_ok (perform_pure current id) ⟨_, rfl, first, attuned⟩
  | some net =>
      refine fares_bind (attuned.fares_setting
        (.setOptions (.ofList [("controlnet", net)])) rfl rfl rfl rfl) ?_
      rintro _ last ⟨conductedLast, attunedLast⟩
      exact fares_of_ok (perform_pure last id)
        ⟨_, rfl, (congrArg Conductor.nodeIds conductedLast).trans first, attunedLast⟩

/-- A node that a conductor does not know of may join its session. -/
theorem Cast.withNode {conductor : Conductor} (cast : Cast conductor session)
    {node : NodeDescription} (absent : session.nodes.contains node.id = false) :
    Cast conductor (withNode session files node) where
  bound := cast.bound
  named name number bound := by
    obtain ⟨found, held, sameName⟩ := cast.named name number bound
    have different : number ≠ node.id := by
      rintro rfl
      rw [Table.contains, held] at absent
      cases absent
    exact ⟨found, (Table.get?_insert_of_ne _ _ different).trans held, sameName⟩
  configured number configured :=
    Table.contains_insert.mpr (Or.inr (cast.configured number configured))

theorem Attuned.fares_addControlNode
    (attuned : Attuned chosen files id (fun _ => Loss.down) session stand)
    (noNodes : session.nodes = ∅) (first : stand.conductor.nodeIds = ⟨1⟩)
    {tolerable : Error → Prop} :
    (addControlNode id).Fares stand tolerable fun _ next =>
      ∃ populated, Admitting chosen files id 0 populated next := by
  have numbered : ∀ number, session.nodes.contains number = true →
      number.toNat < stand.conductor.nodeIds.next.toNat := by
    intro number present
    rw [noNodes] at present
    cases present
  rw [addControlNode]
  apply fares_bind_of_ok (perform_get stand)
  cases stand.conductor.settings.controlNode with
  | none =>
      refine fares_of_ok (perform_pure stand _) ⟨session, attuned, numbered, ?_⟩
      rw [first]
      decide
  | some node =>
      let description : NodeDescription :=
        ⟨stand.conductor.nodeIds.next, node.name, node.model, node.position⟩
      have absent : session.nodes.contains description.id = false := by
        rw [noNodes]
        rfl
      have room : stand.conductor.nodeIds.next.toNat + 1 < UInt32.size := by
        rw [first]
        decide
      have bounded : stand.conductor.nodeIds.advance.next.toNat ≤ 2 := by
        rw [first]
        decide
      apply fares_bind_of_ok (perform_takeNodeId stand)
      obtain ⟨afterAdding, addedOk, serves⟩ :=
        (attuned.serves.conducted _).perform_order (carryOut_addNode absent) attuned.serves.usable
      refine fares_of_ok addedOk ⟨Conductor.withNode session files description,
        ⟨serves, attuned.settings, ?_, ?_⟩, numbered_withNode numbered room rfl, bounded⟩
      · have cast : Cast stand.conductor (Conductor.withNode session files description) :=
          attuned.cast.withNode absent
        exact ⟨cast.bound, cast.named, cast.configured⟩
      · exact ⟨attuned.linked.linked, attuned.linked.unlinked⟩

/-- Setup leaves the conductor attuned to a session without links. -/
theorem fares_populate (unfailing : stand.rehearsal.faults.failingRequest = none)
    (unused : stand.conductor = fresh chosen)
    (stocked : stand.rehearsal.testbed.serviceFiles = files) {names : List String}
    (few : names.length < UInt32.size - 2) (steps : List DocumentStep) :
    (populate names steps).Fares stand (Error.Tolerable files (configName chosen)) fun id next =>
      ∃ session, Attuned chosen files id (fun _ => Loss.down) session next := by
  rw [populate]
  refine fares_bind (fares_openSession unfailing unused stocked) ?_
  rintro id opened ⟨session, noNodes, first, attuned⟩
  refine fares_bind (attuned.fares_addControlNode noNodes first) ?_
  rintro _ controlled ⟨populated, admitting⟩
  refine fares_bind (fares_forM (fun past next => ∃ populated,
      Admitting chosen files id past.length populated next) ?_ ⟨populated, admitting⟩) ?_
  · rintro past name rest parted current ⟨held, admittingNow⟩
    have length := congrArg List.length parted
    simp only [List.length_append, List.length_reverse, List.length_cons] at length
    exact admittingNow.fares_declareNode (by omega) steps name
  · rintro _ last ⟨held, admittingLast⟩
    exact fares_of_ok (perform_pure last id) ⟨held, admittingLast.toAttuned⟩

end Admitting

/-! ## Linking and configuring -/

section Linking

variable {chosen : Settings} {files : Table FileName String} {id : SessionId}
  {loss : Pair NodeId → Loss} {session : Session} {stand : Stand}

theorem Attuned.fares_meetNeighbour (attuned : Attuned chosen files id loss session stand)
    (node : NodeId) (address : Ipv4Address) :
    (meetNeighbour node address).Fares stand (Error.Tolerable files (configName chosen))
      fun _ next => Attuned chosen files id loss session next := by
  rw [meetNeighbour]
  apply fares_bind_of_ok (perform_get stand)
  rcases collected : stand.conductor.daemons.collect node (toString address) with ⟨outcome, daemons⟩
  apply fares_bind_of_ok (perform_modify _ _)
  refine fares_attempt (fun _ _ => attuned.conducted _ rfl rfl rfl rfl) ?_
  rintro error rfl
  rw [Configurator.collect] at collected
  split at collected
  · rw [← Except.error.inj (Prod.mk.inj collected).1]
    trivial
  · cases (Prod.mk.inj collected).1

theorem Attuned.fares_addLink
    (attuned : Attuned chosen files id (fun _ => Loss.down) session stand) {pair : Pair NodeId}
    (low : session.nodes.contains pair.low = true) (high : session.nodes.contains pair.high = true)
    (new : stand.conductor.addresses.get? pair = none) :
    (addLink id pair).Fares stand (Error.Tolerable files (configName chosen)) fun _ next =>
      ∃ linked, Attuned chosen files id (fun _ => Loss.down) linked next := by
  rw [addLink]
  by_cases room : stand.conductor.addresses.subnets.next.toNat <
      stand.conductor.addresses.plan.subnetCapacity.toNat
  · obtain ⟨allotment, book, allotted, -, -, grown⟩ := AddressBook.allot_of_room new room
    apply fares_bind_of_ok (perform_allot allotted)
    have added : session.carryOut files (.addLink
          ⟨pair.low, pair.high, allotment.low, allotment.high, Loss.down⟩) =
        .ok ((), withLink session pair allotment) :=
      carryOut_addLink low high (attuned.linked.unlinked pair new) allotment
    obtain ⟨afterAdding, addedOk, serves⟩ :=
      (attuned.serves.conducted _).perform_order added attuned.serves.usable
    apply fares_bind_of_ok addedOk
    have linked : Attuned chosen files id (fun _ => Loss.down) (withLink session pair allotment)
        ⟨{ stand.conductor with addresses := book }, afterAdding⟩ :=
      ⟨serves, attuned.settings, ⟨attuned.cast.bound, attuned.cast.named, attuned.cast.configured⟩,
        attuned.linked.join grown⟩
    refine fares_bind (linked.fares_meetNeighbour _ _) fun _ met attunedMet => ?_
    refine fares_bind (attunedMet.fares_meetNeighbour _ _) fun _ last attunedLast => ?_
    exact fares_of_ok (perform_note _ _) ⟨_, attunedLast.conducted _ rfl rfl rfl rfl⟩
  · have full := AddressBook.allot_of_full new (Nat.not_lt.mp room)
    exact fares_bind_of_error (perform_allot full) trivial

theorem Attuned.fares_linkEdge
    (attuned : Attuned chosen files id (fun _ => Loss.down) session stand) (line : EdgeLine) :
    (linkEdge id line).Fares stand (Error.Tolerable files (configName chosen)) fun _ next =>
      ∃ linked, Attuned chosen files id (fun _ => Loss.down) linked next := by
  cases line with
  | delete edge number => exact fares_of_ok rfl ⟨session, attuned⟩
  | add edge first second number =>
      rw [linkEdge]
      refine fares_bind (fares_resolvePair first second number) ?_
      rintro pair next ⟨same, known⟩
      subst same
      apply fares_bind_of_ok (perform_get next)
      cases found : next.conductor.addresses.get? pair with
      | some allotment => exact fares_of_ok rfl ⟨session, attuned⟩
      | none =>
          obtain ⟨low, high⟩ := attuned.cast.named.ends_present known
          exact attuned.fares_addLink low high found

theorem Attuned.fares_linkAll
    (attuned : Attuned chosen files id (fun _ => Loss.down) session stand)
    (steps : List DocumentStep) :
    (linkAll id steps).Fares stand (Error.Tolerable files (configName chosen)) fun _ next =>
      ∃ linked, Attuned chosen files id (fun _ => Loss.down) linked next := by
  rw [linkAll, forM_flatMap]
  refine fares_forM (fun _ next => ∃ linked,
    Attuned chosen files id (fun _ => Loss.down) linked next) ?_ ⟨session, attuned⟩
  rintro _ line _ _ _ ⟨_, linkingNow⟩
  exact linkingNow.fares_linkEdge line

theorem Attuned.fares_configureNode (attuned : Attuned chosen files id loss session stand)
    {node : NodeId} (present : session.nodes.contains node = true) (template : String) :
    (configureNode id node template).Fares stand (Error.Tolerable files (configName chosen))
      fun _ next => ∃ written, (∀ other, session.nodes.contains other = true →
        written.nodes.contains other = true) ∧ Attuned chosen files id loss written next := by
  obtain ⟨found, held⟩ := Option.isSome_iff_exists.mp present
  rw [configureNode]
  apply fares_bind_of_ok (perform_get stand)
  rcases configured : stand.conductor.daemons.configure node template with ⟨outcome, daemons⟩
  apply fares_bind_of_ok (perform_modify _ _)
  cases outcome with
  | error error =>
      refine fares_bind_of_error (perform_attempt _ _) ?_
      rw [Configurator.configure] at configured
      split at configured
      · rw [← Except.error.inj (Prod.mk.inj configured).1]
        trivial
      · cases (Prod.mk.inj configured).1
  | ok text =>
      apply fares_bind_of_ok (perform_attempt _ _)
      apply fares_bind_of_ok (perform_get _)
      obtain ⟨afterStoring, storedOk, serves⟩ := (attuned.serves.conducted _).perform_order
        (carryOut_setFile held (configName stand.conductor.settings) text) attuned.serves.usable
      apply fares_bind_of_ok storedOk
      refine fares_of_ok (perform_modify _ _) ⟨_, fun _ => contains_withFile, serves.conducted _,
        attuned.settings, ⟨attuned.cast.bound, named_withFile attuned.cast.named held _ _, ?_⟩,
        attuned.linked.linked, attuned.linked.unlinked⟩
      intro other written
      rcases Table.contains_insert.mp written with rfl | old
      · exact contains_withFile present
      · exact contains_withFile (attuned.cast.configured other old)

theorem Attuned.fares_configureAll (attuned : Attuned chosen files id loss session stand) :
    (configureAll id).Fares stand (Error.Tolerable files (configName chosen)) fun _ next =>
      ∃ written, Attuned chosen files id loss written next := by
  have present : ∀ entry ∈ stand.conductor.configs.entries,
      session.nodes.contains entry.1 = true := fun entry member =>
    attuned.cast.configured entry.1
      (Table.contains_iff_mem_keys.mpr (List.mem_map_of_mem member))
  rw [configureAll]
  apply fares_bind_of_ok (perform_get stand)
  refine (fares_forM (fun _ next => ∃ written,
      (∀ entry ∈ stand.conductor.configs.entries, written.nodes.contains entry.1 = true) ∧
        Attuned chosen files id loss written next) ?_ ⟨session, present, attuned⟩).imp ?_
  · rintro past entry rest parted current ⟨written, known, attunedNow⟩
    have member : entry ∈ stand.conductor.configs.entries := by
      rw [← parted]
      simp
    refine (attunedNow.fares_configureNode (known entry member) entry.2).imp ?_
    rintro _ next ⟨later, kept, attunedNext⟩
    exact ⟨later, fun other inEntries => kept other.1 (known other inEntries), attunedNext⟩
  · rintro _ _ ⟨written, _, attunedLast⟩
    exact ⟨written, attunedLast⟩

theorem Attuned.fares_launch (attuned : Attuned chosen files id loss session stand) :
    (launch id).Fares stand (Error.Tolerable files (configName chosen)) fun _ next =>
      ∃ launched, Attuned chosen files id loss launched next := by
  have starts : ∀ current, Attuned chosen files id loss session current →
      (Course.order id (.setMode .instantiation)).Fares current
        (Error.Tolerable files (configName chosen)) fun _ next =>
          ∃ launched, Attuned chosen files id loss launched next := by
    intro current now
    refine (now.fares_setting (.setMode .instantiation) rfl rfl rfl rfl).imp ?_
    rintro _ _ ⟨_, attunedNext⟩
    exact ⟨_, attunedNext⟩
  rw [launch]
  apply fares_bind_of_ok (perform_get stand)
  split
  · have waits : ∀ rehearsal : Rehearsal, rehearsal.testbed = stand.rehearsal.testbed →
        rehearsal.faults = stand.rehearsal.faults →
        Attuned chosen files id loss session { stand with rehearsal } :=
      fun _ => attuned.surrounded
    exact fares_bind (fares_confirm waits _) fun _ => starts
  · exact starts stand attuned

end Linking

/-! ## Playing -/

section Playing

variable {chosen : Settings} {files : Table FileName String} {id : SessionId} {stand : Stand}

/-- A conductor is attuned to its session, whatever the losses of the links are. -/
def Follows (chosen : Settings) (files : Table FileName String) (id : SessionId) (stand : Stand) :
    Prop :=
  ∃ loss session, Attuned chosen files id loss session stand

theorem fares_setLoss (follows : Follows chosen files id stand) (pair : Pair NodeId) (loss : Loss) :
    (setLoss id pair loss).Fares stand (Error.Tolerable files (configName chosen)) fun _ =>
      Follows chosen files id := by
  obtain ⟨before, session, attuned⟩ := follows
  rw [setLoss]
  apply fares_bind_of_ok (perform_get stand)
  cases booked : stand.conductor.addresses.get? pair with
  | none => exact fares_of_error (perform_throw _ _) trivial
  | some allotment =>
      obtain ⟨link, held, first, second, -⟩ := attuned.linked.linked pair allotment booked
      have adjusted : session.carryOut files (.adjustLink
            ⟨pair.low, pair.high, allotment.low.id, allotment.high.id, loss⟩) =
          .ok ((), withLoss session pair link loss) := carryOut_adjustLink held first second loss
      obtain ⟨afterAdjusting, adjustedOk, serves⟩ :=
        attuned.serves.perform_order adjusted attuned.serves.usable
      refine fares_of_ok adjustedOk ⟨Function.update before pair loss,
        withLoss session pair link loss, serves, attuned.settings,
        ⟨attuned.cast.bound, attuned.cast.named, attuned.cast.configured⟩, ?_⟩
      exact attuned.linked.adjust booked held (Function.update_self pair loss before)
        fun other different => Function.update_of_ne different loss before

theorem fares_carryOut (follows : Follows chosen files id stand) (step : UInt64)
    (line : EdgeLine) :
    (carryOut id step line).Fares stand (Error.Tolerable files (configName chosen)) fun _ =>
      Follows chosen files id := by
  have remembers : ∀ (current : Stand) openEdges report, Follows chosen files id current →
      Follows chosen files id { current with
        conductor := { current.conductor with openEdges, report } } := by
    rintro _ _ _ ⟨loss, session, attuned⟩
    exact ⟨loss, session, attuned.conducted _ rfl rfl rfl rfl⟩
  cases line with
  | add edge first second number =>
      rw [carryOut]
      apply fares_bind_of_ok (perform_get stand)
      split
      · exact fares_bind_of_error (perform_throw _ _) trivial
      · refine fares_bind (fares_resolvePair first second number) ?_
        rintro pair next ⟨same, _⟩
        subst same
        refine fares_bind (fares_setLoss follows pair Loss.up) fun _ current now => ?_
        apply fares_bind_of_ok (perform_modify _ _)
        exact fares_of_ok (perform_note _ _)
          (remembers current (current.conductor.openEdges.insert edge pair) _ now)
  | delete edge number =>
      rw [carryOut]
      apply fares_bind_of_ok (perform_get stand)
      cases stand.conductor.openEdges.get? edge with
      | none => exact fares_of_error (perform_throw _ _) trivial
      | some pair =>
          apply fares_bind_of_ok (perform_modify _ _)
          have forgotten := remembers stand (stand.conductor.openEdges.erase edge)
            stand.conductor.report follows
          refine fares_bind (fares_setLoss forgotten pair Loss.down) fun _ current now => ?_
          exact fares_of_ok (perform_note _ _) (remembers _ current.conductor.openEdges _ now)

theorem fares_act (follows : Follows chosen files id stand) (act : Act) :
    (act.course id).Fares stand (Error.Tolerable files (configName chosen)) fun _ =>
      Follows chosen files id := by
  have waits : ∀ current : Stand, Follows chosen files id current → ∀ rehearsal : Rehearsal,
      rehearsal.testbed = current.rehearsal.testbed → rehearsal.faults = current.rehearsal.faults →
      Follows chosen files id { current with rehearsal } :=
    fun _ ⟨loss, session, attuned⟩ _ testbed faults =>
      ⟨loss, session, attuned.surrounded testbed faults⟩
  cases act with
  | begin last moment =>
      have pauses : ∀ duration current, Follows chosen files id current →
          (Course.pause duration).Fares current (Error.Tolerable files (configName chosen))
            fun _ => Follows chosen files id :=
        fun duration current now => fares_pause (waits current now) duration
      refine fares_bind (fares_stopIfCancelled (waits stand follows) _)
        fun _ looked now => ?_
      apply fares_bind_of_ok (perform_get looked)
      dsimp only
      split
      · refine fares_bind (fares_confirm (waits looked now) _)
          fun _ confirmed nowConfirmed => ?_
        exact pauses _ confirmed nowConfirmed
      · exact pauses _ looked now
  | carryOut step line =>
      refine fares_bind (fares_stopIfCancelled (waits stand follows) _)
        fun _ looked now => ?_
      exact fares_carryOut now step line
  | count =>
      obtain ⟨loss, session, attuned⟩ := follows
      rw [Act.course]
      exact fares_of_ok (perform_note _ _) ⟨loss, session, attuned.conducted _ rfl rfl rfl rfl⟩

theorem fares_finish (follows : Follows chosen files id stand) (last : UInt64)
    (steps : List DocumentStep) :
    (finish id last steps).Fares stand (Error.Tolerable files (configName chosen))
      fun _ _ => True := by
  rw [finish_eq_bind]
  refine fares_bind (fares_forM (fun _ => Follows chosen files id)
    (fun _ act _ _ _ now => fares_act now act) follows) fun _ played now => ?_
  obtain ⟨loss, session, attuned⟩ := now
  apply fares_bind_of_ok (perform_reach _ _)
  have carried : session.carryOut files .teardown = .ok ((), { session with tornDown := true }) :=
    rfl
  obtain ⟨afterTeardown, teardownOk, -⟩ :=
    (attuned.serves.conducted { played.conductor with phase := .terminal }).perform_carried carried
  apply fares_bind_of_ok teardownOk
  exact fares_of_ok rfl trivial

/-- Preparations leave the conductor attuned to its session. -/
theorem fares_prepare (unfailing : stand.rehearsal.faults.failingRequest = none)
    (unused : stand.conductor = fresh chosen)
    (stocked : stand.rehearsal.testbed.serviceFiles = files) {document : Document}
    (few : document.nodes.length < UInt32.size - 2) (steps : List DocumentStep) :
    (prepare document steps).Fares stand (Error.Tolerable files (configName chosen)) fun id =>
      Follows chosen files id := by
  rw [prepare]
  refine fares_bind (fares_populate unfailing unused stocked few steps) ?_
  rintro id populated ⟨_, attuned⟩
  apply fares_bind_of_ok (perform_reach _ _)
  have linking := attuned.conducted { populated.conductor with phase := .linking } rfl rfl rfl rfl
  refine fares_bind (linking.fares_linkAll steps) ?_
  rintro _ linked ⟨_, attunedLinked⟩
  apply fares_bind_of_ok (perform_reach _ _)
  have configuring := attunedLinked.conducted { linked.conductor with phase := .configuring }
    rfl rfl rfl rfl
  refine fares_bind configuring.fares_configureAll ?_
  rintro _ configured ⟨_, attunedConfigured⟩
  refine fares_bind attunedConfigured.fares_launch ?_
  rintro _ launched ⟨_, attunedLaunched⟩
  apply fares_bind_of_ok (perform_reach _ _)
  exact fares_of_ok (perform_pure _ id) ⟨_, _, attunedLaunched.conducted _ rfl rfl rfl rfl⟩

/-- No request of a run is refused, but for a configuration file that is missing. -/
theorem fares_run (unfailing : stand.rehearsal.faults.failingRequest = none)
    (unused : stand.conductor = fresh chosen) {document : Document}
    (few : document.nodes.length < UInt32.size - 2) :
    (run document).Fares stand
      (Error.Tolerable stand.rehearsal.testbed.serviceFiles (configName chosen))
      fun _ _ => True := by
  have unspent : stand.conductor.isSpent = false := by
    rw [unused]
    rfl
  rw [Fares, perform_run unspent]
  exact fares_bind (fares_prepare unfailing unused rfl few _) fun _ _ follows =>
    fares_finish follows 0 _

end Playing

end Conductor

namespace Rehearsal

/-- A replay does not misuse its testbed, whatever its document says: without injected failures the
only request that may be refused asks for the configuration file of a node that has none. -/
theorem refused_of_replay {settings : Settings} {conductor : Conductor}
    (accepted : Conductor.start settings = .ok conductor) {rehearsal : Rehearsal}
    (unfailing : rehearsal.faults.failingRequest = none) {document : Document}
    (few : document.nodes.length < UInt32.size - 2) {method : Method} {cause : Refusal}
    (refused : (rehearsal.replay conductor document).1 = .error (.refused method cause)) :
    rehearsal.testbed.serviceFiles.contains ⟨settings.service, settings.configFile⟩ = false ∧
      method = .getFile ∧ ∃ node, cause = .noFile node settings.service settings.configFile := by
  obtain ⟨rfl, -⟩ := Conductor.eq_fresh_of_start accepted
  have fares := @Conductor.fares_run settings ⟨Conductor.fresh settings, rehearsal⟩ unfailing rfl
    document few
  rw [Course.Fares] at fares
  rcases performed : (Conductor.run document).perform ⟨Conductor.fresh settings, rehearsal⟩ with
    ⟨outcome, next⟩
  have ended : outcome = .error (.refused method cause) :=
    (congrArg Prod.fst performed).symm.trans refused
  subst ended
  rw [performed] at fares
  exact fares

/-- A replay at a testbed without service files asks in vain for the configuration of node 1. -/
theorem refused_of_replay_unstocked :
    (({} : Rehearsal).replay (.fresh {}) (singleStep [.add "e0" "a" "b" 9])).1 =
        .error (.refused .getFile (.noFile 1 "dtnd" "dtnd.toml")) ∧
      ({} : Rehearsal).testbed.serviceFiles.contains ⟨"dtnd", "dtnd.toml"⟩ = false := by
  have refused : (({} : Rehearsal).replay (.fresh {}) (singleStep [.add "e0" "a" "b" 9])).1 =
      .error (.refused .getFile (.noFile 1 "dtnd" "dtnd.toml")) := by
    decide +kernel
  have answered := @refused_of_replay {} (.fresh {}) rfl {} rfl
    (singleStep [.add "e0" "a" "b" 9]) (show 4 < UInt32.size - 2 by decide) _ _ refused
  exact ⟨refused, answered.1⟩

end Rehearsal

end ContactReplay
