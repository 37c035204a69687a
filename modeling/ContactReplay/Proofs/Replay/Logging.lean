import ContactReplay.Proofs.Replay.OpenEdges

/-!
# Logs of orders

`Rehearsal.Logged` is what is known of a testbed while orders go to one session of it: the files of
new nodes, the log and the session.  An order that is answered well adds its line to the log and
makes of the session what `Session.carryOut` says (`Logged.ensures_order`), whatever may go wrong
with other orders.

What an order does to the nodes of a session is read off by one lemma for each kind of order.
-/

namespace ContactReplay

/-! ## Orders and nodes -/

namespace Session

variable {session later : Session} {files : Table FileName String}

theorem nodes_of_sparesNodes {order : Order} {reply : order.Reply}
    (carried : session.carryOut files order = .ok (reply, later))
    (spares : order.sparesNodes = true) : later.nodes = session.nodes :=
  (carries_of_carryOut carried).nodes_of_sparesNodes spares

theorem nodes_of_addNode {node : NodeDescription}
    (carried : session.carryOut files (.addNode node) = .ok ((), later)) :
    later.nodes = session.nodes.insert node.id ⟨node, files⟩ := by
  cases carries_of_carryOut carried with
  | addNode _ new => rfl

theorem exists_of_getFile {node : NodeId} {name : FileName} {text : String}
    (carried : session.carryOut files (.getFile node name) = .ok (text, later)) :
    ∃ found, session.nodes.get? node = some found ∧ found.files.get? name = some text := by
  cases carries_of_carryOut carried with
  | getFile _ _ found _ held stored => exact ⟨found, held, stored⟩

theorem exists_of_setFile {node : NodeId} {name : FileName} {text : String}
    (carried : session.carryOut files (.setFile node name text) = .ok ((), later)) :
    ∃ found, session.nodes.get? node = some found ∧ later.nodes =
      session.nodes.insert node { found with files := found.files.insert name text } := by
  cases carries_of_carryOut carried with
  | setFile _ _ _ found held => exact ⟨found, held, rfl⟩

end Session

/-! ## Logs -/

/-- The testbed of a rehearsal with the files of new nodes, its log and one of its sessions. -/
structure Rehearsal.Logged (rehearsal : Rehearsal) (files : Table FileName String)
    (calls : List Call) (id : SessionId) (session : Session) : Prop where
  files : rehearsal.testbed.serviceFiles = files
  calls : rehearsal.testbed.calls = calls
  held : rehearsal.testbed.session? id = some session

namespace Rehearsal.Logged

variable {rehearsal : Rehearsal} {files : Table FileName String} {calls : List Call}
  {id : SessionId} {session : Session} (logged : rehearsal.Logged files calls id session)
include logged

theorem alike {conductor : Conductor} {next : Stand}
    (alike : Course.Alike ⟨conductor, rehearsal⟩ next) :
    next.rehearsal.Logged files calls id session where
  files := alike.testbed ▸ logged.files
  calls := alike.testbed ▸ logged.calls
  held := alike.testbed ▸ logged.held

/-- An order that is answered well has been carried out by the session and adds its line to the
log. -/
theorem ensures_order (conductor : Conductor) (order : Order) :
    (Course.order id order).Ensures ⟨conductor, rehearsal⟩ fun reply next =>
      next.conductor = conductor ∧ ∃ later, session.carryOut files order = .ok (reply, later) ∧
        next.rehearsal.Logged files (calls ++ [order.call id]) id later := by
  intro reply next performed
  obtain ⟨sameConductor, before, later, held, carried, sameTestbed⟩ :=
    Course.ensures_order_served id order reply next performed
  dsimp only at held carried sameTestbed
  rw [logged.held] at held
  obtain rfl := Option.some.inj held
  rw [logged.files] at carried
  refine ⟨sameConductor, later, carried, ?_, ?_, ?_⟩
  · rw [sameTestbed]
    exact logged.files
  · rw [sameTestbed, ← logged.calls]
    rfl
  · rw [sameTestbed]
    exact Table.get?_insert_self _ _ _

/-- An order that spares the nodes is logged and leaves the conductor and the nodes as they are. -/
theorem ensures_sparing (conductor : Conductor) {order : Order}
    (spares : order.sparesNodes = true) :
    (Course.order id order).Ensures ⟨conductor, rehearsal⟩ fun _ next =>
      next.conductor = conductor ∧ ∃ later,
        next.rehearsal.Logged files (calls ++ [order.call id]) id later ∧
        later.nodes = session.nodes := by
  intro reply next performed
  obtain ⟨sameConductor, later, carried, loggedNext⟩ :=
    logged.ensures_order conductor order reply next performed
  exact ⟨sameConductor, later, loggedNext, Session.nodes_of_sparesNodes carried spares⟩

end Rehearsal.Logged

/-- A new session is empty and adds a line to the log. -/
theorem Course.ensures_createSession (conductor : Conductor) (rehearsal : Rehearsal) :
    (Course.request .createSession).Ensures ⟨conductor, rehearsal⟩ fun id next =>
      next.conductor = conductor ∧ id = rehearsal.testbed.nextSession.next ∧
        next.rehearsal.Logged rehearsal.testbed.serviceFiles
          (rehearsal.testbed.calls ++ [.createSession id]) id {} := by
  intro id next performed
  obtain ⟨sameConductor, served⟩ := Course.ensures_request .createSession id next performed
  obtain ⟨sameId, sameTestbed⟩ := Prod.mk.inj served
  obtain rfl := Except.ok.inj sameId
  refine ⟨sameConductor, rfl, ?_⟩
  exact ⟨sameTestbed ▸ rfl, sameTestbed ▸ rfl, sameTestbed ▸ Table.get?_insert_self _ _ _⟩

/-- A loop ensures an invariant of the items that are done, in order, if each of its steps does. -/
theorem Course.ensures_forM_done {α : Type} {items : List α} {body : α → Course Unit}
    {holds : List α → Stand → Prop} {stand : Stand}
    (step : ∀ done item stand, holds done stand →
      (body item).Ensures stand fun _ => holds (done ++ [item]))
    (begins : holds [] stand) : (items.forM body).Ensures stand fun _ => holds items := by
  have ensured := @Course.ensures_forM α stand items body (fun past => holds past.reverse)
    (fun past item current now => by
      rw [List.reverse_cons]
      exact step past.reverse item current now) [] begins
  rwa [List.append_nil, List.reverse_reverse] at ensured

end ContactReplay
