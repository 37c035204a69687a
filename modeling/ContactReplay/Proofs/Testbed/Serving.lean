import ContactReplay.Testbed.Basic
import Mathlib.Data.List.Induction

/-!
# Serving requests

What a request can do is said once.  `Session.Carries` lists for every order what has to hold of a
session and what the order makes of it, and `Testbed.serve_order_cases` says that an order is either
carried out by its session and logged, or refused with nothing changed.

A testbed that is sent one request after the other (`Testbed.serveAll`) numbers its sessions from
one, so a new session never takes the place of another one before the numbers begin again.
-/

namespace ContactReplay

/-! ## Orders -/

/-- An order that leaves the nodes of its session as they are. -/
def Order.sparesNodes : Order → Bool
  | .addNode _ | .setFile .. => false
  | _ => true

/-- What an order needs of a session, what the session replies and what the order makes of it, if
new nodes get some files. -/
inductive Session.Carries (files : Table FileName String) (session : Session) :
    (order : Order) → order.Reply → Session → Prop where
  | setMode (mode : SessionMode) :
      Carries files session (.setMode mode) () { session with mode := some mode }
  | setOptions (options : SessionOptions) :
      Carries files session (.setOptions options) ()
        { session with options := session.options.insertAll options.entries }
  | addNode (node : NodeDescription) (new : session.nodes.get? node.id = none) :
      Carries files session (.addNode node) ()
        { session with nodes := session.nodes.insert node.id ⟨node, files⟩ }
  | addLink (link : LinkDescription) (first : session.nodes.contains link.first = true)
      (second : session.nodes.contains link.second = true)
      (new : session.links.get? link.pair = none) :
      Carries files session (.addLink link) ()
        { session with links := session.links.insert link.pair ⟨link, link.loss⟩ }
  | adjustLink (adjustment : LinkAdjustment) (link : SessionLink)
      (held : session.links.get? adjustment.pair = some link)
      (first : link.description.firstInterface.id = adjustment.firstInterface)
      (second : link.description.secondInterface.id = adjustment.secondInterface) :
      Carries files session (.adjustLink adjustment) ()
        { session with
          links := session.links.insert adjustment.pair { link with loss := adjustment.loss } }
  | getFile (node : NodeId) (name : FileName) (found : SessionNode) (text : String)
      (held : session.nodes.get? node = some found) (stored : found.files.get? name = some text) :
      Carries files session (.getFile node name) text session
  | setFile (node : NodeId) (name : FileName) (text : String) (found : SessionNode)
      (held : session.nodes.get? node = some found) :
      Carries files session (.setFile node name text) ()
        { session with
          nodes := session.nodes.insert node
            { found with files := found.files.insert name text } }
  | teardown : Carries files session .teardown () { session with tornDown := true }

namespace Session

variable {session later : Session} {files : Table FileName String}

theorem exists_of_map_eq_ok {α β : Type} {outcome : Except Refusal α} {image : α → β} {result : β}
    (mapped : outcome.map image = .ok result) :
    ∃ value, outcome = .ok value ∧ image value = result := by
  cases outcome with
  | error cause => cases mapped
  | ok value => exact ⟨value, rfl, Except.ok.inj mapped⟩

theorem carries_addNode {node : NodeDescription} (added : session.addNode files node = .ok later) :
    session.Carries files (.addNode node) () later := by
  rw [addNode] at added
  split at added
  · cases added
  · rename_i new
    cases added
    exact .addNode node (Option.not_isSome_iff_eq_none.mp new)

theorem carries_addLink {link : LinkDescription} (added : session.addLink link = .ok later) :
    session.Carries files (.addLink link) () later := by
  rw [addLink] at added
  split at added
  · cases added
  split at added
  · cases added
  split at added
  · cases added
  rename_i first second new
  cases added
  exact .addLink link (by simpa using first) (by simpa using second)
    (Option.not_isSome_iff_eq_none.mp new)

theorem carries_adjustLink {adjustment : LinkAdjustment}
    (adjusted : session.adjustLink adjustment = .ok later) :
    session.Carries files (.adjustLink adjustment) () later := by
  rw [adjustLink] at adjusted
  split at adjusted
  · cases adjusted
  · rename_i link held
    split at adjusted
    · cases adjusted
    · rename_i matching
      obtain ⟨first, second⟩ := not_or.mp matching
      cases adjusted
      exact .adjustLink adjustment link held (not_not.mp first) (not_not.mp second)

theorem carries_getFile {node : NodeId} {name : FileName} {text : String}
    (read : session.getFile node name = .ok text) :
    session.Carries files (.getFile node name) text session := by
  rw [getFile] at read
  split at read
  · cases read
  · rename_i found held
    split at read
    · rename_i stored
      cases read
      exact .getFile node name found text held stored
    · cases read

theorem carries_setFile {node : NodeId} {name : FileName} {text : String}
    (written : session.setFile node name text = .ok later) :
    session.Carries files (.setFile node name text) () later := by
  rw [setFile] at written
  split at written
  · cases written
  · rename_i found held
    cases written
    exact .setFile node name text found held

/-- A session carries an order out as `Carries` says. -/
theorem carries_of_carryOut {order : Order} {reply : order.Reply}
    (carried : session.carryOut files order = .ok (reply, later)) :
    session.Carries files order reply later := by
  cases order with
  | setMode mode =>
      cases carried
      exact .setMode mode
  | setOptions options =>
      cases carried
      exact .setOptions options
  | addNode node =>
      obtain ⟨next, added, same⟩ := exists_of_map_eq_ok carried
      cases same
      exact carries_addNode added
  | addLink link =>
      obtain ⟨next, added, same⟩ := exists_of_map_eq_ok carried
      cases same
      exact carries_addLink added
  | adjustLink adjustment =>
      obtain ⟨next, adjusted, same⟩ := exists_of_map_eq_ok carried
      cases same
      exact carries_adjustLink adjusted
  | getFile node name =>
      obtain ⟨text, read, same⟩ := exists_of_map_eq_ok carried
      cases same
      exact carries_getFile read
  | setFile node name text =>
      obtain ⟨next, written, same⟩ := exists_of_map_eq_ok carried
      cases same
      exact carries_setFile written
  | teardown =>
      cases carried
      exact .teardown

theorem Carries.nodes_of_sparesNodes {order : Order} {reply : order.Reply}
    (carried : session.Carries files order reply later) (spares : order.sparesNodes = true) :
    later.nodes = session.nodes := by
  cases carried with
  | setMode mode => rfl
  | setOptions options => rfl
  | addNode node new => cases spares
  | addLink link first second new => rfl
  | adjustLink adjustment link held first second => rfl
  | getFile node name found text held stored => rfl
  | setFile node name text found held => cases spares
  | teardown => rfl

theorem Carries.tornDown_of_ne_teardown {order : Order} {reply : order.Reply}
    (carried : session.Carries files order reply later) (goesOn : order ≠ .teardown) :
    later.tornDown = session.tornDown := by
  cases carried with
  | setMode mode => rfl
  | setOptions options => rfl
  | addNode node new => rfl
  | addLink link first second new => rfl
  | adjustLink adjustment link held first second => rfl
  | getFile node name found text held stored => rfl
  | setFile node name text found held => rfl
  | teardown => exact absurd rfl goesOn

end Session

/-! ## Requests -/

namespace Testbed

/-- The testbed that has not been sent anything. -/
def fresh (files : Table FileName String) : Testbed := { serviceFiles := files }

/-- A testbed after it has been sent some requests one by one, whether it served them or not. -/
def serveAll (testbed : Testbed) (requests : List Request) : Testbed :=
  requests.foldl (fun current request => (current.serve request).2) testbed

theorem serveAll_append (testbed : Testbed) (earlier later : List Request) :
    testbed.serveAll (earlier ++ later) = (testbed.serveAll earlier).serveAll later :=
  List.foldl_append

theorem serveAll_concat (testbed : Testbed) (earlier : List Request) (request : Request) :
    testbed.serveAll (earlier ++ [request]) = ((testbed.serveAll earlier).serve request).2 :=
  testbed.serveAll_append earlier [request]

variable {testbed : Testbed} {id : SessionId} {session : Session}

theorem usable_eq_ok_iff :
    testbed.usable id = .ok session ↔
      testbed.session? id = some session ∧ session.tornDown = false := by
  rw [usable]
  cases held : testbed.session? id with
  | none => simp
  | some found =>
      dsimp only
      split
      · rename_i down
        refine iff_of_false nofun ?_
        rintro ⟨same, up⟩
        cases same
        simp [down] at up
      · rename_i up
        constructor
        · intro same
          cases same
          exact ⟨rfl, Bool.not_eq_true _ ▸ up⟩
        · rintro ⟨same, -⟩
          rw [Option.some.inj same]

theorem serve_of_carried (usable : testbed.usable id = .ok session) {order : Order}
    {reply : order.Reply} {later : Session}
    (carried : session.carryOut testbed.serviceFiles order = .ok (reply, later)) :
    testbed.serve (.order id order) = (.ok reply, { testbed with
      sessions := testbed.sessions.insert id later
      calls := testbed.calls ++ [order.call id] }) := by
  rw [serve, carryOut, usable]
  simp only [bind, Except.bind, carried]
  rfl

theorem serve_of_refused (usable : testbed.usable id = .ok session) {order : Order}
    {cause : Refusal} (refused : session.carryOut testbed.serviceFiles order = .error cause) :
    testbed.serve (.order id order) = (.error (.refused order.method cause), testbed) := by
  rw [serve, carryOut, usable]
  simp only [bind, Except.bind, refused]

/-- An order is carried out by its session and logged, or it is refused and changes nothing. -/
theorem serve_order_cases (testbed : Testbed) (id : SessionId) (order : Order) :
    (∃ session reply next, testbed.session? id = some session ∧ session.tornDown = false ∧
      session.carryOut testbed.serviceFiles order = .ok (reply, next) ∧
      testbed.serve (.order id order) = (.ok reply, { testbed with
        sessions := testbed.sessions.insert id next
        calls := testbed.calls ++ [order.call id] })) ∨
    ∃ cause, testbed.serve (.order id order) = (.error (.refused order.method cause), testbed) := by
  cases usable : testbed.usable id with
  | error cause =>
      rw [serve, carryOut, usable]
      exact Or.inr ⟨cause, rfl⟩
  | ok session =>
      obtain ⟨held, up⟩ := usable_eq_ok_iff.mp usable
      cases carried : session.carryOut testbed.serviceFiles order with
      | error cause => exact Or.inr ⟨cause, serve_of_refused usable carried⟩
      | ok result =>
          exact Or.inl ⟨session, result.1, result.2, held, up, carried,
            serve_of_carried usable carried⟩

theorem nextSession_serve_order (testbed : Testbed) (id : SessionId) (order : Order) :
    (testbed.serve (.order id order)).2.nextSession = testbed.nextSession := by
  rcases serve_order_cases testbed id order with ⟨_, _, _, _, _, _, served⟩ | ⟨_, refused⟩
  · rw [served]
  · rw [refused]

theorem serve_createSession (testbed : Testbed) :
    testbed.serve .createSession =
      (.ok testbed.nextSession.next, { testbed with
        nextSession := testbed.nextSession.advance
        sessions := testbed.sessions.insert testbed.nextSession.next {}
        calls := testbed.calls ++ [.createSession testbed.nextSession.next] }) :=
  rfl

/-- A session that a testbed has after a request was there before and is as it was, or has been
opened by the request, or has carried the request out. -/
theorem session?_serve_cases {request : Request}
    (held : (testbed.serve request).2.session? id = some session) :
    testbed.session? id = some session ∨
      (request = .createSession ∧ id = testbed.nextSession.next ∧ session = {}) ∨
      ∃ before order reply, request = .order id order ∧ testbed.session? id = some before ∧
        before.Carries testbed.serviceFiles order reply session := by
  cases request with
  | createSession =>
      rw [serve_createSession, session?] at held
      by_cases same : id = testbed.nextSession.next
      · rw [same, Table.get?_insert_self] at held
        exact Or.inr (Or.inl ⟨rfl, same, (Option.some.inj held).symm⟩)
      · rw [Table.get?_insert_of_ne _ _ same] at held
        exact Or.inl held
  | order asked order =>
      rcases serve_order_cases testbed asked order with
        ⟨before, reply, next, present, -, carried, served⟩ | ⟨cause, refused⟩
      · rw [served, session?] at held
        by_cases same : id = asked
        · subst same
          rw [Table.get?_insert_self] at held
          rw [← Option.some.inj held]
          exact Or.inr (Or.inr
            ⟨before, order, reply, rfl, present, Session.carries_of_carryOut carried⟩)
        · rw [Table.get?_insert_of_ne _ _ same] at held
          exact Or.inl held
      · rw [refused] at held
        exact Or.inl held

/-! ## Numbers of sessions -/

/-- A testbed that has opened some sessions, numbered from one. -/
structure HasOpened (testbed : Testbed) (count : Nat) : Prop where
  next : testbed.nextSession.next.toNat = count + 1
  numbered : ∀ id session, testbed.session? id = some session → id.toNat ≤ count

/-- The number of a new session is not in use. -/
theorem HasOpened.fresh {count : Nat} (opened : testbed.HasOpened count) :
    testbed.session? testbed.nextSession.next = none := by
  by_contra used
  obtain ⟨session, held⟩ := Option.ne_none_iff_exists'.mp used
  have bound := opened.numbered _ session held
  rw [opened.next] at bound
  omega

theorem HasOpened.serve {count : Nat} (opened : testbed.HasOpened count) (request : Request)
    (few : count + [request].count .createSession < UInt32.size - 1) :
    (testbed.serve request).2.HasOpened (count + [request].count .createSession) := by
  constructor
  · cases request with
    | createSession =>
        rw [List.count_singleton_self] at few ⊢
        change (testbed.nextSession.next + 1).toNat = count + 1 + 1
        rw [UInt32.toNat_add, opened.next, UInt32.toNat_one]
        apply Nat.mod_eq_of_lt
        change count + 1 + 1 < UInt32.size
        omega
    | order id order =>
        rw [nextSession_serve_order]
        exact opened.next
  · intro id session held
    rcases session?_serve_cases held with before | ⟨rfl, rfl, -⟩ | ⟨before, _, _, -, present, -⟩
    · exact Nat.le_add_right_of_le (opened.numbered id session before)
    · exact Nat.le_of_eq opened.next
    · exact Nat.le_add_right_of_le (opened.numbered id before present)

theorem hasOpened_fresh (files : Table FileName String) : (fresh files).HasOpened 0 :=
  ⟨rfl, nofun⟩

theorem HasOpened.serveAll {count : Nat} (opened : testbed.HasOpened count)
    (requests : List Request) (few : count + requests.count .createSession < UInt32.size - 1) :
    (testbed.serveAll requests).HasOpened (count + requests.count .createSession) := by
  induction requests using List.reverseRecOn with
  | nil => exact opened
  | append_singleton earlier request inductionHypothesis =>
      rw [List.count_append, ← Nat.add_assoc] at few ⊢
      rw [serveAll_concat]
      exact (inductionHypothesis (by omega)).serve request few

theorem hasOpened_serveAll (files : Table FileName String) {requests : List Request}
    (few : requests.count .createSession < UInt32.size - 1) :
    ((fresh files).serveAll requests).HasOpened (requests.count .createSession) := by
  rw [← Nat.zero_add (requests.count .createSession)] at few ⊢
  exact (hasOpened_fresh files).serveAll requests few

end Testbed

end ContactReplay
