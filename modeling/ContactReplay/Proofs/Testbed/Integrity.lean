import ContactReplay.Proofs.Testbed.Serving

/-!
# Integrity of testbeds

Whatever a testbed is asked for, its sessions stay coherent: nodes and links are stored where their
descriptions say, and links join nodes of their session.  A refused request changes nothing, a
request to one session leaves the others alone, and a session that has been torn down stays as it is
and refuses every order.
-/

namespace ContactReplay

namespace Session

/-- Nodes and links are stored where their descriptions say, and links join nodes that are there. -/
structure Coherent (session : Session) : Prop where
  nodes : ∀ id node, session.nodes.get? id = some node → node.description.id = id
  links : ∀ pair link, session.links.get? pair = some link → link.description.pair = pair
  ends : ∀ pair link, session.links.get? pair = some link →
    session.nodes.contains link.description.first = true ∧
      session.nodes.contains link.description.second = true

namespace Coherent

variable {session later : Session} (coherent : session.Coherent)
include coherent

theorem insertNode {id : NodeId} {node : SessionNode} (own : node.description.id = id) :
    Coherent { session with nodes := session.nodes.insert id node } where
  nodes asked found held := by
    by_cases same : asked = id
    · subst same
      rw [Table.get?_insert_self] at held
      rw [← Option.some.inj held]
      exact own
    · rw [Table.get?_insert_of_ne _ _ same] at held
      exact coherent.nodes asked found held
  links := coherent.links
  ends pair link held := by
    obtain ⟨first, second⟩ := coherent.ends pair link held
    exact ⟨Table.contains_insert.mpr (Or.inr first), Table.contains_insert.mpr (Or.inr second)⟩

theorem insertLink {pair : Pair NodeId} {link : SessionLink} (own : link.description.pair = pair)
    (first : session.nodes.contains link.description.first = true)
    (second : session.nodes.contains link.description.second = true) :
    Coherent { session with links := session.links.insert pair link } := by
  have stored : ∀ asked found, (session.links.insert pair link).get? asked = some found →
      (asked = pair ∧ found = link) ∨ session.links.get? asked = some found := by
    intro asked found held
    by_cases same : asked = pair
    · subst same
      rw [Table.get?_insert_self] at held
      exact Or.inl ⟨rfl, (Option.some.inj held).symm⟩
    · rw [Table.get?_insert_of_ne _ _ same] at held
      exact Or.inr held
  refine ⟨coherent.nodes, fun asked found held => ?_, fun asked found held => ?_⟩
  · rcases stored asked found held with ⟨rfl, rfl⟩ | before
    · exact own
    · exact coherent.links asked found before
  · rcases stored asked found held with ⟨rfl, rfl⟩ | before
    · exact ⟨first, second⟩
    · exact coherent.ends asked found before

/-- Every order keeps a session coherent. -/
theorem carries {files : Table FileName String} {order : Order} {reply : order.Reply}
    (carried : session.Carries files order reply later) : later.Coherent := by
  cases carried with
  | setMode mode => exact ⟨coherent.nodes, coherent.links, coherent.ends⟩
  | setOptions options => exact ⟨coherent.nodes, coherent.links, coherent.ends⟩
  | addNode node new => exact coherent.insertNode rfl
  | addLink link first second new => exact coherent.insertLink rfl first second
  | adjustLink adjustment link held first second =>
      obtain ⟨firstKnown, secondKnown⟩ := coherent.ends _ link held
      exact coherent.insertLink (coherent.links _ link held) firstKnown secondKnown
  | getFile node name found text held stored => exact coherent
  | setFile node name text found held => exact coherent.insertNode (coherent.nodes _ found held)
  | teardown => exact ⟨coherent.nodes, coherent.links, coherent.ends⟩

end Coherent

theorem coherent_empty : Coherent {} := ⟨nofun, nofun, nofun⟩

end Session

namespace Testbed

variable {testbed : Testbed} {id : SessionId} {session : Session}

/-! ## One request -/

/-- A request that fails changes nothing. -/
theorem eq_of_serve_error {request : Request} {error : Error} {next : Testbed}
    (failed : testbed.serve request = (.error error, next)) : next = testbed := by
  cases request with
  | createSession => cases (Prod.mk.inj failed).1
  | order id order =>
      rcases serve_order_cases testbed id order with ⟨_, _, _, _, _, _, served⟩ | ⟨cause, refused⟩
      · cases (Prod.mk.inj (served.symm.trans failed)).1
      · exact (Prod.mk.inj (refused.symm.trans failed)).2.symm

/-- An order to one session leaves the other sessions as they are. -/
theorem session?_serve_of_ne {other : SessionId} (different : other ≠ id) (order : Order) :
    (testbed.serve (.order id order)).2.session? other = testbed.session? other := by
  rcases serve_order_cases testbed id order with ⟨_, _, next, _, _, _, served⟩ | ⟨cause, refused⟩
  · rw [served]
    exact Table.get?_insert_of_ne _ _ different
  · rw [refused]

/-- A new session leaves the sessions that are there as they are. -/
theorem session?_serve_createSession {count : Nat} (opened : testbed.HasOpened count)
    (held : testbed.session? id = some session) :
    (testbed.serve .createSession).2.session? id = some session := by
  have different : id ≠ testbed.nextSession.next := by
    rintro rfl
    rw [opened.fresh] at held
    cases held
  rw [serve_createSession, session?, Table.get?_insert_of_ne _ _ different]
  exact held

theorem serve_order_of_tornDown (held : testbed.session? id = some session)
    (down : session.tornDown = true) (order : Order) :
    testbed.serve (.order id order) =
      (.error (.refused order.method (.tornDown id)), testbed) := by
  have unusable : testbed.usable id = .error (.tornDown id) := by
    rw [usable, held]
    exact if_pos down
  rw [serve, carryOut, unusable]
  rfl

theorem coherent_serve (coherent : ∀ id session, testbed.session? id = some session →
    session.Coherent) (request : Request) :
    ∀ id session, (testbed.serve request).2.session? id = some session → session.Coherent := by
  intro id session held
  rcases session?_serve_cases held with
    before | ⟨-, -, rfl⟩ | ⟨before, order, reply, -, present, carried⟩
  · exact coherent id session before
  · exact Session.coherent_empty
  · exact (coherent id before present).carries carried

/-! ## Many requests -/

theorem coherent_serveAll (files : Table FileName String) (requests : List Request) :
    ∀ id session, ((fresh files).serveAll requests).session? id = some session →
      session.Coherent := by
  induction requests using List.reverseRecOn with
  | nil => exact nofun
  | append_singleton earlier request inductionHypothesis =>
      rw [serveAll_concat]
      exact coherent_serve inductionHypothesis request

/-- A session that has been torn down stays as it is. -/
theorem session?_serveAll_of_tornDown {count : Nat} (opened : testbed.HasOpened count)
    (held : testbed.session? id = some session) (down : session.tornDown = true)
    {later : List Request} (few : count + later.count .createSession < UInt32.size - 1) :
    (testbed.serveAll later).session? id = some session := by
  induction later using List.reverseRecOn with
  | nil => exact held
  | append_singleton earlier request inductionHypothesis =>
      rw [List.count_append] at few
      have fewBefore : count + earlier.count .createSession < UInt32.size - 1 := by omega
      have before := inductionHypothesis fewBefore
      rw [serveAll_concat]
      cases request with
      | createSession =>
          exact session?_serve_createSession (opened.serveAll earlier fewBefore) before
      | order other order =>
          by_cases same : id = other
          · rw [← same, serve_order_of_tornDown before down]
            exact before
          · rw [session?_serve_of_ne same]
            exact before

/-- A testbed that can be relied on. -/
structure Intact (testbed : Testbed) : Prop where
  coherent : ∀ id session, testbed.session? id = some session → session.Coherent
  /-- A request that fails changes nothing. -/
  refusals : ∀ request error next, testbed.serve request = (.error error, next) → next = testbed
  /-- An order to one session leaves the others as they are. -/
  orders : ∀ id order other, other ≠ id →
    (testbed.serve (.order id order)).2.session? other = testbed.session? other
  /-- A new session leaves all others as they are. -/
  openings : ∀ id session, testbed.session? id = some session →
    (testbed.serve .createSession).2.session? id = some session
  /-- A session that has been torn down stays as it is and refuses every order, as long as the
  numbers of sessions do not begin again. -/
  closed : ∀ id session, testbed.session? id = some session → session.tornDown = true →
    ∀ later, testbed.nextSession.next.toNat + later.count .createSession < UInt32.size →
      (testbed.serveAll later).session? id = some session ∧
        ∀ order, (testbed.serveAll later).serve (.order id order) =
          (.error (.refused order.method (.tornDown id)), testbed.serveAll later)

/-- A testbed can be relied on, whatever it has been asked for. -/
theorem serveAll_intact (files : Table FileName String) (requests : List Request)
    (few : requests.count .createSession < UInt32.size - 1) :
    ((fresh files).serveAll requests).Intact where
  coherent := coherent_serveAll files requests
  refusals request error next := eq_of_serve_error
  orders id order other different := session?_serve_of_ne different order
  openings id session := session?_serve_createSession (hasOpened_serveAll files few)
  closed id session held down later fewLater := by
    have opened := hasOpened_serveAll files few
    rw [opened.next] at fewLater
    have room : requests.count .createSession + later.count .createSession < UInt32.size - 1 := by
      omega
    have stays := session?_serveAll_of_tornDown opened held down room
    exact ⟨stays, serve_order_of_tornDown stays down⟩

/-- Two sessions with a node of one number, a link of a node with itself, requests that are refused,
and a session that is torn down. -/
theorem serveAll_intact_twoSessions :
    let files : Table FileName String := Table.ofList [(⟨"dtnd", "dtnd.toml"⟩, "")]
    let node : NodeDescription := ⟨1, "a", "DTN", ⟨0, 0⟩⟩
    let interface : Interface := ⟨0, .ofSequence 0, ⟨#v[10, 0, 0, 20]⟩, 24⟩
    let requests : List Request := [.createSession, .createSession, .order 1 (.addNode node),
      .order 2 (.addNode node), .order 2 (.addNode node),
      .order 1 (.addLink ⟨1, 1, interface, interface, Loss.down⟩),
      .order 1 (.addLink ⟨1, 2, interface, interface, Loss.down⟩), .order 1 .teardown,
      .order 1 (.setFile 1 ⟨"dtnd", "dtnd.toml"⟩ "late"), .order 7 .teardown]
    requests.count .createSession < UInt32.size - 1 ∧ ((fresh files).serveAll requests).Intact := by
  intro files node interface requests
  have few : requests.count .createSession < UInt32.size - 1 := by decide
  exact ⟨few, serveAll_intact files requests few⟩

end Testbed

end ContactReplay
