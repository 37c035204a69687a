import ContactReplay.Proofs.Testbed.Serving
import ContactReplay.Testbed.Journal

/-!
# What a log tells

The log of a testbed tells all about its sessions but the contents of files.  An `Account` is what
can be told of one session, a `Ledger` has the accounts of all sessions, and `Ledger.ofCalls` makes
it from the lines of a log alone.

Of a file the log tells the size: it is what the last line that wrote the file says, or the size of
the file that every new node gets (`recordedSize?`).
-/

namespace ContactReplay

/-! ## Accounts -/

/-- All of a session but its files. -/
structure Account where
  mode : Option SessionMode := none
  options : SessionOptions := ∅
  nodes : Table NodeId NodeDescription := ∅
  links : Table (Pair NodeId) SessionLink := ∅
  tornDown : Bool := false
  deriving DecidableEq, Repr

/-- The account of a session. -/
def Session.account (session : Session) : Account where
  mode := session.mode
  options := session.options
  nodes := session.nodes.mapValues (·.description)
  links := session.links
  tornDown := session.tornDown

/-- The account of a session after a line of the log about it. -/
def Account.enter (account : Account) : Call → Account
  | .createSession _ | .getFile .. | .setFile .. => account
  | .setMode _ mode => { account with mode := some mode }
  | .setOptions _ options =>
      { account with options := account.options.insertAll options.entries }
  | .addNode _ node => { account with nodes := account.nodes.insert node.id node }
  | .addLink _ link =>
      { account with links := account.links.insert link.pair ⟨link, link.loss⟩ }
  | .adjustLink _ adjustment =>
      match account.links.get? adjustment.pair with
      | none => account
      | some link =>
          let adjusted := { link with loss := adjustment.loss }
          { account with links := account.links.insert adjustment.pair adjusted }
  | .teardown _ => { account with tornDown := true }

/-- The accounts of sessions. -/
abbrev Ledger := Table SessionId Account

namespace Ledger

/-- The accounts after a further line of the log. -/
def enter (ledger : Ledger) : Call → Ledger
  | .createSession id => ledger.insert id {}
  | call =>
      match ledger.get? call.session with
      | none => ledger
      | some account => ledger.insert call.session (account.enter call)

/-- The accounts that a log gives, line by line from none. -/
def ofCalls (calls : List Call) : Ledger := calls.foldl enter ∅

theorem ofCalls_concat (calls : List Call) (call : Call) :
    ofCalls (calls ++ [call]) = (ofCalls calls).enter call := by
  rw [ofCalls, List.foldl_append]
  rfl

theorem enter_order {ledger : Ledger} {id : SessionId} {account : Account}
    (held : ledger.get? id = some account) (order : Order) :
    ledger.enter (order.call id) = ledger.insert id (account.enter (order.call id)) := by
  cases order <;> simp only [enter, Order.call, Call.session, held]

end Ledger

/-- The line that an order leaves tells what the order has made of the session, files apart. -/
theorem Session.Carries.account {files : Table FileName String} {session later : Session}
    {order : Order} {reply : order.Reply} (carried : session.Carries files order reply later)
    (id : SessionId) : later.account = session.account.enter (order.call id) := by
  cases carried with
  | setMode mode => rfl
  | setOptions options => rfl
  | addNode node new =>
      rw [Session.account, Table.mapValues_insert]
      rfl
  | addLink link first second new => rfl
  | adjustLink adjustment link held first second =>
      have known : session.account.links.get? adjustment.pair = some link := held
      simp only [Order.call, Account.enter, known]
      rfl
  | getFile node name found text held stored => rfl
  | setFile node name text found held =>
      have known :
          (session.nodes.mapValues (·.description)).get? node = some found.description := by
        rw [Table.get?_mapValues, held]
        rfl
      rw [Session.account, Table.mapValues_insert, Table.insert_eq_self known]
      rfl
  | teardown => rfl

/-! ## Sizes of files -/

/-- The number of bytes that a line of the log says have been written to a file. -/
def Call.written? (id : SessionId) (node : NodeId) (name : FileName) : Call → Option Nat
  | .setFile session writtenNode writtenName bytes =>
      if session = id ∧ writtenNode = node ∧ writtenName = name then some bytes else none
  | _ => none

/-- What the last line says that wrote a file. -/
def lastWritten? (calls : List Call) (id : SessionId) (node : NodeId) (name : FileName) :
    Option Nat :=
  calls.reverse.findSome? (Call.written? id node name)

/-- The size of a file of a node, as a log and the files of new nodes tell it. -/
def recordedSize? (files : Table FileName String) (calls : List Call) (id : SessionId)
    (node : NodeId) (name : FileName) : Option Nat :=
  match ((Ledger.ofCalls calls).get? id).bind (·.nodes.get? node) with
  | none => none
  | some _ => (lastWritten? calls id node name).or ((files.get? name).map String.utf8ByteSize)

namespace Testbed

/-- A node of a session. -/
def node? (testbed : Testbed) (id : SessionId) (node : NodeId) : Option SessionNode :=
  (testbed.session? id).bind (·.nodes.get? node)

/-- The size of a file of a node. -/
def fileSize? (testbed : Testbed) (id : SessionId) (node : NodeId) (name : FileName) :
    Option Nat :=
  ((testbed.node? id node).bind (·.files.get? name)).map String.utf8ByteSize

end Testbed

theorem lastWritten?_concat (calls : List Call) (call : Call) (id : SessionId) (node : NodeId)
    (name : FileName) :
    lastWritten? (calls ++ [call]) id node name =
      (call.written? id node name).or (lastWritten? calls id node name) := by
  rw [lastWritten?, List.reverse_append, List.reverse_singleton, List.singleton_append,
    List.findSome?_cons]
  cases call.written? id node name <;> rfl

/-- A log tells the sizes of the files of a node, and nothing of the files of a node that is not
there. -/
def FilesTold (files : Table FileName String) (calls : List Call) (id : SessionId) (node : NodeId) :
    Option SessionNode → Prop
  | none => ∀ name, lastWritten? calls id node name = none
  | some found => ∀ name, (found.files.get? name).map String.utf8ByteSize =
      (lastWritten? calls id node name).or ((files.get? name).map String.utf8ByteSize)

section Lines

variable {files : Table FileName String} {calls : List Call} {id : SessionId} {node : NodeId}

/-- A line that does not write a file of a node tells nothing new of it. -/
theorem FilesTold.skip {held : Option SessionNode} (told : FilesTold files calls id node held)
    {call : Call} (silent : ∀ name, call.written? id node name = none) :
    FilesTold files (calls ++ [call]) id node held := by
  cases held with
  | none =>
      intro name
      rw [lastWritten?_concat, silent, told name]
      rfl
  | some found =>
      intro name
      rw [lastWritten?_concat, silent, told name]
      rfl

/-- A new node has the files of new nodes. -/
theorem FilesTold.addNode (told : FilesTold files calls id node none)
    (description : NodeDescription) {call : Call}
    (silent : ∀ name, call.written? id node name = none) :
    FilesTold files (calls ++ [call]) id node (some ⟨description, files⟩) := by
  intro name
  rw [lastWritten?_concat, silent, told name]
  rfl

/-- A file that is written has the size that the line says. -/
theorem FilesTold.setFile {found : SessionNode} (told : FilesTold files calls id node (some found))
    (name : FileName) (text : String) :
    FilesTold files (calls ++ [.setFile id node name text.utf8ByteSize]) id node
      (some { found with files := found.files.insert name text }) := by
  intro asked
  rw [lastWritten?_concat]
  by_cases same : asked = name
  · rw [same, Table.get?_insert_self]
    simp [Call.written?]
  · rw [Table.get?_insert_of_ne _ _ same, told asked]
    simp [Call.written?, Ne.symm same]

theorem Order.written?_call_of_ne {order : Order} {session : SessionId} (different : session ≠ id)
    (name : FileName) : (order.call session).written? id node name = none := by
  cases order with
  | setFile written writtenName text => exact if_neg fun same => different same.1
  | _ => rfl

/-- What an order makes of the nodes of its session is told by its line. -/
theorem Session.Carries.filesTold {session later : Session} {order : Order} {reply : order.Reply}
    (carried : session.Carries files order reply later)
    (told : FilesTold files calls id node (session.nodes.get? node)) :
    FilesTold files (calls ++ [order.call id]) id node (later.nodes.get? node) := by
  cases carried with
  | addNode added new =>
      by_cases same : node = added.id
      · subst same
        rw [Table.get?_insert_self]
        rw [new] at told
        exact told.addNode added fun name => rfl
      · rw [Table.get?_insert_of_ne _ _ same]
        exact told.skip fun name => rfl
  | setFile written name text found held =>
      by_cases same : node = written
      · subst same
        rw [Table.get?_insert_self]
        rw [held] at told
        exact told.setFile name text
      · rw [Table.get?_insert_of_ne _ _ same]
        exact told.skip fun asked => if_neg fun matching => same matching.2.1.symm
  | _ => exact told.skip fun name => rfl

end Lines

/-! ## Testbeds -/

namespace Testbed

/-- The log of a testbed tells all about its sessions but the contents of files. -/
structure Told (testbed : Testbed) : Prop where
  accounts : Ledger.ofCalls testbed.calls = testbed.sessions.mapValues Session.account
  files : ∀ id node,
    FilesTold testbed.serviceFiles testbed.calls id node (testbed.node? id node)

theorem told_fresh (files : Table FileName String) : (fresh files).Told where
  accounts := rfl
  files _ _ _ := rfl

namespace Told

variable {testbed : Testbed} (told : testbed.Told)
include told

theorem createSession {count : Nat} (opened : testbed.HasOpened count) :
    (testbed.serve .createSession).2.Told where
  accounts := by
    rw [serve_createSession, Ledger.ofCalls_concat, told.accounts, Table.mapValues_insert]
    rfl
  files id node := by
    have same : (testbed.serve .createSession).2.node? id node = testbed.node? id node := by
      rw [serve_createSession, node?, node?, session?]
      by_cases new : id = testbed.nextSession.next
      · rw [new, Table.get?_insert_self, opened.fresh]
        rfl
      · rw [Table.get?_insert_of_ne _ _ new]
        rfl
    rw [same]
    exact (told.files id node).skip fun name => rfl

theorem order (id : SessionId) (order : Order) : (testbed.serve (.order id order)).2.Told := by
  rcases serve_order_cases testbed id order with
    ⟨session, reply, next, held, -, carriedOut, served⟩ | ⟨cause, refused⟩
  · have carried := Session.carries_of_carryOut carriedOut
    rw [served]
    constructor
    · have known : (testbed.sessions.mapValues Session.account).get? id = some session.account := by
        rw [Table.get?_mapValues]
        exact congrArg (Option.map Session.account) held
      dsimp only
      rw [Ledger.ofCalls_concat, told.accounts, Ledger.enter_order known, Table.mapValues_insert,
        carried.account id]
    · intro other node
      have before := told.files other node
      rw [node?, session?]
      by_cases same : other = id
      · subst same
        rw [node?, held] at before
        rw [Table.get?_insert_self]
        exact carried.filesTold before
      · rw [Table.get?_insert_of_ne _ _ same]
        exact before.skip (Order.written?_call_of_ne (Ne.symm same))
  · rw [refused]
    exact told

end Told

theorem told_serveAll (files : Table FileName String) {requests : List Request}
    (few : requests.count .createSession < UInt32.size - 1) :
    ((fresh files).serveAll requests).Told := by
  induction requests using List.reverseRecOn with
  | nil => exact told_fresh files
  | append_singleton earlier request inductionHypothesis =>
      rw [List.count_append] at few
      have fewBefore : earlier.count .createSession < UInt32.size - 1 := by omega
      have told := inductionHypothesis fewBefore
      rw [serveAll_concat]
      cases request with
      | createSession => exact told.createSession (hasOpened_serveAll files fewBefore)
      | order id order => exact told.order id order

theorem serviceFiles_serveAll (testbed : Testbed) (requests : List Request) :
    (testbed.serveAll requests).serviceFiles = testbed.serviceFiles := by
  induction requests using List.reverseRecOn with
  | nil => rfl
  | append_singleton earlier request inductionHypothesis =>
      rw [serveAll_concat, ← inductionHypothesis]
      cases request with
      | createSession => rfl
      | order id order =>
          rcases serve_order_cases (testbed.serveAll earlier) id order with
            ⟨_, _, _, _, _, _, served⟩ | ⟨_, refused⟩
          · rw [served]
          · rw [refused]

/-- The nodes of the accounts are the nodes of the sessions. -/
theorem Told.node?_eq {testbed : Testbed} (told : testbed.Told) (id : SessionId) (node : NodeId) :
    ((Ledger.ofCalls testbed.calls).get? id).bind (·.nodes.get? node) =
      (testbed.node? id node).map (·.description) := by
  rw [told.accounts, Table.get?_mapValues, node?, session?]
  cases testbed.sessions.get? id with
  | none => rfl
  | some session => exact Table.get?_mapValues _ session.nodes node

/-- Whatever a testbed has been asked for, its log alone gives the accounts of its sessions, and
together with the files of new nodes it gives the sizes of all files. -/
theorem calls_tell_sessions (files : Table FileName String) (requests : List Request)
    (few : requests.count .createSession < UInt32.size - 1) :
    let testbed := (fresh files).serveAll requests
    Ledger.ofCalls testbed.calls = testbed.sessions.mapValues Session.account ∧
      ∀ id node name, testbed.fileSize? id node name =
        recordedSize? files testbed.calls id node name := by
  have told := told_serveAll files few
  refine ⟨told.accounts, fun id node name => ?_⟩
  have sizes := told.files id node
  rw [fileSize?, recordedSize?, told.node?_eq]
  rw [serviceFiles_serveAll] at sizes
  cases held : ((fresh files).serveAll requests).node? id node with
  | none => rfl
  | some found =>
      rw [held] at sizes
      exact sizes name

/-- A file that is written twice, a link that is named from its other end, options of which one is
set again, requests that are refused, and a second session with nodes of the same numbers. -/
theorem calls_tell_sessions_rewritten :
    let name : FileName := ⟨"dtnd", "dtnd.toml"⟩
    let files : Table FileName String := Table.ofList [(name, "äöü")]
    let low : Interface := ⟨0, .ofSequence 0, ⟨#v[10, 0, 0, 20]⟩, 24⟩
    let high : Interface := ⟨0, .ofSequence 1, ⟨#v[10, 0, 0, 21]⟩, 24⟩
    let requests : List Request := [.createSession, .order 1 (.addNode ⟨1, "a", "DTN", ⟨0, 0⟩⟩),
      .order 1 (.setFile 2 name "early"), .order 1 (.addNode ⟨2, "b", "DTN", ⟨10, 0⟩⟩),
      .order 1 (.addLink ⟨2, 1, high, low, Loss.down⟩), .createSession,
      .order 1 (.setOptions (Table.ofList [("controlnet", "172.16.0.0/24"), ("x", "1")])),
      .order 1 (.setOptions (Table.ofList [("x", "2")])),
      .order 1 (.adjustLink ⟨1, 2, 0, 0, Loss.up⟩),
      .order 1 (.setFile 1 name "ü"), .order 1 (.setFile 1 name "new"),
      .order 2 (.addNode ⟨1, "c", "DTN", ⟨0, 0⟩⟩), .order 1 .teardown,
      .order 1 (.setFile 1 name "late")]
    requests.count .createSession < UInt32.size - 1 ∧
      let testbed := (fresh files).serveAll requests
      Ledger.ofCalls testbed.calls = testbed.sessions.mapValues Session.account ∧
        ∀ id node name, testbed.fileSize? id node name =
          recordedSize? files testbed.calls id node name := by
  intro name files low high requests
  have few : requests.count .createSession < UInt32.size - 1 := by decide
  exact ⟨few, calls_tell_sessions files requests few⟩

end Testbed

end ContactReplay
