import ContactReplay.Testbed.Request

/-!
# Testbed sessions

A session holds nodes with their configuration files and links between them.  `Session.carryOut`
takes one order: it gives a reply and the next session, or the cause of a refusal and no next
session, so a refused order changes nothing.  That a session is no longer used after it has been
torn down is up to the testbed.
-/

namespace ContactReplay

/-- A node of a session. -/
structure SessionNode where
  description : NodeDescription
  files : Table FileName String
  deriving DecidableEq, Repr

/-- A link of a session. -/
structure SessionLink where
  description : LinkDescription
  /-- The loss that the link has now. -/
  loss : Loss
  deriving DecidableEq, Repr

namespace SessionLink

def isUp (link : SessionLink) : Bool := link.loss.isUp

end SessionLink

/-- What a session of a testbed holds. -/
structure Session where
  mode : Option SessionMode := none
  options : SessionOptions := ∅
  nodes : Table NodeId SessionNode := ∅
  links : Table (Pair NodeId) SessionLink := ∅
  tornDown : Bool := false
  deriving DecidableEq, Repr

namespace Session

/-- Add a node, with a copy of the files that every node begins with. -/
def addNode (session : Session) (files : Table FileName String) (node : NodeDescription) :
    Except Refusal Session :=
  if session.nodes.contains node.id then .error (.nodeExists node.id)
  else .ok { session with nodes := session.nodes.insert node.id ⟨node, files⟩ }

/-- Add a link between two nodes that are there and not linked yet. -/
def addLink (session : Session) (link : LinkDescription) : Except Refusal Session :=
  if !session.nodes.contains link.first then .error (.unknownNode link.first)
  else if !session.nodes.contains link.second then .error (.unknownNode link.second)
  else if session.links.contains link.pair then .error (.linkExists link.pair)
  else .ok { session with links := session.links.insert link.pair ⟨link, link.loss⟩ }

/-- Change the loss of a link.  The interfaces have to be given in the order in which the link was
added, whichever node is named first. -/
def adjustLink (session : Session) (adjustment : LinkAdjustment) : Except Refusal Session :=
  match session.links.get? adjustment.pair with
  | none => .error (.unknownLink adjustment.pair)
  | some link =>
      if link.description.firstInterface.id ≠ adjustment.firstInterface ∨
          link.description.secondInterface.id ≠ adjustment.secondInterface then
        .error (.interfaceMismatch adjustment.pair)
      else
        let adjusted := { link with loss := adjustment.loss }
        .ok { session with links := session.links.insert adjustment.pair adjusted }

def getFile (session : Session) (node : NodeId) (name : FileName) :
    Except Refusal String :=
  match session.nodes.get? node with
  | none => .error (.unknownNode node)
  | some found =>
      match found.files.get? name with
      | some text => .ok text
      | none => .error (.noFile node name.service name.file)

def setFile (session : Session) (node : NodeId) (name : FileName) (text : String) :
    Except Refusal Session :=
  match session.nodes.get? node with
  | none => .error (.unknownNode node)
  | some found =>
      let written := { found with files := found.files.insert name text }
      .ok { session with nodes := session.nodes.insert node written }

/-- Carry an order out in a session that has not been torn down; `files` are the files that every
new node gets. -/
def carryOut (session : Session) (files : Table FileName String) :
    (order : Order) → Except Refusal (order.Reply × Session)
  | .setMode mode => .ok ((), { session with mode := some mode })
  | .setOptions options =>
      .ok ((), { session with options := session.options.insertAll options.entries })
  | .addNode node => (session.addNode files node).map ((), ·)
  | .addLink link => (session.addLink link).map ((), ·)
  | .adjustLink adjustment => (session.adjustLink adjustment).map ((), ·)
  | .getFile node name => (session.getFile node name).map (·, session)
  | .setFile node name text => (session.setFile node name text).map ((), ·)
  | .teardown => .ok ((), { session with tornDown := true })

end Session

end ContactReplay
