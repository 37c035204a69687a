import ContactReplay.Addressing.Address
import ContactReplay.Error
import ContactReplay.Grid
import ContactReplay.Loss
import ContactReplay.Table

/-!
# Testbed requests

A testbed runs nodes and links in sessions.  Whoever uses it sends requests and gets a reply to
each:

* `Request.createSession` makes a session, and every other request is an `Order` to one session;
* `Order.Reply` is the type of the reply to an order, so a reply always fits its request;
* `Call` is the line of a log that a served request leaves.
-/

namespace ContactReplay

/-- What a session is told to do. -/
inductive SessionMode where
  | configuration
  | instantiation
  deriving DecidableEq, Repr

abbrev SessionOptions := Table String String

/-- The name of a configuration file of a service. -/
structure FileName where
  service : String
  file : String
  deriving DecidableEq, Repr

namespace FileName

def parts (name : FileName) : String × String := (name.service, name.file)

instance : Ord FileName := ⟨@compareOn (String × String) FileName lexOrd parts⟩

instance : Std.TransOrd FileName :=
  inferInstanceAs (Std.TransCmp (@compareOn (String × String) FileName lexOrd parts))

instance : Std.LawfulEqOrd FileName where
  compare_self {name} := @Std.ReflCmp.compare_self (String × String) (lexOrd).compare _ name.parts
  eq_of_compare {left right} same := by
    have partsSame : left.parts = right.parts :=
      @Std.LawfulEqCmp.eq_of_compare (String × String) (lexOrd).compare _ _ _ same
    cases left
    cases right
    simpa [parts] using partsSame

end FileName

/-- A node to add. -/
structure NodeDescription where
  id : NodeId
  name : String
  model : String
  position : Position
  deriving DecidableEq, Repr

/-- A link to add. -/
structure LinkDescription where
  first : NodeId
  second : NodeId
  firstInterface : Interface
  secondInterface : Interface
  loss : Loss
  deriving DecidableEq, Repr

/-- A change of the loss of a link. -/
structure LinkAdjustment where
  first : NodeId
  second : NodeId
  firstInterface : InterfaceId
  secondInterface : InterfaceId
  loss : Loss
  deriving DecidableEq, Repr

namespace LinkDescription

def pair (link : LinkDescription) : Pair NodeId := .of link.first link.second

end LinkDescription

namespace LinkAdjustment

def pair (adjustment : LinkAdjustment) : Pair NodeId := .of adjustment.first adjustment.second

end LinkAdjustment

/-! ## Requests -/

/-- A request to one session. -/
inductive Order where
  | setMode (mode : SessionMode)
  | setOptions (options : SessionOptions)
  | addNode (node : NodeDescription)
  | addLink (link : LinkDescription)
  | adjustLink (adjustment : LinkAdjustment)
  | getFile (node : NodeId) (name : FileName)
  | setFile (node : NodeId) (name : FileName) (text : String)
  | teardown
  deriving DecidableEq, Repr

namespace Order

/-- What a session replies to an order that it carries out. -/
abbrev Reply : Order → Type
  | .getFile .. => String
  | _ => Unit

def method : Order → Method
  | .setMode _ => .setMode
  | .setOptions _ => .setOptions
  | .addNode _ => .addNode
  | .addLink _ => .addLink
  | .adjustLink _ => .adjustLink
  | .getFile .. => .getFile
  | .setFile .. => .setFile
  | .teardown => .teardown

end Order

/-- A request to a testbed. -/
inductive Request where
  | createSession
  | order (session : SessionId) (order : Order)
  deriving DecidableEq, Repr

namespace Request

abbrev Reply : Request → Type
  | .createSession => SessionId
  | .order _ asked => asked.Reply

def method : Request → Method
  | .createSession => .createSession
  | .order _ asked => asked.method

end Request

/-! ## The log -/

/-- A line of the log of served requests.  Of a written file it keeps the number of bytes only. -/
inductive Call where
  | createSession (session : SessionId)
  | setMode (session : SessionId) (mode : SessionMode)
  | setOptions (session : SessionId) (options : SessionOptions)
  | addNode (session : SessionId) (node : NodeDescription)
  | addLink (session : SessionId) (link : LinkDescription)
  | adjustLink (session : SessionId) (adjustment : LinkAdjustment)
  | getFile (session : SessionId) (node : NodeId) (name : FileName)
  | setFile (session : SessionId) (node : NodeId) (name : FileName) (bytes : Nat)
  | teardown (session : SessionId)
  deriving DecidableEq, Repr

namespace Order

def call (session : SessionId) : Order → Call
  | .setMode mode => .setMode session mode
  | .setOptions options => .setOptions session options
  | .addNode node => .addNode session node
  | .addLink link => .addLink session link
  | .adjustLink adjustment => .adjustLink session adjustment
  | .getFile node name => .getFile session node name
  | .setFile node name text => .setFile session node name text.utf8ByteSize
  | .teardown => .teardown session

end Order

end ContactReplay
