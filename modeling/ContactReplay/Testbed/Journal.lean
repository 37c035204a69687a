import ContactReplay.Json.Writer
import ContactReplay.Testbed.Basic

/-!
# Journals

A journal is the log of a testbed as a JSON array.  Every line of the log is an object that begins
with the method and the session.  How a loss is shown is left to the reader of the journal.
-/

namespace ContactReplay

/-- A 32-bit identifier in a journal. -/
def Json.ofWord32 (value : UInt32) : Json := .ofNat value.toNat

def Position.toJson (position : Position) : Json :=
  .ofFields [("x", .ofInt position.x.toInt), ("y", .ofInt position.y.toInt)]

def Interface.toJson (interface : Interface) : Json :=
  .ofFields [("id", .ofWord32 interface.id), ("mac", .ofString (toString interface.mac)),
    ("ip4", .ofString (toString interface.ip4)), ("ip4_mask", .ofNat interface.maskLength.toNat)]

def NodeDescription.toJson (node : NodeDescription) : Json :=
  .ofFields [("id", .ofWord32 node.id), ("name", .ofString node.name),
    ("model", .ofString node.model), ("position", node.position.toJson)]

def LinkDescription.toJson (ofLoss : Loss → Json) (link : LinkDescription) : Json :=
  .ofFields [("node_a", .ofWord32 link.first), ("node_b", .ofWord32 link.second),
    ("iface_a", link.firstInterface.toJson), ("iface_b", link.secondInterface.toJson),
    ("loss", ofLoss link.loss)]

def LinkAdjustment.toJson (ofLoss : Loss → Json) (adjustment : LinkAdjustment) : Json :=
  .ofFields [("node_a", .ofWord32 adjustment.first), ("node_b", .ofWord32 adjustment.second),
    ("iface_a", .ofWord32 adjustment.firstInterface),
    ("iface_b", .ofWord32 adjustment.secondInterface), ("loss", ofLoss adjustment.loss)]

def SessionMode.word : SessionMode → String
  | .configuration => "configuration"
  | .instantiation => "instantiation"

namespace Call

def session : Call → SessionId
  | .createSession session => session
  | .setMode session _ => session
  | .setOptions session _ => session
  | .addNode session _ => session
  | .addLink session _ => session
  | .adjustLink session _ => session
  | .getFile session _ _ => session
  | .setFile session _ _ _ => session
  | .teardown session => session

def method : Call → Method
  | .createSession _ => .createSession
  | .setMode .. => .setMode
  | .setOptions .. => .setOptions
  | .addNode .. => .addNode
  | .addLink .. => .addLink
  | .adjustLink .. => .adjustLink
  | .getFile .. => .getFile
  | .setFile .. => .setFile
  | .teardown _ => .teardown

/-- What a log line says beyond its method and its session. -/
def details (ofLoss : Loss → Json) : Call → List (String × Json)
  | .createSession _ | .teardown _ => []
  | .setMode _ mode => [("state", .ofString mode.word)]
  | .setOptions _ options =>
      [("options", .ofFields (options.entries.map fun (key, value) => (key, .ofString value)))]
  | .addNode _ node => [("node", node.toJson)]
  | .addLink _ link => [("link", link.toJson ofLoss)]
  | .adjustLink _ adjustment => [("edit", adjustment.toJson ofLoss)]
  | .getFile _ node name =>
      [("node", .ofWord32 node), ("service", .ofString name.service), ("file", .ofString name.file)]
  | .setFile _ node name bytes =>
      [("node", .ofWord32 node), ("service", .ofString name.service), ("file", .ofString name.file),
        ("bytes", .ofNat bytes)]

def toJson (ofLoss : Loss → Json) (call : Call) : Json :=
  .ofFields ([("call", .ofString call.method.name), ("session", .ofWord32 call.session)]
    ++ call.details ofLoss)

end Call

def Loss.toJson (loss : Loss) : Json := .number loss.text

def journal (ofLoss : Loss → Json) (calls : List Call) : Json :=
  .array (calls.map (Call.toJson ofLoss))

def journalText (calls : List Call) : String := (journal Loss.toJson calls).pretty

end ContactReplay
